/-! Dates of the proleptic Gregorian calendar, over half a million years around year zero. -/

namespace EdmQuery.Calendar

/-- Whether a year has a twenty-ninth of February. -/
def isLeap (year : Int) : Bool :=
  year % 4 == 0 && (year % 100 != 0 || year % 400 == 0)

/-- The number of days of a month, zero for a month that does not exist. -/
def daysIn (year : Int) (month : Nat) : Nat :=
  if month == 2 then (if isLeap year then 29 else 28)
  else if month == 4 || month == 6 || month == 9 || month == 11 then 30
  else if 1 ≤ month && month ≤ 12 then 31
  else 0

/-- The first year of the calendar. -/
def firstYear : Int := -262143

/-- The last year of the calendar. -/
def lastYear : Int := 262142

/-- Whether a year, a month and a day name a date. -/
def isDate (year : Int) (month day : Nat) : Bool :=
  firstYear ≤ year && year ≤ lastYear && 1 ≤ day && day ≤ daysIn year month

/-- A date of the calendar. -/
structure Date where
  year : Int
  month : Nat
  day : Nat
  exists_day : isDate year month day = true
  deriving DecidableEq

namespace Date

/-- The date of the given parts, if there is one. -/
def of? (year : Int) (month day : Nat) : Option Date :=
  if found : isDate year month day = true then some ⟨year, month, day, found⟩ else none

/-- The order of the calendar. -/
def compare (a b : Date) : Ordering :=
  (Ord.compare a.year b.year).then ((Ord.compare a.month b.month).then (Ord.compare a.day b.day))

/-- The day after a date, none after the last one. -/
def next (d : Date) : Option Date :=
  -- The first of the three that exists is the successor.
  (of? d.year d.month (d.day + 1)).or ((of? d.year (d.month + 1) 1).or (of? (d.year + 1) 1 1))

/-- The day before a date, none before the first one. -/
def previous (d : Date) : Option Date :=
  (of? d.year d.month (d.day - 1)).or
    ((of? d.year (d.month - 1) (daysIn d.year (d.month - 1))).or (of? (d.year - 1) 12 31))

end Date

end EdmQuery.Calendar
