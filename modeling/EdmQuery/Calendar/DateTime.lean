import EdmQuery.Calendar.Date
import EdmQuery.Calendar.TimeOfDay

/-! Points in time, as a local date and time with the minutes that local clocks are ahead. -/

namespace EdmQuery.Calendar

/-- A point in time as it was written: a local reading and its distance from universal time. -/
structure DateTime where
  date : Date
  time : TimeOfDay
  offset : Int
  deriving DecidableEq

namespace DateTime

/-- The minutes since midnight of the local date that universal time shows. -/
def universalMinutes (t : DateTime) : Int :=
  (t.time.minuteOfDay : Int) - t.offset

/-- The date in universal time, none outside the calendar. -/
def universalDate? (t : DateTime) : Option Date :=
  -- An offset is shorter than a day, so universal time shows a neighbouring date at most.
  if t.universalMinutes < 0 then t.date.previous
  else if t.universalMinutes < 1440 then some t.date
  else t.date.next

/-- The date in universal time. -/
def universalDate (t : DateTime) : Date :=
  t.universalDate?.getD t.date

/-- The time in universal time. -/
def universalTime (t : DateTime) : TimeOfDay :=
  let minutes := (t.universalMinutes % 1440).toNat
  -- Whole minutes move the clock, so seconds and fractions stay as they are.
  (TimeOfDay.of? (minutes / 60) (minutes % 60) t.time.second t.time.nano).getD t.time

/-- A local reading with an offset of less than a day, if the instant is in the calendar. -/
def of? (date : Date) (time : TimeOfDay) (offset : Int) : Option DateTime :=
  let t : DateTime := ⟨date, time, offset⟩
  if offset.natAbs < 1440 && t.universalDate?.isSome then some t else none

/-- The order of instants, whatever offset they were written with. -/
def compare (a b : DateTime) : Ordering :=
  (a.universalDate.compare b.universalDate).then (a.universalTime.compare b.universalTime)

end DateTime

end EdmQuery.Calendar
