import EdmQuery.Number.Power

/-! Times of day down to nanoseconds, leap seconds included. -/

namespace EdmQuery.Calendar

/-- Whether the parts name a time; a nanosecond past the billion is one of a leap second. -/
def isTime (hour minute second nano : Nat) : Bool :=
  hour < 24 && minute < 60 && second < 60 &&
    (nano < 10 ^ 9 || (second == 59 && nano < 2 * 10 ^ 9))

/-- A time of day. -/
structure TimeOfDay where
  hour : Nat
  minute : Nat
  second : Nat
  nano : Nat
  exists_time : isTime hour minute second nano = true
  deriving DecidableEq

namespace TimeOfDay

/-- The time of the given parts, if there is one. -/
def of? (hour minute second nano : Nat) : Option TimeOfDay :=
  if found : isTime hour minute second nano = true then some ⟨hour, minute, second, nano, found⟩
  else none

/-- The order of times within a day. -/
def compare (a b : TimeOfDay) : Ordering :=
  (Ord.compare a.hour b.hour).then ((Ord.compare a.minute b.minute).then
    ((Ord.compare a.second b.second).then (Ord.compare a.nano b.nano)))

/-- The minutes since midnight. -/
def minuteOfDay (t : TimeOfDay) : Nat :=
  60 * t.hour + t.minute

end TimeOfDay

end EdmQuery.Calendar
