import EdmQuery.Calendar.DateTime
import EdmQuery.Number.DoubleText
import EdmQuery.Text.Span

/-! The written forms of dates and times, and the looser forms in which they are read. -/

namespace EdmQuery.Calendar

open EdmQuery.Text EdmQuery.Number

/-- A number padded with zeros to a width. -/
def padded (width n : Nat) : String :=
  let text := natText n
  String.ofList (List.replicate (width - text.length) '0') ++ text

/-- A year in four digits, signed outside the four-digit years. -/
def yearText (year : Int) : String :=
  if year < 0 then "-" ++ padded 4 year.natAbs
  else if year < 10000 then padded 4 year.toNat
  else "+" ++ padded 4 year.toNat

/-- A date as year, month and day. -/
def Date.toText (d : Date) : String :=
  yearText d.year ++ "-" ++ padded 2 d.month ++ "-" ++ padded 2 d.day

/-- A fraction of a second in as few groups of three digits as it needs. -/
def fractionText (nano : Nat) : String :=
  if nano == 0 then ""
  else if nano % 10 ^ 6 == 0 then "." ++ padded 3 (nano / 10 ^ 6)
  else if nano % 10 ^ 3 == 0 then "." ++ padded 6 (nano / 10 ^ 3)
  else "." ++ padded 9 nano

/-- A time of day with seconds, a leap second being the sixtieth. -/
def TimeOfDay.toText (t : TimeOfDay) : String :=
  padded 2 t.hour ++ ":" ++ padded 2 t.minute ++ ":" ++ padded 2 (t.second + t.nano / 10 ^ 9) ++
    fractionText (t.nano % 10 ^ 9)

/-- An offset in hours and minutes, universal time being a letter. -/
def offsetText (offset : Int) : String :=
  if offset == 0 then "Z"
  else
    (if offset < 0 then "-" else "+") ++ padded 2 (offset.natAbs / 60) ++ ":" ++
      padded 2 (offset.natAbs % 60)

/-- A point in time as date, time and offset. -/
def DateTime.toText (t : DateTime) : String :=
  t.date.toText ++ "T" ++ t.time.toText ++ offsetText t.offset

/-- A run of `least` to `most` digits at the front, with what follows it. -/
def takeNumber (least most : Nat) (chars : List Char) : Option (Nat × List Char) :=
  let found := (chars.take most).takeWhile isDigit
  if found.length < least then none else some (natOfDigits found, chars.drop found.length)

/-- What follows an expected character. -/
def takeMark (mark : Char) : List Char → Option (List Char)
  | c :: rest => if c == mark then some rest else none
  | [] => none

/-- A number of at most two digits after optional blanks. -/
def takeField (chars : List Char) : Option (Nat × List Char) :=
  takeNumber 1 2 (trimStart chars)

/-- A year after optional blanks: signed of any length, or of at most four digits. -/
def takeYear (chars : List Char) : Option (Int × List Char) :=
  let chars := trimStart chars
  match chars with
  | '-' :: rest => (takeNumber 1 rest.length rest).map fun (n, rest) => (-(n : Int), rest)
  | '+' :: rest => (takeNumber 1 rest.length rest).map fun (n, rest) => ((n : Int), rest)
  | _ => (takeNumber 1 4 chars).map fun (n, rest) => ((n : Int), rest)

/-- A date in its loose form, with what follows it. -/
def takeDate (chars : List Char) : Option (Date × List Char) := do
  let (year, rest) ← takeYear chars
  let (month, rest) ← takeField (← takeMark '-' rest)
  let (day, rest) ← takeField (← takeMark '-' rest)
  return (← Date.of? year month day, rest)

/-- A fraction of a second after its point, cut to nine digits. -/
def takeFraction (chars : List Char) : Option (Nat × List Char) :=
  match chars with
  | '.' :: rest =>
    let found := rest.takeWhile isDigit
    if found.isEmpty then none
    else some (natOfDigits ((found ++ List.replicate 9 '0').take 9), rest.drop found.length)
  | _ => some (0, chars)

/-- The time of the given parts, where a sixtieth second is a leap second. -/
def clock? (hour minute second nano : Nat) : Option TimeOfDay :=
  if second == 60 then TimeOfDay.of? hour minute 59 (nano + 10 ^ 9)
  else if nano < 10 ^ 9 then TimeOfDay.of? hour minute second nano
  else none

/-- A time with seconds in its loose form, with what follows it. -/
def takeClock (chars : List Char) : Option (TimeOfDay × List Char) := do
  let (hour, rest) ← takeField chars
  let (minute, rest) ← takeField (← takeMark ':' rest)
  let (second, rest) ← takeField (← takeMark ':' rest)
  let (nano, rest) ← takeFraction rest
  return (← clock? hour minute second nano, rest)

/-- A time without seconds in its loose form, with what follows it. -/
def takeHourMinute (chars : List Char) : Option (TimeOfDay × List Char) := do
  let (hour, rest) ← takeField chars
  let (minute, rest) ← takeField (← takeMark ':' rest)
  return (← clock? hour minute 0 0, rest)

/-- What was read, if nothing is left over. -/
def complete {α : Type} : Option (α × List Char) → Option α
  | some (value, []) => some value
  | _ => none

/-- An offset whose hours and minutes are parted by what `separator` takes away. -/
def takeOffset (separator : List Char → Option (List Char)) (chars : List Char) :
    Option (Int × List Char) := do
  let (negative, rest) ← match chars with
    | '+' :: rest => some (false, rest)
    | '-' :: rest => some (true, rest)
    -- The typographic minus sign counts as a sign too.
    | '\u2212' :: rest => some (true, rest)
    | _ => none
  let (hours, rest) ← takeNumber 2 2 rest
  let (minutes, rest) ← takeNumber 2 2 (← separator rest)
  let offset : Int := 60 * hours + minutes
  if minutes < 60 then some (if negative then -offset else offset, rest) else none

/-- What follows the mark between a date and a time. -/
def takeTimeMark : List Char → Option (List Char)
  | c :: rest => if c == 'T' || c == 't' || c == ' ' then some rest else none
  | [] => none

/-- An offset in the exchange format, where a letter stands for universal time. -/
def takeZone (chars : List Char) : Option (Int × List Char) :=
  match chars with
  | 'Z' :: rest => some (0, rest)
  | 'z' :: rest => some (0, rest)
  | _ => takeOffset (takeMark ':') chars

/-- A point in time in the exchange format, where every field has its full width. -/
def takeTimestamp (chars : List Char) : Option (DateTime × List Char) := do
  let (year, rest) ← takeNumber 4 4 chars
  let (month, rest) ← takeNumber 2 2 (← takeMark '-' rest)
  let (day, rest) ← takeNumber 2 2 (← takeMark '-' rest)
  let (hour, rest) ← takeNumber 2 2 (← takeTimeMark rest)
  let (minute, rest) ← takeNumber 2 2 (← takeMark ':' rest)
  let (second, rest) ← takeNumber 2 2 (← takeMark ':' rest)
  let (nano, rest) ← takeFraction rest
  let (offset, rest) ← takeZone rest
  let date ← Date.of? year month day
  return (← DateTime.of? date (← clock? hour minute second nano) offset, rest)

/-- A point in time without seconds, in a loose form. -/
def takeShortTimestamp (chars : List Char) : Option (DateTime × List Char) := do
  let (date, rest) ← takeDate chars
  let (time, rest) ← takeHourMinute (← takeMark 'T' rest)
  let separator (chars : List Char) := some (chars.dropWhile fun c => c == ':' || isBlank c)
  let (offset, rest) ← takeOffset separator (trimStart rest)
  return (← DateTime.of? date time offset, rest)

/-- The date that a text writes. -/
def parseDate (text : String) : Option Date :=
  complete (takeDate text.toList)

/-- The time of day that a text writes, with or without seconds. -/
def parseTimeOfDay (text : String) : Option TimeOfDay :=
  (complete (takeClock text.toList)).or (complete (takeHourMinute text.toList))

/-- A final letter for universal time spelled out as an offset. -/
def spellOffset (chars : List Char) : List Char :=
  match chars.reverse with
  | 'Z' :: front => front.reverse ++ "+00:00".toList
  | 'z' :: front => front.reverse ++ "+00:00".toList
  | _ => chars

/-- The point in time that a text writes, with or without seconds. -/
def parseDateTime (text : String) : Option DateTime :=
  let chars := spellOffset text.toList
  (complete (takeTimestamp chars)).or (complete (takeShortTimestamp chars))

/-- The point in universal time that a date and a clock reading parted by blanks write. -/
def parseUniversal (text : String) : Option DateTime :=
  complete do
    let (date, rest) ← takeDate text.toList
    let (time, rest) ← takeClock (trimStart rest)
    return (← DateTime.of? date time 0, rest)

end EdmQuery.Calendar
