import EdmQuery.Number.DoubleText

/-! Signed spans of time in nanoseconds, and their day-time notation. -/

namespace EdmQuery.Calendar

open Text Number

/-- The longest span in nanoseconds: the milliseconds of a signed 64-bit integer. -/
def Duration.limit : Nat := (2 ^ 63 - 1) * 10 ^ 6

/-- A span of time. -/
structure Duration where
  nanos : Int
  nanos_le : nanos.natAbs ≤ Duration.limit
  deriving DecidableEq

namespace Duration

/-- A span of so many nanoseconds, if it is not too long. -/
def of? (nanos : Int) : Option Duration :=
  if within : nanos.natAbs ≤ limit then some ⟨nanos, within⟩ else none

/-- The span in the other direction. -/
def neg (d : Duration) : Duration :=
  ⟨-d.nanos, by simpa using d.nanos_le⟩

/-- The order of spans by length, negative ones first. -/
def compare (a b : Duration) : Ordering :=
  Ord.compare a.nanos b.nanos

/-- A count with its unit, left out when it is zero. -/
def part (count : Nat) (unit : String) : String :=
  if count == 0 then "" else natText count ++ unit

/-- Nine digits of a fraction without the trailing zeros. -/
def fractionText (nanos : Nat) : String :=
  let text := natText nanos
  let padded := List.replicate (9 - text.length) '0' ++ text.toList
  String.ofList (padded.reverse.dropWhile (· == '0')).reverse

/-- The notation of a span, with the units that are not zero. -/
def toText (d : Duration) : String :=
  let total := d.nanos.natAbs / 10 ^ 9
  let nanos := d.nanos.natAbs % 10 ^ 9
  let days := part (total / 86400) "D"
  let clock := part (total % 86400 / 3600) "H" ++ part (total % 3600 / 60) "M" ++
    (if nanos == 0 then part (total % 60) "S"
      else natText (total % 60) ++ "." ++ fractionText nanos ++ "S")
  -- A span of no length is written as zero seconds.
  (if d.nanos < 0 then "-P" else "P") ++ days ++
    (if clock != "" then "T" ++ clock else if days == "" then "T0S" else "")

/-- A count in front of a unit, zero where the unit is missing. -/
def takePart (unit : Char) (chars : List Char) : List Char × List Char :=
  let count := chars.takeWhile isDecimalDigit
  match count, chars.dropWhile isDecimalDigit with
  | _ :: _, c :: rest => if c == unit then (count, rest) else ([], chars)
  | _, _ => ([], chars)

/-- The seconds at the end of a span with their fraction. -/
def takeSeconds (chars : List Char) : List Char × List Char × List Char :=
  let count := chars.takeWhile isDecimalDigit
  match count, chars.dropWhile isDecimalDigit with
  | _ :: _, '.' :: tail =>
    let fraction := tail.takeWhile isDecimalDigit
    match fraction, tail.dropWhile isDecimalDigit with
    | _ :: _, 'S' :: rest => (count, fraction, rest)
    | _, _ => ([], [], chars)
  | _ :: _, 'S' :: rest => (count, [], rest)
  | _, _ => ([], [], chars)

/-- The number of ASCII digits, none if another digit is among them. -/
def count? (chars : List Char) : Option Nat :=
  if chars.all isDigit then some (natOfDigits chars) else none

/-- The span of a number of days and of what the clock part says. -/
def assemble (negative : Bool) (days hours minutes seconds fraction : List Char) :
    Option Duration := do
  let days ← count? days
  let hours ← count? hours
  let minutes ← count? minutes
  let seconds ← count? seconds
  -- A fraction counts for nine digits, and the rest of it is not looked at.
  let nanos ← count? ((fraction ++ List.replicate 9 '0').take 9)
  let total : Nat := 86400 * days + 3600 * hours + 60 * minutes + seconds
  let length : Nat := total * 10 ^ 9 + nanos
  of? (if negative then -(length : Int) else length)

/-- The span that a text in day-time notation writes. -/
def parse (text : String) : Option Duration :=
  let (negative, chars) := match text.toList with
    | '-' :: rest => (true, rest)
    | chars => (false, chars)
  match chars with
  | 'P' :: rest =>
    let (days, afterDays) := takePart 'D' rest
    match afterDays with
    | [] => if rest.isEmpty then none else assemble negative days [] [] [] []
    | 'T' :: clock =>
      let (hours, afterHours) := takePart 'H' clock
      let (minutes, afterMinutes) := takePart 'M' afterHours
      let (seconds, fraction, remaining) := takeSeconds afterMinutes
      -- The mark of the clock part promises at least one unit.
      if clock.isEmpty || !remaining.isEmpty then none
      else assemble negative days hours minutes seconds fraction
    | _ => none
  | _ => none

/-- The whole seconds, cut toward zero. -/
def seconds (d : Duration) : Int :=
  d.nanos.tdiv (10 ^ 9)

/-- The nanoseconds past the whole seconds, with the sign of the span. -/
def subsecondNanos (d : Duration) : Int :=
  d.nanos.tmod (10 ^ 9)

end Duration

end EdmQuery.Calendar
