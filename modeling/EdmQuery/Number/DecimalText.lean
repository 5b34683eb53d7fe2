import EdmQuery.Number.Decimal
import EdmQuery.Number.DoubleText

/-! The written form of decimals and the texts that are read as decimals. -/

namespace EdmQuery.Number.Decimal

open Text

/-- The magnitude with the point `scale` digits from its end. -/
def magnitudeText (magnitude scale : Nat) : String :=
  let text := natText magnitude
  -- At least one digit stands before the point.
  let padded := String.ofList (List.replicate (scale + 1 - text.length) '0') ++ text
  let whole := padded.length - scale
  if scale == 0 then padded
  else String.ofList (padded.toList.take whole) ++ "." ++ String.ofList (padded.toList.drop whole)

/-- A decimal with all its places. -/
def toText (d : Decimal) : String :=
  sign d.negative ++ magnitudeText d.magnitude d.scale

/-- What has been read of the digits of a decimal. -/
structure Progress where
  negative : Bool
  pointed : Bool
  started : Bool
  magnitude : Nat
  scale : Nat

/-- The decimal that the digits read so far stand for. -/
def Progress.finish (p : Progress) : Option Decimal :=
  if p.started then unsignedZero? p.negative p.magnitude p.scale else none

/-- Ends the reading where no digit fits any more: the next one only decides the rounding. -/
def Progress.roundedBy (p : Progress) (next : Char) : Option Decimal :=
  if !(isDigit next || next == '_' || (next == '.' && !p.pointed)) then none
  else if isDigit next && 5 ≤ digitValue next then
    let n := p.magnitude + 1
    -- A carry out of the range gives up one more place.
    if n < bound then { p with magnitude := n }.finish
    else if p.scale == 0 then none
    else { p with magnitude := (n + 4) / 10, scale := p.scale - 1 }.finish
  else p.finish

/-- Reads digits, one point and separators between digits. -/
def Progress.read (p : Progress) : List Char → Option Decimal
  | [] => p.finish
  | c :: rest =>
    if p.pointed && p.scale == maxScale then p.roundedBy c
    else if isDigit c then
      let n := p.magnitude * 10 + digitValue c
      if n < bound then
        Progress.read { p with
          started := true
          magnitude := n
          scale := if p.pointed then p.scale + 1 else 0 } rest
      -- Digits before the point cannot be dropped.
      else if p.pointed then p.roundedBy c
      else none
    else if c == '.' && !p.pointed then Progress.read { p with pointed := true } rest
    else if c == '_' && p.started then Progress.read p rest
    else none

/-- The decimal that a number without an exponent writes. -/
def readPlain (chars : List Char) : Option Decimal :=
  let (negative, rest) := signed chars
  Progress.read ⟨negative, false, false, 0, 0⟩ rest

/-- The same number without trailing zeros behind the point. -/
def normalized (d : Decimal) : Option Decimal :=
  let (n, s) := strip d.magnitude d.scale
  unsignedZero? d.negative n s

/-- A decimal times a power of ten with a positive exponent. -/
def raised (d : Decimal) (exponent : Nat) : Option Decimal :=
  if exponent ≤ d.scale then ofParts? d.negative d.magnitude (d.scale - exponent)
  else if exponent > maxScale then none
  -- The factor is multiplied in at most nine digits at a time.
  else go exponent d (exponent + 1)
where
  /-- Multiplies by the largest table power that the exponent still holds. -/
  go : Nat → Decimal → Nat → Option Decimal
    | 0, d, _ => d.normalized
    | exponent, d, 0 => if exponent == 0 then d.normalized else none
    | exponent, d, fuel + 1 =>
      let step := min exponent 9
      ((ofParts? false (10 ^ step) 0).bind d.mul?).bind fun product =>
        go (exponent - step) product fuel

/-- A decimal over a power of ten, rounded half away from zero where the places run out. -/
def lowered (d : Decimal) (exponent : Nat) : Option Decimal :=
  if exponent > maxScale then none
  else if d.scale + exponent ≤ maxScale then ofParts? d.negative d.magnitude (d.scale + exponent)
  else
    let unit := 10 ^ (d.scale + exponent - maxScale)
    ofParts? d.negative ((2 * d.magnitude + unit) / (2 * unit)) maxScale

/-- A natural number without a sign or with a plus. -/
def readExponent (chars : List Char) : Option Nat :=
  match chars with
  | '+' :: rest => if rest.isEmpty || !rest.all isDigit then none else some (natOfDigits rest)
  | _ => if chars.isEmpty || !chars.all isDigit then none else some (natOfDigits chars)

/-- The decimal that a base and an exponent write. -/
def readScientific (chars : List Char) : Option Decimal :=
  let isMark (c : Char) := c == 'e' || c == 'E'
  match chars.dropWhile fun c => !isMark c with
  | [] => none
  | _ :: exponent =>
    (readPlain (chars.takeWhile fun c => !isMark c)).bind fun base =>
      match exponent with
      | '-' :: rest => (readExponent rest).bind base.lowered
      | _ => (readExponent exponent).bind base.raised

/-- The decimal that a text writes, with the exponent form as second choice. -/
def read (text : String) : Option Decimal :=
  (readPlain text.toList).or (readScientific text.toList)

end EdmQuery.Number.Decimal
