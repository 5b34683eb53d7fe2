import EdmQuery.Number.Nearest
import EdmQuery.Text.Letter

/-! The written forms of doubles: exponent form, the form of data documents, and their reading. -/

namespace EdmQuery.Number

open Text

/-- The decimal digits of a natural number. -/
def natText (n : Nat) : String :=
  toString n

/-- Digits with a point after the first one, if more follow. -/
def pointed (text : String) : String :=
  match text.toList with
  | first :: second :: rest => String.ofList (first :: '.' :: second :: rest)
  | chars => String.ofList chars

/-- The exponent that a decimal has once the point stands after its first digit. -/
def Scientific.leading (s : Scientific) : Int :=
  s.exponent + ((natText s.digits).length : Int) - 1

/-- The sign of a written number. -/
def sign (negative : Bool) : String :=
  if negative then "-" else ""

/-- A finite double with one digit before the point and an exponent. -/
def exponentForm (b : Binary) : String :=
  if b.mantissa == 0 then sign b.negative ++ "0e0"
  else
    let s := shortest .away b
    sign b.negative ++ pointed (natText s.digits) ++ "e" ++ toString s.leading

/-- A finite double the way data documents write it, with a point wherever there is no exponent. -/
def plainForm (b : Binary) : String :=
  if b.mantissa == 0 then sign b.negative ++ "0.0"
  else
    let s := shortest .even b
    let text := natText s.digits
    let leading := s.leading
    sign b.negative ++
      -- Numbers from a hundred-thousandth up to ten to the sixteenth are written positionally.
      if -5 ≤ leading && leading < 16 then
        if leading < 0 then
          "0." ++ String.ofList (List.replicate (-leading - 1).toNat '0') ++ text
        else
          let whole := leading.toNat + 1
          if text.length ≤ whole then
            text ++ String.ofList (List.replicate (whole - text.length) '0') ++ ".0"
          else
            let (before, after) := text.toList.splitAt whole
            String.ofList before ++ "." ++ String.ofList after
      else pointed text ++ "e" ++ (if leading < 0 then "-" else "+") ++ toString leading.natAbs

/-- The natural number that ASCII digits write. -/
def natOfDigits (chars : List Char) : Nat :=
  chars.foldl (fun n c => n * 10 + digitValue c) 0

/-- The double nearest to `mantissa * 10 ^ exponent`. -/
def ofDecimal (mantissa : Nat) (exponent : Int) : Float :=
  -- Beyond the range of doubles no power has to be formed: all is infinite, or all is zero.
  let magnitude := ((natText mantissa).length : Int) + exponent
  if mantissa == 0 then 0.0
  else if magnitude > 400 then 1.0 / 0.0
  else if magnitude < -400 then 0.0
  else
    let (ten, tenBelow) := ratio 10 exponent
    nearest (mantissa * ten) tenBelow

/-- A sign and what follows it. -/
def signed : List Char → Bool × List Char
  | '-' :: rest => (true, rest)
  | '+' :: rest => (false, rest)
  | chars => (false, chars)

/-- A signed integer that takes up all the characters. -/
def readInteger (chars : List Char) : Option Int :=
  let (negative, rest) := signed chars
  if rest.isEmpty || !rest.all isDigit then none
  else some (if negative then -(natOfDigits rest : Int) else natOfDigits rest)

/-- The double that a decimal number with optional point and exponent writes. -/
def readDecimal (chars : List Char) : Option Float :=
  let whole := chars.takeWhile isDigit
  let afterWhole := chars.dropWhile isDigit
  let (fraction, rest) := match afterWhole with
    | '.' :: tail => (tail.takeWhile isDigit, tail.dropWhile isDigit)
    | _ => ([], afterWhole)
  -- A point alone is no number, and an exponent needs digits of its own.
  if whole.isEmpty && fraction.isEmpty then none
  else
    let mantissa := natOfDigits (whole ++ fraction)
    match rest with
    | [] => some (ofDecimal mantissa (-(fraction.length : Int)))
    | mark :: tail =>
      if mark == 'e' || mark == 'E' then
        (readInteger tail).map fun exponent => ofDecimal mantissa (exponent - fraction.length)
      else none

/-- The double that a text writes, as a number or by one of the names of the special doubles. -/
def readDouble (text : String) : Option Float :=
  let (negative, rest) := signed text.toList
  let lowered := String.ofList (rest.map Char.toLower)
  let magnitude :=
    if lowered == "inf" || lowered == "infinity" then some (1.0 / 0.0)
    else if lowered == "nan" then some (0.0 / 0.0)
    else readDecimal rest
  magnitude.map fun x => if negative then -x else x

end EdmQuery.Number
