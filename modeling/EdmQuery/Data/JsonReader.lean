import EdmQuery.Data.Json
import EdmQuery.Text.Span

/-! Reading data documents from text, with numbers scaled in double arithmetic. -/

namespace EdmQuery.Json

open EdmQuery.Text EdmQuery.Number

/-- How many arrays and objects may stand inside each other. -/
def maxNesting : Nat := 127

/-- The characters after leading blanks. -/
def skipBlanks (chars : List Char) : List Char :=
  chars.dropWhile fun c => c == ' ' || c == '\n' || c == '\r' || c == '\t'

/-- The number that four hexadecimal digits write. -/
def takeUnit : List Char → Option (Nat × List Char)
  | a :: b :: c :: d :: rest =>
    if [a, b, c, d].all isHexDigit then
      some (((digitValue a * 16 + digitValue b) * 16 + digitValue c) * 16 + digitValue d, rest)
    else none
  | _ => none

/-- The character that a unit escape stands for, where a surrogate needs its partner. -/
def takeEscapedChar (chars : List Char) : Option (Char × List Char) := do
  let (unit, rest) ← takeUnit chars
  if unit < 0xd800 || 0xdfff < unit then some (Char.ofNat unit, rest)
  else if 0xdc00 ≤ unit then none
  else
    match rest with
    | '\\' :: 'u' :: rest =>
      let (low, rest) ← takeUnit rest
      if 0xdc00 ≤ low && low ≤ 0xdfff then
        some (Char.ofNat (0x10000 + (unit - 0xd800) * 1024 + (low - 0xdc00)), rest)
      else none
    | _ => none

/-- The character after a backslash. -/
def takeEscape : List Char → Option (Char × List Char)
  | 'u' :: rest => takeEscapedChar rest
  | c :: rest =>
    if c == '"' || c == '\\' || c == '/' then some (c, rest)
    else if c == 'n' then some ('\n', rest)
    else if c == 't' then some ('\t', rest)
    else if c == 'r' then some ('\r', rest)
    else if c == 'b' then some (Char.ofNat 8, rest)
    else if c == 'f' then some (Char.ofNat 12, rest)
    else none
  | [] => none

/-- The rest of a text after its opening quote, gathered in reverse. -/
def takeText : Nat → List Char → List Char → Option (String × List Char)
  | 0, _, _ => none
  | fuel + 1, found, chars =>
    match chars with
    | [] => none
    | '"' :: rest => some (String.ofList found.reverse, rest)
    | '\\' :: rest => (takeEscape rest).bind fun (c, rest) => takeText fuel (c :: found) rest
    | c :: rest => if c.toNat < 32 then none else takeText fuel (c :: found) rest

/-- A significand of 64 bits; from the digit that does not fit on, the digits are only counted. -/
def significand (digits : List Char) (start : Nat) : Nat × Nat :=
  match digits with
  | [] => (start, 0)
  | c :: rest =>
    let n := start * 10 + digitValue c
    if n < 2 ^ 64 then significand rest n else (start, digits.length)

/-- A significand times a power of ten, in steps that are themselves doubles. -/
def scaled : Nat → Float → Int → Option Float
  | 0, x, _ => some x
  | fuel + 1, x, exponent =>
    if exponent.natAbs ≤ 308 then
      let power := Float.ofScientific 1 false exponent.natAbs
      if 0 ≤ exponent then (if isFinite (x * power) then some (x * power) else none)
      else some (x / power)
    else if x == 0.0 then some x
    else if 0 ≤ exponent then none
    else scaled fuel (x / 1e308) (exponent + 308)

/-- The double of a number that has a point or an exponent or is too large for an integer. -/
def doubleOf (negative : Bool) (whole fraction : List Char) (exponent : Int) : Option Json :=
  let (first, dropped) := significand whole 0
  let (mantissa, ignored) := significand fraction first
  let places : Int := dropped - ((fraction.length - ignored : Nat) : Int)
  (scaled (exponent.natAbs / 308 + 4) (ofMagnitude false mantissa) (exponent + places)).map fun x =>
    .number (.double (if negative then -x else x))

/-- The exponent of a number, zero when it has none. -/
def takeExponent (chars : List Char) : Option (Option Int × List Char) :=
  match chars with
  | mark :: tail =>
    if mark == 'e' || mark == 'E' then
      let (negative, tail) := signed tail
      let found := tail.takeWhile isDigit
      let n : Int := natOfDigits found
      if found.isEmpty then none
      else some (some (if negative then -n else n), tail.dropWhile isDigit)
    else some (none, chars)
  | [] => some (none, chars)

/-- A number, with no leading zeros before other digits. -/
def takeNumeral (chars : List Char) : Option (Json × List Char) := do
  let (negative, rest) := match chars with
    | '-' :: rest => (true, rest)
    | _ => (false, chars)
  let whole := rest.takeWhile isDigit
  let rest := rest.dropWhile isDigit
  if whole.isEmpty || (whole.head? == some '0' && 1 < whole.length) then none
  else
    let (fraction, rest) ← match rest with
      | '.' :: tail =>
        let found := tail.takeWhile isDigit
        if found.isEmpty then none else some (found, tail.dropWhile isDigit)
      | _ => some ([], rest)
    let (exponent, rest) ← takeExponent rest
    let n := natOfDigits whole
    let value ←
      if fraction.isEmpty && exponent.isNone then
        -- A negative zero has no integer form, and neither has what 64 bits cannot hold.
        if negative && 0 < n && n ≤ 2 ^ 63 then some (Json.ofInt (-(n : Int)))
        else if !negative && n < 2 ^ 64 then some (Json.ofInt n)
        else doubleOf negative whole [] 0
      else doubleOf negative whole fraction (exponent.getD 0)
    return (value, rest)

mutual

/-- A value, with what follows it; every call consumes a character or a unit of nesting. -/
def takeValue : Nat → Nat → List Char → Option (Json × List Char)
  | 0, _, _ => none
  | fuel + 1, nesting, chars =>
    let chars := skipBlanks chars
    match chars with
    | '"' :: rest => (takeText (rest.length + 1) [] rest).map fun (s, rest) => (.text s, rest)
    | '[' :: rest =>
      if nesting == 0 then none
      else match skipBlanks rest with
        | ']' :: rest => some (.array [], rest)
        | rest => (takeItems fuel (nesting - 1) rest).map fun (items, rest) => (.array items, rest)
    | '\x7b' :: rest =>
      if nesting == 0 then none
      else match skipBlanks rest with
        | '\x7d' :: rest => some (.object [], rest)
        | rest => (takeFields fuel (nesting - 1) [] rest).map fun (fields, rest) =>
            (.object fields, rest)
    | _ =>
      match stripLead "null".toList chars with
      | some rest => some (.null, rest)
      | none =>
        match stripLead "true".toList chars with
        | some rest => some (.bool true, rest)
        | none =>
          match stripLead "false".toList chars with
          | some rest => some (.bool false, rest)
          | none => takeNumeral chars

/-- The items of an array up to its closing bracket. -/
def takeItems : Nat → Nat → List Char → Option (List Json × List Char)
  | 0, _, _ => none
  | fuel + 1, nesting, chars =>
    (takeValue fuel nesting chars).bind fun (item, rest) =>
      match skipBlanks rest with
      | ',' :: rest => (takeItems fuel nesting rest).map fun (items, rest) => (item :: items, rest)
      | ']' :: rest => some ([item], rest)
      | _ => none

/-- The fields of an object up to its closing brace, where a repeated name keeps its first place. -/
def takeFields : Nat → Nat → List (String × Json) → List Char →
    Option (List (String × Json) × List Char)
  | 0, _, _, _ => none
  | fuel + 1, nesting, found, chars =>
    match skipBlanks chars with
    | '"' :: rest =>
      (takeText (rest.length + 1) [] rest).bind fun (name, rest) =>
        match skipBlanks rest with
        | ':' :: rest =>
          (takeValue fuel nesting rest).bind fun (value, rest) =>
            let found := setField name value found
            match skipBlanks rest with
            | ',' :: rest => takeFields fuel nesting found rest
            | '\x7d' :: rest => some (found, rest)
            | _ => none
        | _ => none
    | _ => none

end

/-- The document that a text holds. -/
def parse (text : String) : Option Json :=
  let chars := text.toList
  match takeValue (chars.length + 1) maxNesting chars with
  | some (value, rest) => if (skipBlanks rest).isEmpty then some value else none
  | none => none

end EdmQuery.Json
