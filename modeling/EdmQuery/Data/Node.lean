import EdmQuery.Data.Json
import EdmQuery.Text.Span

/-! Configuration documents, where a word without quotes is read as what is asked for. -/

namespace EdmQuery

open Text Number

/-- A value of a configuration document; a plain scalar has no type of its own yet. -/
inductive Node where
  | null
  | bool (b : Bool)
  | number (n : Numeral)
  | text (s : String)
  | plain (s : String)
  | list (items : List Node)
  | map (fields : List (String × Node))

namespace Node

mutual

/-- The document of a data value, in which every scalar has its type. -/
def ofJson : Json → Node
  | .null => .null
  | .bool b => .bool b
  | .number n => .number n
  | .text s => .text s
  | .array items => .list (ofItems items)
  | .object fields => .map (ofFields fields)

/-- The documents of the items of an array. -/
def ofItems : List Json → List Node
  | [] => []
  | item :: rest => ofJson item :: ofItems rest

/-- The documents of the fields of an object. -/
def ofFields : List (String × Json) → List (String × Node)
  | [] => []
  | (name, value) :: rest => (name, ofJson value) :: ofFields rest

end

/-- Whether a plain scalar spells nothing. -/
def isNullWord (s : String) : Bool :=
  s == "" || s == "~" || s == "null" || s == "Null" || s == "NULL"

/-- The truth value that a plain scalar spells. -/
def boolWord? (s : String) : Option Bool :=
  if s == "true" || s == "True" || s == "TRUE" then some true
  else if s == "false" || s == "False" || s == "FALSE" then some false
  else none

/-- Whether digits start with a zero too many, so that they are a text rather than a number. -/
def isZeroPadded (chars : List Char) : Bool :=
  match (signed chars).2 with
  | '0' :: c :: rest => (c :: rest).all isDigit
  | _ => false

/-- The value of a character as a digit of a base. -/
def digitIn? (base : Nat) (c : Char) : Option Nat :=
  let n := c.toNat
  let value :=
    if isDigit c then n - 48
    else if 97 ≤ n && n ≤ 122 then n - 87
    else if 65 ≤ n && n ≤ 90 then n - 55
    else base
  if value < base then some value else none

/-- The number that digits of a base spell. -/
def natIn? (base : Nat) (chars : List Char) : Option Nat :=
  if chars.isEmpty then none
  else chars.foldlM (fun n c => (digitIn? base c).map (n * base + ·)) 0

/-- The number that digits spell, where a lead names a base other than ten. -/
def magnitude? : List Char → Option Nat
  | '0' :: 'x' :: rest => natIn? 16 rest
  | '0' :: 'o' :: rest => natIn? 8 rest
  | '0' :: 'b' :: rest => natIn? 2 rest
  | chars => natIn? 10 chars

/-- The integer of 64 bits that a plain scalar spells. -/
def integerWord? (s : String) : Option Int :=
  if isZeroPadded s.toList then none
  else
    let (negative, digits) := signed s.toList
    (magnitude? digits).bind fun n =>
      if negative then if n ≤ 2 ^ 63 then some (-(n : Int)) else none
      else if n < 2 ^ 64 then some n else none

/-- The double that a plain scalar spells. -/
def doubleWord? (s : String) : Option Float :=
  let (negative, rest) := signed s.toList
  let special := String.ofList rest
  if special == ".inf" || special == ".Inf" || special == ".INF" then
    some (if negative then -1.0 / 0.0 else 1.0 / 0.0)
  else if s == ".nan" || s == ".NaN" || s == ".NAN" then some (0.0 / 0.0)
  else if isZeroPadded s.toList then none
  else ((readDecimal rest).map fun x => if negative then -x else x).filter isFinite

/-- Whether a plain scalar spells an integer that only numbers of 128 bits would hold. -/
def isOversized (s : String) : Bool :=
  let (negative, digits) := signed s.toList
  !isZeroPadded s.toList && (integerWord? s).isNone &&
    (magnitude? digits).any fun n => if negative then n ≤ 2 ^ 127 else n < 2 ^ 128

/-- What a plain scalar stands for on its own, if data values can say it. -/
def resolve (s : String) : Option Json :=
  if isNullWord s then some .null
  else
    match boolWord? s, integerWord? s, doubleWord? s with
    | some b, _, _ => some (.bool b)
    | none, some n, _ => some (.ofInt n)
    -- Data values have no numbers that are infinite or undefined.
    | none, none, some x =>
      if isOversized s then none else some (if isFinite x then .number (.double x) else .null)
    | none, none, none => if isOversized s then none else some (.text s)

/-- The fields of a map; of those with one name the last one counts, in the place of the first. -/
def distinctFields (fields : List (String × Json)) : List (String × Json) :=
  fields.foldl (fun found (name, value) => Json.setField name value found) []

mutual

/-- The data value of a document. -/
def toJson? : Node → Option Json
  | .null => some .null
  | .bool b => some (.bool b)
  | .number n => some (.number n)
  | .text s => some (.text s)
  | .plain s => resolve s
  | .list items => (toItems? items).map .array
  | .map fields => (toFields? fields).map fun fields => .object (distinctFields fields)

/-- The data values of the items of a list. -/
def toItems? : List Node → Option (List Json)
  | [] => some []
  | item :: rest => do
    let value ← toJson? item
    let values ← toItems? rest
    return value :: values

/-- The data values of the fields of a map. -/
def toFields? : List (String × Node) → Option (List (String × Json))
  | [] => some []
  | (name, value) :: rest => do
    let value ← toJson? value
    let values ← toFields? rest
    return (name, value) :: values

end

/-- Whether a document holds nothing. -/
def isNull : Node → Bool
  | .null => true
  | .plain s => isNullWord s
  | _ => false

/-- A text; a plain scalar is one whatever it spells. -/
def text? : Node → Option String
  | .text s => some s
  | .plain s => some s
  | _ => none

/-- A truth value. -/
def bool? : Node → Option Bool
  | .bool b => some b
  | .plain s => boolWord? s
  | _ => none

/-- An integer. -/
def integer? : Node → Option Int
  | .number (.integer n) => some n
  | .plain s => integerWord? s
  | _ => none

/-- The items of a list; a plain scalar without text is an empty one. -/
def items? : Node → Option (List Node)
  | .list items => some items
  | .plain "" => some []
  | _ => none

/-- The fields of a map; a plain scalar without text is an empty one. -/
def fields? : Node → Option (List (String × Node))
  | .map fields => some fields
  | .plain "" => some []
  | _ => none

/-- What one function reads in every item of a list. -/
def listOf? {α : Type} (read : Node → Option α) (n : Node) : Option (List α) :=
  n.items?.bind fun items => items.mapM read

/-- What a function reads unless there is nothing. -/
def optional? {α : Type} (read : Node → Option α) (n : Node) : Option (Option α) :=
  if n.isNull then some none else (read n).map some

end Node

/-- The fields of a map; one that is asked for must not come twice. -/
abbrev NodeFields := List (String × Node)

namespace NodeFields

/-- A field that has to be there. -/
def required {α : Type} (fields : NodeFields) (name : String) (read : Node → Option α) :
    Option α :=
  match fields.filter (·.1 == name) with
  | [(_, value)] => read value
  | _ => none

/-- A field with a value of its own where it is missing. -/
def withDefault {α : Type} (fields : NodeFields) (name : String) (fallback : α)
    (read : Node → Option α) : Option α :=
  match fields.filter (·.1 == name) with
  | [] => some fallback
  | [(_, value)] => read value
  | _ => none

end NodeFields

end EdmQuery
