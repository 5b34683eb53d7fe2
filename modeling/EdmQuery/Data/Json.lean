import EdmQuery.Number.DoubleText

/-! Data documents: values with exact integers, doubles, and objects that keep their order. -/

namespace EdmQuery

open Number

/-- A number of a data document: an integer of 64 bits, signed or unsigned, or a double. -/
inductive Numeral where
  | integer (n : Int)
  | double (x : Float)
  deriving DecidableEq

/-- A value of a data document. -/
inductive Json where
  | null
  | bool (b : Bool)
  | number (n : Numeral)
  | text (s : String)
  | array (items : List Json)
  | object (fields : List (String × Json))
  deriving Inhabited

namespace Numeral

/-- Whether an integer is one of 64 signed bits. -/
def isSigned64 (n : Int) : Bool :=
  -(2 ^ 63) ≤ n && n < 2 ^ 63

/-- The number as a signed 64-bit integer. -/
def toInt64? : Numeral → Option Int64
  | .integer n => if isSigned64 n then some (Int64.ofInt n) else none
  | .double _ => none

/-- The number as a double. -/
def toFloat : Numeral → Float
  | .integer n => ofInteger n
  | .double x => x

/-- A number in compact form. -/
def toText : Numeral → String
  | .integer n => toString n
  | .double x =>
    match Reading.ofFloat x with
    | .finite b => plainForm b
    -- Documents hold finite numbers only, so this line is for completeness.
    | _ => "null"

end Numeral

namespace Json

/-- An integer value. -/
def ofInt (n : Int) : Json :=
  .number (.integer n)

/-- Whether a value is null. -/
def isNull : Json → Bool
  | .null => true
  | _ => false

/-- The characters that a text shows for a character, with an escape where one is due. -/
def escaped (c : Char) : List Char :=
  if c == '"' then ['\\', '"']
  else if c == '\\' then ['\\', '\\']
  else if c == '\n' then ['\\', 'n']
  else if c == '\r' then ['\\', 'r']
  else if c == '\t' then ['\\', 't']
  else if c.toNat == 8 then ['\\', 'b']
  else if c.toNat == 12 then ['\\', 'f']
  else if c.toNat < 32 then
    let digit (n : Nat) := Char.ofNat (if n < 10 then n + 48 else n + 87)
    ['\\', 'u', '0', '0', digit (c.toNat / 16), digit (c.toNat % 16)]
  else [c]

/-- A text between double quotes. -/
def quote (s : String) : String :=
  "\"" ++ String.ofList (s.toList.flatMap escaped) ++ "\""

mutual

/-- A value without blanks. -/
def compact : Json → String
  | .null => "null"
  | .bool b => if b then "true" else "false"
  | .number n => n.toText
  | .text s => quote s
  | .array items => "[" ++ compactItems items ++ "]"
  | .object fields => "\x7b" ++ compactFields fields ++ "\x7d"

/-- The values of an array with commas between them. -/
def compactItems : List Json → String
  | [] => ""
  | [item] => compact item
  | item :: rest => compact item ++ "," ++ compactItems rest

/-- The fields of an object with commas between them. -/
def compactFields : List (String × Json) → String
  | [] => ""
  | [(name, value)] => quote name ++ ":" ++ compact value
  | (name, value) :: rest => quote name ++ ":" ++ compact value ++ "," ++ compactFields rest

end

/-- A line end and the indent of a level. -/
def newLine (level : Nat) : String :=
  "\n" ++ String.ofList (List.replicate (2 * level) ' ')

mutual

/-- A value with a line for each of its parts. -/
def pretty (level : Nat) : Json → String
  | .array (item :: rest) =>
    "[" ++ newLine (level + 1) ++ pretty (level + 1) item ++ prettyItems (level + 1) rest ++
      newLine level ++ "]"
  | .object ((name, value) :: rest) =>
    "\x7b" ++ newLine (level + 1) ++ quote name ++ ": " ++ pretty (level + 1) value ++
      prettyFields (level + 1) rest ++ newLine level ++ "\x7d"
  | .null => "null"
  | .bool b => if b then "true" else "false"
  | .number n => n.toText
  | .text s => quote s
  | .array [] => "[]"
  | .object [] => "\x7b\x7d"

/-- The items of an array behind the first one, each on a line of its own. -/
def prettyItems (level : Nat) : List Json → String
  | [] => ""
  | item :: rest => "," ++ newLine level ++ pretty level item ++ prettyItems level rest

/-- The fields of an object behind the first one, each on a line of its own. -/
def prettyFields (level : Nat) : List (String × Json) → String
  | [] => ""
  | (name, value) :: rest =>
    "," ++ newLine level ++ quote name ++ ": " ++ pretty level value ++ prettyFields level rest

end

/-- The fields with one added, or with its value replaced where the name is there already. -/
def setField (name : String) (value : Json) : List (String × Json) → List (String × Json)
  | [] => [(name, value)]
  | (n, v) :: rest => if n == name then (n, value) :: rest else (n, v) :: setField name value rest

/-- The value of a field of an object. -/
def field? (name : String) : Json → Option Json
  | .object fields => fields.lookup name
  | _ => none

/-- The fields of an object. -/
def fields? : Json → Option (List (String × Json))
  | .object fields => some fields
  | _ => none

/-- The items of an array. -/
def items? : Json → Option (List Json)
  | .array items => some items
  | _ => none

/-- The characters of a text value. -/
def text? : Json → Option String
  | .text s => some s
  | _ => none

/-- A truth value. -/
def bool? : Json → Option Bool
  | .bool b => some b
  | _ => none

end Json

end EdmQuery
