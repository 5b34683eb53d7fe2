import EdmQuery.Edm.Model
import EdmQuery.Expr.Token

/-! Literals: the values that tokens write. -/

namespace EdmQuery

open Text Number Calendar

namespace Token

/-- A refusal of a token that is no good literal of its kind. -/
def invalid (t : Token) (input what : String) : ExpressionError :=
  .at_ input t.position s!"invalid {what} literal"

/-- What a reading gives as a value, or the refusal of the token. -/
def orInvalid (t : Token) (input what : String) (found : Option Scalar) :
    Except ExpressionError Value :=
  match found with
  | some s => .ok (.scalar s)
  | none => .error (t.invalid input what)

/-- The text before the first quote, and the members quoted after it. -/
def enumParts (text : String) : Option (String × String) :=
  (splitOnce '\'' text).map fun (name, members) =>
    let chars := members.toList
    let inner := if chars.getLast? == some '\'' then chars.dropLast else chars
    (name, String.ofList (undoubled inner))
where
  /-- The characters with every doubled quote read as one. -/
  undoubled : List Char → List Char
    | '\'' :: '\'' :: rest => '\'' :: undoubled rest
    | c :: rest => c :: undoubled rest
    | [] => []

/-- The double that a number token writes. -/
def double? (text : String) : Option Float :=
  if text == "INF" then some (1.0 / 0.0)
  else if text == "-INF" then some (-1.0 / 0.0)
  else if text == "NaN" then some (0.0 / 0.0)
  else readDouble text

/-- The integer that a token writes, as a decimal when 64 bits cannot hold it. -/
def integer? (text : String) : Option Scalar :=
  match readInt64 text with
  | some n => some (.integer n)
  | none => (Decimal.read text).map .decimal

/-- The value of an enumeration that a token writes. -/
def enumValue (t : Token) (m : Model) (input : String) : Except ExpressionError Value :=
  match enumParts t.text with
  | none => .error (t.invalid input "enumeration")
  | some (name, members) =>
    match m.enumeration? name with
    | none => .error (.unknownEnumeration name)
    | some e =>
      match e.parseMembers members with
      | .error _ => .error (.invalidEnumMember e.name members)
      | .ok value => .ok (.enum e value)

/-- The value that a token of a text writes. -/
def value (t : Token) (m : Model) (input : String) : Except ExpressionError Value :=
  match t.kind with
  | .string => .ok (.string t.text)
  | .integer => t.orInvalid input "integer" (integer? t.text)
  | .decimal => t.orInvalid input "decimal" ((Decimal.read t.text).map .decimal)
  | .double => t.orInvalid input "double" ((double? t.text).map .double)
  | .boolean => .ok (.boolean (t.text == "true"))
  | .null => .ok .null
  | .date => t.orInvalid input "date" ((parseDate t.text).map .date)
  | .dateTimeOffset =>
    t.orInvalid input "date-time offset" ((parseDateTime t.text).map .dateTime)
  | .timeOfDay => t.orInvalid input "time of day" ((parseTimeOfDay t.text).map .timeOfDay)
  | .duration => t.orInvalid input "duration" ((Duration.parse t.text).map .duration)
  | .guid => t.orInvalid input "guid" ((Guid.parse t.text).map .guid)
  | .enum => t.enumValue m input
  | _ => .error (.at_ input t.position s!"unexpected `{t.text}`")

end Token

/-- The value that a text with a single literal writes. -/
def parseLiteral (m : Model) (text : String) : Except ExpressionError Value :=
  match tokenize text with
  | .error e => .error e
  | .ok [token] => token.value m text
  | .ok [] => .error (.at_ text 0 "expected a literal")
  | .ok (_ :: extra :: _) => .error (.at_ text extra.position "expected a single literal")

end EdmQuery
