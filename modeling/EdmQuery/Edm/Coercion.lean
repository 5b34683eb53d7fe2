import EdmQuery.Data.JsonReader
import EdmQuery.Edm.Type

/-! Turning raw data into values of a declared type. -/

namespace EdmQuery

open Number Calendar Text

/-- The refusal of a raw value. -/
def invalidValue (property expected : String) (raw : Json) : ModelError :=
  .invalidValue property expected raw.compact

/-- The integer that raw data stands for: a whole number, a text of digits or a truth value. -/
def rawInteger : Json → Option Int
  | .number n =>
    match n.toInt64? with
    | some i => some i.toInt
    | none =>
      -- Whole doubles count while they are well inside the range of 64 bits.
      (exactInteger? n.toFloat).bind fun i => if i.natAbs < 92 * 10 ^ 17 then some i else none
  | .text s => readInteger (trimChars s.toList)
  | .bool b => some (if b then 1 else 0)
  | _ => none

/-- The truth value that raw data stands for. -/
def rawBoolean : Json → Option Bool
  | .bool b => some b
  | .number (.integer n) => if n == 0 then some false else if n == 1 then some true else none
  | .text s =>
    if s == "true" || s == "1" then some true
    else if s == "false" || s == "0" then some false
    else none
  | _ => none

/-- The double that raw data stands for. -/
def rawDouble : Json → Option Float
  | .number n => some n.toFloat
  | .text s =>
    let s := trim s
    if s == "NaN" then some (0.0 / 0.0)
    else if s == "INF" then some (1.0 / 0.0)
    else if s == "-INF" then some (-1.0 / 0.0)
    else readDouble s
  | _ => none

/-- The decimal that raw data stands for. -/
def rawDecimal : Json → Option Decimal
  | .number n => Decimal.read n.toText
  | .text s => Decimal.read (trim s)
  | _ => none

/-- The span of a number of seconds, rounded to nanoseconds. -/
def durationOfSeconds (seconds : Float) : Option Duration :=
  let limit : Int := 2 ^ 63
  (toInteger? (Number.round (seconds * 1e9))).bind fun nanos =>
    if nanos.natAbs > limit.natAbs then none
    else Duration.of? (max (-limit) (min (limit - 1) nanos))

/-- The span that raw data stands for. -/
def rawDuration : Json → Option Duration
  | .text s => Duration.parse s
  | .number n => durationOfSeconds n.toFloat
  | _ => none

namespace PrimitiveType

/-- The value of a type that raw data other than null stands for. -/
def coerceScalar (type : PrimitiveType) (property : String) (raw : Json) :
    Except ModelError Scalar :=
  let orInvalid (found : Option Scalar) : Except ModelError Scalar :=
    match found with
    | some s => .ok s
    | none => .error (invalidValue property type.name raw)
  match type with
  | .integer width =>
    orInvalid <| (rawInteger raw).bind fun n =>
      if width.range.1 ≤ n && n ≤ width.range.2 then some (.integer (Int64.ofInt n)) else none
  | .boolean => orInvalid ((rawBoolean raw).map .boolean)
  | .single => orInvalid ((rawDouble raw).map .double)
  | .double => orInvalid ((rawDouble raw).map .double)
  | .decimal => orInvalid ((rawDecimal raw).map .decimal)
  | .string => orInvalid (raw.text?.map .string)
  | .date => orInvalid ((raw.text?.bind parseDate).map .date)
  | .dateTime =>
    orInvalid ((raw.text?.bind fun s => (parseDateTime s).or (parseUniversal s)).map .dateTime)
  | .timeOfDay => orInvalid ((raw.text?.bind parseTimeOfDay).map .timeOfDay)
  | .duration => orInvalid ((rawDuration raw).map .duration)
  | .guid => orInvalid ((raw.text?.bind Guid.parse).map .guid)
  | .enum e =>
    match raw with
    | .number n => orInvalid (n.toInt64?.map (.enum e))
    -- A member list that fails says which member is wrong.
    | .text s => (e.parseMembers s).map (.enum e)
    | _ => orInvalid none

/-- The value of a type that raw data stands for. -/
def coerce (type : PrimitiveType) (property : String) (raw : Json) : Except ModelError Value :=
  if raw.isNull then .ok .null else (type.coerceScalar property raw).map .scalar

/-- A value brought to a type, e.g. a literal to the type of a key. -/
def coerceValue (type : PrimitiveType) (property : String) (value : Value) :
    Except ModelError Value :=
  match type, value with
  | .enum s, .enum t _ => if s.name == t.name then .ok value else type.coerce property value.toJson
  | _, _ => type.coerce property value.toJson

/-- The items of a collection, where the first refusal counts. -/
def coerceItems (element : PrimitiveType) (property : String) :
    List Json → Except ModelError (List (Option Scalar))
  | [] => .ok []
  | raw :: rest =>
    if raw.isNull then (element.coerceItems property rest).map (none :: ·)
    else
      match element.coerceScalar property raw with
      | .error e => .error e
      | .ok s => (element.coerceItems property rest).map (some s :: ·)

end PrimitiveType

namespace PropertyType

/-- The value of a property that raw data stands for; collections may come as text of a document. -/
def coerce (type : PropertyType) (property : String) (raw : Json) : Except ModelError Value :=
  match type with
  | .primitive type => type.coerce property raw
  | .collection element =>
    let items? : Option (List Json) :=
      match raw with
      | .array items => some items
      | .text s => (Json.parse s).bind Json.items?
      | _ => none
    if raw.isNull then .ok .null
    else
      match items? with
      | some items => (element.coerceItems property items).map .collection
      | none => .error (invalidValue property type.name raw)

end PropertyType

end EdmQuery
