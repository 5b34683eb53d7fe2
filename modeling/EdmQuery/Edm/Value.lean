import EdmQuery.Calendar.Duration
import EdmQuery.Calendar.Text
import EdmQuery.Data.Guid
import EdmQuery.Data.Json
import EdmQuery.Edm.Enumeration
import EdmQuery.Number.DecimalText

/-! Typed values: their order, their equality, their literals and their data form. -/

namespace EdmQuery

open Number Calendar Text

/-- A single value of a primitive type. -/
inductive Scalar where
  | boolean (b : Bool)
  | integer (n : Int64)
  | decimal (d : Decimal)
  | double (x : Float)
  | string (s : String)
  | date (d : Date)
  | dateTime (t : DateTime)
  | timeOfDay (t : TimeOfDay)
  | duration (d : Duration)
  | guid (g : Guid)
  | enum (type : Enumeration) (value : Int64)
  deriving DecidableEq

/-- A typed value; the items of a collection may be missing. -/
inductive Value where
  | null
  | scalar (s : Scalar)
  | collection (items : List (Option Scalar))
  deriving DecidableEq

namespace Value

/-- A truth value. -/
@[match_pattern] abbrev boolean (b : Bool) : Value := .scalar (.boolean b)

/-- A signed 64-bit integer. -/
@[match_pattern] abbrev integer (n : Int64) : Value := .scalar (.integer n)

/-- A decimal. -/
@[match_pattern] abbrev decimal (d : Decimal) : Value := .scalar (.decimal d)

/-- A double. -/
@[match_pattern] abbrev double (x : Float) : Value := .scalar (.double x)

/-- A text. -/
@[match_pattern] abbrev string (s : String) : Value := .scalar (.string s)

/-- A value of an enumeration. -/
@[match_pattern] abbrev enum (type : Enumeration) (value : Int64) : Value :=
  .scalar (.enum type value)

/-- The value of an item that may be missing. -/
def ofItem : Option Scalar → Value
  | none => .null
  | some s => .scalar s

/-- Whether a value is null. -/
def isNull : Value → Bool
  | .null => true
  | _ => false

/-- The truth value that a value holds. -/
def truth? : Value → Option Bool
  | .boolean b => some b
  | _ => none

end Value

/-- The order of two doubles, none when one of them is no number. -/
def compareFloats (x y : Float) : Option Ordering :=
  if x < y then some .lt
  else if x == y then some .eq
  else if y < x then some .gt
  else none

namespace Scalar

/-- Whether a value is a number. -/
def isNumeric : Scalar → Bool
  | .integer _ => true
  | .decimal _ => true
  | .double _ => true
  | _ => false

/-- A number as a double. -/
def toFloat? : Scalar → Option Float
  | .integer n => some (ofInteger n.toInt)
  | .decimal d => some d.toFloat
  | .double x => some x
  | _ => none

/-- An exact number as a decimal. -/
def toDecimal? : Scalar → Option Decimal
  | .integer n => some (.ofInt64 n)
  | .decimal d => some d
  | _ => none

/-- The order of two values of comparable kinds, where a double makes both numbers doubles. -/
def compare : Scalar → Scalar → Option Ordering
  | .integer a, .integer b => some (Ord.compare a.toInt b.toInt)
  | .decimal a, .decimal b => some (a.compare b)
  | .integer a, .decimal b => some ((Decimal.ofInt64 a).compare b)
  | .decimal a, .integer b => some (a.compare (Decimal.ofInt64 b))
  | .boolean a, .boolean b => some (Ord.compare a b)
  | .string a, .string b => some (Ord.compare a b)
  | .date a, .date b => some (a.compare b)
  | .dateTime a, .dateTime b => some (a.compare b)
  | .timeOfDay a, .timeOfDay b => some (a.compare b)
  | .duration a, .duration b => some (a.compare b)
  | .guid a, .guid b => some (a.compare b)
  | .enum s a, .enum t b => if s.name == t.name then some (Ord.compare a.toInt b.toInt) else none
  | a, b =>
    match a.toFloat?, b.toFloat? with
    | some x, some y => compareFloats x y
    | _, _ => none

/-- Equality of values of one kind: numbers by what they stand for, times by the instant. -/
def same : Scalar → Scalar → Bool
  | .decimal a, .decimal b => a.compare b == .eq
  | .double a, .double b => a == b
  | .dateTime a, .dateTime b => a.compare b == .eq
  | a, b => a == b

/-- A double in exponent form, with names for the special ones. -/
def doubleText (x : Float) : String :=
  match Reading.ofFloat x with
  | .nan => "NaN"
  | .infinite negative => if negative then "-INF" else "INF"
  | .finite b => exponentForm b

/-- The literal of a value. -/
def toLiteral : Scalar → String
  | .boolean b => if b then "true" else "false"
  | .integer n => toString n.toInt
  -- A point tells a decimal from an integer.
  | .decimal d => if d.scale == 0 then d.toText ++ ".0" else d.toText
  | .double x => doubleText x
  | .string s => quoted '\'' s
  | .date d => d.toText
  | .dateTime t => t.toText
  | .timeOfDay t => t.toText
  | .duration d => "duration'" ++ d.toText ++ "'"
  | .guid g => g.toText
  | .enum type value => type.name ++ "'" ++ (type.format value).getD (toString value.toInt) ++ "'"

/-- A double as a document writes it, by name where documents have no number. -/
def doubleJson (x : Float) : Json :=
  if isFinite x then .number (.double x) else .text (doubleText x)

/-- The data form of a value. -/
def toJson : Scalar → Json
  | .boolean b => .bool b
  | .integer n => .ofInt n.toInt
  | .decimal d => doubleJson d.toFloat
  | .double x => doubleJson x
  | .string s => .text s
  | .date d => .text d.toText
  | .dateTime t => .text t.toText
  | .timeOfDay t => .text t.toText
  | .duration d => .text d.toText
  | .guid g => .text g.toText
  | .enum type value =>
    match type.format value with
    | some names => .text names
    -- The empty set of flags has no name and is stored as nothing.
    | none => if value == 0 then .null else .ofInt value.toInt

/-- The name of the kind of a value. -/
def kind : Scalar → String
  | .boolean _ => "Edm.Boolean"
  | .integer _ => "Edm.Int64"
  | .decimal _ => "Edm.Decimal"
  | .double _ => "Edm.Double"
  | .string _ => "Edm.String"
  | .date _ => "Edm.Date"
  | .dateTime _ => "Edm.DateTimeOffset"
  | .timeOfDay _ => "Edm.TimeOfDay"
  | .duration _ => "Edm.Duration"
  | .guid _ => "Edm.Guid"
  | .enum _ _ => "enumeration"

end Scalar

namespace Value

/-- The order of two values, none where a null or a collection is involved. -/
def compare : Value → Value → Option Ordering
  | .scalar a, .scalar b => a.compare b
  | _, _ => none

/-- Equality of items, where missing items are alike. -/
def sameItems : List (Option Scalar) → List (Option Scalar) → Bool
  | [], [] => true
  | none :: as, none :: bs => sameItems as bs
  | some a :: as, some b :: bs => a.same b && sameItems as bs
  | _, _ => false

/-- Equality of values, under which a NaN differs from itself. -/
def same : Value → Value → Bool
  | .null, .null => true
  | .scalar a, .scalar b => a.same b
  | .collection as, .collection bs => sameItems as bs
  | _, _ => false

/-- The literal of a value; a collection has one for display only. -/
def toLiteral : Value → String
  | .null => "null"
  | .scalar s => s.toLiteral
  | .collection items =>
    "[" ++ join "," (items.map fun item => (item.map Scalar.toLiteral).getD "null") ++ "]"

/-- The data form of a value. -/
def toJson : Value → Json
  | .null => .null
  | .scalar s => s.toJson
  | .collection items => .array (items.map fun item => (item.map Scalar.toJson).getD .null)

/-- The name of the kind of a value. -/
def kind : Value → String
  | .null => "null"
  | .scalar s => s.kind
  | .collection _ => "collection"

end Value

end EdmQuery
