import EdmQuery.Edm.Value

/-! The types of properties and the groups of types whose values compare with each other. -/

namespace EdmQuery

open Text

/-- The integer types; every one of them fits into 64 signed bits. -/
inductive IntegerType where
  | byte
  | sbyte
  | int16
  | int32
  | int64
  | uint16
  | uint32
  | uint64
  deriving DecidableEq

/-- The types of single values. -/
inductive PrimitiveType where
  | boolean
  | integer (width : IntegerType)
  | single
  | double
  | decimal
  | string
  | date
  | dateTime
  | timeOfDay
  | duration
  | guid
  | enum (type : Enumeration)
  deriving DecidableEq

/-- Groups of types whose values compare with each other. -/
inductive Family where
  | boolean
  | numeric
  | string
  | date
  | dateTime
  | timeOfDay
  | duration
  | guid
  | enum
  deriving DecidableEq

/-- The type of a declared property. -/
inductive PropertyType where
  | primitive (type : PrimitiveType)
  | collection (element : PrimitiveType)
  deriving DecidableEq

/-- The name of an integer type. -/
def IntegerType.name : IntegerType → String
  | .byte => "Byte"
  | .sbyte => "SByte"
  | .int16 => "Int16"
  | .int32 => "Int32"
  | .int64 => "Int64"
  | .uint16 => "UInt16"
  | .uint32 => "UInt32"
  | .uint64 => "UInt64"

/-- The least and the greatest value of an integer type. -/
def IntegerType.range : IntegerType → Int × Int
  | .byte => (0, 2 ^ 8 - 1)
  | .sbyte => (-2 ^ 7, 2 ^ 7 - 1)
  | .int16 => (-2 ^ 15, 2 ^ 15 - 1)
  | .int32 => (-2 ^ 31, 2 ^ 31 - 1)
  | .int64 => (-2 ^ 63, 2 ^ 63 - 1)
  | .uint16 => (0, 2 ^ 16 - 1)
  | .uint32 => (0, 2 ^ 32 - 1)
  -- Values have 64 signed bits, so the upper half of the unsigned ones does not exist.
  | .uint64 => (0, 2 ^ 63 - 1)

namespace PrimitiveType

/-- The built-in types. -/
def builtIn : List PrimitiveType :=
  [.boolean, .integer .byte, .integer .sbyte, .integer .int16, .integer .int32, .integer .int64,
    .integer .uint16, .integer .uint32, .integer .uint64, .single, .double, .decimal, .string,
    .date, .dateTime, .timeOfDay, .duration, .guid]

/-- The name of a type, in the namespace of the built-in types or as the enumeration has it. -/
def name : PrimitiveType → String
  | .boolean => "Edm.Boolean"
  | .integer width => "Edm." ++ width.name
  | .single => "Edm.Single"
  | .double => "Edm.Double"
  | .decimal => "Edm.Decimal"
  | .string => "Edm.String"
  | .date => "Edm.Date"
  | .dateTime => "Edm.DateTimeOffset"
  | .timeOfDay => "Edm.TimeOfDay"
  | .duration => "Edm.Duration"
  | .guid => "Edm.Guid"
  | .enum type => type.name

/-- The built-in type of a name, which may leave out the namespace. -/
def ofName? (text : String) : Option PrimitiveType :=
  let short := (stripLead "Edm.".toList text.toList).getD text.toList
  builtIn.find? fun type => type.name.toList == "Edm.".toList ++ short

/-- The type of a single value. -/
def ofScalar : Scalar → PrimitiveType
  | .boolean _ => .boolean
  | .integer _ => .integer .int64
  | .decimal _ => .decimal
  | .double _ => .double
  | .string _ => .string
  | .date _ => .date
  | .dateTime _ => .dateTime
  | .timeOfDay _ => .timeOfDay
  | .duration _ => .duration
  | .guid _ => .guid
  | .enum type _ => .enum type

/-- The group that a type belongs to. -/
def family : PrimitiveType → Family
  | .boolean => .boolean
  | .integer _ => .numeric
  | .single => .numeric
  | .double => .numeric
  | .decimal => .numeric
  | .string => .string
  | .date => .date
  | .dateTime => .dateTime
  | .timeOfDay => .timeOfDay
  | .duration => .duration
  | .guid => .guid
  | .enum _ => .enum

/-- Whether a type is one of numbers. -/
def isNumeric (type : PrimitiveType) : Bool :=
  type.family == .numeric

/-- Whether a type is one of integers. -/
def isIntegral : PrimitiveType → Bool
  | .integer _ => true
  | _ => false

/-- Whether a type is one of binary floating point. -/
def isFloating : PrimitiveType → Bool
  | .single => true
  | .double => true
  | _ => false

/-- Whether values of two types compare; enumerations do so under one name only. -/
def comparableWith : PrimitiveType → PrimitiveType → Bool
  | .enum s, .enum t => s.name == t.name
  | a, b => a.family == b.family

end PrimitiveType

namespace PropertyType

/-- The type of a value or of the items of a collection. -/
def element : PropertyType → PrimitiveType
  | .primitive type => type
  | .collection element => element

/-- Whether a type is one of collections. -/
def isCollection : PropertyType → Bool
  | .primitive _ => false
  | .collection _ => true

/-- The name of a type. -/
def name : PropertyType → String
  | .primitive type => type.name
  | .collection element => "Collection(" ++ element.name ++ ")"

/-- The type that a text names, with enumerations found by `lookup`. -/
def parse (lookup : String → Option Enumeration) (text : String) :
    Except ModelError PropertyType :=
  let chars := trimChars text.toList
  -- A collection needs both its opening and its closing parenthesis.
  let wrapped := (stripLead "Collection(".toList chars).bind fun rest =>
    if rest.getLast? == some ')' then some rest.dropLast else none
  let inner := String.ofList ((wrapped.map trimChars).getD chars)
  match (PrimitiveType.ofName? inner).or ((lookup inner).map .enum) with
  | none => .error (.unknownType inner)
  | some type => .ok (if wrapped.isSome then .collection type else .primitive type)

end PropertyType

end EdmQuery
