import EdmQuery.Edm.Type

/-! The types that expressions have before they are evaluated. -/

namespace EdmQuery

/-- The type of an expression; the null literal fits every other type. -/
inductive StaticType where
  | null
  | primitive (type : PrimitiveType)
  | collection (element : PrimitiveType)
  deriving DecidableEq

namespace StaticType

/-- The type of truth values. -/
abbrev boolean : StaticType := .primitive .boolean

/-- The type of a declared property. -/
def ofProperty : PropertyType → StaticType
  | .primitive type => .primitive type
  | .collection element => .collection element

/-- Whether an expression may stand where a truth value is due. -/
def isBoolean : StaticType → Bool
  | .null => true
  | .primitive .boolean => true
  | _ => false

/-- The type of single values that an expression has. -/
def primitive? : StaticType → Option PrimitiveType
  | .primitive type => some type
  | _ => none

/-- The name of a type. -/
def name : StaticType → String
  | .null => "null"
  | .primitive type => type.name
  | .collection element => "Collection(" ++ element.name ++ ")"

/-- Whether values of two types compare. -/
def comparable : StaticType → StaticType → Bool
  | .collection _, _ => false
  | _, .collection _ => false
  | .null, _ => true
  | _, .null => true
  | .primitive a, .primitive b => a.comparableWith b

end StaticType

end EdmQuery
