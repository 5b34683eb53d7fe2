import EdmQuery.Edm.Type

/-! Entity types: declared properties, navigation properties and the key. -/

namespace EdmQuery

/-- A declared property; its column is named by `source` where that differs from its name. -/
structure Property where
  name : String
  type : PropertyType
  nullable : Bool
  searchable : Bool
  source : Option String
  deriving DecidableEq

/-- The column or record field behind a property. -/
def Property.column (p : Property) : String :=
  p.source.getD p.name

/-- A property of one type that has to equal a property of another. -/
structure Constraint where
  property : String
  referenced : String
  deriving DecidableEq

/-- A way from an entity to related entities of the target type. -/
structure Navigation where
  name : String
  target : String
  isCollection : Bool
  constraints : List Constraint
  deriving DecidableEq

/-- The constraint of a navigation property that has exactly one. -/
def Navigation.constraint? (n : Navigation) : Option Constraint :=
  match n.constraints with
  | [only] => some only
  | _ => none

/-- An entity type. -/
structure EntityType where
  name : String
  key : Option String
  properties : List Property
  navigations : List Navigation
  deriving DecidableEq

namespace EntityType

/-- The first declared property of a name. -/
def property? (t : EntityType) (name : String) : Option Property :=
  t.properties.find? (·.name == name)

/-- The first navigation property of a name. -/
def navigation? (t : EntityType) (name : String) : Option Navigation :=
  t.navigations.find? (·.name == name)

/-- The declared property that is the key. -/
def keyProperty? (t : EntityType) : Option Property :=
  t.key.bind t.property?

/-- The properties that a search looks at. -/
def searchable (t : EntityType) : List Property :=
  t.properties.filter (·.searchable)

end EntityType

end EdmQuery
