/-! Why a model, a stored record or a request body is refused. -/

namespace EdmQuery

/-- The faults of models and of the values given to them. -/
inductive ModelError where
  | duplicateEntitySet (name : String)
  | conflictingEntityType (name : String)
  | unknownEntityType (name : String)
  | unknownEntitySet (name : String)
  | unknownType (name : String)
  | keyNotDeclared (entityType key : String)
  | invalidSearchableProperty (entityType property : String)
  | constraintCount (entityType navigation : String) (count : Nat)
  | unknownConstraintProperty (navigation property : String)
  | unknownNavigation (entitySet navigation : String)
  | bindingTypeMismatch (entitySet navigation target expected : String)
  | duplicateBinding (entitySet navigation : String)
  | unknownProperty (name : String)
  | invalidValue (property expected value : String)
  | nullValue (property : String)
  | invalidEnumMember (enumeration member : String)
  | parse
  deriving DecidableEq

/-- The wording of a fault. -/
def ModelError.message : ModelError → String
  | .duplicateEntitySet name => s!"Duplicate entity set `{name}`"
  | .conflictingEntityType name => s!"Conflicting definitions for entity type `{name}`"
  | .unknownEntityType name => s!"Unknown entity type `{name}`"
  | .unknownEntitySet name => s!"Unknown entity set `{name}`"
  | .unknownType name => s!"Unknown type `{name}`"
  | .keyNotDeclared entityType key => s!"Key property `{key}` is not declared on `{entityType}`"
  | .invalidSearchableProperty entityType property =>
    s!"Property `{property}` of `{entityType}` cannot be searchable: only string properties are"
  | .constraintCount entityType navigation count =>
    s!"Navigation property `{navigation}` on `{entityType}` must declare exactly one " ++
      s!"referential constraint, found {count}"
  | .unknownConstraintProperty navigation property =>
    s!"Referential constraint of `{navigation}` references unknown property `{property}`"
  | .unknownNavigation entitySet navigation =>
    s!"Navigation property `{navigation}` is not declared on the type of entity set `{entitySet}`"
  | .bindingTypeMismatch entitySet navigation target expected =>
    s!"Navigation binding `{entitySet}/{navigation}` targets `{target}` whose type is not " ++
      s!"`{expected}`"
  | .duplicateBinding entitySet navigation =>
    s!"Duplicate navigation binding `{entitySet}/{navigation}`"
  | .unknownProperty name => s!"Unknown property `{name}`"
  | .invalidValue property expected value =>
    s!"Invalid value for `{property}` ({expected}): {value}"
  | .nullValue property => s!"Property `{property}` cannot be null"
  | .invalidEnumMember enumeration member =>
    s!"Invalid enumeration member `{member}` for `{enumeration}`"
  | .parse => "Failed to parse model document"

end EdmQuery
