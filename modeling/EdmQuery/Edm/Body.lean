import EdmQuery.Edm.Entity

/-! Request bodies: which properties they may and must name, and their normal form. -/

namespace EdmQuery

/-- What a request body is for. -/
inductive BodyMode where
  | create
  | update
  deriving DecidableEq

/-- The properties that a body has to name: those that cannot be null, the key apart. -/
def requiredProperties (type : EntityType) : List Property :=
  type.properties.filter fun p => !p.nullable && type.key != some p.name

/-- The normalized fields of a body added to a record, where the first refusal counts. -/
def normalizeFields (type : EntityType) (mode : BodyMode) :
    Record → Record → Except ModelError Record
  | [], normalized => .ok normalized
  | (name, raw) :: rest, normalized =>
    match type.property? name with
    | none => .error (.unknownProperty name)
    | some property =>
      -- An update never moves an entity to another key.
      if mode == .update && type.key == some name then normalizeFields type mode rest normalized
      else
        match property.type.coerce name raw with
        | .error e => .error e
        | .ok value =>
          if value.isNull && !property.nullable then .error (.nullValue name)
          else normalizeFields type mode rest (normalized.set name value.toJson)

/-- The normal form of a body, if it fits the entity type. -/
def validateBody (type : EntityType) (body : Record) (mode : BodyMode) :
    Except ModelError Record :=
  match normalizeFields type mode body [] with
  | .error e => .error e
  | .ok normalized =>
    let missing := (requiredProperties type).find? fun p => (normalized.lookup p.name).isNone
    match mode, missing with
    | .create, some property => .error (.nullValue property.name)
    | _, _ => .ok normalized

end EdmQuery
