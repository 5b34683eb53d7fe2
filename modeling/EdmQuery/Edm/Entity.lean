import EdmQuery.Edm.Coercion
import EdmQuery.Edm.EntityType

/-! Entities: typed property values in declaration order, with related entities attached. -/

namespace EdmQuery

/-- An untyped record, as stores hold it and requests bring it. -/
abbrev Record := List (String × Json)

/-- The fields of a record with one set to a value, in its old place where it had one. -/
abbrev Record.set (record : Record) (name : String) (value : Json) : Record :=
  Json.setField name value record

/-- A typed entity. -/
inductive Entity where
  | mk (type : EntityType) (id : Option Value) (properties : List (String × Value))
    (expanded : List (String × List Entity))

namespace Entity

/-- The type of an entity. -/
def type : Entity → EntityType
  | mk type _ _ _ => type

/-- The key value of an entity. -/
def id : Entity → Option Value
  | mk _ id _ _ => id

/-- The property values of an entity, in order. -/
def properties : Entity → List (String × Value)
  | mk _ _ properties _ => properties

/-- The related entities attached to an entity, in order. -/
def expanded : Entity → List (String × List Entity)
  | mk _ _ _ expanded => expanded

/-- The value of a property. -/
def get? (e : Entity) (name : String) : Option Value :=
  e.properties.lookup name

/-- The value of a property, null where the entity has none. -/
def get (e : Entity) (name : String) : Value :=
  (e.get? name).getD .null

/-- The raw value of a property in a record, by its name or else by its column. -/
def rawValue (record : Record) (p : Property) : Json :=
  ((record.lookup p.name).or (record.lookup p.column)).getD .null

/-- The typed values of properties in a record, where the first refusal counts. -/
def readProperties (record : Record) : List Property → Except ModelError (List (String × Value))
  | [] => .ok []
  | p :: rest =>
    match p.type.coerce p.name (rawValue record p) with
    | .error e => .error e
    | .ok value => (readProperties record rest).map ((p.name, value) :: ·)

/-- The key value among property values, none when it is null or missing. -/
def keyAmong (type : EntityType) (properties : List (String × Value)) : Option Value :=
  (type.key.bind fun key => properties.lookup key).filter fun value => !value.isNull

/-- The entity that a record describes. -/
def ofRecord (type : EntityType) (record : Record) : Except ModelError Entity :=
  (readProperties record type.properties).map fun properties =>
    .mk type (keyAmong type properties) properties []

/-- The record of an entity. -/
def toRecord (e : Entity) : Record :=
  e.properties.foldl (fun record (name, value) => record.set name value.toJson) []

/-- Property values with one set, at the end where the name is new. -/
def setValue (name : String) (value : Value) : List (String × Value) → List (String × Value)
  | [] => [(name, value)]
  | (n, v) :: rest => if n == name then (n, value) :: rest else (n, v) :: setValue name value rest

/-- An entity with a property set. -/
def set (e : Entity) (name : String) (value : Value) : Entity :=
  .mk e.type e.id (setValue name value e.properties) e.expanded

/-- An entity with another key value. -/
def withId (e : Entity) (id : Value) : Entity :=
  .mk e.type (some id) e.properties e.expanded

/-- An entity with the named properties and the key only. -/
def retain (e : Entity) (names : List String) : Entity :=
  let kept (name : String) : Bool := names.contains name || e.type.key == some name
  .mk e.type e.id (e.properties.filter fun p => kept p.1) e.expanded

/-- An entity with related entities attached last, in place of those attached before. -/
def attach (e : Entity) (navigation : String) (related : List Entity) : Entity :=
  .mk e.type e.id e.properties
    (e.expanded.filter (fun attached => attached.1 != navigation) ++ [(navigation, related)])

/-- The entities attached under a navigation property. -/
def attached? (e : Entity) (navigation : String) : Option (List Entity) :=
  e.expanded.lookup navigation

/-- Whether a navigation property shows a list; an unknown one does. -/
def showsList (type : EntityType) (navigation : String) : Bool :=
  ((type.navigation? navigation).map (·.isCollection)).getD true

mutual

/-- The document of an entity: its properties, then what is attached to it. -/
def toJson : Entity → Json
  | mk type _ properties expanded =>
    .object (properties.map (fun (name, value) => (name, value.toJson)) ++
      attachedJson type expanded)

/-- The fields of attached entities, single-valued ones as the first entity or null. -/
def attachedJson (type : EntityType) : List (String × List Entity) → List (String × Json)
  | [] => []
  | (name, related) :: rest =>
    (name, if showsList type name then .array (listJson related) else firstJson related) ::
      attachedJson type rest

/-- The documents of several entities. -/
def listJson : List Entity → List Json
  | [] => []
  | e :: rest => e.toJson :: listJson rest

/-- The document of the first entity, null where there is none. -/
def firstJson : List Entity → Json
  | [] => .null
  | e :: _ => e.toJson

end

end Entity

end EdmQuery
