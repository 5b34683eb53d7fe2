import EdmQuery.Edm.Entity
import EdmQuery.Query.Error

/-! Entity sets in memory: normalized records in the order of their creation. -/

namespace EdmQuery

/-- A record in its normal form, with the key that it is found by. -/
structure StoredRecord where
  key : Option Value
  record : Record

/-- An entity set in memory. -/
structure Collection where
  name : String
  type : EntityType
  records : List StoredRecord

/-- The key of an entity type, coerced to the type of its key property. -/
def normalizeKey (set : String) (type : EntityType) (key : Value) : Except RequestError Value :=
  match type.keyProperty? with
  | none => .error (.noKey set)
  | some property => (property.type.element.coerceValue property.name key).mapError .invalidKey

namespace StoredRecord

/-- The stored form of an entity. -/
def ofEntity (e : Entity) : StoredRecord :=
  ⟨e.id, e.toRecord⟩

/-- Whether a record is stored under a key. -/
def hasKey (key : Value) (s : StoredRecord) : Bool :=
  s.key.any (·.same key)

end StoredRecord

namespace Collection

/-- The stored forms of records, where the first refusal counts. -/
def normalizeAll (type : EntityType) : List Record → Except ModelError (List StoredRecord)
  | [] => .ok []
  | record :: rest =>
    match Entity.ofRecord type record with
    | .error e => .error e
    | .ok entity => (normalizeAll type rest).map (.ofEntity entity :: ·)

/-- A set with given records. -/
def ofRecords (name : String) (type : EntityType) (records : List Record) :
    Except ModelError Collection :=
  (normalizeAll type records).map fun stored => ⟨name, type, stored⟩

/-- The entities of a set, each on its own either there or refused. -/
def entities (c : Collection) : List (Except RequestError Entity) :=
  c.records.map fun s => (Entity.ofRecord c.type s.record).mapError .model

/-- A key that the set does not hold. -/
def notFound (c : Collection) (key : Value) : RequestError :=
  .noEntity key.toLiteral c.name

/-- The entity under a key. -/
def read (c : Collection) (key : Value) : Except RequestError Entity := do
  let key ← normalizeKey c.name c.type key
  match c.records.find? (·.hasKey key) with
  | none => .error (c.notFound key)
  | some stored => (Entity.ofRecord c.type stored.record).mapError .model

/-- The greatest integer among stored keys. -/
def greatestKey (records : List StoredRecord) : Option Int :=
  records.foldl (fun greatest s =>
    match s.key with
    | some (.integer n) => some (max n.toInt (greatest.getD n.toInt))
    | _ => greatest) none

/-- A key for a record that brings none: the integer after the greatest one. -/
def freshKey (c : Collection) (property : Property) : Except RequestError Value :=
  if !property.type.element.isIntegral then .error (.missingKey property.name)
  else
    match greatestKey c.records with
    | none => .ok (.integer 0)
    | some greatest =>
      if greatest + 1 < 2 ^ 63 then .ok (.integer (Int64.ofInt (greatest + 1)))
      else .error (.exhaustedKeys greatest c.name property.name)

/-- The key of a new record. -/
def newKey (c : Collection) (property : Property) (record : Record) : Except RequestError Value :=
  match (record.lookup property.name).filter (!·.isNull) with
  | some raw => (property.type.coerce property.name raw).mapError .invalidBody
  | none => c.freshKey property

/-- The set with a new entity at its end, and the entity. -/
def create (c : Collection) (record : Record) : Except RequestError (Entity × Collection) :=
  match c.type.keyProperty? with
  | none => .error (.keylessSet c.name)
  | some property => do
    let key ← c.newKey property record
    if c.records.any (·.hasKey key) then .error (.duplicateKey key.toLiteral c.name)
    else
      let keyed := record.set property.name key.toJson
      let entity ← (Entity.ofRecord c.type keyed).mapError .invalidBody
      return (entity, { c with records := c.records ++ [⟨some key, entity.toRecord⟩] })

/-- A record with the fields of another set in it. -/
def merged (record changes : Record) : Record :=
  changes.foldl (fun found (name, value) => found.set name value) record

/-- Records with the first one under a key replaced. -/
def replace (key : Value) (record : Record) : List StoredRecord → List StoredRecord
  | [] => []
  | s :: rest => if s.hasKey key then ⟨s.key, record⟩ :: rest else s :: replace key record rest

/-- The set with some fields of an entity changed, and the entity. -/
def update (c : Collection) (key : Value) (changes : Record) :
    Except RequestError (Entity × Collection) := do
  let key ← normalizeKey c.name c.type key
  match c.records.find? (·.hasKey key) with
  | none => .error (c.notFound key)
  | some stored =>
    let entity ← (Entity.ofRecord c.type (merged stored.record changes)).mapError .invalidBody
    return (entity, { c with records := replace key entity.toRecord c.records })

/-- The set without the entity under a key. -/
def delete (c : Collection) (key : Value) : Except RequestError Collection := do
  let key ← normalizeKey c.name c.type key
  if c.records.any (·.hasKey key) then
    return { c with records := c.records.eraseP (·.hasKey key) }
  else .error (c.notFound key)

end Collection

end EdmQuery
