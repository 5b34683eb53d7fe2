import EdmQuery.Edm.Body
import EdmQuery.Query.Pipeline
import EdmQuery.Sql.Plan
import EdmQuery.Store.Collection
import EdmQuery.Store.Database

/-! Requests to the entity sets of a model: counting, querying, reading and changing entities. -/

namespace EdmQuery

/-- A model together with the contents of its sets in memory and the databases of the others. -/
structure Service (m : Type → Type) where
  model : Model
  collections : List Collection
  databases : Databases m

namespace Service

variable {m : Type → Type} [Monad m]

/-- The contents of a set in memory. -/
def collection (v : Service m) (s : EntitySet) : Collection :=
  (v.collections.find? (·.name == s.name)).getD ⟨s.name, s.type, []⟩

/-- The contents of the sets in memory with those of one set replaced. -/
def replaced (v : Service m) (c : Collection) : List Collection :=
  v.collections.map fun d => if d.name == c.name then c else d

/-- The tables of the sets that are kept in the same database. -/
def resolver (v : Service m) (provider : Nat) : Resolver := fun name =>
  (v.model.set? name).bind fun s =>
    match s.backing with
    | .table table p => if p == provider then some ⟨table, s.type⟩ else none
    | .memory => none

/-- What statements for a set are written for. -/
def sqlContext (v : Service m) (s : EntitySet) (table : String) (provider : Nat) : SqlContext :=
  ⟨v.databases.dialect provider, ⟨table, s.type⟩, v.resolver provider⟩

/-- The entities of rows, all of them or the first fault. -/
def materialize (type : EntityType) (rows : List Record) : Except RequestError (List Entity) :=
  rows.mapM fun row => (Entity.ofRecord type row).mapError .model

/-- The entities of a set and the stages that they still have to pass. -/
def fetch (v : Service m) (s : EntitySet) (stages : Stages) :
    ExceptT RequestError m (Entities × Stages) :=
  match s.backing with
  | .memory => return ((v.collection s).entities, stages)
  | .table table provider => do
    let ctx := v.sqlContext s table provider
    let plan ← settled (planRows v.model.config ctx stages)
    let rows ← v.databases.withConnection provider
      (v.databases.rows provider (plan.statement ctx.dialect))
    let entities ← settled (materialize s.type rows)
    return (entities.map .ok, plan.remaining)

/-- A set has the capability that an operation needs. -/
def ensure (s : EntitySet) (c : Capability) : ExceptT RequestError m Unit :=
  if s.capabilities.contains c then return () else throw (.notAllowed c.name s.name)

/-- The stream of entities that a query of a set yields. -/
def stream (v : Service m) (patience : Patience) (lookup : Lookup m)
    (finish : Entity → ExceptT RequestError m Entity) (s : EntitySet) (stages : Stages) :
    ExceptT RequestError m Entities := do
  ensure s .query
  let (source, remaining) ← v.fetch s stages
  remaining.run patience lookup v.model.config.caseSensitive finish source

/-- The entities of a named set that a query yields, all of them or the first fault. -/
def collect (v : Service m) (lookup : Lookup m) (finish : Entity → ExceptT RequestError m Entity)
    (set : String) (stages : Stages) : ExceptT RequestError m (List Entity) :=
  match v.model.set? set with
  | none => throw (.unknownSet set)
  | some s => do
    let found ← v.stream .upToFault lookup finish s stages
    settled found.all

/-- The condition that entities of the target set are related to an entity, if any can be. -/
def relation (v : Service m) (target : String) (n : Navigation) (source : Entity) :
    Except RequestError (Option Expression) :=
  match n.constraint? with
  | none => .error (.model (.constraintCount source.type.name n.name n.constraints.length))
  | some c =>
    let local_ := source.get c.property
    if local_.isNull then .ok none
    else
      match v.model.set? target with
      | none => .error (.model (.unknownEntitySet target))
      | some s =>
        match s.type.property? c.referenced with
        | none => .error (.model (.unknownConstraintProperty n.name c.referenced))
        | some p => .ok (some (.binary .eq (.property .root p) (.literal local_)))

/-- A lookup for conditions that follow no navigation property. -/
def noLookup : Lookup m := fun _ _ _ => return []

/-- The entities of a set that are related to an entity. -/
def related (v : Service m) : Lookup m := fun target n source => do
  match ← settled (v.relation target n source) with
  | none => return []
  -- The condition compares a property with a value, so nothing has to be looked up for it.
  | some condition =>
    v.collect noLookup pure target { Stages.empty with filter := some condition }

/-- An entity with the named properties only, if there are names. -/
def project (select : Option (List String)) (e : Entity) : Entity :=
  match select with
  | some names => e.retain names
  | none => e

mutual

/-- An entity with the entities attached that an expansion asks for. -/
def expand (v : Service m) (e : Entity) : Expansion → ExceptT RequestError m Entity
  | .mk navigation target stages _ select nested => do
    let found ← match ← settled (v.relation target navigation e) with
      | none => pure []
      | some condition =>
        v.collect v.related (fun e => project select <$> expandAll v e nested) target
          (stages.andFilter condition)
    return e.attach navigation.name found

/-- An entity with the entities attached that several expansions ask for. -/
def expandAll (v : Service m) (e : Entity) : List Expansion → ExceptT RequestError m Entity
  | [] => return e
  | x :: rest => do
    let expanded ← expand v e x
    expandAll v expanded rest

end

/-- An entity as a response shows it. -/
def finish (v : Service m) (o : QueryOptions) (e : Entity) : ExceptT RequestError m Entity := do
  let expanded ← v.expandAll e o.expand
  return project o.select expanded

/-- The options that texts write for a named set, and the set. -/
def prepare (v : Service m) (set : String) (raw : RawOptions) :
    Except RequestError (EntitySet × QueryOptions) :=
  match v.model.set? set with
  | none => .error (.unknownSet set)
  | some s => (QueryOptions.parse v.model s raw).map fun o => (s, o)

/-- The entities of a set as a response shows them; faults keep their places among them. -/
def query (v : Service m) (s : EntitySet) (o : QueryOptions) : ExceptT RequestError m Entities :=
  v.stream .throughFaults v.related (v.finish o) s o.stages

/-- The count that a database sends. -/
def countAmong (rows : List Record) : Except RequestError Nat :=
  let count := rows.head?.bind fun row => row.lookup "count"
  match count with
  | some (.number (.integer n)) =>
    if 0 ≤ n then .ok n.toNat else .error (.store (.unexpectedResult "COUNT(*) returned no row"))
  | _ => .error (.store (.unexpectedResult "COUNT(*) returned no row"))

/-- The number of entities of a set that pass filter and search. -/
def count (v : Service m) (s : EntitySet) (o : QueryOptions) : ExceptT RequestError m Nat := do
  ensure s .count
  match s.backing with
  | .memory =>
    o.stages.count v.related v.model.config.caseSensitive (v.collection s).entities
  | .table table provider =>
    let ctx := v.sqlContext s table provider
    let (plan, isComplete) ← settled (planCount v.model.config ctx o.stages)
    if isComplete then
      let rows ← v.databases.withConnection provider
        (v.databases.rows provider (plan.countStatement ctx.dialect))
      settled (countAmong rows)
    else
      let rows ← v.databases.withConnection provider
        (v.databases.rows provider (plan.statement ctx.dialect))
      let entities ← settled (materialize s.type rows)
      plan.remaining.count v.related v.model.config.caseSensitive (entities.map .ok)

/-- The entity in a row under a key, over a connection that is open. -/
def rowUnder (v : Service m) (s : EntitySet) (table : String) (provider : Nat) (key : Assignment) :
    ExceptT RequestError m (Option Entity) := do
  let d := v.databases.dialect provider
  let rows ← v.databases.rows provider
    ⟨(Select.byKey ⟨table, s.type⟩ key.property).text d, [key.value]⟩
  let entities ← settled (materialize s.type rows)
  return entities.head?

/-- The key property of a set, with a value of its type. -/
def keyOf (s : EntitySet) (key : Value) : Except RequestError Assignment := do
  let value ← normalizeKey s.name s.type key
  match s.type.keyProperty? with
  | none => .error (.noKey s.name)
  | some property => return ⟨property, value⟩

/-- A row that has to be there. -/
def orNotFound (s : EntitySet) (key : Value) : Option Entity → ExceptT RequestError m Entity
  | some e => return e
  | none => throw (.noEntity key.toLiteral s.name)

/-- The entity under a key. -/
def read (v : Service m) (s : EntitySet) (o : QueryOptions) (key : Value) :
    ExceptT RequestError m Entity := do
  ensure s .read
  let e ← match s.backing with
    | .memory => settled ((v.collection s).read key)
    | .table table provider => do
      let key ← settled (keyOf s key)
      v.databases.withConnection provider do
        orNotFound s key.value (← v.rowUnder s table provider key)
  v.finish o e

/-- The body that an operation needs, in its normal form. -/
def checkBody (s : EntitySet) (body : Option Record) (mode : BodyMode) :
    Except RequestError Record :=
  match body with
  | none => .error .missingBody
  | some body => (validateBody s.type body mode).mapError .invalidBody

/-- The key that a new row has: the one that it brought, or the one that the database made. -/
def insertedKey (key : Property) (assignments : List Assignment) (outcome : Outcome) :
    Except RequestError Assignment :=
  match assignments.find? (·.property.name == key.name) with
  | some a => if a.value.isNull then generated else .ok ⟨key, a.value⟩
  | none => generated
where
  /-- The key that the database made. -/
  generated : Except RequestError Assignment :=
    match outcome.lastId with
    | some id => .ok ⟨key, .integer id⟩
    | none => .error (.store (.unexpectedResult "no generated key reported"))

/-- A new row, and the entity in it. -/
def createRow (v : Service m) (s : EntitySet) (table : String) (provider : Nat) (record : Record) :
    ExceptT RequestError m Entity := do
  match s.type.keyProperty? with
  | none => throw (.keylessSet s.name)
  | some key =>
    let assignments ← settled ((Assignment.ofRecord record s.type.properties).mapError .invalidBody)
    let insert := Assignment.insert (v.databases.dialect provider) table assignments
    v.databases.withConnection provider do
      let outcome ← v.databases.run provider .ofSql insert
      let id ← settled (insertedKey key assignments outcome)
      match ← v.rowUnder s table provider id with
      | some e => return e
      | none => throw (.store (.unexpectedResult s!"inserted row {id.value.toLiteral} not found"))

/-- Changes to the row under a key, and the entity in it afterwards. -/
def updateRow (v : Service m) (s : EntitySet) (table : String) (provider : Nat) (key : Value)
    (changes : Record) : ExceptT RequestError m Entity := do
  let key ← settled (keyOf s key)
  let assignments ← settled ((Assignment.ofRecord changes s.type.properties).mapError .invalidBody)
  let update := Assignment.update (v.databases.dialect provider) table assignments key
  v.databases.withConnection provider do
    -- Without changes there is nothing to send, but the row still has to be there.
    if !assignments.isEmpty then
      let outcome ← v.databases.run provider .ofSql update
      if outcome.affected == 0 then throw (.noEntity key.value.toLiteral s.name)
    orNotFound s key.value (← v.rowUnder s table provider key)

/-- The removal of the row under a key. -/
def deleteRow (v : Service m) (s : EntitySet) (table : String) (provider : Nat) (key : Value) :
    ExceptT RequestError m Unit := do
  let key ← settled (keyOf s key)
  let delete := Assignment.delete (v.databases.dialect provider) table key
  let outcome ← v.databases.withConnection provider (v.databases.run provider .deletion delete)
  if outcome.affected == 0 then throw (.noEntity key.value.toLiteral s.name)

/-- A new entity, and the contents of the sets in memory with it. -/
def create (v : Service m) (s : EntitySet) (body : Option Record) :
    ExceptT RequestError m (Entity × List Collection) := do
  ensure s .create
  let record ← settled (checkBody s body .create)
  match s.backing with
  | .memory =>
    let (e, c) ← settled ((v.collection s).create record)
    return (e, v.replaced c)
  | .table table provider =>
    let e ← v.createRow s table provider record
    return (e, v.collections)

/-- Changes to the entity under a key, and the contents of the sets in memory with them. -/
def update (v : Service m) (s : EntitySet) (key : Value) (body : Option Record) :
    ExceptT RequestError m (Entity × List Collection) := do
  ensure s .update
  let changes ← settled (checkBody s body .update)
  match s.backing with
  | .memory =>
    let (e, c) ← settled ((v.collection s).update key changes)
    return (e, v.replaced c)
  | .table table provider =>
    let e ← v.updateRow s table provider key changes
    return (e, v.collections)

/-- The contents of the sets in memory without the entity under a key. -/
def delete (v : Service m) (s : EntitySet) (key : Value) :
    ExceptT RequestError m (List Collection) := do
  ensure s .delete
  match s.backing with
  | .memory =>
    let c ← settled ((v.collection s).delete key)
    return v.replaced c
  | .table table provider =>
    v.deleteRow s table provider key
    return v.collections

/-- The key that a text writes for a set. -/
def parseKey (v : Service m) (s : EntitySet) (text : String) : Except RequestError Value :=
  match s.type.keyProperty? with
  | none => .error (.noKey s.name)
  | some property => do
    let literal ← (parseLiteral v.model text).mapError .expression
    (property.type.element.coerceValue property.name literal).mapError .invalidKey

end Service

end EdmQuery
