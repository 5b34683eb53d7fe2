import Mathlib
import EdmQuery.Proofs.Store.Keys
import EdmQuery.Query.Service

/-! Sequences of requests to a set in memory: what each one does to the records, and what lasts. -/

namespace EdmQuery

/-- What a request asks of an entity set. -/
inductive Operation where
  | create (body : Option Record)
  | read (options : QueryOptions) (key : Value)
  | update (key : Value) (body : Option Record)
  | delete (key : Value)

/-- A request to an entity set, and the databases as they are while it is served. -/
structure Request where
  operation : Operation
  databases : Databases Id

/-- The entity that a request answers with, if it does, or its fault. -/
abbrev Answer := Except RequestError (Option Entity)

/-- Whether an answer is that nothing was found. -/
def Answer.IsNotFound (answer : Answer) : Prop :=
  ∃ fault, answer = .error fault ∧ fault.failure = .notFound

/-- A fault says that nothing was found in an answer as in any other outcome. -/
theorem Answer.isNotFound_error {α : Type} (fault : RequestError) :
    Answer.IsNotFound (.error fault) ↔
      ∃ same, (.error fault : Except RequestError α) = .error same ∧ same.failure = .notFound := by
  constructor
  all_goals
    rintro ⟨_, ⟨⟩, nothing⟩
    exact ⟨fault, rfl, nothing⟩

/-- What a request has done to a set in memory, given its answer. -/
inductive Effect (c : Collection) : Operation → Answer → Collection → Prop where
  | failed (o : Operation) (fault : RequestError) : Effect c o (.error fault) c
  | created (body : Option Record) {key : Value} {e : Entity} (present : key.isNull = false)
      (free : ¬ c.Holds key) :
      Effect c (.create body) (.ok (some e))
        { c with records := c.records ++ [⟨some key, e.toRecord⟩] }
  | read (options : QueryOptions) (key : Value) (e : Entity) :
      Effect c (.read options key) (.ok (some e)) c
  | updated (body : Option Record) {key normal : Value} {e : Entity}
      {before after : List StoredRecord} {s : StoredRecord}
      (coerced : normalizeKey c.name c.type key = .ok normal) (sole : c.Sole normal before s after) :
      Effect c (.update key body) (.ok (some e))
        { c with records := before ++ ⟨s.key, e.toRecord⟩ :: after }
  | deleted {key normal : Value} {before after : List StoredRecord} {s : StoredRecord}
      (coerced : normalizeKey c.name c.type key = .ok normal) (sole : c.Sole normal before s after) :
      Effect c (.delete key) (.ok none) { c with records := before ++ after }

/-- No request makes two records share a key. -/
theorem Effect.keyed {c made : Collection} {o : Operation} {answer : Answer}
    (effect : Effect c o answer made) (keyed : c.Keyed) : made.Keyed := by
  cases effect with
  | failed => exact keyed
  | created _ present free => exact keyed.append present free
  | read => exact keyed
  | updated _ _ sole => exact keyed.replaced sole.records
  | deleted _ sole => exact keyed.removed sole.records

namespace Service

/-- What an operation answers, and the contents of the sets in memory after it. -/
def perform (v : Service Id) (s : EntitySet) :
    Operation → ExceptT RequestError Id (Option Entity × List Collection)
  | .create body => do
    let (e, collections) ← v.create s body
    return (some e, collections)
  | .read options key => do
    let e ← v.read s options key
    return (some e, v.collections)
  | .update key body => do
    let (e, collections) ← v.update s key body
    return (some e, collections)
  | .delete key => do
    let collections ← v.delete s key
    return (none, collections)

/-- The answer to a request, and the service after it; a fault brings no other contents. -/
def serve (v : Service Id) (s : EntitySet) (r : Request) : Answer × Service Id :=
  match ({ v with databases := r.databases }.perform s r.operation).run with
  | .error fault => (.error fault, v)
  | .ok (found, collections) => (.ok found, { v with collections })

/-- The service after several requests to one set. -/
def after (v : Service Id) (s : EntitySet) (past : List Request) : Service Id :=
  past.foldl (fun w r => (w.serve s r).2) v

/-- A service has certain contents for a set in memory. -/
structure Stores (v : Service Id) (s : EntitySet) (c : Collection) : Prop where
  backed : s.backing = .memory
  found : v.collections.find? (·.name == s.name) = some c
  type : c.type = s.type

variable {v : Service Id} {s : EntitySet} {c made : Collection} {key : Value} {r : Request}

/-- Contents of a set carry its name. -/
theorem Stores.name (stores : v.Stores s c) : c.name = s.name := by
  simpa using List.find?_some stores.found

/-- The contents of a set are those that the service has for it. -/
theorem Stores.collection (stores : v.Stores s c) : v.collection s = c := by
  rw [Service.collection, stores.found, Option.getD_some]

/-- Contents that replace those of a set are found under its name. -/
theorem Stores.replaced (stores : v.Stores s c) (name : made.name = s.name)
    (type : made.type = s.type) :
    { v with collections := v.replaced made }.Stores s made where
  backed := stores.backed
  found := by
    have place (collections : List Collection)
        (found : collections.find? (·.name == s.name) = some c) :
        (collections.map fun d => if d.name == s.name then made else d).find? (·.name == s.name)
          = some made := by
      induction collections with
      | nil => cases found
      | cons d rest ih =>
        rw [List.find?_cons] at found
        rw [List.map_cons, List.find?_cons]
        -- The contents that are replaced are the first ones of the name.
        cases own : d.name == s.name with
        | true => simp [name]
        | false =>
          simp only [own] at found
          simpa [own] using ih found
    simpa only [Service.replaced, name] using place v.collections stores.found
  type := type

/-- That an entity set lets an operation begin, or else the fault that it does not. -/
def allowed (s : EntitySet) (capability : Capability) : Except RequestError Unit :=
  if s.capabilities.contains capability then .ok () else .error (.notAllowed capability.name s.name)

/-- Whether a set has a capability is known without any effect. -/
theorem ensure_eq {m : Type → Type} [Monad m] (s : EntitySet) (capability : Capability) :
    (ensure s capability : ExceptT RequestError m Unit) = settled (allowed s capability) := by
  rw [ensure, allowed]
  split <;> rfl

/-- A creation in memory checks the capability and the body and then is that of the contents. -/
theorem create_eq (stores : v.Stores s c) (body : Option Record) :
    v.create s body = settled (do
      allowed s .create
      let record ← checkBody s body .create
      let (e, made) ← c.create record
      return (e, v.replaced made)) := by
  simp only [create, ensure_eq, stores.backed, stores.collection, ← settled_bind_settled]
  rfl

/-- An update in memory checks the capability and the body and then is that of the contents. -/
theorem update_eq (stores : v.Stores s c) (key : Value) (body : Option Record) :
    v.update s key body = settled (do
      allowed s .update
      let changes ← checkBody s body .update
      let (e, made) ← c.update key changes
      return (e, v.replaced made)) := by
  simp only [update, ensure_eq, stores.backed, stores.collection, ← settled_bind_settled]
  rfl

/-- A deletion in memory checks the capability and then is that of the contents. -/
theorem delete_eq (stores : v.Stores s c) (key : Value) :
    v.delete s key = settled (do
      allowed s .delete
      let made ← c.delete key
      return v.replaced made) := by
  simp only [delete, ensure_eq, stores.backed, stores.collection, ← settled_bind_settled]
  rfl

/-- What an operation that succeeds has done to the contents of a set, and the entity it answers. -/
inductive Done (s : EntitySet) (c : Collection) : Operation → Option Entity → Collection → Prop where
  | created {body : Option Record} {record : Record} {e : Entity} {made : Collection}
      (valid : checkBody s body .create = .ok record) (stored : c.create record = .ok (e, made)) :
      Done s c (.create body) (some e) made
  | read (options : QueryOptions) (key : Value) (e : Entity) :
      Done s c (.read options key) (some e) c
  | updated {key : Value} {body : Option Record} {changes : Record} {e : Entity}
      {made : Collection} (valid : checkBody s body .update = .ok changes)
      (stored : c.update key changes = .ok (e, made)) : Done s c (.update key body) (some e) made
  | deleted {key : Value} {made : Collection} (removed : c.delete key = .ok made) :
      Done s c (.delete key) none made

/-- An operation that succeeds where records have different keys has the effect of its kind. -/
theorem Done.effect {o : Operation} {found : Option Entity}
    (changed : Done s c o found made) (keyed : c.Keyed) : Effect c o (.ok found) made := by
  cases changed with
  | created valid stored =>
    obtain ⟨property, key, -, isNew, free, -, rfl⟩ := Collection.create_inv stored
    exact .created _ (Collection.newKey_isNull isNew) free
  | read options key e => exact .read options key e
  | updated valid stored =>
    obtain ⟨normal, before, old, after, coerced, first, -, rfl⟩ := Collection.update_inv stored
    exact .updated _ coerced (keyed.sole first)
  | deleted removed =>
    obtain ⟨normal, before, old, after, coerced, first, rfl⟩ := Collection.delete_inv removed
    exact .deleted coerced (keyed.sole first)

/-- An operation that succeeds on a set in memory is one that its contents allow. -/
theorem perform_done (stores : v.Stores s c) {o : Operation} {found : Option Entity}
    {collections : List Collection} (done : v.perform s o = pure (found, collections)) :
    ∃ made, { v with collections }.Stores s made ∧ Done s c o found made := by
  cases o with
  | create body =>
    rw [perform, create_eq stores] at done
    obtain ⟨⟨e, _⟩, created, ⟨⟩⟩ := bind_eq_pure done
    obtain ⟨_, -, created⟩ := bind_ok (settled_eq_pure created)
    obtain ⟨record, valid, created⟩ := bind_ok created
    obtain ⟨⟨_, made⟩, stored, ⟨⟩⟩ := bind_ok created
    have changed := Done.created valid stored
    obtain ⟨_, key, -, -, -, -, rfl⟩ := Collection.create_inv stored
    exact ⟨_, stores.replaced stores.name stores.type, changed⟩
  | read options key =>
    rw [perform] at done
    obtain ⟨e, -, ⟨⟩⟩ := bind_eq_pure done
    exact ⟨c, stores, .read options key e⟩
  | update key body =>
    rw [perform, update_eq stores] at done
    obtain ⟨⟨e, _⟩, updated, ⟨⟩⟩ := bind_eq_pure done
    obtain ⟨_, -, updated⟩ := bind_ok (settled_eq_pure updated)
    obtain ⟨changes, valid, updated⟩ := bind_ok updated
    obtain ⟨⟨_, made⟩, stored, ⟨⟩⟩ := bind_ok updated
    have changed := Done.updated valid stored
    obtain ⟨_, _, _, _, -, -, -, rfl⟩ := Collection.update_inv stored
    exact ⟨_, stores.replaced stores.name stores.type, changed⟩
  | delete key =>
    rw [perform, delete_eq stores] at done
    obtain ⟨_, deleted, ⟨⟩⟩ := bind_eq_pure done
    obtain ⟨_, -, deleted⟩ := bind_ok (settled_eq_pure deleted)
    obtain ⟨made, removed, ⟨⟩⟩ := bind_ok deleted
    have changed : Done s c (.delete key) none made := .deleted removed
    obtain ⟨_, _, _, _, -, -, rfl⟩ := Collection.delete_inv removed
    exact ⟨_, stores.replaced stores.name stores.type, changed⟩

/-- A request to a set in memory fails and changes nothing, or does what the contents allow. -/
theorem serve_done (stores : v.Stores s c) (r : Request) :
    ∃ made, (v.serve s r).2.Stores s made ∧
      ((∃ fault, (v.serve s r).1 = .error fault ∧ made = c) ∨
        ∃ found, (v.serve s r).1 = .ok found ∧ Done s c r.operation found made) := by
  -- The databases play no part in where the contents of a set in memory are.
  have stores' : { v with databases := r.databases }.Stores s c :=
    ⟨stores.backed, stores.found, stores.type⟩
  rw [serve]
  cases outcome : ({ v with databases := r.databases }.perform s r.operation).run with
  | error fault => exact ⟨c, stores, .inl ⟨fault, rfl, rfl⟩⟩
  | ok answer =>
    obtain ⟨found, collections⟩ := answer
    obtain ⟨made, stores, changed⟩ := perform_done stores' outcome
    exact ⟨made, ⟨stores.backed, stores.found, stores.type⟩, .inr ⟨found, rfl, changed⟩⟩

/-- A request to a set in memory has the effect that its answer tells. -/
theorem serve_effect (stores : v.Stores s c) (keyed : c.Keyed) (r : Request) :
    ∃ made, (v.serve s r).2.Stores s made ∧ Effect c r.operation (v.serve s r).1 made := by
  obtain ⟨made, stores', ⟨fault, failed, same⟩ | ⟨found, served, changed⟩⟩ := serve_done stores r
  · exact ⟨made, stores', failed ▸ same ▸ .failed _ fault⟩
  · exact ⟨made, stores', served ▸ changed.effect keyed⟩

/-- After any requests, a set has contents with whatever every operation that succeeds keeps. -/
theorem after_keeps {P : Collection → Prop}
    (keeps : ∀ ⦃c o found made⦄, c.type = s.type → Done s c o found made → P c → P made)
    (stores : v.Stores s c) (holds : P c) (past : List Request) :
    ∃ made, (v.after s past).Stores s made ∧ P made := by
  induction past generalizing v c with
  | nil => exact ⟨c, stores, holds⟩
  | cons r rest ih =>
    obtain ⟨made, stores', ⟨fault, failed, rfl⟩ | ⟨found, served, changed⟩⟩ := serve_done stores r
    · exact ih stores' holds
    · exact ih stores' (keeps stores.type changed holds)

/-- After any requests, a set whose records had different keys has contents that still do. -/
theorem after_keyed (stores : v.Stores s c) (keyed : c.Keyed) (past : List Request) :
    ∃ made, (v.after s past).Stores s made ∧ made.Keyed :=
  after_keeps (fun _ _ _ _ _ changed keyed => (changed.effect keyed).keyed keyed) stores keyed past

/-- A creation that may begin and has a valid body is one of the contents. -/
theorem perform_create (stores : v.Stores s c) {body : Option Record} {record : Record}
    (able : allowed s .create = .ok ()) (valid : checkBody s body .create = .ok record) :
    v.perform s (.create body)
      = settled ((c.create record).map fun done => (some done.1, v.replaced done.2)) := by
  rw [perform, create_eq stores, able, valid]
  show (settled (c.create record >>= fun (e, made) => pure (e, v.replaced made)) >>=
    fun done => pure (some done.1, done.2) : ExceptT RequestError Id _) = _
  cases c.create record <;> rfl

/-- An update that may begin and has a valid body is one of the contents. -/
theorem perform_update (stores : v.Stores s c) (key : Value) {body : Option Record}
    {changes : Record} (able : allowed s .update = .ok ())
    (valid : checkBody s body .update = .ok changes) :
    v.perform s (.update key body)
      = settled ((c.update key changes).map fun done => (some done.1, v.replaced done.2)) := by
  rw [perform, update_eq stores, able, valid]
  show (settled (c.update key changes >>= fun (e, made) => pure (e, v.replaced made)) >>=
    fun done => pure (some done.1, done.2) : ExceptT RequestError Id _) = _
  cases c.update key changes <;> rfl

/-- A deletion that may begin is one of the contents. -/
theorem perform_delete (stores : v.Stores s c) (key : Value) (able : allowed s .delete = .ok ()) :
    v.perform s (.delete key)
      = settled ((c.delete key).map fun made => (none, v.replaced made)) := by
  rw [perform, delete_eq stores, able]
  cases c.delete key <;> rfl

/-- An update of a set in memory finds nothing exactly when no record is under its key. -/
theorem update_isNotFound (stores : v.Stores s c) {databases : Databases Id} {key normal : Value}
    {body : Option Record} {changes : Record} (able : allowed s .update = .ok ())
    (valid : checkBody s body .update = .ok changes)
    (coerced : normalizeKey s.name s.type key = .ok normal) :
    (v.serve s ⟨.update key body, databases⟩).1.IsNotFound ↔ ¬ c.Holds normal := by
  have stores' : { v with databases }.Stores s c := ⟨stores.backed, stores.found, stores.type⟩
  rw [← stores.name, ← stores.type] at coerced
  rw [← Collection.update_notFound coerced changes, serve, perform_update stores' key able valid]
  cases c.update key changes with
  | error fault => exact Answer.isNotFound_error fault
  | ok done => exact iff_of_false (by rintro ⟨_, ⟨⟩, -⟩) (by rintro ⟨_, ⟨⟩, -⟩)

/-- A deletion from a set in memory finds nothing exactly when no record is under its key. -/
theorem delete_isNotFound (stores : v.Stores s c) {databases : Databases Id} {key normal : Value}
    (able : allowed s .delete = .ok ()) (coerced : normalizeKey s.name s.type key = .ok normal) :
    (v.serve s ⟨.delete key, databases⟩).1.IsNotFound ↔ ¬ c.Holds normal := by
  have stores' : { v with databases }.Stores s c := ⟨stores.backed, stores.found, stores.type⟩
  rw [← stores.name, ← stores.type] at coerced
  rw [← Collection.delete_notFound coerced, serve, perform_delete stores' key able]
  cases c.delete key with
  | error fault => exact Answer.isNotFound_error fault
  | ok done => exact iff_of_false (by rintro ⟨_, ⟨⟩, -⟩) (by rintro ⟨_, ⟨⟩, -⟩)

/-- Entities with a whole number as their key and a note. -/
def noteType : EntityType :=
  ⟨"Note", some "n", [⟨"n", .primitive (.integer .int64), false, false, none⟩,
    ⟨"text", .primitive .string, true, false, none⟩], []⟩

/-- A set of such entities in memory. -/
def noteSet : EntitySet :=
  ⟨"notes", noteType, .all, .memory⟩

/-- Two notes as their set stores them. -/
def notes : Collection :=
  ⟨"notes", noteType,
    [⟨some (.integer 1), [("n", .ofInt 1), ("text", .text "one")]⟩,
      ⟨some (.integer 2), [("n", .ofInt 2), ("text", .text "two")]⟩]⟩

/-- A service with the notes. -/
def noteService : Service Id :=
  ⟨⟨.default, [], [noteType], [noteSet], []⟩, [notes], .none⟩

/-- The notes have different keys. -/
theorem keyed_notes : notes.Keyed where
  present := by
    simp only [notes, List.forall_mem_cons, List.not_mem_nil, false_imp_iff, implies_true, and_true]
    exact ⟨⟨_, rfl, rfl⟩, _, rfl, rfl⟩
  apart := by
    simp only [notes, List.pairwise_cons, List.forall_mem_cons, List.not_mem_nil, false_imp_iff,
      implies_true, and_true, List.Pairwise.nil]
    rintro key ⟨⟩
    rfl

end Service

end EdmQuery
