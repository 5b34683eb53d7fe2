import Mathlib
import EdmQuery.Proofs.Edm.RoundTrip
import EdmQuery.Proofs.Query.Requests

/-! Stored records: every one makes an entity again, with the key that it is stored under. -/

namespace EdmQuery

/-- A record that is stored for an entity, under its key, and makes that entity again. -/
def StoredRecord.ReadsBack (type : EntityType) (r : StoredRecord) : Prop :=
  ∃ e, Entity.ofRecord type r.record = .ok e ∧ e.toRecord = r.record ∧ e.id = r.key

/-- A key property is one of the declared properties. -/
theorem EntityType.mem_of_keyProperty? {type : EntityType} {p : Property}
    (declared : type.keyProperty? = some p) : p ∈ type.properties := by
  obtain ⟨name, -, found⟩ := Option.bind_eq_some_iff.mp declared
  exact List.mem_of_find?_eq_some found

/-- A key property has the name of the key. -/
theorem EntityType.key_of_keyProperty? {type : EntityType} {p : Property}
    (declared : type.keyProperty? = some p) : type.key = some p.name := by
  obtain ⟨name, own, found⟩ := Option.bind_eq_some_iff.mp declared
  rw [own, EntityType.property?_name found]

variable {type : EntityType} {record changes : Record} {e : Entity}

/-- The record of an entity is stored under its key. -/
theorem StoredRecord.ReadsBack.of_made (lossless : type.Lossless) {key : Option Value}
    (made : Entity.ofRecord type record = .ok e) (own : e.id = key) :
    ReadsBack type ⟨key, e.toRecord⟩ :=
  ⟨e, Entity.ofRecord_toRecord lossless made, rfl, own⟩

/-- A field that is set is what a record has for its property. -/
theorem Entity.rawValue_set (record : Record) (p : Property) (value : Json) :
    rawValue (record.set p.name value) p = value := by
  rw [rawValue, Record.lookup_set, beq_self_eq_true, if_pos rfl, Option.some_or, Option.getD_some]

/-- An entity has a value for its key property, as what its record has for it. -/
theorem Entity.exists_key (made : ofRecord type record = .ok e) {p : Property}
    (declared : type.keyProperty? = some p) :
    ∃ value, p.type.coerce p.name (rawValue record p) = .ok value ∧
      (p.name, value) ∈ e.properties := by
  obtain ⟨values, read, rfl⟩ := map_ok made
  obtain ⟨name, own, found⟩ := Option.bind_eq_some_iff.mp declared
  obtain ⟨value, present, coerced⟩ := readProperties_lookup read found
  refine ⟨value, coerced, ?_⟩
  rw [EntityType.property?_name found]
  obtain ⟨before, after, rfl, -⟩ := List.lookup_eq_some_iff.mp present
  exact List.mem_append_right _ List.mem_cons_self

namespace Collection

variable {c made : Collection}

/-- Seeds are stored so that they read back. -/
theorem readsBack_of_normalizeAll (lossless : type.Lossless) {records : List Record}
    {stored : List StoredRecord} (seeded : normalizeAll type records = .ok stored) :
    ∀ r ∈ stored, r.ReadsBack type := by
  induction records generalizing stored with
  | nil =>
    cases seeded
    exact List.forall_mem_nil _
  | cons record rest ih =>
    rw [normalizeAll] at seeded
    split at seeded
    · cases seeded
    rename_i e read
    obtain ⟨others, more, rfl⟩ := map_ok seeded
    exact List.forall_mem_cons.mpr ⟨.of_made lossless read rfl, ih more⟩

/-- The key of a new record is read back from its data form. -/
theorem coerce_newKey {p : Property} {key : Value} (element : p.type.element.isLossless = true)
    (declared : c.type.keyProperty? = some p) (isNew : c.newKey p record = .ok key)
    (read : Entity.ofRecord c.type (record.set p.name key.toJson) = .ok e) :
    p.type.coerce p.name key.toJson = .ok key := by
  obtain ⟨value, coerced, -⟩ := Entity.exists_key read declared
  rw [Entity.rawValue_set] at coerced
  rw [newKey] at isNew
  split at isNew
  · exact PropertyType.coerce_toJson element (mapError_ok isNew)
  · -- A key that is made is an integer, which no integer type changes.
    rw [freshKey] at isNew
    split at isNew
    · cases isNew
    rename_i integral
    have kept (n : Int64) (coerced : p.type.coerce p.name (.ofInt n.toInt) = .ok value) :
        p.type.coerce p.name (.ofInt n.toInt) = .ok (.integer n) := by
      rw [coerced, PropertyType.coerce_ofInt (by simpa using integral) coerced]
    repeat' split at isNew
    all_goals cases isNew
    all_goals exact kept _ coerced

/-- A creation keeps records that read back, the new one among them. -/
theorem create_readsBack (lossless : c.type.Lossless) (created : c.create record = .ok (e, made))
    (each : ∀ r ∈ c.records, r.ReadsBack c.type) : ∀ r ∈ made.records, r.ReadsBack c.type := by
  obtain ⟨p, key, declared, isNew, -, read, rfl⟩ := create_inv created
  have element := lossless.elements p (EntityType.mem_of_keyProperty? declared)
  have coerced := coerce_newKey element declared isNew read
  rw [← Entity.rawValue_set record p key.toJson] at coerced
  have own : e.id = some key := by
    rw [Entity.id_ofRecord read declared coerced, Option.filter_some, newKey_isNull isNew]
    rfl
  refine List.forall_mem_append.mpr ⟨each, ?_⟩
  exact List.forall_mem_singleton.mpr (.of_made lossless read own)

/-- Changes that do not name the key leave an entity its key. -/
theorem id_merged (lossless : type.Lossless) {p : Property}
    (declared : type.keyProperty? = some p) {stored : Entity}
    (made : Entity.ofRecord type record = .ok stored) (others : changes.lookup p.name = none)
    (read : Entity.ofRecord type (merged stored.toRecord changes) = .ok e) : e.id = stored.id := by
  obtain ⟨value, coerced, mem⟩ := Entity.exists_key made declared
  have distinct := Entity.distinct_ofRecord lossless.distinct made
  have kept : (merged stored.toRecord changes).lookup p.name = some value.toJson :=
    (Record.lookup_setAll others).trans (Entity.lookup_toRecord distinct mem)
  have same : Entity.rawValue (merged stored.toRecord changes) p = value.toJson := by
    rw [Entity.rawValue, kept, Option.some_or, Option.getD_some]
  have element := lossless.elements p (EntityType.mem_of_keyProperty? declared)
  have coerced' := PropertyType.coerce_toJson element coerced
  rw [← same] at coerced'
  rw [Entity.id_ofRecord read declared coerced', Entity.id_ofRecord made declared coerced]

/-- A key that has been normalized is one of a declared property. -/
theorem exists_keyProperty {set : String} {key normal : Value}
    (coerced : normalizeKey set type key = .ok normal) : ∃ p, type.keyProperty? = some p := by
  rw [normalizeKey] at coerced
  cases declared : type.keyProperty? with
  | none => rw [declared] at coerced; cases coerced
  | some p => exact ⟨p, rfl⟩

/-- An update that does not name the key keeps records that read back. -/
theorem update_readsBack (lossless : c.type.Lossless) {key : Value}
    (updated : c.update key changes = .ok (e, made))
    (others : ∀ name, c.type.key = some name → changes.lookup name = none)
    (each : ∀ r ∈ c.records, r.ReadsBack c.type) : ∀ r ∈ made.records, r.ReadsBack c.type := by
  obtain ⟨normal, before, s, after, coerced, first, read, rfl⟩ := update_inv updated
  rw [first.records, List.forall_mem_append, List.forall_mem_cons] at each
  obtain ⟨early, ⟨stored, made, own, under⟩, late⟩ := each
  obtain ⟨p, declared⟩ := exists_keyProperty coerced
  rw [← own] at read
  have same := id_merged lossless declared made
    (others p.name (EntityType.key_of_keyProperty? declared)) read
  refine List.forall_mem_append.mpr ⟨early, List.forall_mem_cons.mpr ⟨?_, late⟩⟩
  exact .of_made lossless read (same.trans under)

/-- A deletion keeps records that read back. -/
theorem delete_readsBack {key : Value} (deleted : c.delete key = .ok made)
    (each : ∀ r ∈ c.records, r.ReadsBack c.type) : ∀ r ∈ made.records, r.ReadsBack c.type := by
  obtain ⟨normal, before, s, after, -, first, rfl⟩ := delete_inv deleted
  rw [first.records, List.forall_mem_append, List.forall_mem_cons] at each
  exact List.forall_mem_append.mpr ⟨each.1, each.2.2⟩

end Collection

/-- Null is the null of every type. -/
theorem PropertyType.coerce_null (type : PropertyType) (property : String) :
    type.coerce property .null = .ok .null := by
  cases type <;> rfl

/-- The normal form of changes has no field under the name of the key. -/
theorem lookup_normalizeFields {body normalized found : Record} {name : String}
    (key : type.key = some name) (free : normalized.lookup name = none)
    (normal : normalizeFields type .update body normalized = .ok found) :
    found.lookup name = none := by
  induction body generalizing normalized with
  | nil =>
    cases normal
    exact free
  | cons field rest ih =>
    obtain ⟨other, raw⟩ := field
    rw [normalizeFields] at normal
    split at normal
    · cases normal
    split at normal
    · exact ih free normal
    rename_i moved
    split at normal
    · cases normal
    split at normal
    · cases normal
    -- The field that is set is not the key, which updates leave out.
    have differ : (name == other) = false := by
      refine beq_eq_false_iff_ne.mpr fun same => moved ?_
      rw [key, same, beq_self_eq_true, beq_self_eq_true, Bool.and_self]
    refine ih ?_ normal
    rw [Record.lookup_set, differ, free]
    rfl

namespace Service

variable {v : Service Id} {s : EntitySet} {c made : Collection}

/-- Changes that have been checked do not name the key. -/
theorem lookup_checkBody {body : Option Record} {changes : Record}
    (valid : checkBody s body .update = .ok changes) {name : String}
    (key : s.type.key = some name) : changes.lookup name = none := by
  cases body with
  | none => cases valid
  | some body =>
    have valid := mapError_ok valid
    rw [validateBody] at valid
    split at valid
    · cases valid
    rename_i normalized normal
    cases valid
    exact lookup_normalizeFields key rfl normal

/-- An operation that succeeds keeps records that read back. -/
theorem Done.readsBack (lossless : s.type.Lossless) (type : c.type = s.type) {o : Operation}
    {found : Option Entity} (changed : Done s c o found made)
    (each : ∀ r ∈ c.records, r.ReadsBack s.type) : ∀ r ∈ made.records, r.ReadsBack s.type := by
  rw [← type] at lossless each ⊢
  cases changed with
  | created valid stored => exact Collection.create_readsBack lossless stored each
  | read => exact each
  | updated valid stored =>
    exact Collection.update_readsBack lossless stored
      (fun name key => lookup_checkBody valid (type ▸ key)) each
  | deleted removed => exact Collection.delete_readsBack removed each

/-- After any requests, the contents of a set whose records read back are records that do. -/
theorem after_readsBack (lossless : s.type.Lossless) (stores : v.Stores s c)
    (each : ∀ r ∈ c.records, r.ReadsBack s.type) (past : List Request) :
    ∃ made, (v.after s past).Stores s made ∧ ∀ r ∈ made.records, r.ReadsBack s.type :=
  after_keeps (fun _ _ _ _ type changed each => changed.readsBack lossless type each) stores each
    past

/-- An enumeration with two names for one number. -/
def shade : Enumeration :=
  ⟨"Shade", [⟨"blue", 1⟩, ⟨"azure", 1⟩], false⟩

/-- Paints with a whole number as their key and a shade. -/
def paintType : EntityType :=
  ⟨"Paint", some "n", [⟨"n", .primitive (.integer .int64), false, false, none⟩,
    ⟨"shade", .primitive (.enum shade), true, false, none⟩], []⟩

end Service

end EdmQuery
