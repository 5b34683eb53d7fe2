import EdmQuery.Proofs.Query.Required

/-! What a new entity has for a property depends on the fields of its body that are read for it. -/

namespace EdmQuery

/-- The only field of a name is found under it. -/
theorem Record.lookup_of_mem {record : Record} (once : (record.map (·.1)).Nodup) {name : String}
    {raw : Json} (mem : (name, raw) ∈ record) : record.lookup name = some raw := by
  induction record with
  | nil => cases mem
  | cons field rest ih =>
    -- The field is the first one, or the first one has another name.
    rw [List.map_cons, List.nodup_cons] at once
    rw [List.lookup_cons]
    rcases List.mem_cons.mp mem with rfl | later
    · rw [beq_self_eq_true]
    · have other : (name == field.1) = false := by
        rw [beq_eq_false_iff_ne]
        rintro rfl
        exact once.1 (List.mem_map.mpr ⟨(field.1, raw), later, rfl⟩)
      rw [other]
      exact ih once.2 later

section

variable {type : EntityType} {body body' found found' : Record} {name : String} {p : Property}

/-- The normal form of a body has no field that is not declared. -/
theorem lookup_normalizeFields_of_undeclared {mode : BodyMode} {normalized : Record}
    (normal : normalizeFields type mode body normalized = .ok found)
    (undeclared : type.property? name = none) : found.lookup name = normalized.lookup name := by
  -- What is normal already grows while the fields of the body are gone through.
  induction body generalizing normalized with
  | nil =>
    cases normal
    rfl
  | cons field rest ih =>
    obtain ⟨other, raw⟩ := field
    rw [normalizeFields] at normal
    split at normal
    · cases normal
    rename_i q declared
    split at normal
    · exact ih normal
    split at normal
    · cases normal
    split at normal
    · cases normal
    -- The field that is set is a declared one.
    have apart : (name == other) = false := by
      rw [beq_eq_false_iff_ne]
      rintro rfl
      rw [undeclared] at declared
      cases declared
    rw [ih normal, Record.lookup_set, apart, if_neg Bool.false_ne_true]

/-- The normal form of a new body has a declared field where the body has it, in its normal form. -/
theorem lookup_validateBody (once : (body.map (·.1)).Nodup)
    (valid : validateBody type body .create = .ok found) (declared : type.property? name = some p) :
    (body.lookup name = none ∧ found.lookup name = none) ∨
      ∃ raw value, body.lookup name = some raw ∧ p.type.coerce name raw = .ok value ∧
        found.lookup name = some value.toJson := by
  rcases normalizeFields_lookup (validateBody_normal valid) declared with
    ⟨absent, unnamed⟩ | ⟨raw, value, mem, coerced, -, there⟩
  · refine .inl ⟨?_, absent⟩
    -- A body that creates an entity keeps all its fields.
    rw [List.lookup_eq_none_iff]
    intro field mem
    rw [bne_iff_ne]
    rintro rfl
    cases (unnamed (List.mem_map_of_mem mem)).1
  · exact .inr ⟨raw, value, Record.lookup_of_mem once mem, coerced, there⟩

/-- The normal form of a new body lacks a field exactly where the body does. -/
theorem lookup_validateBody_eq_none_iff (once : (body.map (·.1)).Nodup)
    (valid : validateBody type body .create = .ok found) :
    found.lookup name = none ↔ (type.property? name ≠ none → body.lookup name = none) := by
  cases declared : type.property? name with
  | none =>
    have undeclared := lookup_normalizeFields_of_undeclared (validateBody_normal valid) declared
    simp only [undeclared, List.lookup_nil, ne_eq, not_true_eq_false, false_implies]
  | some p =>
    rcases lookup_validateBody once valid declared with
      ⟨absent, missing⟩ | ⟨raw, value, there, -, has⟩
    · simp only [absent, missing, implies_true]
    · simp only [there, has, reduceCtorEq, ne_eq, not_false_eq_true, forall_const]

/-- Bodies that agree on a field have normal forms that agree on it. -/
theorem lookup_validateBody_congr (once : (body.map (·.1)).Nodup) (once' : (body'.map (·.1)).Nodup)
    (valid : validateBody type body .create = .ok found)
    (valid' : validateBody type body' .create = .ok found')
    (agree : type.property? name ≠ none → body.lookup name = body'.lookup name) :
    found.lookup name = found'.lookup name := by
  cases declared : type.property? name with
  | none =>
    rw [lookup_normalizeFields_of_undeclared (validateBody_normal valid) declared,
      lookup_normalizeFields_of_undeclared (validateBody_normal valid') declared]
  | some p =>
    have agree := agree (by rw [declared]; exact Option.some_ne_none p)
    rcases lookup_validateBody once valid declared with
      ⟨absent, missing⟩ | ⟨raw, value, there, coerced, has⟩
    · have missing' := (lookup_validateBody_eq_none_iff once' valid').mpr fun _ =>
        agree.symm.trans absent
      rw [missing, missing']
    · rcases lookup_validateBody once' valid' declared with
        ⟨absent, -⟩ | ⟨raw', value', there', coerced', has'⟩
      · rw [there, absent] at agree
        cases agree
      · -- The same raw value has one normal form.
        rw [there, there', Option.some.injEq] at agree
        subst agree
        rw [coerced, Except.ok.injEq] at coerced'
        rw [has, has', coerced']

end

/-- Records that agree on the fields that are read for a property agree on what is read. -/
theorem Entity.rawValue_congr {record record' : Record} {p : Property}
    (named : record.lookup p.name = record'.lookup p.name)
    (column : record.lookup p.name = none → record.lookup p.column = record'.lookup p.column) :
    rawValue record p = rawValue record' p := by
  rw [rawValue, rawValue, ← named]
  cases found : record.lookup p.name with
  | none => rw [column found]
  | some raw => rfl

/-- What has neither the name of a property nor its column is read as null for it. -/
theorem Entity.rawValue_of_absent {record : Record} {p : Property}
    (named : record.lookup p.name = none) (column : record.lookup p.column = none) :
    rawValue record p = .null := by
  rw [rawValue, named, column]
  rfl

/-- How a set in memory makes a new entity from a body. -/
structure Creation (c : Collection) (body : Record) (e : Entity) where
  normal : Record
  property : Property
  key : Value
  valid : validateBody c.type body .create = .ok normal
  keyProperty : c.type.keyProperty? = some property
  isNew : c.newKey property normal = .ok key
  read : Entity.ofRecord c.type (normal.set property.name key.toJson) = .ok e

namespace Creation

variable {c : Collection} {body body' : Record} {e e' : Entity} {name : String} {p : Property}

/-- The record that a new entity is read from. -/
def record (made : Creation c body e) : Record :=
  made.normal.set made.property.name made.key.toJson

/-- Creations have the same key property. -/
theorem property_eq (made : Creation c body e) (made' : Creation c body' e') :
    made'.property = made.property := by
  have same := made'.keyProperty
  rw [made.keyProperty, Option.some.injEq] at same
  exact same.symm

/-- Bodies that agree on the key get the same one from the same contents. -/
theorem key_eq (made : Creation c body e) (made' : Creation c body' e')
    (once : (body.map (·.1)).Nodup) (once' : (body'.map (·.1)).Nodup)
    (sameKey : ∀ k, c.type.key = some k → body.lookup k = body'.lookup k) :
    made'.key = made.key := by
  have isKey := EntityType.key_of_keyProperty? made.keyProperty
  have agree := lookup_validateBody_congr once once' made.valid made'.valid fun _ =>
    sameKey made.property.name isKey
  have first := made.isNew
  have second := made'.isNew
  -- Only the field of the key is read for it.
  rw [made.property_eq made', Collection.newKey, ← agree, ← Collection.newKey, first] at second
  exact (Except.ok.inj second).symm

/-- Bodies that agree on the key and a field make records that agree on the field. -/
theorem lookup_congr (made : Creation c body e) (made' : Creation c body' e')
    (once : (body.map (·.1)).Nodup) (once' : (body'.map (·.1)).Nodup)
    (sameKey : ∀ k, c.type.key = some k → body.lookup k = body'.lookup k)
    (agree : c.type.property? name ≠ none → body.lookup name = body'.lookup name) :
    made.record.lookup name = made'.record.lookup name := by
  rw [record, record, made.property_eq made', made.key_eq made' once once' sameKey,
    Record.lookup_set, Record.lookup_set,
    lookup_validateBody_congr once once' made.valid made'.valid agree]

/-- Apart from the key, the record that is made lacks a field exactly where the body does. -/
theorem lookup_eq_none_iff (made : Creation c body e) (once : (body.map (·.1)).Nodup)
    (other : c.type.key ≠ some name) :
    made.record.lookup name = none ↔ (c.type.property? name ≠ none → body.lookup name = none) := by
  have apart : (name == made.property.name) = false := by
    rw [beq_eq_false_iff_ne]
    rintro rfl
    exact other (EntityType.key_of_keyProperty? made.keyProperty)
  rw [record, Record.lookup_set, apart, if_neg Bool.false_ne_true,
    lookup_validateBody_eq_none_iff once made.valid]

/-- New entities have the same value for a property where their bodies agree on what is read for it. -/
theorem get_congr (made : Creation c body e) (made' : Creation c body' e')
    (once : (body.map (·.1)).Nodup) (once' : (body'.map (·.1)).Nodup)
    (declared : c.type.property? name = some p) (other : c.type.key ≠ some name)
    (agree : body.lookup name = body'.lookup name)
    (sameKey : ∀ k, c.type.key = some k → body.lookup k = body'.lookup k)
    (column : body.lookup name = none → c.type.property? p.column ≠ none →
      body.lookup p.column = body'.lookup p.column) : e.get name = e'.get name := by
  have own := EntityType.property?_name declared
  -- Where the name is absent from the record, the column is looked up, and it may be a name too.
  have raw : Entity.rawValue made.record p = Entity.rawValue made'.record p := by
    refine Entity.rawValue_congr ?_ fun absent => ?_
    · rw [own]
      exact made.lookup_congr made' once once' sameKey fun _ => agree
    · rw [own, made.lookup_eq_none_iff once other] at absent
      refine made.lookup_congr made' once once' sameKey (column (absent ?_))
      rw [declared]
      exact Option.some_ne_none p
  have coerced := Entity.coerce_get made.read declared
  have coerced' := Entity.coerce_get made'.read declared
  rw [← record, raw] at coerced
  rw [← record, coerced] at coerced'
  exact Except.ok.inj coerced'

/-- A new entity has null for a property that its body leaves out with its column. -/
theorem get_null (made : Creation c body e) (once : (body.map (·.1)).Nodup)
    (declared : c.type.property? name = some p) (other : c.type.key ≠ some name)
    (absent : body.lookup name = none)
    (silent : c.type.property? p.column ≠ none → body.lookup p.column = none)
    (apart : c.type.key ≠ some p.column) : e.get name = .null := by
  have own := EntityType.property?_name declared
  have missing : made.record.lookup p.name = none := by
    rw [own, made.lookup_eq_none_iff once other]
    exact fun _ => absent
  have nowhere := (made.lookup_eq_none_iff once apart).mpr silent
  have coerced := Entity.coerce_get made.read declared
  rw [← record, Entity.rawValue_of_absent missing nowhere, PropertyType.coerce_null] at coerced
  exact (Except.ok.inj coerced).symm

end Creation

namespace Service

variable {v : Service Id} {s : EntitySet} {c : Collection} {e e' : Entity} {p : Property}
  {name : String} {body body' : Record} {databases databases' : Databases Id}

/-- The record that a set in memory has got last. -/
def newest (v : Service Id) (s : EntitySet) : Option StoredRecord :=
  (v.collection s).records.getLast?

/-- A creation that succeeds makes its entity from the body and stores it last. -/
theorem serve_create_ok (stores : v.Stores s c)
    (answered : (v.serve s ⟨.create (some body), databases⟩).1 = .ok (some e)) :
    ∃ made : Creation c body e, (v.serve s ⟨.create (some body), databases⟩).2.newest s =
      some ⟨some made.key, e.toRecord⟩ := by
  obtain ⟨held, stores', ⟨fault, failed, -⟩ | ⟨found, served, changed⟩⟩ :=
    serve_done stores ⟨.create (some body), databases⟩
  · rw [failed] at answered
    cases answered
  rw [served] at answered
  cases answered
  -- Of all that a request can change, a creation only adds a record.
  cases changed with
  | created valid stored =>
    obtain ⟨property, key, keyProperty, isNew, -, read, rfl⟩ := Collection.create_inv stored
    have valid := mapError_ok valid
    rw [← stores.type] at valid
    refine ⟨⟨_, property, key, valid, keyProperty, isNew, read⟩, ?_⟩
    rw [newest, stores'.collection, List.getLast?_concat]

/-- A creation stores for a declared property the data form of the value that it answers. -/
theorem newest_lookup (stores : v.Stores s c) (distinct : (s.type.properties.map (·.name)).Nodup)
    (answered : (v.serve s ⟨.create (some body), databases⟩).1 = .ok (some e))
    (declared : s.type.property? name = some p) :
    ((v.serve s ⟨.create (some body), databases⟩).2.newest s).bind (·.record.lookup name) =
      some (e.get name).toJson := by
  obtain ⟨made, stored⟩ := serve_create_ok stores answered
  rw [← stores.type] at distinct declared
  have found := Entity.rawValue_toRecord distinct made.read declared
  rw [EntityType.property?_name declared] at found
  rw [stored, Option.bind_some, found]

end Service

/-- Entities with a whole number as their key, a price in the column `cost`, and a cost. -/
def ticketType : EntityType :=
  ⟨"Ticket", some "n", [⟨"n", .primitive (.integer .int64), false, false, none⟩,
    ⟨"price", .primitive (.integer .int64), true, false, some "cost"⟩,
    ⟨"cost", .primitive (.integer .int64), true, false, none⟩], []⟩

/-- A set of tickets in memory. -/
def ticketSet : EntitySet :=
  ⟨"tickets", ticketType, .all, .memory⟩

/-- A service without any ticket. -/
def ticketService : Service Id :=
  ⟨⟨.default, [], [ticketType], [ticketSet], []⟩, [⟨"tickets", ticketType, []⟩], .none⟩

/-- The first ticket. -/
def ticket (price cost : Value) : Entity :=
  ⟨ticketType, some (.integer 0), [("n", .integer 0), ("price", price), ("cost", cost)], []⟩

end EdmQuery
