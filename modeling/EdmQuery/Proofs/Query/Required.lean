import Mathlib
import EdmQuery.Proofs.Query.Records

/-! Properties that cannot be null have values after creations and updates, also when read again. -/

namespace EdmQuery

/-- Whether a value is the zero of an enumeration that has no name for it; its data form is null. -/
def Value.isUnnamedZero : Value → Bool
  | .enum type n => n == 0 && (type.format n).isNone
  | _ => false

/-- The data form of a value is null for null and for a zero without a name. -/
theorem Value.isNull_toJson (value : Value) :
    value.toJson.isNull = (value.isNull || value.isUnnamedZero) := by
  rcases value with _ | s | items
  · rfl
  · cases s with
    | decimal d => exact isNull_doubleJson d.toFloat
    | double x => exact isNull_doubleJson x
    | enum type n =>
      simp only [toJson, Scalar.toJson, isNull, isUnnamedZero, Bool.false_or]
      cases type.format n with
      | some names => simp [Json.isNull]
      | none => by_cases zero : n = 0 <;> simp [zero, Json.isNull, Json.ofInt]
    | _ => rfl
  · rfl

/-- A value that a lossless type has read is no zero without a name. -/
theorem PropertyType.isUnnamedZero_of_lossless {type : PropertyType} {property : String}
    (lossless : type.element.isLossless = true) {raw : Json} {value : Value}
    (coerced : type.coerce property raw = .ok value) : value.isUnnamedZero = false := by
  have admitted := admits_coerce coerced
  rcases value with _ | s | items
  · rfl
  · cases s with
    | enum e n =>
      cases type with
      | primitive type =>
        cases type with
        | enum => cases lossless
        | _ => simp [admits, PrimitiveType.admits] at admitted
      | collection element => cases admitted
    | _ => rfl
  · rfl

/-- Data is read as null exactly when it is null. -/
theorem PropertyType.isNull_of_coerce {type : PropertyType} {property : String} {raw : Json}
    {value : Value} (coerced : type.coerce property raw = .ok value) :
    value.isNull = raw.isNull := by
  cases present : raw.isNull with
  | false => exact coerce_isNull present coerced
  | true =>
    cases type <;> simp only [coerce, PrimitiveType.coerce, present, if_true] at coerced <;>
      cases coerced <;> rfl

/-- No lossless type reads a single value from an array. -/
theorem PrimitiveType.coerceScalar_array {type : PrimitiveType} (lossless : type.isLossless = true)
    {property : String} {items : List Json} {s : Scalar} :
    type.coerceScalar property (.array items) ≠ .ok s := by
  cases type with
  | decimal | dateTime | enum => cases lossless
  | _ =>
    simp [coerceScalar, rawInteger, rawBoolean, rawDouble, rawDuration, Json.text?]

/-- Values are brought to a lossless type by their data forms. -/
theorem PrimitiveType.coerceValue_eq {type : PrimitiveType} (lossless : type.isLossless = true)
    (property : String) (value : Value) :
    type.coerceValue property value = type.coerce property value.toJson := by
  cases type with
  | enum => cases lossless
  | _ => rfl

namespace Entity

variable {type : EntityType} {record : Record} {e : Entity} {name : String} {p : Property}

/-- An entity has the values of the declared properties in its record. -/
theorem coerce_get (made : ofRecord type record = .ok e) (declared : type.property? name = some p) :
    p.type.coerce p.name (rawValue record p) = .ok (e.get name) := by
  obtain ⟨values, read, rfl⟩ := map_ok made
  obtain ⟨value, present, coerced⟩ := readProperties_lookup read declared
  rwa [get, get?, properties, present]

/-- An entity lacks the value of a declared property where its record does. -/
theorem isNull_get (made : ofRecord type record = .ok e)
    (declared : type.property? name = some p) :
    (e.get name).isNull = (rawValue record p).isNull :=
  PropertyType.isNull_of_coerce (coerce_get made declared)

/-- A record has for a property what it has under its name. -/
theorem rawValue_of_lookup {raw : Json} (found : record.lookup p.name = some raw) :
    rawValue record p = raw := by
  rw [rawValue, found, Option.some_or, Option.getD_some]

/-- The record of an entity has the data forms of its values under their names. -/
theorem rawValue_toRecord (distinct : (type.properties.map (·.name)).Nodup)
    (made : ofRecord type record = .ok e) (declared : type.property? name = some p) :
    e.toRecord.lookup p.name = some (e.get name).toJson := by
  have once := distinct_ofRecord distinct made
  obtain ⟨values, read, rfl⟩ := map_ok made
  obtain ⟨value, present, -⟩ := readProperties_lookup read declared
  obtain ⟨front, back, same, -⟩ := List.lookup_eq_some_iff.mp present
  have mem : (name, value) ∈ (Entity.mk type (keyAmong type values) values []).properties := by
    rw [properties, same]
    exact List.mem_append_right _ List.mem_cons_self
  rw [EntityType.property?_name declared, get, get?, properties, present]
  exact lookup_toRecord once mem

end Entity

/-- A key property is the one that is declared under its name. -/
theorem EntityType.property?_of_keyProperty? {type : EntityType} {p : Property}
    (declared : type.keyProperty? = some p) : type.property? p.name = some p := by
  obtain ⟨name, -, found⟩ := Option.bind_eq_some_iff.mp declared
  rwa [property?_name found]

/-- A record that has its key in the field of the key property, in a form that is read back. -/
def StoredRecord.OwnsKey (p : Property) (r : StoredRecord) : Prop :=
  ∀ key, r.key = some key → key.isNull = false ∧ p.type.coerce p.name key.toJson = .ok key ∧
    r.record.lookup p.name = some key.toJson

section

variable {type : EntityType} {record : Record} {e : Entity} {p : Property} {key : Value}

/-- The record of an entity owns the key that was read for it. -/
theorem StoredRecord.OwnsKey.of_made (element : p.type.element.isLossless = true)
    (distinct : (type.properties.map (·.name)).Nodup) (declared : type.keyProperty? = some p)
    (made : Entity.ofRecord type record = .ok e)
    (coerced : p.type.coerce p.name (Entity.rawValue record p) = .ok key)
    (present : key.isNull = false) : OwnsKey p ⟨some key, e.toRecord⟩ := by
  rintro _ ⟨⟩
  have named := EntityType.property?_of_keyProperty? declared
  have same := Entity.coerce_get made named
  rw [coerced, Except.ok.injEq] at same
  refine ⟨present, PropertyType.coerce_toJson element coerced, ?_⟩
  rw [Entity.rawValue_toRecord distinct made named, same]

/-- The entity of a record has the key that was read for it. -/
theorem Entity.id_of_coerced (declared : type.keyProperty? = some p)
    (made : Entity.ofRecord type record = .ok e)
    (coerced : p.type.coerce p.name (Entity.rawValue record p) = .ok key)
    (present : key.isNull = false) : e.id = some key := by
  rw [Entity.id_ofRecord made declared coerced, Option.filter_some, present]
  rfl

end

/-- What the normal form of a body has under the name of a property, and where it comes from. -/
theorem normalizeFields_lookup {type : EntityType} {mode : BodyMode}
    {body normalized found : Record} (normal : normalizeFields type mode body normalized = .ok found)
    {name : String} {p : Property} (declared : type.property? name = some p) :
    (found.lookup name = normalized.lookup name ∧
        (name ∈ body.map (·.1) → mode = .update ∧ type.key = some name)) ∨
      ∃ raw value, (name, raw) ∈ body ∧ p.type.coerce name raw = .ok value ∧
        (p.nullable = false → value.isNull = false) ∧ found.lookup name = some value.toJson := by
  induction body generalizing normalized with
  | nil =>
    cases normal
    exact .inl ⟨rfl, nofun⟩
  | cons field rest ih =>
    obtain ⟨other, raw⟩ := field
    rw [normalizeFields] at normal
    split at normal
    · cases normal
    rename_i q declared'
    split at normal
    · rename_i moved
      rw [Bool.and_eq_true, beq_iff_eq, beq_iff_eq] at moved
      rcases ih normal with ⟨same, unnamed⟩ | ⟨raw', value, mem, rest⟩
      · refine .inl ⟨same, fun mem => ?_⟩
        rcases List.mem_cons.mp mem with rfl | later
        · exact moved
        · exact unnamed later
      · exact .inr ⟨raw', value, List.mem_cons_of_mem _ mem, rest⟩
    split at normal
    · cases normal
    rename_i value coerced
    split at normal
    · cases normal
    rename_i present
    rcases ih normal with ⟨same, unnamed⟩ | ⟨raw', value', mem, rest⟩
    · rw [Record.lookup_set] at same
      by_cases own : name = other
      · -- A later field of the same name would have taken the place of this one.
        subst own
        rw [declared] at declared'
        cases declared'
        rw [beq_self_eq_true, if_pos rfl] at same
        refine .inr ⟨raw, value, List.mem_cons_self, coerced, fun required => ?_, same⟩
        simpa [required] using present
      · rw [beq_eq_false_iff_ne.mpr own, if_neg Bool.false_ne_true] at same
        refine .inl ⟨same, fun mem => unnamed ?_⟩
        exact (List.mem_cons.mp mem).resolve_left own
    · exact .inr ⟨raw', value', List.mem_cons_of_mem _ mem, rest⟩

/-- A body that is accepted is in its normal form. -/
theorem validateBody_normal {type : EntityType} {mode : BodyMode} {body found : Record}
    (valid : validateBody type body mode = .ok found) :
    normalizeFields type mode body [] = .ok found := by
  rw [validateBody] at valid
  split at valid
  · cases valid
  rename_i normalized normal
  dsimp only at valid
  split at valid <;> cases valid
  exact normal

/-- Whether a body that is accepted gives a property a value: it is named, or has to be. -/
def Gives (type : EntityType) (mode : BodyMode) (body : Record) (name : String) : Prop :=
  (mode = .create ∧ type.key ≠ some name) ∨
    (name ∈ body.map (·.1) ∧ (mode = .create ∨ type.key ≠ some name))

/-- An accepted body has a value for each property that cannot be null and that it gives one. -/
theorem validateBody_lookup {type : EntityType} {mode : BodyMode} {body found : Record}
    (valid : validateBody type body mode = .ok found) {name : String} {p : Property}
    (declared : type.property? name = some p) (required : p.nullable = false)
    (gives : Gives type mode body name) :
    ∃ raw value, (name, raw) ∈ body ∧ p.type.coerce name raw = .ok value ∧
      value.isNull = false ∧ found.lookup name = some value.toJson := by
  have normal := validateBody_normal valid
  -- What is missing from a body that creates an entity would have been found.
  have complete : mode = .create → type.key ≠ some name → (found.lookup name).isSome = true := by
    rintro rfl other
    rw [validateBody, normal] at valid
    dsimp only at valid
    split at valid
    · cases valid
    rename_i unfound
    have among : p ∈ requiredProperties type := by
      refine List.mem_filter.mpr ⟨List.mem_of_find?_eq_some declared, ?_⟩
      simp [required, EntityType.property?_name declared, other]
    have there := List.find?_eq_none.mp (Option.eq_none_iff_forall_ne_some.mpr
      fun q missing => unfound q rfl missing) p among
    rw [EntityType.property?_name declared] at there
    simpa [← Option.isSome_iff_ne_none] using there
  rcases normalizeFields_lookup normal declared with ⟨absent, unnamed⟩ | ⟨raw, value, mem, rest⟩
  · rcases gives with ⟨isNew, other⟩ | ⟨named, unmoved⟩
    · rw [absent] at complete
      cases complete isNew other
    · obtain ⟨updates, key⟩ := unnamed named
      rcases unmoved with isNew | other
      · cases updates.symm.trans isNew
      · exact absurd key other
  · exact ⟨raw, value, mem, rest.1, rest.2.1 required, rest.2.2⟩

/-- An accepted body has data other than null for such a property, but for zeros without a name. -/
theorem validateBody_isNull {type : EntityType} {mode : BodyMode} {body found : Record}
    (valid : validateBody type body mode = .ok found) {name : String} {p : Property}
    (declared : type.property? name = some p) (required : p.nullable = false)
    (gives : Gives type mode body name)
    (unnamed : ∀ raw value, (name, raw) ∈ body → p.type.coerce name raw = .ok value →
      value.isUnnamedZero = false) :
    ∃ raw, found.lookup name = some raw ∧ raw.isNull = false := by
  obtain ⟨raw, value, mem, coerced, present, there⟩ :=
    validateBody_lookup valid declared required gives
  refine ⟨_, there, ?_⟩
  rw [Value.isNull_toJson, present, unnamed raw value mem coerced]
  rfl

namespace Collection

variable {c made : Collection} {record changes : Record} {e : Entity} {p : Property} {name : String}

/-- Whether reading under the key of an entity makes no entity but one from its record. -/
def Keeps (c : Collection) (e : Entity) : Prop :=
  ∀ id found, e.id = some id → c.read id = .ok found →
    Entity.ofRecord c.type e.toRecord = .ok found

/-- Reading finds the first record under the key. -/
theorem read_inv {key : Value} {found : Entity} (read : c.read key = .ok found) :
    ∃ normal stored, normalizeKey c.name c.type key = .ok normal ∧
      c.records.find? (·.hasKey normal) = some stored ∧
      Entity.ofRecord c.type stored.record = .ok found := by
  obtain ⟨normal, coerced, read⟩ := bind_ok read
  split at read
  · cases read
  rename_i stored present
  exact ⟨normal, stored, coerced, present, mapError_ok read⟩

/-- A key that its property has read is its own normal form, if it has one. -/
theorem normalizeKey_self {set : String} {type : EntityType} {key normal : Value}
    (element : p.type.element.isLossless = true) (declared : type.keyProperty? = some p)
    (coerced : p.type.coerce p.name key.toJson = .ok key) (present : key.isNull = false)
    (normalized : normalizeKey set type key = .ok normal) : normal = key := by
  rw [normalizeKey, declared] at normalized
  have normalized := mapError_ok normalized
  rw [PrimitiveType.coerceValue_eq element] at normalized
  cases typed : p.type with
  | primitive type =>
    rw [typed] at coerced normalized
    exact Except.ok.inj (normalized.symm.trans coerced)
  | collection type =>
    -- The items of a collection are no single value, which a key has to be.
    rw [typed] at coerced normalized element
    have admitted := PropertyType.admits_coerce coerced
    rcases key with _ | s | items
    · cases present
    · cases admitted
    · obtain ⟨s, single, -⟩ := map_ok normalized
      exact absurd single (PrimitiveType.coerceScalar_array element)

/-- Reading under the key of an entity finds its record if that is the first one under the key. -/
theorem Keeps.of_first {key : Value} {before after : List StoredRecord}
    (element : p.type.element.isLossless = true) (declared : c.type.keyProperty? = some p)
    (own : e.id = some key) (coerced : p.type.coerce p.name key.toJson = .ok key)
    (present : key.isNull = false)
    (records : c.records = before ++ ⟨some key, e.toRecord⟩ :: after)
    (earlier : ∀ r ∈ before, r.hasKey key = false) : c.Keeps e := by
  intro id found sameId read
  rw [own, Option.some.injEq] at sameId
  subst sameId
  obtain ⟨normal, stored, normalized, first, made⟩ := read_inv read
  have self := normalizeKey_self element declared coerced present normalized
  subst self
  rw [records, List.find?_append, List.find?_eq_none.mpr fun r mem => by simp [earlier r mem],
    Option.none_or, List.find?_cons] at first
  split at first
  · cases first
    exact made
  · -- A key that is not the same as itself is the same as no other.
    rename_i other
    have later := List.find?_some first
    rw [StoredRecord.hasKey, Option.any_eq_true] at later
    obtain ⟨k, -, alike⟩ := later
    have reflexive := Value.same_trans (Value.same_comm k normal ▸ alike) alike
    rw [StoredRecord.hasKey, Option.any_some, reflexive] at other
    cases other

/-- A new entity is what is read under its key. -/
theorem create_keeps (created : c.create record = .ok (e, made))
    (declared : c.type.keyProperty? = some p) (element : p.type.element.isLossless = true) :
    made.Keeps e := by
  obtain ⟨q, key, declared', isNew, free, read, rfl⟩ := create_inv created
  rw [declared] at declared'
  cases declared'
  have coerced := coerce_newKey element declared isNew read
  have present := newKey_isNull isNew
  refine .of_first element declared (Entity.id_of_coerced declared read ?_ present) coerced present
    rfl fun r mem => ?_
  · rwa [Entity.rawValue_set]
  · by_contra held
    exact free ⟨r, mem, by simpa using held⟩

/-- A changed entity is what is read under its key where records own their keys. -/
theorem update_keeps {key : Value} (updated : c.update key changes = .ok (e, made))
    (declared : c.type.keyProperty? = some p) (element : p.type.element.isLossless = true)
    (others : changes.lookup p.name = none) (owned : ∀ r ∈ c.records, r.OwnsKey p) :
    made.Keeps e ∧ (e.get p.name).isNull = false := by
  obtain ⟨normal, before, s, after, -, first, read, rfl⟩ := update_inv updated
  have under := first.under
  rw [StoredRecord.hasKey, Option.any_eq_true] at under
  obtain ⟨k, own, alike⟩ := under
  obtain ⟨present, coerced, named⟩ := owned s (by simp [first.records]) k own
  -- The changes leave the key in its field.
  have kept : (merged s.record changes).lookup p.name = some k.toJson :=
    (Record.lookup_setAll others).trans named
  have raw := Entity.rawValue_of_lookup kept
  refine ⟨.of_first element declared (Entity.id_of_coerced declared read (raw ▸ coerced) present)
    coerced present (by rw [own]) fun r mem => ?_, ?_⟩
  · have different := first.earlier r mem
    rw [StoredRecord.hasKey, Option.any_eq_false] at different ⊢
    intro j isKey
    by_contra shared
    have both := Value.same_trans (Bool.not_eq_false _ ▸ shared) alike
    rw [different j isKey] at both
    cases both
  · rw [Entity.isNull_get read (EntityType.property?_of_keyProperty? declared), raw,
      ← PropertyType.isNull_of_coerce coerced, present]

end Collection

/-- A field that is set is among the fields, which keep different names. -/
theorem Record.nodup_set {record : Record} (once : (record.map (·.1)).Nodup) (name : String)
    (value : Json) : ((record.set name value).map (·.1)).Nodup ∧
      ∀ other, other ∈ (record.set name value).map (·.1) → other = name ∨ other ∈ record.map (·.1) := by
  induction record with
  | nil => simp [Record.set, Json.setField]
  | cons field rest ih =>
    obtain ⟨n, v⟩ := field
    rw [List.map_cons, List.nodup_cons] at once
    rw [Record.set, Json.setField]
    by_cases own : n = name
    · subst own
      simpa using once
    · obtain ⟨kept, among⟩ := ih once.2
      simp only [beq_eq_false_iff_ne.mpr own, Bool.false_eq_true, if_false, List.map_cons,
        List.nodup_cons]
      refine ⟨⟨fun mem => ?_, kept⟩, fun other mem => ?_⟩
      · exact (among n mem).elim own once.1
      · rcases List.mem_cons.mp mem with rfl | later
        · exact .inr List.mem_cons_self
        · exact (among other later).imp_right (List.mem_cons_of_mem _)

/-- The normal form of a body has fields of different names. -/
theorem nodup_normalizeFields {type : EntityType} {mode : BodyMode} {body normalized found : Record}
    (once : (normalized.map (·.1)).Nodup)
    (normal : normalizeFields type mode body normalized = .ok found) :
    (found.map (·.1)).Nodup := by
  induction body generalizing normalized with
  | nil =>
    cases normal
    exact once
  | cons field rest ih =>
    obtain ⟨other, raw⟩ := field
    rw [normalizeFields] at normal
    split at normal
    · cases normal
    split at normal
    · exact ih once normal
    split at normal
    · cases normal
    split at normal
    · cases normal
    · exact ih (Record.nodup_set once other _).1 normal

namespace Collection

variable {c made : Collection} {record changes : Record} {e : Entity} {p : Property} {name : String}
  {raw : Json}

/-- A new entity has what its record has for a property that is not the key. -/
theorem create_isNull (created : c.create record = .ok (e, made))
    (declared : c.type.property? name = some p) (other : c.type.key ≠ some name)
    (found : record.lookup name = some raw) : (e.get name).isNull = raw.isNull := by
  have own := EntityType.property?_name declared
  obtain ⟨q, key, keyProperty, -, -, read, -⟩ := create_inv created
  have apart : name ≠ q.name := by
    rintro rfl
    exact other (EntityType.key_of_keyProperty? keyProperty)
  have kept : (record.set q.name key.toJson).lookup p.name = some raw := by
    rw [Record.lookup_set, own, beq_eq_false_iff_ne.mpr apart, if_neg Bool.false_ne_true, found]
  rw [Entity.isNull_get read declared, Entity.rawValue_of_lookup kept]

/-- A new entity has a key. -/
theorem create_key (created : c.create record = .ok (e, made))
    (declared : c.type.keyProperty? = some p) (element : p.type.element.isLossless = true) :
    (e.get p.name).isNull = false := by
  obtain ⟨q, key, declared', isNew, -, read, -⟩ := create_inv created
  rw [declared] at declared'
  cases declared'
  have coerced := coerce_newKey element declared isNew read
  -- The key is set in its data form, which is null for no value of its type.
  rw [Entity.isNull_get read (EntityType.property?_of_keyProperty? declared), Entity.rawValue_set,
    Value.isNull_toJson, newKey_isNull isNew, PropertyType.isUnnamedZero_of_lossless element coerced]
  rfl

/-- A changed entity has what the changes have for a property. -/
theorem update_isNull {key : Value} (updated : c.update key changes = .ok (e, made))
    (declared : c.type.property? name = some p) (once : (changes.map (·.1)).Nodup)
    (found : changes.lookup name = some raw) : (e.get name).isNull = raw.isNull := by
  have own := EntityType.property?_name declared
  obtain ⟨-, -, r, -, -, -, read, -⟩ := update_inv updated
  obtain ⟨front, back, split, -⟩ := List.lookup_eq_some_iff.mp found
  have among : (name, raw) ∈ changes := by
    rw [split]
    exact List.mem_append_right _ List.mem_cons_self
  have kept : (merged r.record changes).lookup p.name = some raw :=
    own.symm ▸ Record.lookup_setAll_of_mem r.record once among
  rw [Entity.isNull_get read declared, Entity.rawValue_of_lookup kept]

end Collection

namespace Service

variable {v : Service Id} {s : EntitySet} {c made : Collection} {p : Property} {e : Entity}

/-- An operation that succeeds keeps records that own their keys. -/
theorem Done.ownsKey (type : c.type = s.type) (distinct : (s.type.properties.map (·.name)).Nodup)
    (declared : s.type.keyProperty? = some p) (element : p.type.element.isLossless = true)
    {o : Operation} {found : Option Entity} (changed : Done s c o found made)
    (owned : ∀ r ∈ c.records, r.OwnsKey p) : ∀ r ∈ made.records, r.OwnsKey p := by
  rw [← type] at distinct
  cases changed with
  | created valid stored =>
    obtain ⟨q, key, declared', isNew, -, read, rfl⟩ := Collection.create_inv stored
    rw [type, declared] at declared'
    cases declared'
    have coerced := Collection.coerce_newKey element (type ▸ declared) isNew read
    refine List.forall_mem_append.mpr ⟨owned, List.forall_mem_singleton.mpr ?_⟩
    refine .of_made element distinct (type ▸ declared) read ?_ (Collection.newKey_isNull isNew)
    rwa [Entity.rawValue_set]
  | read => exact owned
  | updated valid stored =>
    obtain ⟨normal, before, r, after, -, first, read, rfl⟩ := Collection.update_inv stored
    rw [first.records, List.forall_mem_append, List.forall_mem_cons] at owned
    refine List.forall_mem_append.mpr
      ⟨owned.1, List.forall_mem_cons.mpr ⟨fun key own => ?_, owned.2.2⟩⟩
    -- The changes do not name the key, so that it is read for the new record as for the old one.
    obtain ⟨present, coerced, named⟩ := owned.2.1 key own
    have others := lookup_checkBody valid (EntityType.key_of_keyProperty? declared)
    have raw := Entity.rawValue_of_lookup ((Record.lookup_setAll others).trans named)
    have own' := StoredRecord.OwnsKey.of_made element distinct (type ▸ declared) read
      (raw ▸ coerced) present
    exact own' key rfl
  | deleted removed =>
    obtain ⟨normal, before, r, after, -, first, rfl⟩ := Collection.delete_inv removed
    rw [first.records, List.forall_mem_append, List.forall_mem_cons] at owned
    exact List.forall_mem_append.mpr ⟨owned.1, owned.2.2⟩

/-- Seeds are stored so that they own their keys. -/
theorem ownsKey_of_normalizeAll {type : EntityType}
    (distinct : (type.properties.map (·.name)).Nodup) (declared : type.keyProperty? = some p)
    (element : p.type.element.isLossless = true) {records : List Record}
    {stored : List StoredRecord} (seeded : Collection.normalizeAll type records = .ok stored) :
    ∀ r ∈ stored, r.OwnsKey p := by
  induction records generalizing stored with
  | nil =>
    cases seeded
    exact List.forall_mem_nil _
  | cons record rest ih =>
    rw [Collection.normalizeAll] at seeded
    split at seeded
    · cases seeded
    rename_i e read
    obtain ⟨others, more, rfl⟩ := map_ok seeded
    refine List.forall_mem_cons.mpr ⟨fun key own => ?_, ih more⟩
    have coerced := Entity.coerce_get read (EntityType.property?_of_keyProperty? declared)
    have isId : e.id = some key := own
    rw [Entity.id_ofRecord read declared coerced, Option.filter_eq_some_iff] at isId
    obtain ⟨same, present⟩ := isId
    cases same
    exact StoredRecord.OwnsKey.of_made element distinct declared read coerced
      (by simpa using present) _ rfl

/-- Related entities are attached to an entity by an expansion, and nothing else changes. -/
theorem expand_properties {x : Expansion} {expanded : Entity}
    (done : v.expand e x = pure expanded) :
    expanded.type = e.type ∧ expanded.properties = e.properties := by
  cases x with
  | mk n target stages count select nested =>
    rw [expand] at done
    obtain ⟨condition, -, done⟩ := bind_eq_pure done
    have attached : ∃ found, e.attach n.name found = expanded := by
      cases condition with
      | none =>
        obtain ⟨found, -, done⟩ := bind_eq_pure done
        exact ⟨found, Except.ok.inj done⟩
      | some condition =>
        obtain ⟨found, -, done⟩ := bind_eq_pure done
        exact ⟨found, Except.ok.inj done⟩
    obtain ⟨found, rfl⟩ := attached
    exact ⟨rfl, rfl⟩

/-- Several expansions keep the properties of an entity. -/
theorem expandAll_properties {expansions : List Expansion} {expanded : Entity}
    (done : v.expandAll e expansions = pure expanded) :
    expanded.type = e.type ∧ expanded.properties = e.properties := by
  induction expansions generalizing e with
  | nil =>
    cases done
    exact ⟨rfl, rfl⟩
  | cons x rest ih =>
    rw [expandAll] at done
    obtain ⟨next, first, done⟩ := bind_eq_pure done
    obtain ⟨sameType, same⟩ := ih done
    obtain ⟨sameType', same'⟩ := expand_properties first
    exact ⟨sameType.trans sameType', same.trans same'⟩

/-- Entries under names that pass a test are found among those that do. -/
theorem lookup_filter (entries : List (String × Value)) (keeps : String → Bool) {name : String}
    (kept : keeps name = true) :
    (entries.filter fun entry => keeps entry.1).lookup name = entries.lookup name := by
  induction entries with
  | nil => rfl
  | cons entry rest ih =>
    rw [List.filter_cons]
    by_cases own : name = entry.1
    · subst own
      rw [if_pos kept, List.lookup_cons, List.lookup_cons, beq_self_eq_true]
    · have other : (name == entry.1) = false := beq_eq_false_iff_ne.mpr own
      rw [List.lookup_cons, other, ← ih]
      split
      · rw [List.lookup_cons, other]
      · rfl

/-- A response shows the value of each property that is not left out by the selection. -/
theorem finish_get {o : QueryOptions} {shown : Entity} (done : v.finish o e = pure shown)
    {name : String} (selected : o.select.all (·.contains name) = true) :
    shown.get name = e.get name := by
  rw [finish] at done
  obtain ⟨expanded, expands, done⟩ := bind_eq_pure done
  cases done
  obtain ⟨-, same⟩ := expandAll_properties expands
  cases chosen : o.select with
  | none =>
    rw [project, Entity.get, Entity.get?, same]
    rfl
  | some names =>
    rw [chosen, Option.all_some] at selected
    have kept : (names.contains name || expanded.type.key == some name) = true := by
      rw [selected, Bool.true_or]
    have found := lookup_filter e.properties
      (fun name => names.contains name || expanded.type.key == some name) kept
    rw [project, Entity.retain, Entity.get, Entity.get?, Entity.properties, same, Entity.get,
      Entity.get?, found]

/-- The entity that a request to read in memory answers is the one under the key, as it is shown. -/
theorem serve_read_ok (stores : v.Stores s c) {o : QueryOptions} {key : Value}
    {databases : Databases Id} {shown : Entity}
    (answered : (v.serve s ⟨.read o key, databases⟩).1 = .ok (some shown)) :
    ∃ found, c.read key = .ok found ∧
      ({ v with databases } : Service Id).finish o found = pure shown := by
  rw [serve] at answered
  split at answered
  · cases answered
  rename_i found collections performed
  cases answered
  have performed : ({ v with databases } : Service Id).perform s (.read o key) =
      pure (some shown, collections) := performed
  rw [perform, read, stores.backed] at performed
  obtain ⟨e, read, same⟩ := bind_eq_pure performed
  cases same
  obtain ⟨_, -, read⟩ := bind_eq_pure read
  obtain ⟨found, read, finished⟩ := bind_eq_pure read
  refine ⟨found, ?_, finished⟩
  have inMemory : ({ v with databases } : Service Id).collection s = c := stores.collection
  rw [← inMemory]
  exact settled_eq_pure read

end Service

/-- What a request writes, if it does: how its body is meant, and the body. -/
def Operation.written? : Operation → Option (BodyMode × Record)
  | .create body => body.map (.create, ·)
  | .update _ body => body.map (.update, ·)
  | _ => none

/-- A type whose properties have different names and whose keys are read back. -/
structure EntityType.ReadsKeysBack (type : EntityType) : Prop where
  distinct : (type.properties.map (·.name)).Nodup
  element : ∀ p, type.keyProperty? = some p → p.type.element.isLossless = true

namespace Service

variable {v : Service Id} {s : EntitySet} {c made : Collection} {p : Property} {e : Entity}
  {name : String} {mode : BodyMode} {body : Record}

/-- Whether records own their keys where the keys of a type are read back. -/
def OwnKeys (type : EntityType) (c : Collection) : Prop :=
  type.ReadsKeysBack → ∀ p, type.keyProperty? = some p → ∀ r ∈ c.records, r.OwnsKey p

/-- The entity that a creation or an update answers is made from a record. -/
theorem Done.made_written {o : Operation} (changed : Done s c o (some e) made)
    (writes : o.written? = some (mode, body)) : ∃ record, Entity.ofRecord c.type record = .ok e := by
  cases changed with
  | created _ stored =>
    obtain ⟨_, _, -, -, -, read, -⟩ := Collection.create_inv stored
    exact ⟨_, read⟩
  | read => cases writes
  | updated _ stored =>
    obtain ⟨_, _, _, _, -, -, read, -⟩ := Collection.update_inv stored
    exact ⟨_, read⟩

/-- The entity that a creation or an update answers is what is read under its key. -/
theorem Done.keeps_written (type : c.type = s.type) (owned : OwnKeys s.type c) {o : Operation}
    (changed : Done s c o (some e) made) (writes : o.written? = some (mode, body))
    (reads : s.type.ReadsKeysBack) : made.Keeps e := by
  cases changed with
  | created _ stored =>
    obtain ⟨q, -, declared, -⟩ := Collection.create_inv stored
    exact Collection.create_keeps stored declared (reads.element q (type ▸ declared))
  | read => cases writes
  | updated valid stored =>
    obtain ⟨_, _, _, _, normalized, -⟩ := Collection.update_inv stored
    obtain ⟨q, declared⟩ := Collection.exists_keyProperty normalized
    have declared' := type ▸ declared
    exact (Collection.update_keeps stored declared (reads.element q declared')
      (lookup_checkBody valid (EntityType.key_of_keyProperty? declared'))
      (owned reads q declared')).1

/-- What a body gives a property that cannot be null is a value of the entity that is answered. -/
theorem Done.isNull_written (type : c.type = s.type) (owned : OwnKeys s.type c) {o : Operation}
    (changed : Done s c o (some e) made) (writes : o.written? = some (mode, body))
    (declared : s.type.property? name = some p) (required : p.nullable = false)
    (covered : mode = .create ∨ name ∈ body.map (·.1))
    (keyed : s.type.key = some name → s.type.ReadsKeysBack)
    (unnamed : ∀ raw value, (name, raw) ∈ body → p.type.coerce name raw = .ok value →
      value.isUnnamedZero = false) : (e.get name).isNull = false := by
  have own : p.name = name := EntityType.property?_name declared
  have declared' : c.type.property? name = some p := type ▸ declared
  have keyProperty (isKey : s.type.key = some name) : s.type.keyProperty? = some p := by
    rw [EntityType.keyProperty?, isKey, Option.bind_some, declared]
  cases changed with
  | created valid stored =>
    obtain ⟨body', rfl, ⟨⟩⟩ := Option.map_eq_some_iff.mp writes
    by_cases isKey : s.type.key = some name
    · have element := (keyed isKey).element p (keyProperty isKey)
      exact own ▸ Collection.create_key stored (type ▸ keyProperty isKey) element
    · obtain ⟨raw, found, present⟩ :=
        validateBody_isNull (mapError_ok valid) declared required (.inl ⟨rfl, isKey⟩) unnamed
      rw [Collection.create_isNull stored declared' (type ▸ isKey) found, present]
  | read => cases writes
  | updated valid stored =>
    obtain ⟨body', rfl, ⟨⟩⟩ := Option.map_eq_some_iff.mp writes
    have named := covered.resolve_left (by simp)
    by_cases isKey : s.type.key = some name
    · -- The body cannot change the key, which is read from the record as before.
      have reads := keyed isKey
      have kept := Collection.update_keeps stored (type ▸ keyProperty isKey)
        (reads.element p (keyProperty isKey)) (lookup_checkBody valid (own ▸ isKey))
        (owned reads p (keyProperty isKey))
      exact own ▸ kept.2
    · obtain ⟨raw, found, present⟩ := validateBody_isNull (mapError_ok valid) declared required
        (.inr ⟨named, .inr isKey⟩) unnamed
      have empty : (([] : Record).map (·.1)).Nodup := List.nodup_nil
      have once := nodup_normalizeFields empty (validateBody_normal (mapError_ok valid))
      rw [Collection.update_isNull stored declared' once found, present]

/-- A set whose seeds are normalized has records that own their keys after any requests. -/
theorem after_ownKeys {records : List Record} (backed : s.backing = .memory)
    (seeded : Collection.ofRecords s.name s.type records = .ok c)
    (stored : v.collections.find? (·.name == s.name) = some c) (past : List Request) :
    ∃ held, (v.after s past).Stores s held ∧ OwnKeys s.type held := by
  obtain ⟨_, seeds, rfl⟩ := map_ok seeded
  refine after_keeps (fun c o found made type changed owned reads q declared => ?_)
    ⟨backed, stored, rfl⟩ (fun reads q declared => ?_) past
  · exact changed.ownsKey type reads.distinct declared (reads.element q declared)
      (owned reads q declared)
  · exact ownsKey_of_normalizeAll reads.distinct declared (reads.element q declared) seeds

/-- An entity that was written is read with a value where its own has a data form. -/
theorem read_isNull (stores : v.Stores s made) (kept : made.Keeps e)
    (distinct : (s.type.properties.map (·.name)).Nodup) {record : Record}
    (origin : Entity.ofRecord s.type record = .ok e) (declared : s.type.property? name = some p)
    {o : QueryOptions} {id : Value} {databases : Databases Id} {shown : Entity}
    (own : e.id = some id) (selected : o.select.all (·.contains name) = true)
    (answered : (v.serve s ⟨.read o id, databases⟩).1 = .ok (some shown)) :
    (shown.get name).isNull = (e.get name).toJson.isNull := by
  obtain ⟨found, read, finished⟩ := serve_read_ok stores answered
  have again := kept id found own read
  rw [stores.type] at again
  rw [finish_get finished selected, Entity.isNull_get again declared,
    Entity.rawValue_of_lookup (Entity.rawValue_toRecord distinct origin declared)]

end Service

/-- An enumeration without a name for zero. -/
def inkColours : Enumeration :=
  ⟨"Ink", [⟨"black", 1⟩, ⟨"red", 2⟩], false⟩

/-- Entities with a whole number as their key and a colour that cannot be null. -/
def labelType : EntityType :=
  ⟨"Label", some "n", [⟨"n", .primitive (.integer .int64), false, false, none⟩,
    ⟨"ink", .primitive (.enum inkColours), false, false, none⟩], []⟩

/-- A set of labels in memory. -/
def labelSet : EntitySet :=
  ⟨"labels", labelType, .all, .memory⟩

/-- A service without any label. -/
def labelService : Service Id :=
  ⟨⟨.default, [inkColours], [labelType], [labelSet], []⟩, [⟨"labels", labelType, []⟩], .none⟩


/-- A label. -/
def labelled (ink : Int64) : Entity :=
  ⟨labelType, some (.integer 0), [("n", .integer 0), ("ink", .scalar (.enum inkColours ink))], []⟩

/-- The keys of labels are read back. -/
theorem readsKeysBack_labelType : labelType.ReadsKeysBack where
  distinct := by decide
  element := by
    rintro p ⟨⟩
    rfl

end EdmQuery
