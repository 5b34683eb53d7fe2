import Mathlib
import EdmQuery.Proofs.Query.Records

/-! Keys for new records: one more than the greatest integer key, while the key type has it. -/

namespace EdmQuery

/-- A record has no value other than null under a name. -/
def Record.Lacks (record : Record) (name : String) : Prop :=
  ∀ raw, (name, raw) ∈ record → raw = .null

/-- The integer that a record is stored under, where its key is one. -/
def StoredRecord.integerKey? (s : StoredRecord) : Option Int :=
  match s.key with
  | some (.integer n) => some n.toInt
  | _ => none

namespace Collection

/-- The integers among the keys of a set, in the order of the records. -/
def integerKeys (c : Collection) : List Int :=
  c.records.filterMap (·.integerKey?)

/-- The integer after the greatest one among the keys of a set, zero where none is an integer. -/
def nextKey (c : Collection) : Int :=
  match c.integerKeys.max? with
  | none => 0
  | some greatest => greatest + 1

end Collection

/-- An integer that is a value of an integer type is in its range. -/
theorem PropertyType.range_of_coerce {type : PropertyType} {width : IntegerType}
    (integral : type.element = .integer width) {property : String} {n : Int64} {value : Value}
    (coerced : type.coerce property (.ofInt n.toInt) = .ok value) :
    width.range.1 ≤ n.toInt ∧ n.toInt ≤ width.range.2 := by
  cases type with
  | collection element => cases coerced
  | primitive type =>
    -- The number is not changed by being read, so the check of its range was about itself.
    cases integral
    obtain ⟨s, found, rfl⟩ := map_ok coerced
    simp only [PrimitiveType.coerceScalar, rawInteger_ofInt, Option.bind_some] at found
    by_contra outside
    rw [if_neg (by simpa using outside)] at found
    cases found

/-- The normal form of a body has no value under a name that the body has none under. -/
theorem filter_lookup_normalizeFields {type : EntityType} {mode : BodyMode}
    {body normalized found : Record} {name : String} (lacks : body.Lacks name)
    (free : (normalized.lookup name).filter (!·.isNull) = none)
    (normal : normalizeFields type mode body normalized = .ok found) :
    (found.lookup name).filter (!·.isNull) = none := by
  -- The fields are taken in turn, and what is in normal form already stays general.
  induction body generalizing normalized with
  | nil =>
    cases normal
    exact free
  | cons field rest ih =>
    have others : Record.Lacks rest name := fun raw mem => lacks raw (.tail _ mem)
    obtain ⟨other, raw⟩ := field
    rw [normalizeFields] at normal
    split at normal
    · cases normal
    rename_i property _
    split at normal
    · -- A field that is passed over adds nothing.
      exact ih others free normal
    split at normal
    · cases normal
    rename_i value coerced
    split at normal
    · cases normal
    -- A field that is taken is set, which matters only if it has the name.
    refine ih others ?_ normal
    rw [Record.lookup_set]
    cases own : name == other with
    | false => exact free
    | true =>
      -- The field of the name is a null, which is normal already.
      cases eq_of_beq own
      rw [lacks raw List.mem_cons_self, PropertyType.coerce_null] at coerced
      cases coerced
      rfl

/-- A record that is found under an integer is stored under it. -/
theorem StoredRecord.key_of_hasKey_integer {s : StoredRecord} {n : Int64}
    (under : s.hasKey (.integer n) = true) : s.key = some (.integer n) := by
  rw [hasKey] at under
  cases own : s.key with
  | none =>
    rw [own] at under
    cases under
  | some value =>
    rw [own] at under
    -- Of all values only the integer itself is equal to an integer.
    cases value with
    | null | collection items => cases under
    | scalar a =>
      cases a with
      | integer m =>
        have same : Scalar.integer m = .integer n := eq_of_beq under
        rw [same]
      | _ => cases under

namespace Collection

variable {c made : Collection} {record : Record} {p : Property} {width : IntegerType}

/-- The search for the greatest key goes over the keys that are integers. -/
theorem greatestKey_eq_foldl (c : Collection) :
    greatestKey c.records
      = c.integerKeys.foldl (fun greatest n => some (max n (greatest.getD n))) none := by
  rw [integerKeys, List.foldl_filterMap, greatestKey]
  -- Both folds take the same step at each record, whatever its key is.
  congr 1
  funext greatest s
  obtain ⟨_ | _ | a | _, _⟩ := s
  case some.scalar => cases a <;> rfl
  all_goals rfl

/-- The greatest integer among stored keys is the maximum of those that are integers. -/
theorem greatestKey_eq (c : Collection) : greatestKey c.records = c.integerKeys.max? := by
  -- Once there is a greatest key the steps are those of a maximum.
  have begun (keys : List Int) (greatest : Int) :
      keys.foldl (fun greatest n => some (max n (greatest.getD n))) (some greatest)
        = some (keys.foldl max greatest) := by
    induction keys generalizing greatest with
    | nil => rfl
    | cons n rest ih => rw [List.foldl_cons, ih, Option.getD_some, List.foldl_cons, max_comm]
  rw [greatestKey_eq_foldl]
  cases c.integerKeys with
  | nil => rfl
  | cons n rest => rw [List.foldl_cons, Option.getD_none, max_self, begun, List.max?_cons']

/-- An integer key is less than the next key. -/
theorem lt_nextKey {s : StoredRecord} (mem : s ∈ c.records) {n : Int}
    (own : s.integerKey? = some n) : n < c.nextKey := by
  have among : n ∈ c.integerKeys := List.mem_filterMap.mpr ⟨s, mem, own⟩
  rw [nextKey]
  split
  · -- There would be no integer among the keys.
    rename_i none
    rw [List.max?_eq_none_iff.mp none] at among
    cases among
  · rename_i greatest found
    exact Int.lt_add_one_of_le ((List.max?_eq_some_iff.mp found).2 n among)

/-- The next key is not below the values. -/
theorem neg_le_nextKey (c : Collection) : -(2 ^ 63) ≤ c.nextKey := by
  rw [nextKey]
  split
  · decide
  · -- The greatest key is a value itself, so one more is above the least value.
    rename_i greatest found
    obtain ⟨s, -, own⟩ := List.mem_filterMap.mp (List.max?_mem found)
    rw [StoredRecord.integerKey?] at own
    split at own
    · rename_i n _
      cases own
      have low := n.le_toInt
      omega
    · cases own

/-- The next key as a value, while it is one. -/
theorem toInt_nextKey (fits : c.nextKey < 2 ^ 63) : (Int64.ofInt c.nextKey).toInt = c.nextKey :=
  Int64.toInt_ofInt_of_le c.neg_le_nextKey fits

/-- The next key is not stored. -/
theorem not_holds_nextKey (fits : c.nextKey < 2 ^ 63) :
    ¬ c.Holds (.integer (Int64.ofInt c.nextKey)) := by
  rintro ⟨s, mem, under⟩
  -- A record that is stored under it would have a key less than itself.
  have own := StoredRecord.key_of_hasKey_integer under
  have equal : s.integerKey? = some c.nextKey := by
    rw [StoredRecord.integerKey?, own]
    exact congrArg some (toInt_nextKey fits)
  exact (lt_nextKey mem equal).false

/-- The key of a record that brings none is the next one, while it is a value. -/
theorem newKey_eq (integral : p.type.element = .integer width)
    (keyless : (record.lookup p.name).filter (!·.isNull) = none) :
    c.newKey p record =
      if c.nextKey < 2 ^ 63 then .ok (.integer (Int64.ofInt c.nextKey))
      else .error (.exhaustedKeys (c.nextKey - 1) c.name p.name) := by
  simp only [newKey, keyless, freshKey, integral, PrimitiveType.isIntegral, Bool.not_true,
    Bool.false_eq_true, if_false, greatestKey_eq]
  cases found : c.integerKeys.max? with
  | none =>
    -- Keys begin with zero.
    have next : c.nextKey = 0 := by rw [nextKey, found]
    rw [next]
    rfl
  | some greatest =>
    have next : c.nextKey = greatest + 1 := by rw [nextKey, found]
    rw [next, add_sub_cancel_right]

/-- A creation without a key is that of an entity with the next key, while it is a value. -/
theorem create_keyless (declared : c.type.keyProperty? = some p)
    (integral : p.type.element = .integer width)
    (keyless : (record.lookup p.name).filter (!·.isNull) = none) :
    c.create record =
      if c.nextKey < 2 ^ 63 then
        ((Entity.ofRecord c.type (record.set p.name (.ofInt c.nextKey))).mapError .invalidBody).map
          fun e => (e, { c with
            records := c.records ++ [⟨some (.integer (Int64.ofInt c.nextKey)), e.toRecord⟩] })
      else .error (.exhaustedKeys (c.nextKey - 1) c.name p.name) := by
  simp only [create, declared, newKey_eq integral keyless]
  split
  · -- The key is free, so nothing but the entity itself can be refused.
    rename_i fits
    have free : c.records.any (·.hasKey (.integer (Int64.ofInt c.nextKey))) = false := by
      simpa [Holds] using not_holds_nextKey fits
    have data : (Value.integer (Int64.ofInt c.nextKey)).toJson = .ofInt c.nextKey :=
      congrArg Json.ofInt (toInt_nextKey fits)
    show (if _ then _ else _) = _
    rw [free, data]
    cases Entity.ofRecord c.type (record.set p.name (.ofInt c.nextKey)) <;> rfl
  · rfl

/-- A creation without a key that succeeds has the next key, which is in range and was free. -/
theorem create_keyless_ok (declared : c.type.keyProperty? = some p)
    (integral : p.type.element = .integer width)
    (keyless : (record.lookup p.name).filter (!·.isNull) = none) {e : Entity}
    (created : c.create record = .ok (e, made)) :
    ∃ n : Int64, n.toInt = c.nextKey ∧ e.id = some (.integer n) ∧
      (width.range.1 ≤ n.toInt ∧ n.toInt ≤ width.range.2) ∧ ¬ c.Holds (.integer n) ∧
      made = { c with records := c.records ++ [⟨some (.integer n), e.toRecord⟩] } := by
  rw [create_keyless declared integral keyless] at created
  split at created
  · rename_i fits
    obtain ⟨e', read, ⟨⟩⟩ := map_ok created
    have read := mapError_ok read
    have next := toInt_nextKey fits
    -- The key property reads the number that was set for it, and gives the entity its key.
    obtain ⟨value, coerced, -⟩ := Entity.exists_key read declared
    rw [Entity.rawValue_set, ← next] at coerced
    have own := PropertyType.coerce_ofInt (by rw [integral]; rfl) coerced
    refine ⟨Int64.ofInt c.nextKey, next, ?_, PropertyType.range_of_coerce integral coerced,
      not_holds_nextKey fits, rfl⟩
    rw [Entity.id_ofRecord read declared (by rw [Entity.rawValue_set, ← next]; exact coerced), own]
    rfl
  · cases created

/-- A creation without a key fails as the client's fault, if it does. -/
theorem create_keyless_fault (declared : c.type.keyProperty? = some p)
    (integral : p.type.element = .integer width)
    (keyless : (record.lookup p.name).filter (!·.isNull) = none) {fault : RequestError}
    (failed : c.create record = .error fault) : fault.isClientError = true := by
  rw [create_keyless declared integral keyless] at failed
  split at failed
  · -- Only the entity is left to be refused, for the key or for another value.
    cases read : Entity.ofRecord c.type (record.set p.name (.ofInt c.nextKey)) with
    | error _ => rw [read] at failed; cases failed; rfl
    | ok _ => rw [read] at failed; cases failed
  · cases failed
    rfl

end Collection

namespace Service

variable {v : Service Id} {s : EntitySet} {c : Collection}

/-- The answer to a creation with a valid body is the entity, or the fault of the contents. -/
theorem serve_create (stores : v.Stores s c) {body : Option Record} {record : Record}
    (able : allowed s .create = .ok ()) (valid : checkBody s body .create = .ok record)
    (databases : Databases Id) :
    v.serve s ⟨.create body, databases⟩ =
      match c.create record with
      | .error fault => (.error fault, v)
      | .ok (e, made) => (.ok (some e), { v with collections := v.replaced made }) := by
  have stores' : { v with databases }.Stores s c := ⟨stores.backed, stores.found, stores.type⟩
  rw [serve, perform_create stores' able valid]
  cases c.create record <;> rfl

/-- A body that has no value under the name of the key has none in its normal form. -/
theorem filter_lookup_checkBody {body record : Record}
    (valid : checkBody s (some body) .create = .ok record) {name : String}
    (lacks : body.Lacks name) : (record.lookup name).filter (!·.isNull) = none := by
  have valid := mapError_ok valid
  rw [validateBody] at valid
  split at valid
  · cases valid
  rename_i normalized normal
  dsimp only at valid
  split at valid
  · cases valid
  · cases valid
    exact filter_lookup_normalizeFields lacks rfl normal

/-- After any requests, a new entity without a key has the next integer key or is refused.

The key that it gets is zero where no integer key is stored and one more than the greatest one
otherwise; it is in the range of the key type and was not stored. Where it would be outside that
range, or of the values, the client is told so and the records stay as they are. Nothing else
refuses the creation than an entity that cannot be made with the key in its record. -/
theorem creations_take_next_key {records : List Record} {p : Property} {width : IntegerType}
    (backed : s.backing = .memory) (seeded : Collection.ofRecords s.name s.type records = .ok c)
    (stored : v.collections.find? (·.name == s.name) = some c)
    (declared : s.type.keyProperty? = some p) (integral : p.type.element = .integer width)
    (able : allowed s .create = .ok ()) {body record : Record}
    (accepted : checkBody s (some body) .create = .ok record) (keyless : body.Lacks p.name)
    (past : List Request) (databases : Databases Id) :
    let held := (v.after s past).collection s
    let served := (v.after s past).serve s ⟨.create (some body), databases⟩
    (∀ found, served.1 = .ok found → ∃ e n, found = some e ∧ e.id = some (.integer n) ∧
      n.toInt = held.nextKey ∧ (width.range.1 ≤ n.toInt ∧ n.toInt ≤ width.range.2) ∧
      ¬ held.Holds (.integer n) ∧
      (served.2.collection s).records = held.records ++ [⟨some (.integer n), e.toRecord⟩]) ∧
    (held.nextKey < width.range.1 ∨ width.range.2 < held.nextKey ∨ 2 ^ 63 ≤ held.nextKey →
      ∃ fault, served.1 = .error fault ∧ fault.isClientError = true ∧
        (served.2.collection s).records = held.records) ∧
    ∀ e, served.1 = .ok (some e) ↔ held.nextKey < 2 ^ 63 ∧
      Entity.ofRecord s.type (record.set p.name (.ofInt held.nextKey)) = .ok e := by
  -- Whatever has been asked before, the set has contents of its own type in memory.
  obtain ⟨_, -, ⟨⟩⟩ := map_ok seeded
  obtain ⟨held, stores, -⟩ := after_keeps (P := fun _ => True) (fun _ _ _ _ _ _ _ => trivial)
    (⟨backed, stored, rfl⟩ : v.Stores s _) trivial past
  have lacking := filter_lookup_checkBody accepted keyless
  rw [← stores.type] at declared
  rw [stores.collection]
  dsimp only
  -- The answer is what those contents make of the record in normal form.
  rw [serve_create stores able accepted]
  refine ⟨?_, ?_, ?_⟩
  · -- A creation that succeeds gets the next key and appends one record.
    intro found answered
    cases created : held.create record with
    | error fault => rw [created] at answered; cases answered
    | ok done =>
      obtain ⟨e, made⟩ := done
      rw [created] at answered
      cases answered
      obtain ⟨n, next, own, within, free, rfl⟩ :=
        Collection.create_keyless_ok declared integral lacking created
      let made : Collection :=
        { held with records := held.records ++ [⟨some (.integer n), e.toRecord⟩] }
      have stores' : Stores { v.after s past with collections := (v.after s past).replaced made } s
          made :=
        stores.replaced stores.name stores.type
      exact ⟨e, n, rfl, own, next, within, free, by rw [stores'.collection]⟩
  · -- Outside the range it cannot succeed, and a refusal leaves the contents alone.
    intro outside
    cases created : held.create record with
    | error fault =>
      exact ⟨fault, rfl, Collection.create_keyless_fault declared integral lacking created,
        by rw [stores.collection]⟩
    | ok done =>
      obtain ⟨n, next, -, within, -, -⟩ :=
        Collection.create_keyless_ok declared integral lacking created
      have fits := n.toInt_lt
      omega
  · -- It succeeds exactly if the key is a value and the entity can be made with it.
    intro e
    rw [Collection.create_keyless declared integral lacking, stores.type]
    by_cases fits : held.nextKey < 2 ^ 63
    · rw [if_pos fits]
      cases Entity.ofRecord s.type (record.set p.name (.ofInt held.nextKey)) with
      | error fault => exact iff_of_false nofun (by rintro ⟨-, ⟨⟩⟩)
      | ok made =>
        constructor
        · rintro ⟨⟩
          exact ⟨fits, rfl⟩
        · rintro ⟨-, ⟨⟩⟩
          rfl
    · rw [if_neg fits]
      exact iff_of_false nofun fun both => fits both.1

/-- Entities with a byte as their key, which not all of them have, and a label. -/
def counterType : EntityType :=
  ⟨"Counter", some "n", [⟨"n", .primitive (.integer .byte), true, false, none⟩,
    ⟨"label", .primitive .string, true, false, none⟩], []⟩

/-- A set of such entities in memory. -/
def counterSet : EntitySet :=
  ⟨"counters", counterType, .all, .memory⟩

/-- Two counters, of which one has no key. -/
def counters : Collection :=
  ⟨"counters", counterType,
    [⟨some (.integer 254), [("n", .ofInt 254), ("label", .text "high")]⟩,
      ⟨none, [("n", .null), ("label", .text "none")]⟩]⟩

/-- A service with the counters. -/
def counterService : Service Id :=
  ⟨⟨.default, [], [counterType], [counterSet], []⟩, [counters], .none⟩

/-- A counter that is made after the greatest but one is the last to get a key. -/
theorem creations_take_next_key_of_counters :
    let label : Record := [("label", .text "new")]
    let last := counterService.serve counterSet ⟨.create (some label), .none⟩
    let full := last.2.serve counterSet ⟨.create (some label), .none⟩
    (∃ e n, last.1 = .ok (some e) ∧ e.id = some (.integer n) ∧ n.toInt = 255) ∧
      ∃ fault, full.1 = .error fault ∧ fault.isClientError = true ∧
        (full.2.collection counterSet).records.map (·.key)
          = [some (.integer 254), none, some (.integer 255)] := by
  intro label last full
  have seeded : Collection.ofRecords counterSet.name counterSet.type
      [[("n", .ofInt 254), ("label", .text "high")], [("label", .text "none")]]
      = .ok counters := by cbv
  have keyless : Record.Lacks label "n" := by
    intro raw mem
    simp [label] at mem
  have accepted : checkBody counterSet (some label) .create = .ok label := by cbv
  have taken (past : List Request) := creations_take_next_key (v := counterService)
    rfl seeded rfl rfl rfl rfl accepted keyless past .none
  constructor
  · have answered : last.1 = .ok (some (.mk counterType (some (.integer 255))
        [("n", .integer 255), ("label", .scalar (.string "new"))] [])) := by cbv
    obtain ⟨e, n, found, own, next, -⟩ := (taken []).1 _ answered
    have greatest : (counterService.collection counterSet).nextKey = 255 := by cbv
    exact ⟨e, n, found ▸ answered, own, next.trans greatest⟩
  · have greatest : ((counterService.after counterSet
        [⟨.create (some label), .none⟩]).collection counterSet).nextKey = 256 := by cbv
    obtain ⟨fault, refused, mended, kept⟩ := (taken [⟨.create (some label), .none⟩]).2.1
      (.inr (.inl (by rw [greatest]; decide)))
    refine ⟨fault, refused, mended, (congrArg (List.map (·.key)) kept).trans ?_⟩
    cbv

end Service

end EdmQuery
