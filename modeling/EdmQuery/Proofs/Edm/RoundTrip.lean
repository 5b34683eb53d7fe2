import Mathlib
import EdmQuery.Proofs.Calendar.Duration
import EdmQuery.Proofs.Calendar.Text
import EdmQuery.Proofs.Data.Guid
import EdmQuery.Proofs.Edm.Typing
import EdmQuery.Proofs.Expr.Settled
import EdmQuery.Proofs.Number.Double

/-! Typed values are read back from their data forms, and entities from their records. -/

namespace EdmQuery

open Number Calendar

/-- Whether every value that a type reads is read back from its data form.

A decimal is written as the nearest double, a point in time with a long year is written in a form
that is not read, and an enumeration may give one name to several numbers. -/
def PrimitiveType.isLossless : PrimitiveType → Bool
  | .decimal => false
  | .dateTime => false
  | .enum _ => false
  | _ => true

/-- A double is read back from its data form. -/
theorem rawDouble_doubleJson (x : Float) : rawDouble (Scalar.doubleJson x) = some x := by
  rw [Scalar.doubleJson]
  split
  · rfl
  · rename_i special
    rw [rawDouble, Scalar.doubleText]
    rw [isFinite] at special
    cases read : Reading.ofFloat x with
    | nan =>
      rw [ofFloat_nan read]
      rfl
    | infinite negative =>
      rw [ofFloat_infinite read]
      cases negative <;> rfl
    | finite b =>
      rw [read] at special
      exact absurd rfl special

/-- The data form of a double is not null. -/
theorem isNull_doubleJson (x : Float) : (Scalar.doubleJson x).isNull = false := by
  rw [Scalar.doubleJson]
  split <;> rfl

/-- An integer type has no value outside 64 signed bits. -/
theorem IntegerType.range_within (width : IntegerType) :
    -(2 ^ 63) ≤ width.range.1 ∧ width.range.2 < 2 ^ 63 := by
  cases width <;> decide

/-- An integer is read from its data form as what it is. -/
theorem rawInteger_ofInt (n : Int64) : rawInteger (.ofInt n.toInt) = some n.toInt := by
  have low := n.le_toInt
  have high := n.toInt_lt
  have within : Numeral.isSigned64 n.toInt = true := by
    simp only [Numeral.isSigned64, Bool.and_eq_true, decide_eq_true_eq]
    omega
  rw [Json.ofInt, rawInteger]
  simp only [Numeral.toInt64?, within, if_true, Int64.ofInt_toInt]

/-- The data form of a single value is null for nothing but an enumeration's empty set of flags. -/
theorem Scalar.isNull_toJson {type : PrimitiveType} (lossless : type.isLossless = true)
    {s : Scalar} (admitted : type.admits s = true) : s.toJson.isNull = false := by
  cases s with
  | decimal d => exact isNull_doubleJson d.toFloat
  | double x => exact isNull_doubleJson x
  | enum e n =>
    cases type with
    | enum e => cases lossless
    | _ => cases admitted
  | _ => rfl

namespace PrimitiveType

variable {type : PrimitiveType} {property : String}

/-- A value that a lossless type has read is read back from its data form. -/
theorem coerceScalar_toJson (lossless : type.isLossless = true) {raw : Json} {s : Scalar}
    (coerced : type.coerceScalar property raw = .ok s) :
    type.coerceScalar property s.toJson = .ok s := by
  have admitted := admits_coerceScalar coerced
  cases type with
  | integer width =>
    simp only [coerceScalar] at coerced
    split at coerced
    · rename_i found
      cases coerced
      obtain ⟨n, -, kept⟩ := Option.bind_eq_some_iff.mp found
      split at kept
      · rename_i within
        cases kept
        -- The range of the type lies within 64 bits, so the number is kept as it is.
        obtain ⟨low, high⟩ := width.range_within
        have same : (Int64.ofInt n).toInt = n := by
          simp only [Bool.and_eq_true, decide_eq_true_eq] at within
          exact Int64.toInt_ofInt_of_le (by omega) (by omega)
        have read := rawInteger_ofInt (Int64.ofInt n)
        rw [same] at read
        simp only [coerceScalar, Scalar.toJson, same, read, Option.bind_some, if_pos within]
      · cases kept
    · cases coerced
  | boolean =>
    cases s with
    | boolean b => rfl
    | _ => cases admitted
  | single =>
    cases s with
    | double x => simp only [coerceScalar, Scalar.toJson, rawDouble_doubleJson, Option.map_some]
    | _ => cases admitted
  | double =>
    cases s with
    | double x => simp only [coerceScalar, Scalar.toJson, rawDouble_doubleJson, Option.map_some]
    | _ => cases admitted
  | string =>
    cases s with
    | string text => rfl
    | _ => cases admitted
  | date =>
    cases s with
    | date d =>
      simp only [coerceScalar, Scalar.toJson, Json.text?, Option.bind_some, parseDate_toText,
        Option.map_some]
    | _ => cases admitted
  | timeOfDay =>
    cases s with
    | timeOfDay t =>
      simp only [coerceScalar, Scalar.toJson, Json.text?, Option.bind_some, parseTimeOfDay_toText,
        Option.map_some]
    | _ => cases admitted
  | duration =>
    cases s with
    | duration d =>
      simp only [coerceScalar, Scalar.toJson, rawDuration, Duration.parse_toText, Option.map_some]
    | _ => cases admitted
  | guid =>
    cases s with
    | guid g =>
      simp only [coerceScalar, Scalar.toJson, Json.text?, Option.bind_some, Guid.parse_toText,
        Option.map_some]
    | _ => cases admitted
  | decimal => cases lossless
  | dateTime => cases lossless
  | enum e => cases lossless

/-- Items that a lossless type has read are read back from their data forms. -/
theorem coerceItems_toJson (lossless : type.isLossless = true) {raws : List Json}
    {items : List (Option Scalar)} (coerced : type.coerceItems property raws = .ok items) :
    type.coerceItems property (items.map fun item => (item.map Scalar.toJson).getD .null)
      = .ok items := by
  induction raws generalizing items with
  | nil =>
    cases coerced
    rfl
  | cons raw rest ih =>
    rw [coerceItems] at coerced
    split at coerced
    · obtain ⟨others, more, rfl⟩ := map_ok coerced
      rw [List.map_cons, coerceItems]
      simp only [Option.map_none, Option.getD_none, Json.isNull, if_true, ih more]
      rfl
    · split at coerced
      · cases coerced
      · rename_i s first
        obtain ⟨others, more, rfl⟩ := map_ok coerced
        have present := Scalar.isNull_toJson lossless (admits_coerceScalar first)
        rw [List.map_cons, coerceItems]
        simp only [Option.map_some, Option.getD_some, present, Bool.false_eq_true, if_false,
          coerceScalar_toJson lossless first, ih more]
        rfl

end PrimitiveType

/-- A value that a property of a lossless type has read is read back from its data form. -/
theorem PropertyType.coerce_toJson {type : PropertyType} {property : String}
    (lossless : type.element.isLossless = true) {raw : Json} {value : Value}
    (coerced : type.coerce property raw = .ok value) :
    type.coerce property value.toJson = .ok value := by
  cases type with
  | primitive type =>
    simp only [coerce, PrimitiveType.coerce] at coerced ⊢
    split at coerced
    · cases coerced
      rfl
    · obtain ⟨s, found, rfl⟩ := map_ok coerced
      have lossless : type.isLossless = true := lossless
      have present := Scalar.isNull_toJson lossless (PrimitiveType.admits_coerceScalar found)
      simp only [Value.toJson, present, Bool.false_eq_true, if_false,
        PrimitiveType.coerceScalar_toJson lossless found]
      rfl
  | collection element =>
    simp only [coerce] at coerced
    split at coerced
    · cases coerced
      rfl
    · split at coerced
      · obtain ⟨items, found, rfl⟩ := map_ok coerced
        have lossless : element.isLossless = true := lossless
        simp only [coerce, Value.toJson, Json.isNull, Bool.false_eq_true, if_false,
          PrimitiveType.coerceItems_toJson lossless found]
        rfl
      · cases coerced

/-- An integer that a property of an integer type reads is the one that was written. -/
theorem PropertyType.coerce_ofInt {type : PropertyType} {property : String}
    (integral : type.element.isIntegral = true) {n : Int64} {value : Value}
    (coerced : type.coerce property (.ofInt n.toInt) = .ok value) : value = .integer n := by
  cases type with
  | collection element => cases coerced
  | primitive type =>
    cases type with
    | integer width =>
      obtain ⟨s, found, rfl⟩ := map_ok coerced
      simp only [PrimitiveType.coerceScalar, rawInteger_ofInt, Option.bind_some] at found
      split at found
      · rename_i kept
        split at kept
        · cases kept
          cases found
          rw [Int64.ofInt_toInt]
        · cases kept
      · cases found
    | _ => cases integral

namespace Record

/-- A field that is set has its value, and every other one the value that it had. -/
theorem lookup_set (record : Record) (name other : String) (value : Json) :
    (record.set name value).lookup other
      = if other == name then some value else record.lookup other := by
  induction record with
  | nil =>
    simp only [Record.set, Json.setField, List.lookup_cons, List.lookup_nil]
    cases other == name <;> rfl
  | cons field rest ih =>
    obtain ⟨n, v⟩ := field
    simp only [Record.set, Json.setField] at ih ⊢
    by_cases own : n = name
    · subst own
      simp only [beq_self_eq_true, if_true, List.lookup_cons]
      cases other == n <;> rfl
    · simp only [beq_eq_false_iff_ne.mpr own, Bool.false_eq_true, if_false, List.lookup_cons, ih]
      by_cases asked : other = n
      · simp [asked, own]
      · simp [beq_eq_false_iff_ne.mpr asked]

/-- A field that is not among those that are set has the value that it had. -/
theorem lookup_setAll {record changes : Record} {name : String}
    (other : changes.lookup name = none) :
    (changes.foldl (fun found (field, value) => found.set field value) record).lookup name
      = record.lookup name := by
  induction changes generalizing record with
  | nil => rfl
  | cons change rest ih =>
    rw [List.lookup_cons] at other
    cases own : name == change.1 with
    | true => simp [own] at other
    | false =>
      simp only [own] at other
      rw [List.foldl_cons, ih other, lookup_set, own]
      rfl

/-- A field that is set once has the value that it is set to. -/
theorem lookup_setAll_of_mem (record : Record) {changes : Record} (once : (changes.map (·.1)).Nodup)
    {name : String} {value : Json} (mem : (name, value) ∈ changes) :
    (changes.foldl (fun found (field, value) => found.set field value) record).lookup name
      = some value := by
  induction changes generalizing record with
  | nil => cases mem
  | cons change rest ih =>
    rw [List.map_cons, List.nodup_cons] at once
    rw [List.foldl_cons]
    obtain rfl | later := List.mem_cons.mp mem
    · have last : rest.lookup name = none :=
        List.lookup_eq_none_iff.mpr fun field among =>
          bne_iff_ne.mpr fun same => once.1 (List.mem_map.mpr ⟨field, among, same.symm⟩)
      rw [lookup_setAll last, lookup_set, beq_self_eq_true, if_pos rfl]
    · exact ih _ once.2 later

end Record

/-- A type whose properties have different names and are read back from their data forms. -/
structure EntityType.Lossless (type : EntityType) : Prop where
  distinct : (type.properties.map (·.name)).Nodup
  elements : ∀ p ∈ type.properties, p.type.element.isLossless = true

namespace Entity

/-- Whether a value is the one that a record has for a property. -/
def Reads (record : Record) (p : Property) (value : String × Value) : Prop :=
  value.1 = p.name ∧ p.type.coerce p.name (rawValue record p) = .ok value.2

/-- Reading properties gives for each of them, in order, the value that the record has for it. -/
theorem readProperties_eq_ok {record : Record} {properties : List Property}
    {values : List (String × Value)} :
    readProperties record properties = .ok values ↔
      List.Forall₂ (Reads record) properties values := by
  induction properties generalizing values with
  | nil =>
    rw [List.forall₂_nil_left_iff]
    exact ⟨fun read => (Except.ok.inj read).symm, fun none => none ▸ rfl⟩
  | cons p rest ih =>
    rw [readProperties, List.forall₂_cons_left_iff]
    constructor
    · intro read
      split at read
      · cases read
      rename_i value coerced
      obtain ⟨others, more, rfl⟩ := map_ok read
      exact ⟨_, others, ⟨rfl, coerced⟩, ih.mp more, rfl⟩
    · rintro ⟨⟨name, value⟩, others, ⟨own, coerced⟩, more, rfl⟩
      cases own
      simp only [coerced, ih.mpr more]
      rfl

/-- An entity that is made from a record has the values of the declared properties in it. -/
theorem ofRecord_eq_ok {type : EntityType} {record : Record} {e : Entity} :
    ofRecord type record = .ok e ↔
      ∃ values, List.Forall₂ (Reads record) type.properties values ∧
        e = .mk type (keyAmong type values) values [] := by
  constructor
  · intro made
    obtain ⟨values, read, rfl⟩ := map_ok made
    exact ⟨values, readProperties_eq_ok.mp read, rfl⟩
  · rintro ⟨values, read, rfl⟩
    rw [ofRecord, readProperties_eq_ok.mpr read]
    rfl

/-- The key of an entity that is made from a record is what the record has for the key property. -/
theorem id_ofRecord {type : EntityType} {record : Record} {e : Entity}
    (made : ofRecord type record = .ok e) {p : Property} (key : type.keyProperty? = some p)
    {value : Value} (coerced : p.type.coerce p.name (rawValue record p) = .ok value) :
    e.id = (some value).filter fun value => !value.isNull := by
  obtain ⟨values, read, rfl⟩ := map_ok made
  obtain ⟨name, named, declared⟩ := Option.bind_eq_some_iff.mp key
  obtain ⟨found, present, coerced'⟩ := readProperties_lookup read declared
  rw [coerced] at coerced'
  cases coerced'
  rw [id, keyAmong, named, Option.bind_some, present]

/-- The record of an entity has the data form of each value under the name of its property. -/
theorem lookup_toRecord {e : Entity} (distinct : (e.properties.map (·.1)).Nodup)
    {value : String × Value} (mem : value ∈ e.properties) :
    e.toRecord.lookup value.1 = some value.2.toJson := by
  have once : ((e.properties.map fun v => (v.1, v.2.toJson)).map (·.1)).Nodup := by
    rwa [List.map_map]
  have among : (value.1, value.2.toJson) ∈ e.properties.map fun v => (v.1, v.2.toJson) :=
    List.mem_map_of_mem mem
  have found := Record.lookup_setAll_of_mem [] once among
  rwa [List.foldl_map] at found

/-- The values that are read for properties have their names. -/
theorem names_eq {record : Record} {properties : List Property} {values : List (String × Value)}
    (read : List.Forall₂ (Reads record) properties values) :
    values.map (·.1) = properties.map (·.name) := by
  induction read with
  | nil => rfl
  | cons own _ ih => rw [List.map_cons, List.map_cons, own.1, ih]

/-- An entity has one value under each of the different names of its properties. -/
theorem distinct_ofRecord {type : EntityType} (distinct : (type.properties.map (·.name)).Nodup)
    {record : Record} {e : Entity} (made : ofRecord type record = .ok e) :
    (e.properties.map (·.1)).Nodup := by
  obtain ⟨values, read, rfl⟩ := ofRecord_eq_ok.mp made
  exact names_eq read ▸ distinct

/-- An entity is made again from its record when its values are read back from their data forms. -/
theorem ofRecord_toRecord {type : EntityType} (lossless : type.Lossless) {record : Record}
    {e : Entity} (made : ofRecord type record = .ok e) : ofRecord type e.toRecord = .ok e := by
  have distinct := distinct_ofRecord lossless.distinct made
  obtain ⟨values, read, rfl⟩ := ofRecord_eq_ok.mp made
  obtain ⟨lengths, each⟩ := List.forall₂_iff_zip.mp read
  refine ofRecord_eq_ok.mpr ⟨values, List.forall₂_iff_zip.mpr ⟨lengths, ?_⟩, rfl⟩
  intro p value pair
  obtain ⟨declared, mem⟩ := List.of_mem_zip pair
  obtain ⟨own, coerced⟩ := each pair
  refine ⟨own, ?_⟩
  have found := lookup_toRecord distinct mem
  rw [rawValue, ← own, found, Option.some_or, Option.getD_some, own]
  exact PropertyType.coerce_toJson (lossless.elements p declared) coerced

end Entity

end EdmQuery
