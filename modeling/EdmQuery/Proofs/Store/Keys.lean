import Mathlib
import EdmQuery.Proofs.Edm.Comparison
import EdmQuery.Proofs.Expr.Settled
import EdmQuery.Store.Collection

/-! Keys of sets in memory: no two records share one, whatever is created, updated and deleted. -/

namespace EdmQuery

open Number Calendar

namespace Scalar

/-- Values that are the same are of one kind. -/
theorem kind_of_same {a b : Scalar} (alike : a.same b = true) : a.kind = b.kind := by
  cases a <;> cases b <;> first
    | rfl
    | simp [same] at alike

/-- Two doubles are the same when they compare as equal. -/
theorem double_same (x y : Float) :
    (Scalar.double x).same (.double y) = (compareFloats x y == some .eq) := by
  rw [compareFloats_unpacked]
  rfl

/-- Sameness has no direction. -/
theorem same_comm (a b : Scalar) : a.same b = b.same a := by
  have swapped (x y : Option Ordering) (swap : x = y.map Ordering.swap) :
      (x == some .eq) = (y == some .eq) := by
    rcases y with _ | _ | _ | _ <;> cases swap <;> rfl
  cases a <;> cases b <;> try exact Bool.beq_comm
  case decimal.decimal a b =>
    simp only [same, @Std.OrientedCmp.eq_swap _ Decimal.compare _ a b]
    cases b.compare a <;> rfl
  case dateTime.dateTime a b =>
    simp only [same, @Std.OrientedCmp.eq_swap _ DateTime.compare _ a b]
    cases b.compare a <;> rfl
  case double.double x y =>
    rw [double_same, double_same]
    exact swapped _ _ (compareFloats_swap x y)

/-- What is the same as a third value is the same. -/
theorem same_trans {a b c : Scalar} (first : a.same b = true) (second : b.same c = true) :
    a.same c = true := by
  have alike := kind_of_same first
  have alike' := kind_of_same second
  cases a <;> cases b <;> simp only [kind, String.reduceEq] at alike <;>
    cases c <;> simp only [kind, String.reduceEq] at alike'
  case decimal.decimal.decimal =>
    exact beq_iff_eq.mpr (Std.TransCmp.eq_trans (eq_of_beq first) (eq_of_beq second))
  case dateTime.dateTime.dateTime =>
    exact beq_iff_eq.mpr (Std.TransCmp.eq_trans (eq_of_beq first) (eq_of_beq second))
  case double.double.double x y z =>
    -- A NaN is the same as nothing, so all three are compared by their keys.
    rw [double_same, compareFloats_eq] at *
    cases hx : isNaN x <;> cases hy : isNaN y <;> cases hz : isNaN z <;>
      simp only [hx, hy, hz, Bool.or_self, Bool.or_true, Bool.true_or, Bool.false_eq_true, if_true,
        if_false, beq_iff_eq, reduceCtorEq, Option.some.injEq] at first second ⊢
    exact Std.TransCmp.eq_trans first second
  all_goals exact beq_iff_eq.mpr ((eq_of_beq first).trans (eq_of_beq second))

end Scalar

namespace Value

/-- Sameness of items has no direction. -/
theorem sameItems_comm (as bs : List (Option Scalar)) : sameItems as bs = sameItems bs as := by
  fun_induction sameItems as bs with
  | case1 => rfl
  | case2 as bs ih => exact ih
  | case3 a as b bs ih => rw [sameItems, Scalar.same_comm, ih]
  | case4 as bs =>
    rcases as with _ | ⟨_ | _, _⟩ <;> rcases bs with _ | ⟨_ | _, _⟩ <;> simp_all [sameItems]

/-- Items that are the same as third ones are the same. -/
theorem sameItems_trans {as bs cs : List (Option Scalar)} (first : sameItems as bs = true)
    (second : sameItems bs cs = true) : sameItems as cs = true := by
  fun_induction sameItems as bs generalizing cs with
  | case1 => exact second
  | case2 as bs ih =>
    rcases cs with _ | ⟨_ | c, cs⟩ <;> simp only [sameItems, Bool.false_eq_true] at second ⊢
    exact ih first second
  | case3 a as b bs ih =>
    rcases cs with _ | ⟨_ | c, cs⟩ <;>
      simp only [sameItems, Bool.false_eq_true, Bool.and_eq_true] at first second ⊢
    exact ⟨Scalar.same_trans first.1 second.1, ih first.2 second.2⟩
  | case4 => cases first

/-- Sameness has no direction. -/
theorem same_comm (a b : Value) : a.same b = b.same a := by
  cases a <;> cases b <;> try rfl
  · exact Scalar.same_comm _ _
  · exact sameItems_comm _ _

/-- What is the same as a third value is the same. -/
theorem same_trans {a b c : Value} (first : a.same b = true) (second : b.same c = true) :
    a.same c = true := by
  cases a <;> cases b <;> simp only [same, Bool.false_eq_true] at first <;>
    cases c <;> simp only [same, Bool.false_eq_true] at second ⊢
  · exact Scalar.same_trans first second
  · exact sameItems_trans first second

end Value

/-- Data that is not null is coerced to a value that is not null. -/
theorem PropertyType.coerce_isNull {type : PropertyType} {property : String} {raw : Json}
    {value : Value} (present : raw.isNull = false) (coerced : type.coerce property raw = .ok value) :
    value.isNull = false := by
  cases type with
  | primitive type =>
    simp only [coerce, PrimitiveType.coerce, present, Bool.false_eq_true, if_false] at coerced
    cases found : type.coerceScalar property raw with
    | error fault => rw [found] at coerced; cases coerced
    | ok s =>
      rw [found] at coerced
      cases coerced
      rfl
  | collection element =>
    simp only [coerce, present, Bool.false_eq_true, if_false] at coerced
    split at coerced
    · rename_i items _
      cases found : element.coerceItems property items with
      | error fault => rw [found] at coerced; cases coerced
      | ok scalars =>
        rw [found] at coerced
        cases coerced
        rfl
    · cases coerced

/-- Whether a record is under no key that another one is stored under. -/
def StoredRecord.Apart (a b : StoredRecord) : Prop :=
  ∀ key, b.key = some key → a.hasKey key = false

namespace Collection

/-- Whether a record is stored under a key. -/
def Holds (c : Collection) (key : Value) : Prop :=
  ∃ s ∈ c.records, s.hasKey key = true

/-- Every record of a set has a key other than null, and no two records share one. -/
structure Keyed (c : Collection) : Prop where
  present : ∀ s ∈ c.records, ∃ key, s.key = some key ∧ key.isNull = false
  apart : c.records.Pairwise StoredRecord.Apart

/-- The one record of a set under a key, with the records before and after it. -/
structure Sole (c : Collection) (key : Value) (before : List StoredRecord) (s : StoredRecord)
    (after : List StoredRecord) : Prop where
  records : c.records = before ++ s :: after
  under : s.hasKey key = true
  others : ∀ r ∈ before ++ after, r.hasKey key = false

/-- The first record of a set under a key, with the records before and after it. -/
structure First (c : Collection) (key : Value) (before : List StoredRecord) (s : StoredRecord)
    (after : List StoredRecord) : Prop where
  records : c.records = before ++ s :: after
  under : s.hasKey key = true
  earlier : ∀ r ∈ before, r.hasKey key = false

variable {c made : Collection} {key normal : Value} {record changes : Record} {e : Entity}
  {before after : List StoredRecord} {s : StoredRecord}

/-- Two records that are apart are not under one key. -/
theorem not_hasKey {a b : StoredRecord} (apart : a.Apart b) (present : b.key.isSome = true)
    (under : a.hasKey key = true) : b.hasKey key = false := by
  obtain ⟨k, own⟩ := Option.isSome_iff_exists.mp present
  by_contra shared
  have first : k.same key = true := by simpa [StoredRecord.hasKey, own] using shared
  cases found : a.key with
  | none => simp [StoredRecord.hasKey, found] at under
  | some j =>
    have second : j.same key = true := by simpa [StoredRecord.hasKey, found] using under
    have alike : j.same k = true := Value.same_trans second (Value.same_comm k key ▸ first)
    have different := apart k own
    simp [StoredRecord.hasKey, found, alike] at different

/-- The record that is found under a key is the first one. -/
theorem first_of_find (found : c.records.find? (·.hasKey key) = some s) :
    ∃ before after, c.First key before s after := by
  obtain ⟨under, before, after, records, earlier⟩ := List.find?_eq_some_iff_append.mp found
  exact ⟨before, after, records, under, fun r mem => by simpa using earlier r mem⟩

/-- The first record under a key is the only one where records have different keys. -/
theorem Keyed.sole (keyed : c.Keyed) (first : c.First key before s after) :
    c.Sole key before s after := by
  refine ⟨first.records, first.under, fun r mem => ?_⟩
  obtain early | late := List.mem_append.mp mem
  · exact first.earlier r early
  · have apart := keyed.apart
    rw [first.records, List.pairwise_append, List.pairwise_cons] at apart
    obtain ⟨k, own, -⟩ := keyed.present r (by simp [first.records, late])
    exact not_hasKey (apart.2.1.1 r late) (by simp [own]) first.under

/-- Replacing the record under a key puts the new one in its place, under the same key. -/
theorem replace_eq (first : c.First key before s after) (record : Record) :
    replace key record c.records = before ++ ⟨s.key, record⟩ :: after := by
  obtain ⟨records, under, earlier⟩ := first
  rw [records]
  clear records
  induction before with
  | nil => simp [replace, under]
  | cons r rest ih =>
    rw [List.forall_mem_cons] at earlier
    simp [replace, earlier.1, ih earlier.2]

/-- The key of a new record is not null. -/
theorem newKey_isNull {property : Property} (made : c.newKey property record = .ok key) :
    key.isNull = false := by
  rw [newKey] at made
  split at made
  · rename_i raw given
    have present : raw.isNull = false := by
      simpa using (Option.filter_eq_some_iff.mp given).2
    exact PropertyType.coerce_isNull present (mapError_ok made)
  · rw [freshKey] at made
    -- Every key that is made rather than given is an integer.
    repeat' split at made
    all_goals cases made
    all_goals rfl

/-- A creation makes an entity with its key in it, and stores it at the end under that key. -/
theorem create_inv (created : c.create record = .ok (e, made)) :
    ∃ property key, c.type.keyProperty? = some property ∧ c.newKey property record = .ok key ∧
      ¬ c.Holds key ∧ Entity.ofRecord c.type (record.set property.name key.toJson) = .ok e ∧
      made = { c with records := c.records ++ [⟨some key, e.toRecord⟩] } := by
  rw [create] at created
  split at created
  · cases created
  rename_i property declared
  obtain ⟨key, isNew, created⟩ := bind_ok created
  split at created
  · cases created
  rename_i free
  obtain ⟨entity, read, created⟩ := bind_ok created
  cases created
  exact ⟨property, key, declared, isNew, by simpa [Holds] using free, mapError_ok read, rfl⟩

/-- An update makes an entity of the first record under the key, and stores it in its place. -/
theorem update_inv (updated : c.update key changes = .ok (e, made)) :
    ∃ normal before s after, normalizeKey c.name c.type key = .ok normal ∧
      c.First normal before s after ∧ Entity.ofRecord c.type (merged s.record changes) = .ok e ∧
      made = { c with records := before ++ ⟨s.key, e.toRecord⟩ :: after } := by
  obtain ⟨normal, coerced, updated⟩ := bind_ok updated
  split at updated
  · cases updated
  rename_i s found
  obtain ⟨entity, read, updated⟩ := bind_ok updated
  cases updated
  obtain ⟨before, after, first⟩ := first_of_find found
  exact ⟨normal, before, s, after, coerced, first, mapError_ok read, by rw [replace_eq first]⟩

/-- A deletion takes away the first record under the key. -/
theorem delete_inv (deleted : c.delete key = .ok made) :
    ∃ normal before s after, normalizeKey c.name c.type key = .ok normal ∧
      c.First normal before s after ∧ made = { c with records := before ++ after } := by
  obtain ⟨normal, coerced, deleted⟩ := bind_ok deleted
  split at deleted
  · rename_i present
    cases deleted
    obtain ⟨s, found⟩ :=
      Option.isSome_iff_exists.mp (List.find?_isSome.mpr (List.any_eq_true.mp present))
    obtain ⟨before, after, first⟩ := first_of_find found
    refine ⟨normal, before, s, after, coerced, first, ?_⟩
    rw [first.records, List.eraseP_append_right, List.eraseP_cons_of_pos first.under]
    intro r mem
    simpa using first.earlier r mem
  · cases deleted

/-- A set with a new record under a key that it does not hold stays keyed. -/
theorem Keyed.append (keyed : c.Keyed) (present : key.isNull = false) (free : ¬ c.Holds key) :
    Keyed { c with records := c.records ++ [⟨some key, record⟩] } where
  present := by
    intro s mem
    obtain old | new := List.mem_append.mp mem
    · exact keyed.present s old
    · cases List.mem_singleton.mp new
      exact ⟨key, rfl, present⟩
  apart := by
    refine List.pairwise_append.mpr ⟨keyed.apart, List.pairwise_singleton _ _, ?_⟩
    intro a old b new k own
    cases List.mem_singleton.mp new
    cases own
    by_contra shared
    exact free ⟨a, old, by simpa using shared⟩

/-- A set stays keyed when one of its records changes under its key. -/
theorem Keyed.replaced (keyed : c.Keyed) (records : c.records = before ++ s :: after) :
    Keyed { c with records := before ++ ⟨s.key, record⟩ :: after } where
  present := by
    intro r mem
    obtain ⟨old, kept, own⟩ : ∃ old ∈ c.records, old.key = r.key := by
      rw [records]
      simp only [List.mem_append, List.mem_cons] at mem ⊢
      obtain early | rfl | late := mem
      · exact ⟨r, .inl early, rfl⟩
      · exact ⟨s, .inr (.inl rfl), rfl⟩
      · exact ⟨r, .inr (.inr late), rfl⟩
    exact own ▸ keyed.present old kept
  apart := by
    -- Whether records are apart is a matter of their keys alone.
    have apart := keyed.apart
    rw [records] at apart
    simpa [List.pairwise_append, List.pairwise_cons, StoredRecord.Apart, StoredRecord.hasKey]
      using apart

/-- A set stays keyed when one of its records is taken away. -/
theorem Keyed.removed (keyed : c.Keyed) (records : c.records = before ++ s :: after) :
    Keyed { c with records := before ++ after } where
  present r mem :=
    keyed.present r (records ▸ ((List.sublist_cons_self s after).append_left before).mem mem)
  apart := (records ▸ keyed.apart).sublist ((List.sublist_cons_self s after).append_left before)

/-- An update finds nothing exactly when no record is under the key. -/
theorem update_notFound (coerced : normalizeKey c.name c.type key = .ok normal)
    (changes : Record) :
    (∃ fault, c.update key changes = .error fault ∧ fault.failure = .notFound) ↔
      ¬ c.Holds normal := by
  simp only [update, coerced, Bind.bind, Except.bind]
  cases found : c.records.find? (·.hasKey normal) with
  | none =>
    refine iff_of_true ⟨_, rfl, rfl⟩ ?_
    rintro ⟨s, mem, under⟩
    exact List.find?_eq_none.mp found s mem under
  | some s =>
    refine iff_of_false ?_ fun free =>
      free ⟨s, List.mem_of_find?_eq_some found, List.find?_some found⟩
    -- What is left to fail is the body, which is no fault of the key.
    dsimp only
    cases Entity.ofRecord c.type (merged s.record changes) with
    | error fault => rintro ⟨_, ⟨⟩, ⟨⟩⟩
    | ok entity => rintro ⟨_, ⟨⟩, -⟩

/-- A deletion finds nothing exactly when no record is under the key. -/
theorem delete_notFound (coerced : normalizeKey c.name c.type key = .ok normal) :
    (∃ fault, c.delete key = .error fault ∧ fault.failure = .notFound) ↔ ¬ c.Holds normal := by
  simp only [delete, coerced, Bind.bind, Except.bind]
  split
  · rename_i present
    refine iff_of_false (by rintro ⟨_, ⟨⟩, -⟩) fun free => free ?_
    simpa [Holds] using present
  · rename_i absent
    exact iff_of_true ⟨_, rfl, rfl⟩ (by simpa [Holds] using absent)

end Collection

end EdmQuery
