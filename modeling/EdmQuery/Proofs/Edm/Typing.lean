import Mathlib
import EdmQuery.Edm.Entity
import EdmQuery.Proofs.Edm.Comparison

/-! Entities made from records hold values of the types that their properties declare. -/

namespace EdmQuery

/-- Whether a type has a single value; floating types share one kind, integers another. -/
def PrimitiveType.admits : PrimitiveType → Scalar → Bool
  | .boolean, .boolean _ => true
  | .integer _, .integer _ => true
  | .single, .double _ => true
  | .double, .double _ => true
  | .decimal, .decimal _ => true
  | .string, .string _ => true
  | .date, .date _ => true
  | .dateTime, .dateTime _ => true
  | .timeOfDay, .timeOfDay _ => true
  | .duration, .duration _ => true
  | .guid, .guid _ => true
  | .enum e, .enum f _ => e == f
  | _, _ => false

/-- Whether a declared type has a value; null belongs to every type. -/
def PropertyType.admits : PropertyType → Value → Bool
  | _, .null => true
  | .primitive type, .scalar s => type.admits s
  | .collection element, .collection items => items.all fun item => item.all (element.admits ·)
  | _, _ => false

/-- An entity of a type: each property that can be named has a value of its declared type. -/
def Entity.Typed (type : EntityType) (e : Entity) : Prop :=
  ∀ name p, type.property? name = some p → p.type.admits (e.get name) = true

/-- Whether a value is a NaN. -/
def Value.isNaN : Value → Bool
  | .double x => EdmQuery.isNaN x
  | _ => false

/-- A declared property is found under its own name. -/
theorem EntityType.property?_name {type : EntityType} {name : String} {p : Property}
    (found : type.property? name = some p) : p.name = name := by
  simpa using List.find?_some found

namespace PrimitiveType

/-- What raw data is coerced to belongs to the type. -/
theorem admits_coerceScalar {type : PrimitiveType} {property : String} {raw : Json} {s : Scalar}
    (coerced : type.coerceScalar property raw = .ok s) : type.admits s = true := by
  -- Each type reads the data in its own way and then applies its own constructor.
  cases type with
  | integer width =>
    simp only [coerceScalar] at coerced
    split at coerced
    · rename_i found
      cases coerced
      obtain ⟨n, -, within⟩ := Option.bind_eq_some_iff.mp found
      split at within
      · cases within
        rfl
      · cases within
    · cases coerced
  | enum e =>
    cases raw with
    | text members =>
      simp only [coerceScalar] at coerced
      cases parsed : e.parseMembers members with
      | error fault => rw [parsed] at coerced; cases coerced
      | ok value =>
        rw [parsed] at coerced
        cases coerced
        simp [admits]
    | number n =>
      simp only [coerceScalar] at coerced
      split at coerced
      · rename_i found
        cases coerced
        obtain ⟨value, -, rfl⟩ := Option.map_eq_some_iff.mp found
        simp [admits]
      · cases coerced
    | _ => simp [coerceScalar] at coerced
  | _ =>
    simp only [coerceScalar] at coerced
    split at coerced
    · rename_i found
      cases coerced
      obtain ⟨value, -, rfl⟩ := Option.map_eq_some_iff.mp found
      rfl
    · cases coerced

/-- Items that raw data is coerced to belong to the type of the elements. -/
theorem admits_coerceItems {element : PrimitiveType} {property : String} {raws : List Json}
    {items : List (Option Scalar)} (coerced : element.coerceItems property raws = .ok items) :
    items.all (fun item => item.all (element.admits ·)) = true := by
  induction raws generalizing items with
  | nil =>
    cases coerced
    rfl
  | cons raw rest ih =>
    rw [coerceItems] at coerced
    split at coerced
    · cases more : element.coerceItems property rest with
      | error fault => rw [more] at coerced; cases coerced
      | ok others =>
        rw [more] at coerced
        cases coerced
        simpa using ih more
    · split at coerced
      · cases coerced
      · rename_i first
        cases more : element.coerceItems property rest with
        | error fault => rw [more] at coerced; cases coerced
        | ok others =>
          rw [more] at coerced
          cases coerced
          rw [List.all_cons, ih more]
          simpa using admits_coerceScalar first

end PrimitiveType

/-- What raw data is coerced to belongs to the declared type. -/
theorem PropertyType.admits_coerce {type : PropertyType} {property : String} {raw : Json}
    {value : Value} (coerced : type.coerce property raw = .ok value) : type.admits value = true := by
  cases type with
  | primitive type =>
    simp only [coerce, PrimitiveType.coerce] at coerced
    split at coerced
    · cases coerced
      rfl
    · cases found : type.coerceScalar property raw with
      | error fault => rw [found] at coerced; cases coerced
      | ok s =>
        rw [found] at coerced
        cases coerced
        exact PrimitiveType.admits_coerceScalar found
  | collection element =>
    simp only [coerce] at coerced
    split at coerced
    · cases coerced
      rfl
    · split at coerced
      · rename_i items _
        cases found : element.coerceItems property items with
        | error fault => rw [found] at coerced; cases coerced
        | ok scalars =>
          rw [found] at coerced
          cases coerced
          exact PrimitiveType.admits_coerceItems found
      · cases coerced

namespace Entity

/-- Properties that are read have under their names the values that were read for them. -/
theorem readProperties_lookup {record : Record} {properties : List Property}
    {values : List (String × Value)} (read : readProperties record properties = .ok values)
    {name : String} {p : Property} (found : properties.find? (·.name == name) = some p) :
    ∃ value, values.lookup name = some value ∧
      p.type.coerce p.name (rawValue record p) = .ok value := by
  induction properties generalizing values with
  | nil => cases found
  | cons q rest ih =>
    rw [readProperties] at read
    split at read
    · cases read
    rename_i value coerced
    cases more : readProperties record rest with
    | error fault => rw [more] at read; cases read
    | ok others =>
      rw [more] at read
      cases read
      rw [List.find?_cons] at found
      by_cases same : q.name = name
      · -- The first property of a name is the one that its value is read for.
        simp only [same, beq_self_eq_true] at found
        cases found
        exact ⟨value, by simp [same], coerced⟩
      · simp only [beq_eq_false_iff_ne.mpr same] at found
        obtain ⟨value, present, read⟩ := ih more found
        refine ⟨value, ?_, read⟩
        rw [List.lookup_cons, beq_eq_false_iff_ne.mpr (Ne.symm same)]
        exact present

/-- An entity that is made from a record of a type is one of that type. -/
theorem typed_ofRecord {type : EntityType} {record : Record} {e : Entity}
    (made : ofRecord type record = .ok e) : e.Typed type := by
  rw [ofRecord] at made
  cases read : readProperties record type.properties with
  | error fault => rw [read] at made; cases made
  | ok values =>
    rw [read] at made
    cases made
    intro name p declared
    obtain ⟨value, present, coerced⟩ := readProperties_lookup read declared
    rw [get, get?, properties, present]
    exact PropertyType.admits_coerce coerced

end Entity

/-- Two single values of one type are of one kind. -/
theorem Scalar.kind_eq {type : PrimitiveType} {a b : Scalar} (left : type.admits a = true)
    (right : type.admits b = true) : a.kind = b.kind := by
  cases type <;> cases a <;> simp only [PrimitiveType.admits, Bool.false_eq_true] at left <;>
    cases b <;> simp only [PrimitiveType.admits, Bool.false_eq_true] at right <;> rfl

/-- Two single values of one type have an order unless one of them is a NaN. -/
theorem Scalar.compare_isSome {type : PrimitiveType} {a b : Scalar} (left : type.admits a = true)
    (right : type.admits b = true) (number : (Value.scalar a).isNaN = false)
    (number' : (Value.scalar b).isNaN = false) : (a.compare b).isSome = true := by
  cases type <;> cases a <;> simp only [PrimitiveType.admits, Bool.false_eq_true] at left <;>
    cases b <;> simp only [PrimitiveType.admits, Bool.false_eq_true] at right <;> try rfl
  case enum.enum.enum e f m g n =>
    obtain rfl := eq_of_beq left
    obtain rfl := eq_of_beq right
    simp [compare]
  -- Doubles have an order when neither is a NaN, whichever floating type they belong to.
  all_goals
    simp only [Value.isNaN] at number number'
    simp [compare, Scalar.toFloat?, compareFloats_eq, number, number']

end EdmQuery
