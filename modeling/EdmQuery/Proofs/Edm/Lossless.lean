import Mathlib
import EdmQuery.Proofs.Calendar.DateTime
import EdmQuery.Proofs.Edm.Enumeration
import EdmQuery.Proofs.Edm.RoundTrip
import EdmQuery.Proofs.Expr.Alike
import EdmQuery.Proofs.Number.FewDigits

/-! Values of every type are read back from their data forms, where the form says all of the value. -/

namespace EdmQuery

open Number Calendar

/-- A decimal of few digits is read back from its data form as an equal one. -/
theorem rawDecimal_doubleJson {d : Decimal} (short : d.isShort = true) :
    ∃ again, rawDecimal (Scalar.doubleJson d.toFloat) = some again ∧ d.compare again = .eq := by
  obtain ⟨b, reading, again, read, equal⟩ := Decimal.read_toFloat short
  refine ⟨again, ?_, equal⟩
  have number : isFinite d.toFloat = true := by rw [isFinite, reading]
  rw [Scalar.doubleJson, if_pos number]
  simp only [rawDecimal, Numeral.toText, reading, read]

/-- Whether the data form of a value of an enumeration says which one it is.

That is the list of its members, which have to stand for all of it, or the number of a value that
has none. The form of a zero without a name is null. -/
def Enumeration.isFaithful (e : Enumeration) (value : Int64) : Bool :=
  if e.membersOf value = [] then value != 0
  else
    (e.membersOf value).all Member.isPlain && (e.isFlags || (e.membersOf value).length == 1) &&
      e.named value == value

/-- Whether the data form of a value says which one it is. -/
def Scalar.isFaithful : Scalar → Bool
  | .decimal d => d.isShort
  | .dateTime t => 0 ≤ t.date.year && t.date.year < 10000
  | .enum e value => e.isFaithful value
  | _ => true

/-- Whether the data form of a value says which one it is, for each item of a collection. -/
def Value.isFaithful : Value → Bool
  | .null => true
  | .scalar s => s.isFaithful
  | .collection items => items.all fun item => item.all Scalar.isFaithful

/-- Whether a value is what a type reads for another one: the same, or for decimals an equal one. -/
def PrimitiveType.Restores (type : PrimitiveType) (s again : Scalar) : Prop :=
  if type = .decimal then s.same again = true else again = s

/-- A value of an enumeration is read back from its data form, which is not null. -/
theorem Enumeration.coerceScalar_toJson {e : Enumeration} {value : Int64} (property : String)
    (faithful : e.isFaithful value = true) :
    (Scalar.toJson (.enum e value)).isNull = false ∧
      PrimitiveType.coerceScalar (.enum e) property (Scalar.toJson (.enum e value)) =
        .ok (.enum e value) := by
  rw [isFaithful] at faithful
  split at faithful
  · -- Without a name the number is written, and numbers are taken as they are.
    rename_i nameless
    have formatted : e.format value = none := by rw [format, nameless]
    have other : (value == 0) = false := by simpa using faithful
    have within : Numeral.isSigned64 value.toInt = true := by
      have low := value.le_toInt
      have high := value.toInt_lt
      simp only [Numeral.isSigned64, Bool.and_eq_true, decide_eq_true_eq]
      omega
    simp only [Scalar.toJson, formatted, other, Bool.false_eq_true, if_false, Json.ofInt,
      PrimitiveType.coerceScalar, Numeral.toInt64?, within, if_true, Option.map_some,
      Int64.ofInt_toInt, Json.isNull, and_self]
  · rename_i some_
    simp only [Bool.and_eq_true, List.all_eq_true, Bool.or_eq_true, beq_iff_eq] at faithful
    obtain ⟨⟨plain, combines⟩, whole⟩ := faithful
    obtain ⟨text, formatted⟩ : ∃ text, e.format value = some text := by
      rw [format]
      split
      · rename_i nameless
        exact absurd nameless some_
      · exact ⟨_, rfl⟩
    have parsed := parseMembers_format plain formatted
    rw [if_pos combines, whole] at parsed
    simp only [Scalar.toJson, formatted, Json.isNull, PrimitiveType.coerceScalar, parsed, Except.map,
      and_self]

namespace PrimitiveType

variable {type : PrimitiveType} {property : String}

/-- A moment that was read can be made again from its own fields. -/
theorem made_of_coerceScalar {raw : Json} {t : DateTime}
    (coerced : PrimitiveType.dateTime.coerceScalar property raw = .ok (.dateTime t)) :
    DateTime.of? t.date t.time t.offset = some t := by
  simp only [coerceScalar] at coerced
  split at coerced
  · rename_i found
    cases coerced
    obtain ⟨u, read, ⟨⟩⟩ := Option.map_eq_some_iff.mp found
    obtain ⟨text, -, read⟩ := Option.bind_eq_some_iff.mp read
    -- Texts are tried with an offset first, and then as moments of universal time.
    rcases Option.or_eq_some_iff.mp read with offset | ⟨-, universal⟩
    · exact parseDateTime_made offset
    · exact parseUniversal_made universal
  · cases coerced

/-- A value that a type has read is read back from its data form if that says which one it is. -/
theorem coerceScalar_toJson_faithful {raw : Json} {s : Scalar}
    (coerced : type.coerceScalar property raw = .ok s) (faithful : s.isFaithful = true) :
    s.toJson.isNull = false ∧
      ∃ again, type.coerceScalar property s.toJson = .ok again ∧ type.Restores s again := by
  have admitted := admits_coerceScalar coerced
  -- Only decimals, times with dates and enumerations have values that their forms do not tell.
  by_cases lossless : type.isLossless = true
  · refine ⟨Scalar.isNull_toJson lossless admitted, s, coerceScalar_toJson lossless coerced, ?_⟩
    rw [Restores, if_neg]
    rintro rfl
    cases lossless
  cases type with
  | decimal =>
    cases s with
    | decimal d =>
      obtain ⟨again, read, equal⟩ := rawDecimal_doubleJson faithful
      refine ⟨isNull_doubleJson d.toFloat, .decimal again, ?_, ?_⟩
      · simp only [coerceScalar, Scalar.toJson, read, Option.map_some]
      · rw [Restores, if_pos rfl, Scalar.same, equal]
        rfl
    | _ => cases admitted
  | dateTime =>
    cases s with
    | dateTime t =>
      have plain : t.date.IsPlain := by
        simpa [Scalar.isFaithful, Date.IsPlain] using faithful
      have made := made_of_coerceScalar coerced
      refine ⟨rfl, .dateTime t, ?_, ?_⟩
      · simp only [coerceScalar, Scalar.toJson, Json.text?, Option.bind_some,
          parseDateTime_toText ⟨plain, made⟩, Option.some_or, Option.map_some]
      · rw [Restores, if_neg (by simp)]
    | _ => cases admitted
  | enum e =>
    cases s with
    | enum f value =>
      have same : e = f := by simpa [admits] using admitted
      subst same
      obtain ⟨present, read⟩ := Enumeration.coerceScalar_toJson property faithful
      refine ⟨present, _, read, ?_⟩
      rw [Restores, if_neg (by simp)]
    | _ => cases admitted
  | _ => exact absurd rfl lossless

/-- Items that a type has read are read back from their data forms if those say which they are. -/
theorem coerceItems_toJson_faithful {raws : List Json} {items : List (Option Scalar)}
    (coerced : type.coerceItems property raws = .ok items)
    (faithful : items.all (fun item => item.all Scalar.isFaithful) = true) :
    ∃ again, type.coerceItems property
        (items.map fun item => (item.map Scalar.toJson).getD .null) = .ok again ∧
      List.Forall₂ (Option.Rel type.Restores) items again := by
  induction raws generalizing items with
  | nil =>
    cases coerced
    exact ⟨[], rfl, .nil⟩
  | cons raw rest ih =>
    rw [coerceItems] at coerced
    -- A null among the items stays one, and any other item is a value of the type.
    split at coerced
    · obtain ⟨others, more, rfl⟩ := map_ok coerced
      rw [List.all_cons, Bool.and_eq_true] at faithful
      obtain ⟨again, read, restored⟩ := ih more faithful.2
      refine ⟨none :: again, ?_, .cons .none restored⟩
      rw [List.map_cons, coerceItems]
      simp only [Option.map_none, Option.getD_none, Json.isNull, if_true, read]
      rfl
    · split at coerced
      · cases coerced
      · rename_i s first
        obtain ⟨others, more, rfl⟩ := map_ok coerced
        rw [List.all_cons, Bool.and_eq_true] at faithful
        obtain ⟨again, read, restored⟩ := ih more faithful.2
        obtain ⟨present, t, readFirst, restoredFirst⟩ :=
          coerceScalar_toJson_faithful first faithful.1
        refine ⟨some t :: again, ?_, .cons (.some restoredFirst) restored⟩
        rw [List.map_cons, coerceItems]
        simp only [Option.map_some, Option.getD_some, present, Bool.false_eq_true, if_false,
          readFirst, read]
        rfl

/-- Other values than decimals are restored as they were. -/
theorem Restores.eq {s again : Scalar} (restored : type.Restores s again)
    (other : type ≠ .decimal) : again = s := by
  rwa [Restores, if_neg other] at restored

/-- Decimals are restored as equal ones. -/
theorem Restores.same {s again : Scalar} (restored : Restores .decimal s again) :
    s.same again = true := by
  rwa [Restores, if_pos rfl] at restored

/-- Items other than decimals are restored as they were. -/
theorem restored_items {items again : List (Option Scalar)} (other : type ≠ .decimal)
    (restored : List.Forall₂ (Option.Rel type.Restores) items again) : again = items := by
  induction restored with
  | nil => rfl
  | cons first _ ih =>
    rw [ih]
    cases first with
    | none => rfl
    | some first => rw [first.eq other]

/-- Decimals among items are restored as equal ones. -/
theorem sameItems_restored {items again : List (Option Scalar)}
    (restored : List.Forall₂ (Option.Rel (Restores .decimal)) items again) :
    Value.sameItems items again = true := by
  induction restored with
  | nil => rfl
  | cons first _ ih =>
    cases first with
    | none => exact ih
    | some first => rw [Value.sameItems, first.same, ih, Bool.and_self]

end PrimitiveType

namespace PropertyType

/-- A value that a property has read is read back from its data form if that says all of it.

Decimals come back as equal ones, all others as the same, a NaN included. -/
theorem coerce_toJson_faithful {type : PropertyType} {property : String} {raw : Json}
    {value : Value} (coerced : type.coerce property raw = .ok value)
    (faithful : value.isFaithful = true) :
    ∃ again, type.coerce property value.toJson = .ok again ∧ value.alike again = true ∧
      (type.element ≠ .decimal → again = value) := by
  cases type with
  | primitive type =>
    simp only [coerce, PrimitiveType.coerce] at coerced ⊢
    split at coerced
    · cases coerced
      exact ⟨.null, rfl, rfl, fun _ => rfl⟩
    · -- The form of the value is not null, so that it is read as a value again.
      obtain ⟨s, found, rfl⟩ := map_ok coerced
      obtain ⟨present, again, read, restored⟩ :=
        PrimitiveType.coerceScalar_toJson_faithful found faithful
      refine ⟨.scalar again, ?_, ?_, ?_⟩
      · simp only [Value.toJson, present, Bool.false_eq_true, if_false, read]
        rfl
      · by_cases decimal : type = .decimal
        · subst decimal
          rw [Value.alike, Value.same, restored.same, Bool.true_or]
        · rw [restored.eq decimal, Value.alike_refl]
      · intro other
        rw [restored.eq other]
  | collection element =>
    simp only [coerce] at coerced
    split at coerced
    · cases coerced
      exact ⟨.null, rfl, rfl, fun _ => rfl⟩
    · split at coerced
      · obtain ⟨items, found, rfl⟩ := map_ok coerced
        obtain ⟨again, read, restored⟩ :=
          PrimitiveType.coerceItems_toJson_faithful found faithful
        refine ⟨.collection again, ?_, ?_, ?_⟩
        · simp only [coerce, Value.toJson, Json.isNull, Bool.false_eq_true, if_false, read]
          rfl
        · by_cases decimal : element = .decimal
          · subst decimal
            rw [Value.alike, Value.same, PrimitiveType.sameItems_restored restored, Bool.true_or]
          · rw [PrimitiveType.restored_items decimal restored, Value.alike_refl]
        · intro other
          rw [PrimitiveType.restored_items other restored]
      · cases coerced

/-- Prices with cents, one of them unknown, are read back from their data form. -/
theorem coerce_toJson_faithful_of_prices :
    let type : PropertyType := .collection .decimal
    let prices : Value := .collection
      [some (.decimal ⟨false, 1999, 2, by decide, by decide⟩), none,
        some (.decimal ⟨true, 5, 1, by decide, by decide⟩)]
    type.coerce "prices" (.array [.text "19.99", .null, .text "-0.5"]) = .ok prices ∧
      prices.isFaithful = true ∧
      ∃ again, type.coerce "prices" prices.toJson = .ok again ∧ prices.alike again = true := by
  intro type prices
  have coerced : type.coerce "prices" (.array [.text "19.99", .null, .text "-0.5"]) = .ok prices := by
    cbv
  have faithful : prices.isFaithful = true := by decide
  obtain ⟨again, read, alike, -⟩ := coerce_toJson_faithful coerced faithful
  exact ⟨coerced, faithful, again, read, alike⟩

set_option maxRecDepth 1000 in
/-- The greatest decimal is refused once it has been through its data form, a double. -/
theorem greatest_decimal_is_refused :
    let type : PropertyType := .primitive .decimal
    let greatest : Value :=
      .scalar (.decimal ⟨false, 79228162514264337593543950335, 0, by decide, by decide⟩)
    type.coerce "d" (.text "79228162514264337593543950335") = .ok greatest ∧
      type.coerce "d" greatest.toJson = .error (invalidValue "d" "Edm.Decimal" greatest.toJson) := by
  intro type greatest
  have form : greatest.toJson = .number (.double (Float.ofBits 0x45F0000000000000)) := rfl
  refine ⟨by cbv, ?_⟩
  rw [form]
  rfl

end PropertyType

end EdmQuery
