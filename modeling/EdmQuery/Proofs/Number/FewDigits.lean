import Mathlib
import EdmQuery.Proofs.Number.Conversion
import EdmQuery.Proofs.Number.PlainText

/-! Decimals of up to 15 digits are read back from the texts of their doubles. -/

namespace EdmQuery.Number

/-- Whether a decimal has few enough digits for a double to tell it from all others like it. -/
def Decimal.isShort (d : Decimal) : Bool :=
  d.magnitude < 10 ^ 15 && d.scale ≤ 22

/-- The digits of a number that has no more places than some have no more of them either. -/
theorem Scientific.digits_le {s : Scientific} (stripped : s.digits % 10 ≠ 0) {n places : Nat}
    (same : s.value = n * 10 ^ (-places : Int)) : -(places : Int) ≤ s.exponent ∧ s.digits ≤ n := by
  have power (e : Int) : (10 : ℚ) ^ e ≠ 0 := by positivity
  rw [value] at same
  rcases lt_or_ge s.exponent (-places) with finer | coarser
  · -- With more places the digits would end in a zero.
    obtain ⟨more, exponent⟩ : ∃ more : Nat, (-places : Int) = s.exponent + (more + 1 : Nat) :=
      ⟨(-places - s.exponent - 1).toNat, by omega⟩
    rw [exponent, Interval.point_finer, mul_left_inj' (power _)] at same
    have digits : s.digits = n * 10 ^ (more + 1) := by exact_mod_cast same
    rw [digits, pow_succ, ← Nat.mul_assoc] at stripped
    exact absurd (Nat.mul_mod_left _ _) stripped
  · obtain ⟨zeros, exponent⟩ : ∃ zeros : Nat, s.exponent = -places + zeros :=
      ⟨(s.exponent + places).toNat, by omega⟩
    rw [exponent, Interval.point_finer, mul_left_inj' (power _)] at same
    have digits : s.digits * 10 ^ zeros = n := by exact_mod_cast same
    refine ⟨coarser, ?_⟩
    rw [← digits]
    exact Nat.le_mul_of_pos_right _ (by positivity)

namespace Decimal

/-- A short decimal other than zero is converted to a double whose shortest digits are its own. -/
theorem exists_shortest {d : Decimal} (some_ : 0 < d.magnitude) (few : d.magnitude < 10 ^ 15)
    (places : d.scale ≤ 22) :
    ∃ b : Binary, Reading.ofFloat d.toFloat = .finite b ∧ b.negative = d.negative ∧
      0 < b.mantissa ∧ (shortest .even b).value = d.magnitude * 10 ^ (-d.scale : Int) := by
  obtain ⟨x, converted, b, read, sign, normal, holds⟩ := exists_toFloat some_ few places
  have value : (d.magnitude : ℚ) / 10 ^ d.scale = d.magnitude * 10 ^ (-d.scale : Int) := by
    rw [zpow_neg, zpow_natCast, div_eq_mul_inv]
  have full := normal.le_mantissa
  rw [value] at holds
  have digits := shortest_value normal.canonical full few holds .even
  -- The size is converted first, and the sign of the decimal is put on the result.
  refine ⟨{ b with negative := d.negative }, ?_, rfl, by simp only; omega, digits⟩
  rw [converted, withSign]
  cases d.negative with
  | true => exact ofFloat_neg read sign normal
  | false =>
    obtain ⟨negative, m, e⟩ := b
    cases sign
    exact read

/-- A short decimal is read back from the text of its double. -/
theorem read_toFloat {d : Decimal} (short : d.isShort = true) :
    ∃ b, Reading.ofFloat d.toFloat = .finite b ∧
      ∃ again, Decimal.read (plainForm b) = some again ∧ d.compare again = .eq := by
  simp only [isShort, Bool.and_eq_true, decide_eq_true_eq] at short
  obtain ⟨few, places⟩ := short
  rcases Nat.eq_zero_or_pos d.magnitude with none | some_
  · -- The text of a zero has one place, whatever the scale was, and reads as a zero without sign.
    refine ⟨⟨d.negative, 0, -1074⟩, ?_, ⟨false, 0, 1, by decide, by decide⟩, ?_,
      compare_eq (.inr none) (by simp [none])⟩
    · rw [toFloat_zero none places]
      cases d.negative <;> rfl
    · cases d.negative <;> rfl
  · obtain ⟨b, read, sign, mantissa, same⟩ := exists_shortest some_ few places
    have number : 0 < (shortest .even b).value := by
      rw [same]
      positivity
    have positive := Scientific.digits_pos number
    obtain ⟨exponent, digits⟩ := Scientific.digits_le (shortest_digits number) same
    -- A decimal has no more digits than its magnitude in front of its point.
    have leading : (shortest .even b).leading < 15 := by
      have lower := ((shortest .even b).value_bounds positive).1
      have upper : (shortest .even b).value < 10 ^ (15 : Int) := by
        have magnitude : (d.magnitude : ℚ) < 10 ^ 15 := by exact_mod_cast few
        rw [same, zpow_neg, zpow_natCast, ← div_eq_mul_inv]
        exact (div_le_self (Nat.cast_nonneg _) (one_le_pow₀ (by norm_num))).trans_lt magnitude
      exact (zpow_lt_zpow_iff_right₀ (by norm_num)).mp (lower.trans_lt upper)
    obtain ⟨again, text, sign', value⟩ := read_plainForm mantissa positive (by omega) (by omega)
      (by omega)
    refine ⟨b, read, again, text, compare_eq (.inl (sign'.trans sign).symm) ?_⟩
    rw [same, zpow_neg, zpow_natCast, ← div_eq_mul_inv,
      div_eq_div_iff (by positivity) (by positivity)] at value
    exact_mod_cast value.symm

end Decimal

end EdmQuery.Number
