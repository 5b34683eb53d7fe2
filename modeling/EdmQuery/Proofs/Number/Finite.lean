import Mathlib
import EdmQuery.Proofs.Edm.Comparison
import EdmQuery.Proofs.Number.Conversion

/-! Integers and decimals are converted to doubles that are numbers, however many digits they have. -/

namespace EdmQuery.Number

/-- A double between two positive numbers, with a full mantissa. -/
def Between (low high : ℚ) (x : Float) : Prop :=
  ∃ v, Exactly x v ∧ low ≤ v ∧ v ≤ high

/-- A double that is a positive number or a zero. -/
def Settled (x : Float) : Prop :=
  (∃ v, Exactly x v) ∨ (x == 0.0) = true

section

variable {x y : Float} {v low high : ℚ}

/-- Rounding moves a number by less than a thousandth of it. -/
theorem Rounded.between (rounded : Rounded x v) (least : low ≤ v) (most : v ≤ high) :
    Between (999 / 1000 * low) (1001 / 1000 * high) x := by
  -- The error of a rounding is relative, and a bound for it carries over to any other bound.
  obtain ⟨a, exactly, lower, upper⟩ := rounded.near
  have positive := exactly.positive
  refine ⟨a, exactly, ?_, ?_⟩ <;> norm_num at lower upper ⊢ <;> linarith

/-- Numbers of a decimal magnitude up to sixty are in range. -/
theorem InRange.of_sixty (least : 1 / 10 ^ 60 ≤ v) (most : v ≤ 10 ^ 60) : InRange v := by
  constructor
  · calc (2 : ℚ) ^ (-1022 : Int) ≤ 2 ^ (-200 : Int) :=
          zpow_le_zpow_right₀ one_le_two (by decide)
      _ ≤ 1 / 10 ^ 60 := by norm_num
      _ ≤ v := least
  · calc v ≤ 10 ^ 60 := most
      _ < 2 ^ (200 : Int) := by norm_num
      _ ≤ 2 ^ (1023 : Int) := zpow_le_zpow_right₀ one_le_two (by decide)

/-- Natural numbers that are not too large are converted to numbers close to them. -/
theorem between_ofMagnitude {n : Nat} (positive : 0 < n) (range : n ≤ 10 ^ 30) :
    Between (999 / 1000 * n) (1001 / 1000 * n) (ofMagnitude false n) :=
  (rounded_ofMagnitude positive range).between le_rfl le_rfl

/-- Natural numbers that are not too large are converted to zero or to positive numbers. -/
theorem settled_ofMagnitude {n : Nat} (range : n ≤ 10 ^ 30) : Settled (ofMagnitude false n) := by
  rcases Nat.eq_zero_or_pos n with rfl | positive
  · exact .inr rfl
  · obtain ⟨v, exactly, -⟩ := between_ofMagnitude positive range
    exact .inl ⟨v, exactly⟩

/-- What is settled reads as a finite number, with either sign. -/
theorem Settled.finite (settled : Settled x) (negative : Bool) :
    ∃ b, Reading.ofFloat (if negative then -x else x) = .finite b := by
  rcases settled with ⟨v, b, read, sign, normal, -⟩ | zero
  · cases negative with
    | false => exact ⟨b, read⟩
    | true => exact ⟨_, ofFloat_neg read sign normal⟩
  · obtain ⟨sign, unpacked⟩ : ∃ sign, x.toModel.unpack = .zero sign := by
      have same : Float.Model.UnpackedFloat.beq x.toModel.unpack (.zero .positive) = true := zero
      cases unpacked : x.toModel.unpack with
      | zero sign => exact ⟨sign, rfl⟩
      | notANumber =>
        rw [unpacked] at same
        cases same
      | infinity sign | finite sign =>
        rw [unpacked] at same
        cases sign <;> cases same
    cases negative with
    | false =>
      rw [if_neg Bool.false_ne_true, Reading.ofFloat_eq, unpacked]
      exact ⟨_, rfl⟩
    | true =>
      -- The opposite of a zero is the zero of the other sign.
      have opposite : (-x).toModel.unpack
          = (Float.Model.pack (Float.Model.UnpackedFloat.neg (.zero sign))).unpack := by
        show (Float.Model.pack x.toModel.unpack.neg).unpack = _
        rw [unpacked]
      rw [if_pos rfl, Reading.ofFloat_eq, opposite]
      cases sign <;> exact ⟨_, rfl⟩

/-- Whether a double is within a thousandth of a power of ten. -/
def isPower (s : Nat) (x : Float) : Bool :=
  match Reading.ofFloat x with
  | .finite b =>
    -- Both sides are multiplied by a power of two that makes the exponent a natural number.
    let scaled := b.mantissa * 2 ^ (b.exponent + 60).toNat
    !b.negative && 2 ^ 52 ≤ b.mantissa && b.mantissa < 2 ^ 53 && -60 ≤ b.exponent &&
      b.exponent ≤ 900 && 999 * 10 ^ s * 2 ^ 60 ≤ 1000 * scaled &&
      1000 * scaled ≤ 1001 * 10 ^ s * 2 ^ 60
  | _ => false

/-- Powers of ten up to the greatest scale are found by squaring. -/
theorem between_power {s : Nat} (places : s ≤ Decimal.maxScale) :
    Between (999 / 1000 * 10 ^ s) (1001 / 1000 * 10 ^ s) (powerBySquaring 10.0 s) := by
  -- There are few enough scales to look at each power.
  have found : isPower s (powerBySquaring 10.0 s) = true := by
    have all : ∀ s < Decimal.maxScale + 1, isPower s (powerBySquaring 10.0 s) = true := by
      decide +kernel
    exact all s (by omega)
  rw [isPower] at found
  split at found
  · rename_i b read
    simp only [Bool.and_eq_true, Bool.not_eq_true', decide_eq_true_eq] at found
    obtain ⟨⟨⟨⟨⟨⟨sign, full⟩, short⟩, least⟩, most⟩, lower⟩, upper⟩ := found
    obtain ⟨k, exponent⟩ : ∃ k : Nat, b.exponent + 60 = k := ⟨(b.exponent + 60).toNat, by omega⟩
    have scaled : b.value * 2 ^ 60 = (b.mantissa * 2 ^ k : Nat) := by
      have shifted : b.exponent = (k : Int) - (60 : Nat) := by omega
      rw [Binary.value, shifted, zpow_sub₀ two_ne_zero, zpow_natCast, zpow_natCast]
      push_cast
      field_simp
    rw [exponent, Int.toNat_natCast] at lower upper
    have lower : (999 * 10 ^ s * 2 ^ 60 : ℚ) ≤ 1000 * (b.mantissa * 2 ^ k : Nat) := by
      exact_mod_cast lower
    have upper : (1000 * (b.mantissa * 2 ^ k : Nat) : ℚ) ≤ 1001 * 10 ^ s * 2 ^ 60 := by
      exact_mod_cast upper
    rw [← scaled] at lower upper
    refine ⟨b.value, ⟨b, read, sign, ⟨full, short, by omega, by omega⟩, rfl⟩, ?_, ?_⟩ <;> linarith
  · cases found

/-- A magnitude that is rounded is at most a half above the number. -/
theorem roundedMagnitude_le (b : Binary) : (b.roundedMagnitude : ℚ) ≤ b.value + 1 / 2 := by
  rw [Binary.roundedMagnitude, Binary.value]
  split
  · -- Without a fraction nothing is rounded.
    rename_i whole
    obtain ⟨k, exponent⟩ := Int.eq_ofNat_of_zero_le whole
    rw [exponent, Int.toNat_natCast, zpow_natCast]
    push_cast
    linarith
  · rename_i part
    obtain ⟨k, exponent⟩ : ∃ k : Nat, b.exponent = -(k : Int) := ⟨(-b.exponent).toNat, by omega⟩
    have unit : (0 : ℚ) < 2 ^ k := by positivity
    simp only [exponent, neg_neg, Int.toNat_natCast, zpow_neg, zpow_natCast]
    calc (((2 * b.mantissa + 2 ^ k) / (2 * 2 ^ k) : Nat) : ℚ)
        ≤ ((2 * b.mantissa + 2 ^ k : Nat) : ℚ) / (2 * 2 ^ k : Nat) := Nat.cast_div_le
      _ = b.mantissa * (2 ^ k)⁻¹ + 1 / 2 := by
        push_cast
        field_simp

/-- The nearest integer to a number is the double of a natural number that is hardly greater. -/
theorem round_between (between : Between low high x) :
    ∃ n : Nat, Number.round x = ofMagnitude false n ∧ (n : ℚ) ≤ high + 1 / 2 := by
  obtain ⟨v, ⟨b, read, sign, normal, rfl⟩, -, most⟩ := between
  refine ⟨b.roundedMagnitude, ?_, (roundedMagnitude_le b).trans (by linarith)⟩
  rw [Number.round, roundedBy, read]
  simp only [sign]

/-- The quotient of a rest by a power of ten is close to it. -/
theorem between_rest {r s : Nat} (positive : 0 < r) (less : r < 10 ^ s)
    (places : s ≤ Decimal.maxScale) :
    Between (99 / 100 * (r / 10 ^ s)) (101 / 100 * (r / 10 ^ s))
      (ofMagnitude false r / ofMagnitude false (10 ^ s)) := by
  have large : 10 ^ s ≤ 10 ^ 28 := Nat.pow_le_pow_right (by decide) places
  have unit : (0 : ℚ) < 10 ^ s := by positivity
  have one : (1 : ℚ) ≤ r := by exact_mod_cast positive
  have less' : (r : ℚ) < 10 ^ s := by exact_mod_cast less
  have large' : (10 : ℚ) ^ s ≤ 10 ^ 28 := by exact_mod_cast large
  obtain ⟨v, top, lowV, highV⟩ := between_ofMagnitude positive (by omega)
  obtain ⟨u, bottom, lowU, highU⟩ := between_ofMagnitude (n := 10 ^ s) (by positivity) (by omega)
  push_cast at lowU highU
  have positiveU := bottom.positive
  have lower : 999 / 1001 * (r / 10 ^ s) ≤ v / u := by
    rw [← mul_div_assoc, div_le_div_iff₀ unit positiveU]
    nlinarith
  have upper : v / u ≤ 1001 / 999 * (r / 10 ^ s) := by
    rw [← mul_div_assoc, div_le_div_iff₀ positiveU unit]
    nlinarith
  have least : (1 : ℚ) / 10 ^ 28 ≤ r / 10 ^ s := by
    rw [div_le_div_iff₀ (by positivity) unit]
    nlinarith
  have most : (r : ℚ) / 10 ^ s ≤ 1 := (div_le_one unit).mpr less'.le
  have range : InRange (v / u) := .of_sixty (by linarith) (by linarith)
  obtain ⟨f, exactly, low, high⟩ := (rounded_div top bottom range).between lower upper
  exact ⟨f, exactly, by linarith, by linarith⟩

/-- The sum of a whole number and a fraction is close to it, also when the number is zero. -/
theorem between_sum {w : Nat} {q : ℚ} (range : w ≤ 10 ^ 29) (least : 1 / 10 ^ 28 ≤ q) (most : q ≤ 1)
    (fraction : Between (99 / 100 * q) (101 / 100 * q) x) :
    Between (98 / 100 * (w + q)) (102 / 100 * (w + q)) (ofMagnitude false w + x) := by
  obtain ⟨f, exactly, lowF, highF⟩ := fraction
  rcases Nat.eq_zero_or_pos w with rfl | positive
  · refine ⟨f, exactly.zero_add, ?_, ?_⟩ <;> push_cast <;> linarith
  · obtain ⟨v, whole, lowV, highV⟩ := between_ofMagnitude positive (by omega)
    have one : (1 : ℚ) ≤ w := by exact_mod_cast positive
    have most' : (w : ℚ) ≤ 10 ^ 29 := by exact_mod_cast range
    have range : InRange (v + f) := .of_sixty (by linarith) (by linarith)
    obtain ⟨u, sum, low, high⟩ := (rounded_add whole exactly range).between
      (show 99 / 100 * (w + q) ≤ v + f by linarith) (show v + f ≤ 101 / 100 * (w + q) by linarith)
    exact ⟨u, sum, by linarith, by linarith⟩

/-- The whole part and the rest of a magnitude, put together again, are close to the magnitude. -/
theorem between_recombined {m s : Nat} (bound : m < 10 ^ 29) (places : s ≤ Decimal.maxScale)
    (rest : 0 < m % 10 ^ s) :
    Between (999 / 1000 * (97 / 100 * m)) (1001 / 1000 * (103 / 100 * m))
      ((ofMagnitude false (m / 10 ^ s) +
        ofMagnitude false (m % 10 ^ s) / ofMagnitude false (10 ^ s)) * powerBySquaring 10.0 s) := by
  have divided := Nat.div_le_self m (10 ^ s)
  have large : (10 : ℚ) ^ s ≤ 10 ^ 28 := pow_le_pow_right₀ (by norm_num) places
  have unit : (0 : ℚ) < 10 ^ s := by positivity
  have less := Nat.mod_lt m (by positivity : 0 < 10 ^ s)
  have one : (1 : ℚ) ≤ (m % 10 ^ s : Nat) := by exact_mod_cast rest
  have less' : ((m % 10 ^ s : Nat) : ℚ) ≤ 10 ^ s := by exact_mod_cast less.le
  have whole : ((m / 10 ^ s : Nat) : ℚ) * 10 ^ s + (m % 10 ^ s : Nat) = m := by
    exact_mod_cast Nat.div_add_mod' m (10 ^ s)
  have bound' : (m : ℚ) ≤ 10 ^ 29 := by exact_mod_cast bound.le
  obtain ⟨p, power, lowP, highP⟩ := between_power places
  -- The sum of the two parts is close to the quotient of the magnitude by the power.
  have least : (1 : ℚ) / 10 ^ 28 ≤ (m % 10 ^ s : Nat) / 10 ^ s := by
    rw [div_le_div_iff₀ (by positivity) unit]
    nlinarith
  have sum := between_sum (w := m / 10 ^ s) (by omega) least ((div_le_one unit).mpr less')
    (between_rest rest less places)
  have parts : ((m / 10 ^ s : Nat) : ℚ) + (m % 10 ^ s : Nat) / 10 ^ s = m / 10 ^ s := by
    rw [eq_div_iff unit.ne', add_mul, div_mul_cancel₀ _ unit.ne', whole]
  rw [parts] at sum
  obtain ⟨v, exactly, lowV, highV⟩ := sum
  have positiveP := power.positive
  have positiveV := exactly.positive
  have quotient : (0 : ℚ) ≤ m / 10 ^ s := by positivity
  have lower : 97 / 100 * (m : ℚ) ≤ v * p :=
    calc 97 / 100 * (m : ℚ) = 97 / 100 * (m / 10 ^ s) * 10 ^ s := by field_simp
      _ ≤ 98 / 100 * (m / 10 ^ s) * (999 / 1000 * 10 ^ s) := by
        nlinarith [mul_nonneg quotient unit.le]
      _ ≤ v * p := by gcongr
  have upper : v * p ≤ 103 / 100 * (m : ℚ) :=
    calc v * p ≤ 102 / 100 * (m / 10 ^ s) * (1001 / 1000 * 10 ^ s) := by gcongr
      _ ≤ 103 / 100 * (m / 10 ^ s) * 10 ^ s := by
        nlinarith [mul_nonneg quotient unit.le]
      _ = 103 / 100 * (m : ℚ) := by field_simp
  have oneM : (1 : ℚ) ≤ m := by
    rw [← whole]
    nlinarith
  have range : InRange (v * p) := .of_sixty (by linarith) (by linarith)
  exact (rounded_mul exactly power range).between lower upper

/-- A natural number is divided by a power of ten with zero or a positive number as the outcome. -/
theorem settled_quotient {n s : Nat} (short : n ≤ 10 ^ 30) (places : s ≤ Decimal.maxScale) :
    Settled (ofMagnitude false n / powerBySquaring 10.0 s) := by
  have large : (10 : ℚ) ^ s ≤ 10 ^ 28 := pow_le_pow_right₀ (by norm_num) places
  have small : (1 : ℚ) ≤ 10 ^ s := one_le_pow₀ (by norm_num)
  obtain ⟨p, power, lowP, highP⟩ := between_power places
  have positiveP := power.positive
  rcases Nat.eq_zero_or_pos n with rfl | positive
  · exact .inr (zero_div_eq power)
  · have oneN : (1 : ℚ) ≤ n := by exact_mod_cast positive
    have shortN : (n : ℚ) ≤ 10 ^ 30 := by exact_mod_cast short
    obtain ⟨u, top, lowU, highU⟩ := between_ofMagnitude positive short
    have quotient : InRange (u / p) := by
      refine .of_sixty ?_ ?_
      · rw [div_le_div_iff₀ (by positivity) positiveP]
        linarith
      · rw [div_le_iff₀ positiveP]
        linarith
    obtain ⟨z, result, -⟩ := (rounded_div top power quotient).near
    exact .inl ⟨z, result⟩

/-- A quotient of a magnitude by a power of ten comes out as zero or as a positive number. -/
theorem settled_scaled {m s : Nat} (short : m < Decimal.bound) (places : s ≤ Decimal.maxScale) :
    Settled
      (if ofMagnitude false (m % 10 ^ s) / ofMagnitude false (10 ^ s) == 0.0
        then ofMagnitude false (m / 10 ^ s)
        else Number.round ((ofMagnitude false (m / 10 ^ s) +
          ofMagnitude false (m % 10 ^ s) / ofMagnitude false (10 ^ s)) * powerBySquaring 10.0 s)
            / powerBySquaring 10.0 s) := by
  have bound : m < 10 ^ 29 := short.trans (by decide)
  have divided := Nat.div_le_self m (10 ^ s)
  split
  · exact settled_ofMagnitude (by omega)
  · rename_i some_
    -- A rest of zero would have left the whole part alone.
    have rest : 0 < m % 10 ^ s := by
      refine Nat.pos_of_ne_zero fun none => some_ ?_
      obtain ⟨u, unit, -⟩ := between_ofMagnitude (n := 10 ^ s) (by positivity)
        (Nat.pow_le_pow_right (by decide) (places.trans (by decide)))
      rw [none]
      exact zero_div_eq unit
    obtain ⟨n, rounded, most⟩ := round_between (between_recombined bound places rest)
    have bound' : (m : ℚ) ≤ 10 ^ 29 := by exact_mod_cast bound.le
    have few : (n : ℚ) ≤ (10 ^ 30 : Nat) := by
      push_cast
      linarith
    rw [rounded]
    exact settled_quotient (by exact_mod_cast few) places

/-- A decimal is converted to a finite double. -/
theorem Decimal.finite_toFloat (d : Decimal) : ∃ b, Reading.ofFloat d.toFloat = .finite b := by
  refine Settled.finite ?_ d.negative
  have bound : d.magnitude < 10 ^ 29 := d.magnitude_lt.trans (by decide)
  split
  · exact settled_ofMagnitude (by omega)
  · exact settled_scaled d.magnitude_lt d.scale_le

/-- An integer is converted to a finite double. -/
theorem finite_ofInteger (n : Int64) : ∃ b, Reading.ofFloat (ofInteger n.toInt) = .finite b := by
  have low := n.le_toInt
  have high := n.toInt_lt
  exact (settled_ofMagnitude (n := n.toInt.natAbs) (by omega)).finite (n.toInt < 0)

/-- A double that reads as a finite number is no NaN. -/
theorem isNaN_of_finite {b : Binary} (read : Reading.ofFloat x = .finite b) : isNaN x = false := by
  rw [Reading.ofFloat_eq] at read
  rw [isNaN]
  cases unpacked : x.toModel.unpack with
  | notANumber =>
    rw [unpacked] at read
    cases read
  | _ => rfl

end

end EdmQuery.Number
