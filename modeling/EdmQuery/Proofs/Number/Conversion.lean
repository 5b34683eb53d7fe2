import Mathlib
import EdmQuery.Proofs.Number.Arithmetic

/-! A decimal of up to 15 digits is converted to the double nearest to it. -/

namespace EdmQuery.Number

/-- Powers of ten up to the 22nd are doubles. -/
theorem exactly_ten {x : Float} {s : Nat} (few : s ≤ 22) (rounded : Rounded x (10 ^ s)) :
    Exactly x (10 ^ s) := by
  -- The twos of a power of ten go into the exponent, and its fives fit a mantissa.
  have factors : (10 : ℚ) ^ s = (5 ^ s : Nat) * 2 ^ (s : Int) := by
    rw [zpow_natCast, Nat.cast_pow, Nat.cast_ofNat, ← mul_pow]
    norm_num
  have most : (10 : ℚ) ^ s ≤ 10 ^ 22 := pow_le_pow_right₀ (by norm_num) few
  have least : (1 : ℚ) ≤ 10 ^ s := one_le_pow₀ (by norm_num)
  have range : InRange (10 ^ s) := .of_ten (by linarith) (by linarith)
  have short : 5 ^ s < 2 ^ 53 := by
    calc 5 ^ s ≤ 5 ^ 22 := Nat.pow_le_pow_right (by decide) few
      _ < 2 ^ 53 := by decide
  rw [factors] at rounded range ⊢
  exact rounded.exactly (by positivity) short range

/-- The product of two powers of ten is a power of ten as long as doubles have room for it. -/
theorem exactly_ten_mul {x y : Float} {s t : Nat} (few : s + t ≤ 22) (left : Exactly x (10 ^ s))
    (right : Exactly y (10 ^ t)) : Exactly (x * y) (10 ^ (s + t)) := by
  have most : (10 : ℚ) ^ (s + t) ≤ 10 ^ 22 := pow_le_pow_right₀ (by norm_num) few
  have least : (1 : ℚ) ≤ 10 ^ (s + t) := one_le_pow₀ (by norm_num)
  have range : InRange (10 ^ (s + t)) := .of_ten (by linarith) (by linarith)
  have product := rounded_mul left right (by rwa [← pow_add])
  rw [← pow_add] at product
  exact exactly_ten few product

/-- Squaring a power of ten for each binary digit of an exponent gives that power of it. -/
theorem powerBySquaring_go {fuel n s t : Nat} {square product : Float} (enough : n ≤ fuel)
    (few : t + s * n ≤ 22) (base : n ≠ 0 → Exactly square (10 ^ s))
    (begun : Exactly product (10 ^ t)) :
    Exactly (powerBySquaring.go fuel square product n) (10 ^ (t + s * n)) := by
  -- The product gets what the square stands for whenever the last digit is a one.
  induction fuel generalizing n s t square product with
  | zero =>
    have none : n = 0 := by omega
    rw [none, Nat.mul_zero, Nat.add_zero]
    exact begun
  | succ fuel ih =>
    rw [powerBySquaring.go]
    split
    · rename_i none
      rw [eq_of_beq none, Nat.mul_zero, Nat.add_zero]
      exact begun
    · rename_i some_
      have some_ : n ≠ 0 := by simpa using some_
      have own := base some_
      have halves := Nat.div_add_mod n 2
      have doubled : s * n = (s + s) * (n / 2) + s * (n % 2) := by
        nth_rewrite 1 [← halves]
        ring
      -- The square is not needed once the exponent is used up, so it may be out of range then.
      have square : n / 2 ≠ 0 → Exactly (square * square) (10 ^ (s + s)) := by
        intro more
        have room : (s + s) * 1 ≤ (s + s) * (n / 2) := Nat.mul_le_mul_left _ (by omega)
        exact exactly_ten_mul (by omega) own own
      rcases Nat.mod_two_eq_zero_or_one n with even | odd
      · rw [even, Nat.mul_zero, Nat.add_zero] at doubled
        rw [doubled] at few ⊢
        rw [if_neg (by simp [even])]
        exact ih (by omega) few square begun
      · rw [odd, Nat.mul_one] at doubled
        have same : t + s * n = t + s + (s + s) * (n / 2) := by omega
        rw [same] at few ⊢
        rw [if_pos (by simp [odd])]
        exact ih (by omega) few square (exactly_ten_mul (by omega) begun own)

/-- Powers of ten up to the 22nd come out exactly. -/
theorem powerBySquaring_ten {s : Nat} (few : s ≤ 22) :
    Exactly (powerBySquaring 10.0 s) (10 ^ s) := by
  have ten : Exactly 10.0 (10 ^ 1) :=
    ⟨⟨false, 5 * 2 ^ 50, -49⟩, rfl, rfl, ⟨by decide, by decide, by decide, by decide⟩,
      by norm_num [Binary.value]⟩
  have one : Exactly 1.0 (10 ^ 0) :=
    ⟨⟨false, 2 ^ 52, -52⟩, rfl, rfl, ⟨by decide, by decide, by decide, by decide⟩,
      by norm_num [Binary.value]⟩
  have power := powerBySquaring_go le_rfl (by omega : 0 + 1 * s ≤ 22) (fun _ => ten) one
  rwa [Nat.zero_add, Nat.one_mul] at power

/-- Powers of ten up to the 22nd are converted exactly. -/
theorem exactly_unit {s : Nat} (few : s ≤ 22) :
    Exactly (ofMagnitude false (10 ^ s)) (10 ^ s : Nat) := by
  have large : 10 ^ s ≤ 10 ^ 22 := Nat.pow_le_pow_right (by decide) few
  have rounded := rounded_ofMagnitude (n := 10 ^ s) (by positivity) (by omega)
  push_cast at rounded ⊢
  exact exactly_ten few rounded

/-- Three roundings move a number of 15 digits by less than a half. -/
theorem within_half {m w r t f s p : ℚ} (whole : m = w * t + r) (few : m ≤ 10 ^ 15)
    (front : 0 ≤ w) (unit : 0 < t) (quotient : Near f (r / t)) (sum : Near s (w + f))
    (product : Near p (s * t)) : m - 1 / 2 < p ∧ p < m + 1 / 2 := by
  obtain ⟨lowF, highF⟩ := quotient
  obtain ⟨lowS, highS⟩ := sum
  obtain ⟨lowP, highP⟩ := product
  rw [le_div_iff₀ unit] at lowF
  rw [div_le_iff₀ unit] at highF
  have less : (0 : ℚ) < 1 - 1 / 2 ^ 53 := by norm_num
  have more : (0 : ℚ) < 1 + 1 / 2 ^ 53 := by norm_num
  have parts : 0 ≤ w * t := by positivity
  -- Each of the roundings moves the number by a factor that differs from one by `1 / 2 ^ 53`.
  have upper : p * (1 - 1 / 2 ^ 53) ^ 3 ≤ m :=
    calc p * (1 - 1 / 2 ^ 53) ^ 3 = p * (1 - 1 / 2 ^ 53) * (1 - 1 / 2 ^ 53) ^ 2 := by ring
      _ ≤ s * t * (1 - 1 / 2 ^ 53) ^ 2 := by gcongr
      _ = s * (1 - 1 / 2 ^ 53) * (t * (1 - 1 / 2 ^ 53)) := by ring
      _ ≤ (w + f) * (t * (1 - 1 / 2 ^ 53)) := by gcongr
      _ = w * t * (1 - 1 / 2 ^ 53) + f * (1 - 1 / 2 ^ 53) * t := by ring
      _ ≤ w * t * 1 + r := by gcongr; norm_num
      _ = m := by rw [mul_one, whole]
  have lower : m ≤ p * (1 + 1 / 2 ^ 53) ^ 3 :=
    calc m = w * t * 1 + r := by rw [mul_one, whole]
      _ ≤ w * t * (1 + 1 / 2 ^ 53) + f * (1 + 1 / 2 ^ 53) * t := by gcongr; norm_num
      _ = (w + f) * (t * (1 + 1 / 2 ^ 53)) := by ring
      _ ≤ s * (1 + 1 / 2 ^ 53) * (t * (1 + 1 / 2 ^ 53)) := by gcongr
      _ = s * t * (1 + 1 / 2 ^ 53) ^ 2 := by ring
      _ ≤ p * (1 + 1 / 2 ^ 53) * (1 + 1 / 2 ^ 53) ^ 2 := by gcongr
      _ = p * (1 + 1 / 2 ^ 53) ^ 3 := by ring
  -- For 15 digits the three factors together come to less than a half.
  constructor
  · by_contra far
    have moved : p * (1 + 1 / 2 ^ 53) ^ 3 ≤ (m - 1 / 2) * (1 + 1 / 2 ^ 53) ^ 3 := by
      gcongr
      exact not_lt.mp far
    norm_num at moved lower few
    linarith
  · by_contra far
    have moved : (m + 1 / 2) * (1 - 1 / 2 ^ 53) ^ 3 ≤ p * (1 - 1 / 2 ^ 53) ^ 3 := by
      gcongr
      exact not_lt.mp far
    norm_num at moved upper few
    linarith

/-- The quotient of nothing is zero. -/
theorem zero_div_eq {y : Float} {w : ℚ} (exactly : Exactly y w) :
    (ofMagnitude false 0 / y == 0.0) = true := by
  obtain ⟨n, f, more, unpacked, -, -⟩ := exactly.unpack
  have none : (ofMagnitude false 0).toModel.unpack = .zero .positive := rfl
  have quotient : ofMagnitude false 0 / y = Float.ofModel (Float.Model.pack (.zero .positive)) := by
    show Float.ofModel (Float.Model.pack (Float.Model.UnpackedFloat.div double64 _ y.toModel.unpack))
      = _
    rw [none, unpacked]
    rfl
  rw [quotient]
  rfl

/-- The sum of a natural number and a fraction comes near, also if the number is zero. -/
theorem near_sum {n : Nat} {x : Float} {f : ℚ} (short : n < 2 ^ 53) (fraction : Exactly x f)
    (low : 1 / 10 ^ 30 ≤ f) (high : f ≤ 2) :
    ∃ s, Exactly (ofMagnitude false n + x) s ∧ Near s (n + f) := by
  rcases Nat.eq_zero_or_pos n with rfl | positive
  · -- Zero has no full mantissa, but adding it rounds nothing.
    refine ⟨f, fraction.zero_add, ?_⟩
    rw [Nat.cast_zero, zero_add]
    constructor <;> linarith
  · have whole := exactly_ofMagnitude positive short
    have most : (n : ℚ) < 2 ^ 53 := by exact_mod_cast short
    have least : (0 : ℚ) ≤ n := Nat.cast_nonneg n
    exact (rounded_add whole fraction (.of_ten (by linarith) (by linarith))).near

/-- The rest of a division by a power of ten comes near as a fraction of that power. -/
theorem near_rest {r t : Nat} (some : 0 < r) (less : r < t) (short : r < 2 ^ 53)
    (large : t ≤ 10 ^ 22) (unit : Exactly (ofMagnitude false t) t) :
    ∃ f, Exactly (ofMagnitude false r / ofMagnitude false t) f ∧ Near f (r / t) ∧
      1 / 10 ^ 25 ≤ f ∧ f ≤ 2 := by
  have below := unit.positive
  have one : (1 : ℚ) ≤ r := by exact_mod_cast some
  have less : (r : ℚ) < t := by exact_mod_cast less
  have large : (t : ℚ) ≤ 10 ^ 22 := by exact_mod_cast large
  have low : (1 : ℚ) / 10 ^ 22 ≤ r / t := by
    rw [div_le_div_iff₀ (by positivity) below]
    nlinarith
  have high : (r : ℚ) / t ≤ 1 := (div_le_one below).mpr less.le
  have top := exactly_ofMagnitude some short
  obtain ⟨f, fraction, near⟩ := (rounded_div top unit (.of_ten (by linarith) (by linarith))).near
  exact ⟨f, fraction, near, by linarith [near.2], by linarith [near.1]⟩

/-- A number of 15 digits is found again from its quotient and the rest that were put together. -/
theorem round_recombined {m t : Nat} {power : Float} (few : m < 10 ^ 15) (some : 0 < m % t)
    (large : t ≤ 10 ^ 22) (unit : Exactly (ofMagnitude false t) t) (exactly : Exactly power t) :
    Number.round ((ofMagnitude false (m / t) + ofMagnitude false (m % t) / ofMagnitude false t) *
      power) = ofMagnitude false m := by
  have below := unit.positive
  have divided := Nat.div_le_self m t
  have modulo := Nat.mod_le m t
  have few' : (m : ℚ) ≤ 10 ^ 15 := by exact_mod_cast few.le
  have whole : (m : ℚ) = (m / t : Nat) * t + (m % t : Nat) := by
    exact_mod_cast (Nat.div_add_mod' m t).symm
  -- The fraction, the sum and the product are rounded in turn.
  obtain ⟨f, fraction, nearF, lowF, highF⟩ := near_rest some
    (Nat.mod_lt m (by exact_mod_cast below)) (by omega) large unit
  obtain ⟨s, sum, nearS⟩ := near_sum (n := m / t) (by omega) fraction (by linarith) highF
  have range : InRange (s * t) := by
    have one : (1 : ℚ) ≤ t := by exact_mod_cast below
    have large : (t : ℚ) ≤ 10 ^ 22 := by exact_mod_cast large
    have front : (0 : ℚ) ≤ (m / t : Nat) * t := by positivity
    have lowT : f * 1 ≤ f * t := by gcongr
    have highT : f * t ≤ 2 * 10 ^ 22 := by gcongr
    have lower : ((m / t : Nat) + f) * t ≤ s * (1 + 1 / 2 ^ 53) * t := by
      gcongr
      exact nearS.2
    have upper : s * (1 - 1 / 2 ^ 53) * t ≤ ((m / t : Nat) + f) * t := by
      gcongr
      exact nearS.1
    have rest : (0 : ℚ) ≤ (m % t : Nat) := Nat.cast_nonneg _
    exact .of_ten (by linarith) (by linarith)
  obtain ⟨p, product, nearP⟩ := (rounded_mul sum exactly range).near
  obtain ⟨low, high⟩ := within_half whole few' (Nat.cast_nonneg _) below nearF nearS nearP
  exact product.round low high

/-- Only the rest of a division that comes out makes the fraction vanish. -/
theorem fraction_eq_zero_iff {r t : Nat} (less : r < t) (short : r < 2 ^ 53) (large : t ≤ 10 ^ 22)
    (unit : Exactly (ofMagnitude false t) t) :
    (ofMagnitude false r / ofMagnitude false t == 0.0) = true ↔ r = 0 := by
  constructor
  · intro vanished
    by_contra some_
    obtain ⟨f, fraction, -⟩ := near_rest (Nat.pos_of_ne_zero some_) less short large unit
    rw [fraction.ne_zero] at vanished
    cases vanished
  · rintro rfl
    exact zero_div_eq unit

/-- A number of up to 15 digits is divided by a power of ten to the double nearest to the quotient. -/
theorem rounded_scaled {m t : Nat} {power : Float} (some : 0 < m) (few : m < 10 ^ 15)
    (large : t ≤ 10 ^ 22) (unit : Exactly (ofMagnitude false t) t) (exactly : Exactly power t) :
    Rounded
      (if ofMagnitude false (m % t) / ofMagnitude false t == 0.0 then ofMagnitude false (m / t)
        else Number.round ((ofMagnitude false (m / t) +
          ofMagnitude false (m % t) / ofMagnitude false t) * power) / power) (m / t) := by
  have below := unit.positive
  have below' : 0 < t := by exact_mod_cast below
  have modulo := Nat.mod_le m t
  have vanishes := fraction_eq_zero_iff (Nat.mod_lt m below') (by omega) large unit
  split
  · -- The quotient is a natural number.
    rename_i vanished
    have divides := Nat.dvd_of_mod_eq_zero (vanishes.mp vanished)
    have quotient : (m : ℚ) / t = (m / t : Nat) := by
      rw [div_eq_iff below.ne']
      exact_mod_cast (Nat.div_mul_cancel divides).symm
    have front : 0 < m / t := Nat.div_pos (Nat.le_of_dvd some divides) below'
    have divided := Nat.div_le_self m t
    rw [quotient]
    exact rounded_ofMagnitude front (by omega)
  · -- The magnitude is found again, and its quotient is rounded once.
    rename_i some_
    have rest : 0 < m % t := Nat.pos_of_ne_zero fun none => some_ (vanishes.mpr none)
    have positive : (1 : ℚ) ≤ m := by exact_mod_cast some
    have most : (m : ℚ) < 10 ^ 15 := by exact_mod_cast few
    have large' : (t : ℚ) ≤ 10 ^ 22 := by exact_mod_cast large
    have one : (1 : ℚ) ≤ t := by exact_mod_cast below'
    rw [round_recombined few rest large unit exactly]
    refine rounded_div (exactly_ofMagnitude some (by omega)) exactly (.of_ten ?_ ?_)
    · rw [div_le_div_iff₀ (by positivity) below]
      linarith
    · rw [div_le_iff₀ below]
      linarith

/-- A decimal of up to 15 digits is converted to the double nearest to it. -/
theorem Decimal.exists_toFloat {d : Decimal} (some : 0 < d.magnitude)
    (few : d.magnitude < 10 ^ 15) (places : d.scale ≤ 22) :
    ∃ x, d.toFloat = withSign d.negative x ∧ Rounded x (d.magnitude / 10 ^ d.scale) := by
  refine ⟨_, rfl, ?_⟩
  split
  · -- Without places the magnitude is converted as it is.
    rename_i unscaled
    rw [eq_of_beq unscaled, pow_zero, div_one]
    exact rounded_ofMagnitude some (by omega)
  · have large : 10 ^ d.scale ≤ 10 ^ 22 := Nat.pow_le_pow_right (by decide) places
    have power : Exactly (powerBySquaring 10.0 d.scale) (10 ^ d.scale : Nat) := by
      push_cast
      exact powerBySquaring_ten places
    have scaled := rounded_scaled some few large (exactly_unit places) power
    push_cast at scaled
    exact scaled

/-- A decimal that is zero is converted to the zero of its sign. -/
theorem Decimal.toFloat_zero {d : Decimal} (none : d.magnitude = 0) (places : d.scale ≤ 22) :
    d.toFloat = withSign d.negative (ofMagnitude false 0) := by
  rw [toFloat, withSign]
  simp only [none, Nat.zero_div, Nat.zero_mod, zero_div_eq (exactly_unit places), if_true, ite_self]

end EdmQuery.Number
