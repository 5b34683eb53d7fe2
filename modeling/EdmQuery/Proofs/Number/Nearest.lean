import Mathlib
import EdmQuery.Proofs.Number.Double

/-! Fractions inside the rounding interval of a double read as that double. -/

namespace EdmQuery.Number

/-- The positive fraction of two natural numbers. -/
def fraction (parts : Nat × Nat) : ℚ :=
  (parts.1 : ℚ) / parts.2

/-- A power of a base is the fraction of its two factors. -/
theorem ratio_eq {base : Nat} (positive : 0 < base) (e : Int) :
    0 < (ratio base e).1 ∧ 0 < (ratio base e).2 ∧ fraction (ratio base e) = (base : ℚ) ^ e := by
  rw [ratio]
  split
  · rename_i up
    refine ⟨by positivity, one_pos, ?_⟩
    rw [fraction, Nat.cast_pow, Nat.cast_one, div_one, ← zpow_natCast, Int.toNat_of_nonneg up]
  · rename_i down
    refine ⟨one_pos, by positivity, ?_⟩
    rw [fraction, Nat.cast_one, Nat.cast_pow, one_div, ← zpow_natCast,
      Int.toNat_of_nonneg (by omega), zpow_neg, inv_inv]

/-- A fraction over a power of two is the quotient by that power. -/
theorem overPower_eq {n d : Nat} (positive : 0 < d) (e : Int) :
    0 < (overPower n d e).2 ∧ fraction (overPower n d e) = fraction (n, d) / 2 ^ e := by
  obtain ⟨above, below, power⟩ := ratio_eq (by decide : 0 < 2) e
  refine ⟨Nat.mul_pos positive above, ?_⟩
  have two : ((2 : Nat) : ℚ) = 2 := rfl
  rw [two] at power
  rw [← power]
  simp only [overPower, fraction, Nat.cast_mul]
  field_simp

/-- A fraction that has a natural number as the nearest one, or as the even one of the nearest. -/
structure RoundsTo (v : ℚ) (q : Nat) : Prop where
  low : (q : ℚ) - 1 / 2 ≤ v
  high : v ≤ q + 1 / 2
  strict : q % 2 = 1 → (q : ℚ) - 1 / 2 < v ∧ v < q + 1 / 2

/-- The rounded quotient is the number that the fraction rounds to. -/
theorem divHalfEven_eq {n d q : Nat} (positive : 0 < d) (rounds : RoundsTo (fraction (n, d)) q) :
    Decimal.divHalfEven n d = q := by
  have below : (0 : ℚ) < d := by exact_mod_cast positive
  -- Multiplied by twice the denominator, the bounds are about natural numbers.
  have lowAt : (q : ℚ) - 1 / 2 ≤ n / d ↔ 2 * (q * d) ≤ 2 * n + d := by
    rw [le_div_iff₀ below, ← Nat.cast_le (α := ℚ)]
    push_cast
    constructor <;> intro h <;> linarith
  have highAt : (n : ℚ) / d ≤ q + 1 / 2 ↔ 2 * n ≤ 2 * (q * d) + d := by
    rw [div_le_iff₀ below, ← Nat.cast_le (α := ℚ)]
    push_cast
    constructor <;> intro h <;> linarith
  have lowStrict : (q : ℚ) - 1 / 2 < n / d ↔ 2 * (q * d) < 2 * n + d := by
    rw [lt_div_iff₀ below, ← Nat.cast_lt (α := ℚ)]
    push_cast
    constructor <;> intro h <;> linarith
  have highStrict : (n : ℚ) / d < q + 1 / 2 ↔ 2 * n < 2 * (q * d) + d := by
    rw [div_lt_iff₀ below, ← Nat.cast_lt (α := ℚ)]
    push_cast
    constructor <;> intro h <;> linarith
  have low := lowAt.mp rounds.low
  have high := highAt.mp rounds.high
  have strict := fun odd => And.intro (lowStrict.mp (rounds.strict odd).1)
    (highStrict.mp (rounds.strict odd).2)
  have whole := Nat.div_add_mod n d
  have rest := Nat.mod_lt n positive
  have product (k : Nat) : (k + 1) * d = k * d + d := Nat.succ_mul k d
  rw [Nat.mul_comm] at whole
  have notBelow : n / d ≤ q := by
    by_contra less
    have := Nat.mul_le_mul_right d (Nat.not_le.mp less : q + 1 ≤ n / d)
    rw [product] at this
    omega
  have notAbove : q ≤ n / d + 1 := by
    by_contra more
    have := Nat.mul_le_mul_right d (Nat.not_le.mp more : n / d + 1 + 1 ≤ q)
    rw [product, product] at this
    omega
  simp only [Decimal.divHalfEven, Bool.or_eq_true, decide_eq_true_eq, Bool.and_eq_true, beq_iff_eq]
  rcases (by omega : q = n / d ∨ q = n / d + 1) with same | next
  · rw [if_neg, same]
    rw [← same] at whole
    rintro (above | ⟨half, odd⟩)
    · omega
    · have := strict (by omega)
      omega
  · rw [if_pos, next]
    rw [next, product] at low strict
    by_cases half : 2 * (n % d) = d
    · right
      refine ⟨half, ?_⟩
      by_contra even
      have := strict (by omega)
      omega
    · left
      omega

/-- A number is between two powers of two next to each other. -/
theorem log2_bounds {n : Nat} (positive : 0 < n) :
    (2 : ℚ) ^ (Nat.log2 n : Int) ≤ n ∧ (n : ℚ) < 2 ^ ((Nat.log2 n : Int) + 1) := by
  constructor
  · rw [zpow_natCast]
    exact_mod_cast Nat.log2_self_le positive.ne'
  · rw [← Nat.cast_succ, zpow_natCast]
    exact_mod_cast Nat.lt_log2_self

/-- The last place of a fraction leaves it at most 53 bits, and that many above the lowest place. -/
theorem placeOf_spec {n d : Nat} (above : 0 < n) (below : 0 < d) :
    -1074 ≤ placeOf n d ∧ fraction (n, d) < 2 ^ (53 + placeOf n d) ∧
      (placeOf n d = -1074 ∨ 2 ^ (52 + placeOf n d) ≤ fraction (n, d)) := by
  obtain ⟨lowN, highN⟩ := log2_bounds above
  obtain ⟨lowD, highD⟩ := log2_bounds below
  have two : (1 : ℚ) < 2 := by norm_num
  have positive : (0 : ℚ) < d := by exact_mod_cast below
  -- The lengths of both numbers tell the size of their quotient up to a factor of two.
  have high : fraction (n, d) < 2 ^ ((Nat.log2 n : Int) - Nat.log2 d + 1) := by
    rw [fraction, div_lt_iff₀ positive, sub_add_eq_add_sub, zpow_sub₀ two_ne_zero, div_mul_eq_mul_div,
      lt_div_iff₀ (by positivity)]
    calc (n : ℚ) * 2 ^ (Nat.log2 d : Int)
        < 2 ^ ((Nat.log2 n : Int) + 1) * 2 ^ (Nat.log2 d : Int) := by gcongr
      _ ≤ 2 ^ ((Nat.log2 n : Int) + 1) * d := by gcongr
  have low : 2 ^ ((Nat.log2 n : Int) - Nat.log2 d - 1) < fraction (n, d) := by
    rw [fraction, lt_div_iff₀ positive, sub_sub, zpow_sub₀ two_ne_zero, div_mul_eq_mul_div,
      div_lt_iff₀ (by positivity)]
    calc (2 : ℚ) ^ (Nat.log2 n : Int) * d
        < 2 ^ (Nat.log2 n : Int) * 2 ^ ((Nat.log2 d : Int) + 1) := by gcongr
      _ ≤ n * 2 ^ ((Nat.log2 d : Int) + 1) := by gcongr
  have mono {a b : Int} (le : a ≤ b) : (2 : ℚ) ^ a ≤ 2 ^ b := zpow_le_zpow_right₀ two.le le
  generalize size : (Nat.log2 n : Int) - Nat.log2 d = lengths at high low
  let e := max (lengths - 53) (-1074)
  obtain ⟨divisor, quotient⟩ := overPower_eq (n := n) below e
  have whole : (overPower n d e).1 / (overPower n d e).2 < 2 ^ 53 ↔
      fraction (n, d) < 2 ^ (53 + e) := by
    have divisor' : (0 : ℚ) < (overPower n d e).2 := by exact_mod_cast divisor
    rw [zpow_add₀ two_ne_zero, ← div_lt_iff₀ (by positivity), ← quotient, fraction,
      div_lt_iff₀ divisor', Nat.div_lt_iff_lt_mul divisor, ← Nat.cast_lt (α := ℚ)]
    push_cast
    rfl
  have place : placeOf n d = if fraction (n, d) < 2 ^ (53 + e) then e else e + 1 := by
    rw [placeOf, size]
    simp only [whole, e]
  rw [place]
  split
  · rename_i less
    refine ⟨le_max_right _ _, less, ?_⟩
    rcases max_choice (lengths - 53) (-1074) with long | short
    · right
      have exponent : 52 + e = lengths - 1 := by omega
      rw [exponent]
      exact low.le
    · exact .inl short
  · rename_i more
    refine ⟨by omega, high.trans_le (mono (by omega)), .inr ?_⟩
    have exponent : 52 + (e + 1) = 53 + e := by ring
    rw [exponent]
    exact not_lt.mp more

/-- The reals inside an interval; its ends belong to it where the mantissa is even. -/
structure Interval.Holds (i : Interval) (v : ℚ) : Prop where
  low : i.low * 2 ^ i.exponent ≤ v
  high : v ≤ i.high * 2 ^ i.exponent
  strict : i.closed = false → i.low * 2 ^ i.exponent < v ∧ v < i.high * 2 ^ i.exponent

/-- The interval of a number in units of its last place. -/
theorem Interval.Holds.around {b : Binary} {v : ℚ} (some : 0 < b.mantissa)
    (holds : (Interval.ofBinary b).Holds v) :
    (b.mantissa : ℚ) - 1 / 2 ≤ v / 2 ^ b.exponent ∧ v / 2 ^ b.exponent ≤ b.mantissa + 1 / 2 ∧
      (b.mantissa % 2 = 1 → (b.mantissa : ℚ) - 1 / 2 < v / 2 ^ b.exponent ∧
        v / 2 ^ b.exponent < b.mantissa + 1 / 2) ∧
      (b.mantissa = 2 ^ 52 → b.exponent ≠ -1074 →
        (b.mantissa : ℚ) - 1 / 4 ≤ v / 2 ^ b.exponent) := by
  obtain ⟨low, high, strict⟩ := holds
  have unit : (0 : ℚ) < 2 ^ b.exponent := by positivity
  have quarter : (2 : ℚ) ^ (b.exponent - 2) = 2 ^ b.exponent / 4 := by
    rw [zpow_sub₀ two_ne_zero]
    norm_num
  have ends (side : Nat) : (side : ℚ) * 2 ^ (Interval.ofBinary b).exponent
      = side / 4 * 2 ^ b.exponent := by
    rw [Interval.ofBinary, quarter]
    ring
  have top : ((Interval.ofBinary b).high : ℚ) / 4 = b.mantissa + 1 / 2 := by
    rw [Interval.ofBinary]
    push_cast
    ring
  rw [ends, ← le_div_iff₀ unit] at low
  rw [ends, ← div_le_iff₀ unit, top] at high
  rw [ends, ends, ← lt_div_iff₀ unit, ← div_lt_iff₀ unit, top] at strict
  -- Below a power of two the interval reaches only half as far down.
  have bottom : (b.mantissa : ℚ) - 1 / 2 ≤ ((Interval.ofBinary b).low : ℚ) / 4 := by
    have close : 4 * b.mantissa ≤ (Interval.ofBinary b).low + 2 := by
      simp only [Interval.ofBinary]
      split <;> omega
    have close : 4 * (b.mantissa : ℚ) ≤ (Interval.ofBinary b).low + 2 := by exact_mod_cast close
    linarith
  have odd (parity : b.mantissa % 2 = 1) : (Interval.ofBinary b).closed = false := by
    simp [Interval.ofBinary, parity]
  refine ⟨bottom.trans low, high, fun parity => ?_, fun power above => ?_⟩
  · obtain ⟨low, high⟩ := strict (odd parity)
    exact ⟨bottom.trans_lt low, high⟩
  · have near : (Interval.ofBinary b).low + 1 = 4 * b.mantissa := by
      have narrow : (b.mantissa == 2 ^ 52 && b.exponent != -1074) = true := by simp [power, above]
      simp only [Interval.ofBinary, narrow, if_true]
      omega
    have near : ((Interval.ofBinary b).low : ℚ) + 1 = 4 * b.mantissa := by exact_mod_cast near
    linarith

/-- A positive fraction in the interval of a canonical number has the bits of that number. -/
theorem nearestBits_eq {b : Binary} (canonical : b.Canonical) (some : 0 < b.mantissa) {n d : Nat}
    (below : 0 < d) (holds : (Interval.ofBinary b).Holds (fraction (n, d))) :
    nearestBits n d = b.bits := by
  obtain ⟨low, high, odd, narrow⟩ := holds.around some
  obtain ⟨short, lowest, highest, filled⟩ := canonical
  have unit : (0 : ℚ) < 2 ^ b.exponent := by positivity
  have mantissa : (1 : ℚ) ≤ b.mantissa := by exact_mod_cast some
  have short' : (b.mantissa : ℚ) + 1 ≤ 2 ^ 53 := by exact_mod_cast short
  have above : 0 < n := by
    rcases Nat.eq_zero_or_pos n with rfl | positive
    · rw [fraction, Nat.cast_zero, zero_div, zero_div] at low
      linarith
    · exact positive
  obtain ⟨least, less, most⟩ := placeOf_spec above below
  obtain ⟨divisor, quotient⟩ := overPower_eq (n := n) below (placeOf n d)
  -- Whatever the last place is, rounding there gives the bits if it gives a certain quotient.
  have bits (q : Nat) (rounds : RoundsTo (fraction (n, d) / 2 ^ placeOf n d) q)
      (same : (placeOf n d + 1074).toNat * 2 ^ 52 + q = b.bits) : nearestBits n d = b.bits := by
    have divided : Decimal.divHalfEven (overPower n d (placeOf n d)).1
        (overPower n d (placeOf n d)).2 = q := by
      apply divHalfEven_eq divisor
      rw [Prod.mk.eta, quotient]
      exact rounds
    have bound : b.bits ≤ 2047 * 2 ^ 52 := by
      rw [Binary.bits]
      omega
    rw [nearestBits]
    simp only [divided, same]
    exact Nat.min_eq_left bound
  have mono {a b : Int} (le : a ≤ b) : (2 : ℚ) ^ a ≤ 2 ^ b := zpow_le_zpow_right₀ one_le_two le
  have scaled (k : Nat) : (2 : ℚ) ^ ((k : Int) + b.exponent) / 2 ^ b.exponent = 2 ^ k := by
    rw [zpow_add₀ two_ne_zero, zpow_natCast, mul_div_cancel_right₀ _ unit.ne']
  rcases lt_trichotomy (placeOf n d) b.exponent with lower | equal | higher
  · -- Only just below a power of two is the last place finer than that of the power.
    have smaller : fraction (n, d) / 2 ^ b.exponent < 2 ^ 52 := by
      rw [← scaled, div_lt_div_iff_of_pos_right unit]
      exact less.trans_le (mono (by push_cast; omega))
    have power : b.mantissa = 2 ^ 52 := by
      have least := filled.resolve_left (by omega)
      have most : (b.mantissa : ℚ) < 2 ^ 52 + 1 := by linarith
      have most : b.mantissa < 2 ^ 52 + 1 := by exact_mod_cast most
      omega
    have near := narrow power (by omega)
    rw [power] at near
    have next : placeOf n d = b.exponent - 1 := by
      by_contra other
      have half : fraction (n, d) / 2 ^ b.exponent < 2 ^ 51 := by
        rw [← scaled, div_lt_div_iff_of_pos_right unit]
        exact less.trans_le (mono (by push_cast; omega))
      norm_num at near half
      linarith
    have twice : fraction (n, d) / 2 ^ placeOf n d = 2 * (fraction (n, d) / 2 ^ b.exponent) := by
      rw [next, zpow_sub_one₀ two_ne_zero]
      field_simp
    refine bits (2 ^ 53) ?_ (by rw [next, Binary.bits, power]; omega)
    rw [twice]
    norm_num at near smaller
    refine ⟨?_, ?_, fun parity => absurd parity (by decide)⟩ <;> norm_num <;> linarith
  · refine bits b.mantissa ?_ (by rw [equal]; rfl)
    rw [equal]
    exact ⟨low, high, odd⟩
  · exfalso
    have power := most.resolve_left (by omega)
    have bigger : (2 : ℚ) ^ 53 ≤ fraction (n, d) / 2 ^ b.exponent := by
      rw [← scaled, div_le_div_iff_of_pos_right unit]
      exact (mono (by push_cast; omega)).trans power
    linarith

end EdmQuery.Number
