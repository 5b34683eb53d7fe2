import Mathlib
import EdmQuery.Proofs.Number.Nearest

/-! Rounding by a round bit and a sticky bit gives the binary number nearest to the exact one. -/

namespace EdmQuery.Number

open Float.Model (totalExponent)
open Float.Model.UnpackedFloat

/-- The number that a mantissa and the two bits behind it stand for, as far as they tell. -/
def Extends (em : ExtendedMantissa) (q : ℚ) : Prop :=
  -- The round bit is worth a half, and the sticky bit says that something less comes behind it.
  match em.roundBit, em.stickyBit with
  | false, false => q = em.mantissa
  | false, true => (em.mantissa : ℚ) < q ∧ q < em.mantissa + 1 / 2
  | true, false => q = em.mantissa + 1 / 2
  | true, true => (em.mantissa : ℚ) + 1 / 2 < q ∧ q < em.mantissa + 1

/-- A mantissa stands for itself. -/
theorem extends_exact (m : Nat) : Extends (ExtendedMantissa.ofMantissaAndAccuracy m .exact) m :=
  rfl

/-- The mantissa is the integer part. -/
theorem Extends.bounds {em : ExtendedMantissa} {q : ℚ} (given : Extends em q) :
    (em.mantissa : ℚ) ≤ q ∧ q < em.mantissa + 1 := by
  obtain ⟨m, r, s⟩ := em
  cases r <;> cases s <;> simp only [Extends] at given ⊢ <;> constructor <;> linarith

/-- A shift by one place halves the number. -/
theorem Extends.shiftRightOne {em : ExtendedMantissa} {q : ℚ} (given : Extends em q) :
    Extends em.shiftRightOne (q / 2) := by
  obtain ⟨m, r, s⟩ := em
  have whole : (m : ℚ) = 2 * (m / 2 : Nat) + (m % 2 : Nat) := by
    exact_mod_cast (Nat.div_add_mod m 2).symm
  -- The bit that is shifted out is the new round bit, the ones behind it are told by the sticky one.
  rcases Nat.mod_two_eq_zero_or_one m with even | odd
  · rw [even, Nat.cast_zero] at whole
    cases r <;> cases s <;>
      simp only [Extends, ExtendedMantissa.shiftRightOne, even, bne_self_eq_false, Bool.or_false,
        Bool.or_true, Bool.or_self] at given ⊢ <;>
      first | linarith | constructor <;> linarith
  · rw [odd, Nat.cast_one] at whole
    have one : (1 != 0) = true := rfl
    cases r <;> cases s <;>
      simp only [Extends, ExtendedMantissa.shiftRightOne, odd, one, Bool.or_false,
        Bool.or_true, Bool.or_self] at given ⊢ <;>
      first | linarith | constructor <;> linarith

/-- A shift by some places divides the number by that power of two. -/
theorem Extends.shiftRight {em : ExtendedMantissa} {q : ℚ} (given : Extends em q) (places : Nat) :
    Extends (em >>> places) (q / 2 ^ places) := by
  -- A shift goes place by place, and what it loses stays in the sticky bit.
  induction places with
  | zero =>
    rw [pow_zero, div_one]
    exact given
  | succ places ih =>
    rw [pow_succ, ← div_div]
    exact ih.shiftRightOne

/-- Rounding by the two bits rounds the number. -/
theorem Extends.roundsTo {em : ExtendedMantissa} {q : ℚ} (given : Extends em q) :
    RoundsTo q em.roundedMantissa := by
  obtain ⟨m, r, s⟩ := em
  cases r <;> cases s <;>
    simp only [Extends, ExtendedMantissa.roundedMantissa, ExtendedMantissa.accuracy,
      Accuracy.roundToNearestEven] at given ⊢
  -- Without a round bit the mantissa is kept, and with both bits the next one is taken.
  · exact ⟨by linarith, by linarith, fun _ => ⟨by linarith, by linarith⟩⟩
  · exact ⟨by linarith, by linarith, fun _ => ⟨by linarith, by linarith⟩⟩
  · -- Only halves go to the even neighbour.
    rcases Nat.mod_two_eq_zero_or_one m with even | odd
    · rw [even, Nat.add_zero]
      exact ⟨by linarith, by linarith, fun odd => by omega⟩
    · rw [odd]
      exact ⟨by push_cast; linarith, by push_cast; linarith, fun odd => by omega⟩
  · exact ⟨by push_cast; linarith, by push_cast; linarith,
      fun _ => ⟨by push_cast; linarith, by push_cast; linarith⟩⟩

/-- A binary number with a full mantissa in the range of doubles. -/
structure Binary.IsNormal (b : Binary) : Prop where
  le_mantissa : 2 ^ 52 ≤ b.mantissa
  mantissa_lt : b.mantissa < 2 ^ 53
  le_exponent : -1074 ≤ b.exponent
  exponent_le : b.exponent ≤ 971

/-- Normal numbers are canonical. -/
theorem Binary.IsNormal.canonical {b : Binary} (normal : b.IsNormal) : b.Canonical :=
  ⟨normal.mantissa_lt, normal.le_exponent, normal.exponent_le, .inr normal.le_mantissa⟩

/-- A number that rounds to a full mantissa lies in the interval of that binary number. -/
theorem Interval.Holds.of_rounds {b : Binary} (normal : b.IsNormal) {v : ℚ}
    (rounds : RoundsTo (v / 2 ^ b.exponent) b.mantissa)
    (narrow : b.mantissa = 2 ^ 52 → (b.mantissa : ℚ) - 1 / 4 ≤ v / 2 ^ b.exponent) :
    (Interval.ofBinary b).Holds v := by
  obtain ⟨low, high, strict⟩ := rounds
  have unit : (0 : ℚ) < 2 ^ b.exponent := by positivity
  -- Intervals count in quarters of the last place, so that both of their ends are whole.
  have ends (side : Nat) : (side : ℚ) * 2 ^ (Interval.ofBinary b).exponent
      = side / 4 * 2 ^ b.exponent := by
    rw [Interval.ofBinary, zpow_sub₀ two_ne_zero]
    ring
  have top : ((Interval.ofBinary b).high : ℚ) / 4 = b.mantissa + 1 / 2 := by
    rw [Interval.ofBinary]
    push_cast
    ring
  have some_ := normal.le_mantissa
  have cast (k : Nat) (small : k ≤ 4 * b.mantissa) :
      ((4 * b.mantissa - k : Nat) : ℚ) / 4 = b.mantissa - k / 4 := by
    rw [Nat.cast_sub small]
    push_cast
    ring
  have bottom : ((Interval.ofBinary b).low : ℚ) / 4 ≤ v / 2 ^ b.exponent := by
    simp only [Interval.ofBinary]
    split
    · -- The neighbour below a power of two is only half as far away.
      rename_i power
      have power : b.mantissa = 2 ^ 52 := by simpa using (Bool.and_eq_true_iff.mp power).1
      rw [cast 1 (by omega)]
      exact_mod_cast narrow power
    · rw [cast 2 (by omega)]
      push_cast
      linarith
  refine ⟨?_, ?_, fun opened => ?_⟩
  · rw [ends, ← le_div_iff₀ unit]
    exact bottom
  · rw [ends, ← div_le_iff₀ unit, top]
    exact high
  · -- An interval without its ends has an odd mantissa, which no power of two is.
    have odd : b.mantissa % 2 = 1 := by
      simp only [Interval.ofBinary, beq_eq_false_iff_ne, ne_eq] at opened
      omega
    have wide : ((Interval.ofBinary b).low : ℚ) / 4 = b.mantissa - 1 / 2 := by
      have other : (b.mantissa == 2 ^ 52) = false := beq_eq_false_iff_ne.mpr (by omega)
      simp only [Interval.ofBinary, other, Bool.false_and, Bool.false_eq_true, if_false]
      rw [cast 2 (by omega)]
      norm_num
    rw [ends, ends, ← lt_div_iff₀ unit, ← div_lt_iff₀ unit, top, wide]
    exact strict odd

/-- The numbers that doubles with full mantissas come near to, with room at both ends. -/
def InRange (v : ℚ) : Prop :=
  2 ^ (-1022 : Int) ≤ v ∧ v < 2 ^ (1023 : Int)

/-- A number with a mantissa of some length. -/
theorem log2_mul_bounds {m : Nat} {e : Int} {q : ℚ} (positive : 0 < m) (low : (m : ℚ) ≤ q)
    (high : q < m + 1) :
    2 ^ (Nat.log2 m + e) ≤ q * 2 ^ e ∧ q * 2 ^ e < 2 ^ (Nat.log2 m + 1 + e) := by
  have unit : (0 : ℚ) < 2 ^ e := by positivity
  have next : (m : ℚ) + 1 ≤ 2 ^ ((Nat.log2 m : Int) + 1) := by
    rw [← Nat.cast_succ, ← Nat.cast_succ, zpow_natCast]
    exact_mod_cast Nat.lt_log2_self
  rw [zpow_add₀ two_ne_zero, zpow_add₀ two_ne_zero, mul_le_mul_iff_left₀ unit,
    mul_lt_mul_iff_left₀ unit]
  exact ⟨(log2_bounds positive).1.trans low, high.trans_le next⟩

/-- The exponent of a number so long, which leaves its mantissa 53 bits. -/
theorem targetExponent_eq (total : Int) :
    double64.targetExponent total = max (total - 53) (-1074) := rfl

/-- A mantissa that is full stays as it is. -/
theorem shiftToTargetExponent_full {m : Nat} {e : Int} (low : 2 ^ 52 ≤ m) (high : m < 2 ^ 53)
    (within : -1074 ≤ e) :
    shiftToTargetExponent double64 m e .exact = (⟨m, false, false⟩, e) := by
  have length : m.log2 = 52 := (Nat.log2_eq_iff (by omega)).mpr ⟨low, high⟩
  have target : double64.targetExponent (totalExponent m e) = e := by
    rw [targetExponent_eq, totalExponent, length]
    omega
  rw [shiftToTargetExponent, target, shiftToExponent]
  simp only [Int.sub_self, Int.toNat_zero, Nat.cast_zero, Int.add_zero]
  rfl

/-- A mantissa that was rounded up to one more bit loses its last one, a zero. -/
theorem shiftToTargetExponent_carry {e : Int} (within : -1074 ≤ e) :
    shiftToTargetExponent double64 (2 ^ 53) e .exact = (⟨2 ^ 52, false, false⟩, e + 1) := by
  have target : double64.targetExponent (totalExponent (2 ^ 53) e) = e + 1 := by
    rw [targetExponent_eq, totalExponent, Nat.log2_two_pow]
    omega
  have one : (e + 1 - e).toNat = 1 := by omega
  rw [shiftToTargetExponent, target, shiftToExponent]
  simp only [one]
  rfl

/-- The mantissa of an accuracy is the one it is about. -/
theorem mantissa_ofMantissaAndAccuracy (m : Nat) (accuracy : Accuracy) :
    (ExtendedMantissa.ofMantissaAndAccuracy m accuracy).mantissa = m := by
  cases accuracy with
  | exact => rfl
  | inexact side => cases side <;> rfl

/-- A mantissa that a number of 53 bits rounds to is made full again if that was a carry. -/
theorem shiftToTargetExponent_rounded {v : ℚ} {r : Nat} {e : Int}
    (rounds : RoundsTo (v / 2 ^ e) r) (low : 2 ^ 52 ≤ v / 2 ^ e) (high : v / 2 ^ e < 2 ^ 53)
    (within : -1074 ≤ e) (most : e ≤ 970) :
    ∃ b : Binary, b.IsNormal ∧ b.negative = false ∧ (Interval.ofBinary b).Holds v ∧
      shiftToTargetExponent double64 r e .exact = (⟨b.mantissa, false, false⟩, b.exponent) := by
  have above : 2 ^ 52 ≤ r := by
    have near : (2 : ℚ) ^ 52 < r + 1 := by linarith [rounds.high]
    exact_mod_cast Nat.lt_succ_iff.mp (by exact_mod_cast near : 2 ^ 52 < r + 1)
  have below : r ≤ 2 ^ 53 := by
    have near : (r : ℚ) < 2 ^ 53 + 1 := by linarith [rounds.low]
    exact Nat.lt_succ_iff.mp (by exact_mod_cast near)
  -- What 53 bits round to has 53 bits itself, unless it is the next power of two.
  rcases Nat.lt_or_ge r (2 ^ 53) with full | carry
  · have normal : (Binary.mk false r e).IsNormal := ⟨above, full, within, by simp only; omega⟩
    refine ⟨⟨false, r, e⟩, normal, rfl, .of_rounds normal rounds fun power => ?_,
      shiftToTargetExponent_full above full within⟩
    simp only at power ⊢
    rw [power]
    push_cast
    linarith
  · have same : r = 2 ^ 53 := Nat.le_antisymm below carry
    subst same
    have normal : (Binary.mk false (2 ^ 52) (e + 1)).IsNormal :=
      ⟨le_rfl, by simp only; omega, by simp only; omega, by simp only; omega⟩
    have half : v / 2 ^ (e + 1) = v / 2 ^ e / 2 := by
      rw [zpow_add_one₀ two_ne_zero, div_div]
    have near := rounds.low
    push_cast at near
    refine ⟨⟨false, 2 ^ 52, e + 1⟩, normal, rfl, .of_rounds normal ⟨?_, ?_, ?_⟩ fun _ => ?_,
      shiftToTargetExponent_carry within⟩
    · simp only [half]
      push_cast
      linarith
    · simp only [half]
      push_cast
      linarith
    · intro odd
      simp only at odd
      omega
    · simp only [half]
      push_cast
      linarith

/-- The last place of a number in range is 52 bits behind its first. -/
theorem targetExponent_of_inRange {m : Nat} {e : Int} {q : ℚ} (low : (m : ℚ) ≤ q)
    (high : q < m + 1) (long : e ≤ double64.targetExponent (totalExponent m e))
    (range : InRange (q * 2 ^ e)) :
    0 < m ∧ double64.targetExponent (totalExponent m e) = Nat.log2 m + e - 52 ∧
      -1074 ≤ Nat.log2 m + e - 52 ∧ Nat.log2 m + e - 52 ≤ 970 := by
  obtain ⟨least, most⟩ := range
  have up {a b : Int} (less : (2 : ℚ) ^ a < 2 ^ b) : a < b :=
    (zpow_lt_zpow_iff_right₀ one_lt_two).mp less
  have positive : 0 < m := by
    rcases Nat.eq_zero_or_pos m with rfl | positive
    · -- Below the unit of its last place the number would be out of range.
      have small : q * 2 ^ e < 2 ^ e := by
        rw [Nat.cast_zero, zero_add] at high
        exact mul_lt_of_lt_one_left (by positivity) high
      have less := up (least.trans_lt small)
      rw [targetExponent_eq, totalExponent, Nat.log2_zero] at long
      omega
    · exact positive
  obtain ⟨short, more⟩ := log2_mul_bounds (e := e) positive low high
  have aboveLow := up (least.trans_lt more)
  have belowHigh := up (short.trans_lt most)
  refine ⟨positive, ?_, by omega, by omega⟩
  rw [targetExponent_eq, totalExponent]
  omega

/-- A mantissa that is too long loses its last places. -/
theorem shiftToTargetExponent_long {m places : Nat} {e : Int} (accuracy : Accuracy)
    (target : double64.targetExponent (totalExponent m e) = e + places) :
    shiftToTargetExponent double64 m e accuracy =
      (ExtendedMantissa.ofMantissaAndAccuracy m accuracy >>> places, e + places) := by
  have count : (e + places - e).toNat = places := by omega
  rw [shiftToTargetExponent, target, shiftToExponent]
  simp only [count]

/-- Rounding a number whose mantissa is long enough gives a normal number near it. -/
theorem roundWithAccuracy_spec {m : Nat} {e : Int} {accuracy : Accuracy} {q : ℚ}
    (given : Extends (ExtendedMantissa.ofMantissaAndAccuracy m accuracy) q)
    (long : e ≤ double64.targetExponent (totalExponent m e)) (range : InRange (q * 2 ^ e)) :
    ∃ b : Binary, b.IsNormal ∧ b.negative = false ∧ (Interval.ofBinary b).Holds (q * 2 ^ e) ∧
      ∃ some, roundWithAccuracy double64 .positive m e accuracy =
        .finite .positive b.mantissa b.exponent some := by
  obtain ⟨low, high⟩ := given.bounds
  rw [mantissa_ofMantissaAndAccuracy] at low high
  obtain ⟨positive, target, least, most⟩ := targetExponent_of_inRange low high long range
  obtain ⟨short, more⟩ := log2_mul_bounds (e := e) positive low high
  obtain ⟨places, shift⟩ : ∃ places : Nat, (Nat.log2 m : Int) + e - 52 = e + places :=
    ⟨((Nat.log2 m : Int) - 52).toNat, by omega⟩
  rw [shift] at target
  have unit : (0 : ℚ) < 2 ^ (e + places) := by positivity
  have scaled : q * 2 ^ e / 2 ^ (e + places) = q / 2 ^ places := by
    rw [zpow_add₀ two_ne_zero, zpow_natCast]
    field_simp
  have rounds := (given.shiftRight places).roundsTo
  rw [← scaled] at rounds
  have power (k : Nat) : (2 : ℚ) ^ k * 2 ^ (e + places) = 2 ^ (k + (e + places)) := by
    rw [← zpow_natCast, ← zpow_add₀ two_ne_zero]
  have start : (Nat.log2 m : Int) + e = (52 : Nat) + (e + places) := by
    push_cast
    omega
  have stop : (Nat.log2 m : Int) + 1 + e = (53 : Nat) + (e + places) := by
    push_cast
    omega
  rw [start, ← power] at short
  rw [stop, ← power] at more
  -- The first shift leaves 53 bits to be rounded, and the second one has only a carry to undo.
  obtain ⟨b, normal, sign, holds, second⟩ := shiftToTargetExponent_rounded rounds
    ((le_div_iff₀ unit).mpr short) ((div_lt_iff₀ unit).mpr more) (by omega) (by omega)
  have some_ : b.mantissa ≠ 0 := by
    have := normal.le_mantissa
    omega
  refine ⟨b, normal, sign, holds, Nat.pos_of_ne_zero some_, ?_⟩
  rw [roundWithAccuracy, shiftToTargetExponent_long accuracy target]
  simp only [second, some_, dif_neg, not_false_eq_true]

/-- A mantissa with further places has the same length in all. -/
theorem totalExponent_shiftLeft {m : Nat} (positive : 0 < m) (places : Nat) (e : Int) :
    totalExponent (m <<< places) (e - places) = totalExponent m e := by
  have length : (m <<< places).log2 = m.log2 + places := by
    rw [Nat.shiftLeft_eq, Nat.log2_eq_iff (by positivity), Nat.add_right_comm, pow_add, pow_add]
    exact ⟨Nat.mul_le_mul_right _ (Nat.log2_self_le positive.ne'),
      Nat.mul_lt_mul_of_pos_right Nat.lt_log2_self (by positivity)⟩
  rw [totalExponent, totalExponent, length]
  push_cast
  ring

/-- Rounding a binary number, of whatever length, gives a normal number near it. -/
theorem round_spec {m : Nat} {e : Int} (positive : 0 < m) (range : InRange (m * 2 ^ e)) :
    ∃ b : Binary, b.IsNormal ∧ b.negative = false ∧ (Interval.ofBinary b).Holds (m * 2 ^ e) ∧
      ∃ some, Float.Model.UnpackedFloat.round double64 .positive m e =
        .finite .positive b.mantissa b.exponent some := by
  generalize target : double64.targetExponent (totalExponent m e) = t
  generalize shift : (e - t).toNat = places
  -- A short mantissa is filled up with zeros first, which changes nothing about the number.
  have same : ((m <<< places : Nat) : ℚ) * 2 ^ (e - places) = m * 2 ^ e := by
    rw [Nat.shiftLeft_eq, zpow_sub₀ two_ne_zero, zpow_natCast]
    push_cast
    field_simp
  have long : e - places ≤ double64.targetExponent (totalExponent (m <<< places) (e - places)) := by
    rw [totalExponent_shiftLeft positive, target]
    omega
  rw [← same] at range ⊢
  obtain ⟨b, normal, sign, holds, some, rounded⟩ :=
    roundWithAccuracy_spec (extends_exact (m <<< places)) long range
  refine ⟨b, normal, sign, holds, some, ?_⟩
  rw [Float.Model.UnpackedFloat.round]
  simp only [target, decreaseExponent, shift]
  exact rounded

/-- A quotient with what the rest tells about the bits behind it. -/
theorem extends_quotient (m : Nat) {n : Nat} (positive : 0 < n) :
    Extends (ExtendedMantissa.ofMantissaAndAccuracy (m / n) (accuracyOfFraction (m % n) n))
      (m / n) := by
  have below : (0 : ℚ) < n := by exact_mod_cast positive
  have whole : (m : ℚ) = n * (m / n : Nat) + (m % n : Nat) := by
    exact_mod_cast (Nat.div_add_mod m n).symm
  have less : ((m % n : Nat) : ℚ) < n := by exact_mod_cast Nat.mod_lt m positive
  have quotient : (m : ℚ) / n = (m / n : Nat) + (m % n : Nat) / n := by
    rw [whole, add_div, mul_div_cancel_left₀ _ below.ne']
  rw [quotient, accuracyOfFraction]
  split
  · rename_i none
    rw [none, Nat.cast_zero, zero_div, add_zero]
    rfl
  · rename_i some_
    have some_ : (0 : ℚ) < (m % n : Nat) := by exact_mod_cast Nat.pos_of_ne_zero some_
    have part : (0 : ℚ) < (m % n : Nat) / n := by positivity
    -- Twice the rest is compared with the divisor.
    cases side : compare (2 * (m % n)) n with
    | lt =>
      have side : 2 * ((m % n : Nat) : ℚ) < n := by exact_mod_cast Nat.compare_eq_lt.mp side
      have half : ((m % n : Nat) : ℚ) / n < 1 / 2 := by
        rw [div_lt_iff₀ below]
        linarith
      simp only [Extends, ExtendedMantissa.ofMantissaAndAccuracy]
      exact ⟨by linarith, by linarith⟩
    | eq =>
      have side : 2 * ((m % n : Nat) : ℚ) = n := by exact_mod_cast Nat.compare_eq_eq.mp side
      have half : ((m % n : Nat) : ℚ) / n = 1 / 2 := by
        rw [div_eq_iff below.ne']
        linarith
      simp only [Extends, ExtendedMantissa.ofMantissaAndAccuracy, half]
    | gt =>
      have side : (n : ℚ) < 2 * (m % n : Nat) := by exact_mod_cast Nat.compare_eq_gt.mp side
      have half : 1 / 2 < ((m % n : Nat) : ℚ) / n := by
        rw [lt_div_iff₀ below]
        linarith
      have one : ((m % n : Nat) : ℚ) / n < 1 := by
        rw [div_lt_iff₀ below]
        linarith
      simp only [Extends, ExtendedMantissa.ofMantissaAndAccuracy]
      exact ⟨by linarith, by linarith⟩

/-- A dividend with 53 places more than the divisor has a quotient of at least 53 bits. -/
theorem le_log2_quotient {m n places : Nat} (some_ : 0 < m) (more : 0 < n)
    (length : n.log2 + 53 ≤ m.log2 + places) : 52 ≤ ((m <<< places) / n).log2 := by
  have divided : 2 ^ 52 ≤ (m <<< places) / n := by
    rw [Nat.le_div_iff_mul_le more, Nat.shiftLeft_eq]
    calc 2 ^ 52 * n ≤ 2 ^ 52 * 2 ^ (n.log2 + 1) :=
          Nat.mul_le_mul_left _ Nat.lt_log2_self.le
      _ = 2 ^ (n.log2 + 53) := by rw [← pow_add]; congr 1; omega
      _ ≤ 2 ^ (m.log2 + places) := Nat.pow_le_pow_right (by decide) length
      _ = 2 ^ m.log2 * 2 ^ places := pow_add _ _ _
      _ ≤ m * 2 ^ places := Nat.mul_le_mul_right _ (Nat.log2_self_le some_.ne')
  exact (Nat.le_log2 (by omega)).mpr divided

/-- The quotient of two binary numbers rounds to a normal number near it. -/
theorem divCore_spec {m n : Nat} {e f : Int} (some_ : 0 < m) (more : 0 < n)
    (range : InRange (m * 2 ^ e / (n * 2 ^ f))) :
    ∃ b : Binary, b.IsNormal ∧ b.negative = false ∧
      (Interval.ofBinary b).Holds (m * 2 ^ e / (n * 2 ^ f)) ∧
      ∃ some, div double64 (.finite .positive m e some_) (.finite .positive n f more) =
        .finite .positive b.mantissa b.exponent some := by
  generalize target : min (e - f) (double64.targetExponent (totalExponent m e - totalExponent n f))
    = t
  generalize shift : (e - f - t).toNat = places
  have below : t + places = e - f := by omega
  have positive : (0 : ℚ) < n := by exact_mod_cast more
  have quotient : ((m <<< places : Nat) : ℚ) / n * 2 ^ t = m * 2 ^ e / (n * 2 ^ f) := by
    have power : (2 : ℚ) ^ e = 2 ^ places * 2 ^ t * 2 ^ f := by
      rw [← zpow_natCast, ← zpow_add₀ two_ne_zero, ← zpow_add₀ two_ne_zero]
      congr 1
      omega
    rw [Nat.shiftLeft_eq, power]
    push_cast
    field_simp
  have long : t ≤ double64.targetExponent (totalExponent ((m <<< places) / n) t) := by
    -- The dividend is made so long that its quotient has 53 bits, if the exponent allows that.
    have enough : t ≤ -1074 ∨ n.log2 + 53 ≤ m.log2 + places := by
      rw [targetExponent_eq, totalExponent, totalExponent] at target
      omega
    rw [targetExponent_eq, totalExponent]
    rcases enough with bottom | length
    · omega
    · have full := le_log2_quotient some_ more length
      omega
  rw [← quotient] at range ⊢
  obtain ⟨b, normal, sign, holds, some, rounded⟩ :=
    roundWithAccuracy_spec (extends_quotient (m <<< places) more) long range
  refine ⟨b, normal, sign, holds, some, ?_⟩
  rw [div]
  simp only [divCore, target, shift]
  exact rounded

end EdmQuery.Number
