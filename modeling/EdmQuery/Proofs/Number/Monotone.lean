import Mathlib
import EdmQuery.Proofs.Number.Finite

/-! The doubles of integers stand in the order of the integers, or are the same. -/

namespace EdmQuery.Number

/-- A nearest double of full precision is not above that of a number that is not smaller. -/
theorem Interval.Holds.mono {b c : Binary} (left : b.IsNormal) (right : c.IsNormal) {v w : ℚ}
    (nearest : (Interval.ofBinary b).Holds v) (nearest' : (Interval.ofBinary c).Holds w)
    (ascends : v ≤ w) :
    b.exponent < c.exponent ∨ b.exponent = c.exponent ∧ b.mantissa ≤ c.mantissa := by
  -- Otherwise the intervals around the two doubles lie in the other order.
  by_contra above
  rw [not_or, not_and, not_lt, not_le] at above
  obtain ⟨higher, larger⟩ := above
  have fullB := left.le_mantissa
  have shortC := right.mantissa_lt
  have leastC := right.le_exponent
  obtain ⟨lowB, -, strictB, narrowB⟩ := nearest.around (by omega)
  obtain ⟨-, highC, strictC, -⟩ := nearest'.around (by have := right.le_mantissa; omega)
  have unitC : (0 : ℚ) < 2 ^ c.exponent := by positivity
  rcases higher.eq_or_lt with same | higher
  · -- With one exponent the greater mantissa is at least one more, and one of the two is odd.
    have larger := larger same.symm
    rw [same] at highC strictC
    have ordered : v / 2 ^ b.exponent ≤ w / 2 ^ b.exponent := by gcongr
    have next : (c.mantissa : ℚ) + 1 ≤ b.mantissa := by exact_mod_cast larger
    by_cases odd : b.mantissa % 2 = 1
    · have := (strictB odd).1
      linarith
    · by_cases odd' : c.mantissa % 2 = 1
      · have := (strictC odd').2
        linarith
      · have further : (c.mantissa : ℚ) + 2 ≤ b.mantissa := by
          have : c.mantissa + 2 ≤ b.mantissa := by omega
          exact_mod_cast this
        linarith
  · -- With a greater exponent the least mantissa is beyond the greatest one.
    have doubled : (2 : ℚ) ^ c.exponent * 2 ≤ 2 ^ b.exponent := by
      rw [← zpow_add_one₀ two_ne_zero]
      exact zpow_le_zpow_right₀ one_le_two (by omega)
    have unitB : (0 : ℚ) < 2 ^ b.exponent := by positivity
    rw [div_le_iff₀ unitC] at highC
    by_cases least : b.mantissa = 2 ^ 52
    · -- Below the least mantissa the neighbours are at half the distance.
      have lowB := narrowB least (by omega)
      rw [le_div_iff₀ unitB, least] at lowB
      have below : w < (2 ^ 53 - 1 / 2) * 2 ^ c.exponent := by
        by_cases greatest : c.mantissa = 2 ^ 53 - 1
        · have below := (strictC (by omega)).2
          rw [div_lt_iff₀ unitC, greatest] at below
          norm_num at below ⊢
          linarith
        · have shorter : (c.mantissa : ℚ) ≤ 2 ^ 53 - 2 := by
            have : c.mantissa + 2 ≤ 2 ^ 53 := by omega
            have : (c.mantissa : ℚ) + 2 ≤ 2 ^ 53 := by exact_mod_cast this
            linarith
          nlinarith
      norm_num at lowB below
      linarith
    · have more : (2 : ℚ) ^ 52 + 1 ≤ b.mantissa := by
        have : 2 ^ 52 + 1 ≤ b.mantissa := by omega
        exact_mod_cast this
      have short : (c.mantissa : ℚ) ≤ 2 ^ 53 := by exact_mod_cast shortC.le
      rw [le_div_iff₀ unitB] at lowB
      nlinarith

/-- A number of full precision is ordered by its sign, its exponent and its mantissa. -/
theorem unpackedKey_of_finite {x : Float} {b : Binary} (read : Reading.ofFloat x = .finite b)
    (normal : b.IsNormal) : unpackedKey x.toModel.unpack =
      if b.negative then (-1, -b.exponent, -(b.mantissa : Int)) else (1, b.exponent, b.mantissa) := by
  rw [Reading.ofFloat_eq] at read
  have full := normal.le_mantissa
  cases unpacked : x.toModel.unpack with
  | finite sign m e positive =>
    rw [unpacked] at read
    cases read
    cases sign <;> rfl
  | zero sign =>
    rw [unpacked] at read
    cases read
    exact absurd full (by simp)
  | _ =>
    rw [unpacked] at read
    cases read

/-- The order of three integers is decided by the first two that differ. -/
theorem compareTriples_isLE (a b : Int × Int × Int) : (compareTriples a b).isLE ↔
    a.1 < b.1 ∨ a.1 = b.1 ∧ (a.2.1 < b.2.1 ∨ a.2.1 = b.2.1 ∧ a.2.2 ≤ b.2.2) := by
  simp [compareTriples, compareLex, compareOn, Ordering.isLE_then_iff_or, compare_lt_iff_lt,
    Std.isLE_compare]

/-- The double of a positive integer, with either sign. -/
theorem key_ofInteger {n : Int} (some_ : n ≠ 0) (range : n.natAbs ≤ 10 ^ 30) :
    ∃ b : Binary, b.IsNormal ∧ (Interval.ofBinary b).Holds n.natAbs ∧
      unpackedKey (ofInteger n).toModel.unpack =
        if n < 0 then (-1, -b.exponent, -(b.mantissa : Int)) else (1, b.exponent, b.mantissa) := by
  obtain ⟨b, read, sign, normal, holds⟩ := rounded_ofMagnitude (n := n.natAbs) (by omega) range
  refine ⟨b, normal, holds, ?_⟩
  have own : ofInteger n = if decide (n < 0) = true then -(ofMagnitude false n.natAbs)
      else ofMagnitude false n.natAbs := rfl
  by_cases negative : n < 0
  · rw [own, if_pos (by simpa using negative),
      unpackedKey_of_finite (ofFloat_neg read sign normal) ⟨normal.1, normal.2, normal.3, normal.4⟩,
      if_pos negative]
    rfl
  · rw [own, if_neg (by simpa using negative), unpackedKey_of_finite read normal, sign,
      if_neg negative]
    rfl

/-- The doubles of two integers ascend where the integers do. -/
theorem ofInteger_mono {m n : Int64} (ascending : m.toInt ≤ n.toInt) :
    ascends (compareFloats (ofInteger m.toInt) (ofInteger n.toInt)) = true := by
  obtain ⟨_, read⟩ := finite_ofInteger m
  obtain ⟨_, read'⟩ := finite_ofInteger n
  -- Neither double is a NaN, and so their keys are compared.
  rw [compareFloats_eq, isNaN_of_finite read, isNaN_of_finite read', Bool.or_self,
    if_neg Bool.false_ne_true, ascends, Option.any_some, compareTriples_isLE]
  have lowM := m.le_toInt
  have highN := n.toInt_lt
  -- The key of zero is between those of negative and of positive numbers.
  have zero : unpackedKey (ofInteger 0).toModel.unpack = (0, 0, 0) := rfl
  rcases eq_or_ne m.toInt 0 with none | some_
  · rcases eq_or_ne n.toInt 0 with none' | some'
    · simp [none, none', zero]
    · obtain ⟨c, -, -, key⟩ := key_ofInteger some' (by omega)
      rw [none, zero, key, if_neg (by omega)]
      simp
  · obtain ⟨b, normal, holds, key⟩ := key_ofInteger some_ (by omega)
    rcases eq_or_ne n.toInt 0 with none' | some'
    · rw [none', zero, key, if_pos (by omega)]
      simp
    · obtain ⟨c, normal', holds', key'⟩ := key_ofInteger some' (by omega)
      rw [key, key']
      by_cases negative : m.toInt < 0
      · by_cases negative' : n.toInt < 0
        · -- Of two negative integers the smaller one has the greater magnitude.
          have larger : (n.toInt.natAbs : ℚ) ≤ m.toInt.natAbs := by
            have : n.toInt.natAbs ≤ m.toInt.natAbs := by omega
            exact_mod_cast this
          have order := holds'.mono normal' normal holds larger
          rw [if_pos negative, if_pos negative']
          dsimp only
          omega
        · simp [if_pos negative, if_neg negative']
      · have larger : (m.toInt.natAbs : ℚ) ≤ n.toInt.natAbs := by
          have : m.toInt.natAbs ≤ n.toInt.natAbs := by omega
          exact_mod_cast this
        have order := holds.mono normal normal' holds' larger
        rw [if_neg negative, if_neg (show ¬ n.toInt < 0 by omega)]
        dsimp only
        omega

end EdmQuery.Number
