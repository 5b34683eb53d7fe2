import Mathlib
import EdmQuery.Proofs.Number.Nearest

/-! The shortest decimal of a double lies in the interval of the reals that round to it. -/

namespace EdmQuery.Number

/-- The number that a decimal stands for. -/
def Scientific.value (s : Scientific) : ℚ :=
  s.digits * 10 ^ s.exponent

namespace Interval

variable {i : Interval} {tie : Tie} {grid : Int}

/-- Comparisons of ends with grid points are comparisons of products of natural numbers. -/
theorem compare_point (grid : Int) (side n : Nat) :
    (side * ((ratio 2 i.exponent).1 * (ratio 10 grid).2)
        ≤ n * ((ratio 2 i.exponent).2 * (ratio 10 grid).1) ↔
      (side : ℚ) * 2 ^ i.exponent ≤ n * 10 ^ grid) ∧
    (n * ((ratio 2 i.exponent).2 * (ratio 10 grid).1)
        ≤ side * ((ratio 2 i.exponent).1 * (ratio 10 grid).2) ↔
      (n : ℚ) * 10 ^ grid ≤ side * 2 ^ i.exponent) := by
  obtain ⟨-, twoBelow, two⟩ := ratio_eq (by decide : 0 < 2) i.exponent
  obtain ⟨-, tenBelow, ten⟩ := ratio_eq (by decide : 0 < 10) grid
  have twoBelow : (0 : ℚ) < (ratio 2 i.exponent).2 := by exact_mod_cast twoBelow
  have tenBelow : (0 : ℚ) < (ratio 10 grid).2 := by exact_mod_cast tenBelow
  have two' : ((2 : Nat) : ℚ) = 2 := rfl
  have ten' : ((10 : Nat) : ℚ) = 10 := rfl
  rw [two'] at two
  rw [ten'] at ten
  rw [← two, ← ten, fraction, fraction, ← mul_div_assoc, ← mul_div_assoc,
    div_le_div_iff₀ twoBelow tenBelow, div_le_div_iff₀ tenBelow twoBelow, ← Nat.cast_le (α := ℚ),
    ← Nat.cast_le (α := ℚ)]
  push_cast
  constructor <;> constructor <;> intro le <;> linarith

/-- The test of a grid point, with the factors of both scales. -/
def admits (i : Interval) (grid : Int) (n : Nat) : Bool :=
  let left := (ratio 2 i.exponent).1 * (ratio 10 grid).2
  let right := (ratio 2 i.exponent).2 * (ratio 10 grid).1
  if i.closed then i.low * left ≤ n * right && n * right ≤ i.high * left
  else i.low * left < n * right && n * right < i.high * left

/-- A grid point that passes the test lies in the interval. -/
theorem holds_of_admits {n : Nat} (passed : i.admits grid n = true) :
    i.Holds (n * 10 ^ grid) := by
  have low := compare_point (i := i) grid i.low n
  have high := compare_point (i := i) grid i.high n
  simp only [admits] at passed
  split at passed
  · rename_i closed
    simp only [Bool.and_eq_true, decide_eq_true_eq] at passed
    refine ⟨low.1.mp passed.1, high.2.mp passed.2, fun apart => ?_⟩
    rw [closed] at apart
    cases apart
  · simp only [Bool.and_eq_true, decide_eq_true_eq] at passed
    have below := not_le.mpr passed.1
    have above := not_le.mpr passed.2
    rw [low.2, not_le] at below
    rw [high.1, not_le] at above
    exact ⟨below.le, above.le, fun _ => ⟨below, above⟩⟩

/-- A point that is found on a grid lies in the interval. -/
theorem pointOn_holds {n : Nat} (found : i.pointOn tie grid = some n) :
    i.Holds (n * 10 ^ grid) := by
  apply holds_of_admits
  simp only [pointOn] at found
  -- Every branch gives one of two neighbours that passed the test.
  split at found
  · rename_i below above
    split at found
    · cases found
      exact below
    split at found
    · cases found
      exact above
    split at found
    · cases found
      exact above
    · cases found
      split
      · exact below
      · exact above
  · rename_i below _
    cases found
    exact below
  · rename_i _ above
    cases found
    exact above
  · cases found

/-- The points of a grid that are looked at are the two next to the value. -/
theorem exists_pointOn_of_admits (tie : Tie) {below : Nat}
    (same : below = i.value * ((ratio 2 i.exponent).1 * (ratio 10 grid).2) /
      ((ratio 2 i.exponent).2 * (ratio 10 grid).1))
    (passed : i.admits grid below = true ∨ i.admits grid (below + 1) = true) :
    ∃ n, i.pointOn tie grid = some n := by
  subst same
  simp only [admits] at passed
  simp only [pointOn]
  split
  · split
    · exact ⟨_, rfl⟩
    · split
      · exact ⟨_, rfl⟩
      · split <;> exact ⟨_, rfl⟩
  · exact ⟨_, rfl⟩
  · exact ⟨_, rfl⟩
  · rename_i below above
    rw [below, above] at passed
    simp at passed

/-- A grid no coarser than the unit of an interval has a point in it. -/
theorem exists_pointOn (tie : Tie) (low : i.low < i.value) (high : i.value < i.high)
    (fine : (10 : ℚ) ^ grid ≤ 2 ^ i.exponent) : ∃ n, i.pointOn tie grid = some n := by
  obtain ⟨two, twoBelow, -⟩ := ratio_eq (by decide : 0 < 2) i.exponent
  obtain ⟨ten, tenBelow, -⟩ := ratio_eq (by decide : 0 < 10) grid
  have steps := (compare_point (i := i) grid 1 1).2
  simp only [Nat.cast_one, one_mul] at steps
  have step := steps.mpr fine
  have leftPositive := Nat.mul_pos two tenBelow
  have rightPositive := Nat.mul_pos twoBelow ten
  apply exists_pointOn_of_admits tie rfl
  left
  simp only [admits]
  generalize (ratio 2 i.exponent).1 * (ratio 10 grid).2 = left at *
  generalize (ratio 2 i.exponent).2 * (ratio 10 grid).1 = right at *
  -- The point just below the value is less than a step away from it.
  have whole := Nat.div_add_mod (i.value * left) right
  have rest := Nat.mod_lt (i.value * left) rightPositive
  have lower := Nat.mul_le_mul_right left (low : i.low + 1 ≤ i.value)
  have upper := Nat.mul_le_mul_right left (high : i.value + 1 ≤ i.high)
  rw [Nat.succ_mul] at lower upper
  rw [Nat.mul_comm] at whole
  split <;> simp only [Bool.and_eq_true, decide_eq_true_eq] <;> omega

/-- A grid point in the interval passes the test. -/
theorem admits_of_holds {n : Nat} (holds : i.Holds (n * 10 ^ grid)) : i.admits grid n = true := by
  obtain ⟨low, high, strict⟩ := holds
  have lower := compare_point (i := i) grid i.low n
  have upper := compare_point (i := i) grid i.high n
  simp only [admits]
  split
  · simp only [Bool.and_eq_true, decide_eq_true_eq]
    exact ⟨lower.1.mpr low, upper.2.mpr high⟩
  · rename_i opened
    obtain ⟨below, above⟩ := strict (by simpa using opened)
    rw [← not_le, ← lower.2, not_le] at below
    rw [← not_le, ← upper.1, not_le] at above
    simp only [Bool.and_eq_true, decide_eq_true_eq]
    exact ⟨below, above⟩

/-- A grid that has a point in the interval has one next to the value. -/
theorem exists_pointOn_of_holds (tie : Tie) (low : i.low < i.value) (high : i.value < i.high)
    {n : Nat} (holds : i.Holds (n * 10 ^ grid)) : ∃ k, i.pointOn tie grid = some k := by
  obtain ⟨two, twoBelow, -⟩ := ratio_eq (by decide : 0 < 2) i.exponent
  obtain ⟨ten, tenBelow, -⟩ := ratio_eq (by decide : 0 < 10) grid
  have passed := admits_of_holds holds
  have leftPositive := Nat.mul_pos two tenBelow
  have rightPositive := Nat.mul_pos twoBelow ten
  apply exists_pointOn_of_admits tie rfl
  simp only [admits] at passed ⊢
  generalize (ratio 2 i.exponent).1 * (ratio 10 grid).2 = left at *
  generalize (ratio 2 i.exponent).2 * (ratio 10 grid).1 = right at *
  have lower := Nat.mul_lt_mul_of_pos_right low leftPositive
  have upper := Nat.mul_lt_mul_of_pos_right high leftPositive
  have whole := Nat.div_add_mod (i.value * left) right
  have rest := Nat.mod_lt (i.value * left) rightPositive
  rw [Nat.mul_comm] at whole
  generalize i.value * left / right = below at *
  -- On its side of the value, no point is nearer than the neighbour.
  rcases Nat.lt_or_ge below n with beyond | short
  · right
    have nearer : (below + 1) * right ≤ n * right := Nat.mul_le_mul_right right beyond
    have next : (below + 1) * right = below * right + right := Nat.succ_mul _ _
    cases closed : i.closed <;>
      simp only [closed, Bool.false_eq_true, if_false, if_true, Bool.and_eq_true,
        decide_eq_true_eq] at passed ⊢ <;>
      omega
  · left
    have nearer := Nat.mul_le_mul_right right short
    cases closed : i.closed <;>
      simp only [closed, Bool.false_eq_true, if_false, if_true, Bool.and_eq_true,
        decide_eq_true_eq] at passed ⊢ <;>
      omega

/-- The search ends at a point in the interval if one of its grids has one. -/
theorem search_holds {fuel : Nat} (some : ∃ k < fuel, ∃ n, i.pointOn tie (grid - k) = some n) :
    i.Holds (i.search tie fuel grid).value := by
  induction fuel generalizing grid with
  | zero =>
    obtain ⟨k, less, -⟩ := some
    omega
  | succ fuel ih =>
    rw [search]
    split
    · rename_i digits found
      exact pointOn_holds found
    · rename_i none
      apply ih
      obtain ⟨k, less, n, found⟩ := some
      cases k with
      | zero =>
        rw [Nat.cast_zero, sub_zero, none] at found
        cases found
      | succ k =>
        refine ⟨k, by omega, n, ?_⟩
        have same : grid - 1 - (k : Int) = grid - (k + 1 : Nat) := by
          push_cast
          ring
        rw [same]
        exact found

/-- A point of a grid is one of every finer grid. -/
theorem point_finer (k places : Nat) (q : Int) :
    (k : ℚ) * 10 ^ (q + places) = (k * 10 ^ places : Nat) * 10 ^ q := by
  rw [zpow_add₀ (by norm_num), zpow_natCast]
  push_cast
  ring

/-- The search ends at the number of a grid that is coarser than the interval is wide. -/
theorem search_eq {fuel n : Nat} {q : Int} (low : i.low < i.value) (high : i.value < i.high)
    (holds : i.Holds (n * 10 ^ q)) (narrow : ((i.high : ℚ) - i.low) * 2 ^ i.exponent < 10 ^ q)
    (top : q ≤ grid) (bottom : grid < q + fuel) : (i.search tie fuel grid).value = n * 10 ^ q := by
  induction fuel generalizing grid with
  | zero => omega
  | succ fuel ih =>
    rw [search]
    split
    · -- Two points of the grid in the interval are less than a step apart.
      rename_i k found
      obtain ⟨places, rfl⟩ : ∃ places : Nat, grid = q + places := ⟨(grid - q).toNat, by omega⟩
      have step : (0 : ℚ) < 10 ^ q := by positivity
      have other := pointOn_holds found
      rw [point_finer] at other
      have above : ((k * 10 ^ places : Nat) : ℚ) * 10 ^ q < (n + 1) * 10 ^ q := by
        linarith [holds.low, other.high]
      have below : (n : ℚ) * 10 ^ q < ((k * 10 ^ places : Nat) + 1) * 10 ^ q := by
        linarith [other.low, holds.high]
      have above := lt_of_mul_lt_mul_right above step.le
      have below := lt_of_mul_lt_mul_right below step.le
      have above : k * 10 ^ places < n + 1 := by exact_mod_cast above
      have below : n < k * 10 ^ places + 1 := by exact_mod_cast below
      have same : k * 10 ^ places = n := by omega
      rw [Scientific.value, point_finer, same]
    · rename_i none
      apply ih
      · have other : q ≠ grid := by
          rintro rfl
          obtain ⟨k, found⟩ := exists_pointOn_of_holds tie low high holds
          rw [none] at found
          cases found
        omega
      · push_cast at bottom
        omega

end Interval

/-- A power of ten is at most a power of two whose exponent is as great as its length. -/
theorem ten_le_two {a b : Int} (up : 0 ≤ a → 10 * a ≤ 3 * b) (down : a ≤ 0 → 93 * a ≤ 28 * b) :
    (10 : ℚ) ^ a ≤ 2 ^ b := by
  rcases le_total 0 a with positive | negative
  · -- Ten to the third is just below two to the tenth.
    have cubes : ((10 : ℚ) ^ a) ^ 3 ≤ (2 ^ b) ^ 3 :=
      calc ((10 : ℚ) ^ a) ^ 3 = (10 ^ 3) ^ a := by
            rw [← zpow_natCast, ← zpow_natCast, zpow_comm]
        _ ≤ (2 ^ 10) ^ a := zpow_le_zpow_left₀ positive (by norm_num) (by norm_num)
        _ = 2 ^ (10 * a) := by rw [zpow_mul]; rfl
        _ ≤ 2 ^ (b * 3) := zpow_le_zpow_right₀ one_le_two (by have := up positive; omega)
        _ = (2 ^ b) ^ 3 := by rw [zpow_mul]; rfl
    exact le_of_pow_le_pow_left₀ (by decide) (by positivity) cubes
  · -- Two to the ninety-third is just below ten to the twenty-eighth.
    have powers : ((10 : ℚ) ^ a) ^ 28 ≤ (2 ^ b) ^ 28 :=
      calc ((10 : ℚ) ^ a) ^ 28 = ((10 ^ 28) ^ (-a))⁻¹ := by
            rw [zpow_neg, inv_inv, ← zpow_natCast, ← zpow_natCast, zpow_comm]
        _ ≤ ((2 ^ 93) ^ (-a))⁻¹ := inv_anti₀ (by positivity)
            (zpow_le_zpow_left₀ (by omega) (by norm_num) (by norm_num))
        _ = 2 ^ (93 * a) := by
            rw [zpow_neg, inv_inv, zpow_mul]
            rfl
        _ ≤ 2 ^ (b * 28) := zpow_le_zpow_right₀ one_le_two (by have := down negative; omega)
        _ = (2 ^ b) ^ 28 := by
            rw [zpow_mul]
            rfl
    exact le_of_pow_le_pow_left₀ (by decide) (by positivity) powers

/-- Stripping zeros changes neither the number nor whether there are digits. -/
theorem Scientific.value_stripped (s : Scientific) : s.stripped.value = s.value := by
  have step (fuel : Nat) (s : Scientific) : (stripped.go fuel s).value = s.value := by
    induction fuel generalizing s with
    | zero => rfl
    | succ fuel ih =>
      rw [stripped.go]
      split
      · rename_i zero
        have tens : s.digits = s.digits / 10 * 10 := by
          simp only [Bool.and_eq_true, beq_iff_eq] at zero
          omega
        rw [ih, value, value, zpow_add_one₀ (by norm_num)]
        nth_rewrite 2 [tens]
        push_cast
        ring
      · rfl
  exact step s.digits s

/-- The value of an interval lies between its ends. -/
theorem Interval.ofBinary_ordered {b : Binary} (some : 0 < b.mantissa) :
    (ofBinary b).low < (ofBinary b).value ∧ (ofBinary b).value < (ofBinary b).high := by
  simp only [ofBinary]
  constructor
  · split <;> omega
  · omega

/-- The shortest decimal of a canonical number lies in its interval. -/
theorem shortest_holds {b : Binary} (canonical : b.Canonical) (some : 0 < b.mantissa) (tie : Tie) :
    (Interval.ofBinary b).Holds (shortest tie b).value := by
  obtain ⟨short, lowest, highest, -⟩ := canonical
  obtain ⟨low, high⟩ := Interval.ofBinary_ordered some
  have bits : Nat.log2 b.mantissa ≤ 52 := Nat.le_of_lt_succ ((Nat.log2_lt some.ne').mpr short)
  rw [shortest, Scientific.value_stripped]
  -- The last of the grids is as fine as the unit of the interval.
  apply Interval.search_holds
  refine ⟨23, by decide, Interval.exists_pointOn tie low high ?_⟩
  apply ten_le_two <;> intro side <;> simp only [Interval.ofBinary] at side ⊢ <;> omega

/-- The interval of a binary number is at most as wide as a unit of its last place. -/
theorem Interval.width_le {b : Binary} (some : 0 < b.mantissa) :
    (((ofBinary b).high : ℚ) - (ofBinary b).low) * 2 ^ (ofBinary b).exponent
      ≤ 2 ^ b.exponent := by
  have wide : (ofBinary b).high ≤ (ofBinary b).low + 4 := by
    simp only [ofBinary]
    split <;> omega
  have wide : ((ofBinary b).high : ℚ) ≤ (ofBinary b).low + 4 := by exact_mod_cast wide
  have quarter : (2 : ℚ) ^ b.exponent = 4 * 2 ^ (ofBinary b).exponent := by
    rw [ofBinary, zpow_sub₀ two_ne_zero]
    norm_num
    ring
  rw [quarter]
  gcongr
  linarith

/-- A power of two is at most a power of ten whose length is as great as its exponent. -/
theorem two_pow_le_ten {a b : Int} (up : 0 ≤ b → 28 * b ≤ 93 * a)
    (down : b ≤ 0 → 3 * b ≤ 10 * a) : (2 : ℚ) ^ b ≤ 10 ^ a := by
  have inverse : (10 : ℚ) ^ (-a) ≤ 2 ^ (-b) := by
    apply ten_le_two <;> intro side <;> omega
  rw [zpow_neg, zpow_neg] at inverse
  exact (inv_le_inv₀ (by positivity) (by positivity)).mp inverse

section

variable {b : Binary} {n : Nat} {q : Int}

/-- The grid of a decimal of up to 15 digits is coarser than the last place of its double. -/
theorem last_place_lt (full : 2 ^ 52 ≤ b.mantissa) (few : n < 10 ^ 15)
    (holds : (Interval.ofBinary b).Holds (n * 10 ^ q)) : (2 : ℚ) ^ b.exponent < 10 ^ q := by
  obtain ⟨least, -, -, -⟩ := holds.around (by omega)
  have unit : (0 : ℚ) < 2 ^ b.exponent := by positivity
  have mantissa : (2 : ℚ) ^ 52 ≤ b.mantissa := by exact_mod_cast full
  have digits : (n : ℚ) < 10 ^ 15 := by exact_mod_cast few
  rw [le_div_iff₀ unit] at least
  have product : (10 : ℚ) ^ 15 * 2 ^ b.exponent < 10 ^ 15 * 10 ^ q :=
    calc (10 : ℚ) ^ 15 * 2 ^ b.exponent ≤ (b.mantissa - 1 / 2) * 2 ^ b.exponent := by
          gcongr
          linarith
      _ ≤ n * 10 ^ q := least
      _ < 10 ^ 15 * 10 ^ q := by gcongr
  exact lt_of_mul_lt_mul_left product (by positivity)

/-- A grid with a point near a double has a step that is less than 53 bits allow. -/
theorem step_lt (canonical : b.Canonical) (full : 2 ^ 52 ≤ b.mantissa)
    (holds : (Interval.ofBinary b).Holds (n * 10 ^ q)) : (10 : ℚ) ^ q < 2 ^ (53 + b.exponent) := by
  obtain ⟨least, most, -, -⟩ := holds.around (by omega)
  have unit : (0 : ℚ) < 2 ^ b.exponent := by positivity
  have step : (0 : ℚ) < 10 ^ q := by positivity
  have mantissa : (2 : ℚ) ^ 52 ≤ b.mantissa := by exact_mod_cast full
  have short : (b.mantissa : ℚ) + 1 ≤ 2 ^ 53 := by exact_mod_cast canonical.mantissa_lt
  rw [le_div_iff₀ unit] at least
  rw [div_le_iff₀ unit] at most
  have one : (1 : ℚ) ≤ n := by
    have positive : (0 : ℚ) < n * 10 ^ q :=
      (mul_pos (by linarith : (0 : ℚ) < b.mantissa - 1 / 2) unit).trans_le least
    exact_mod_cast (pos_of_mul_pos_left positive step.le)
  calc (10 : ℚ) ^ q ≤ n * 10 ^ q := le_mul_of_one_le_left step.le one
    _ ≤ (b.mantissa + 1 / 2) * 2 ^ b.exponent := most
    _ < 2 ^ 53 * 2 ^ b.exponent := by
        gcongr
        linarith
    _ = 2 ^ (53 + b.exponent) := by
        rw [zpow_add₀ two_ne_zero]
        rfl

/-- The shortest decimal of a double is the one of up to 15 digits that it is nearest to. -/
theorem shortest_value (canonical : b.Canonical) (full : 2 ^ 52 ≤ b.mantissa)
    (few : n < 10 ^ 15) (holds : (Interval.ofBinary b).Holds (n * 10 ^ q))
    (tie : Tie) : (shortest tie b).value = n * 10 ^ q := by
  have some_ : 0 < b.mantissa := by omega
  obtain ⟨low, high⟩ := Interval.ofBinary_ordered some_
  have coarse := last_place_lt full few holds
  have size := step_lt canonical full holds
  have narrow := (Interval.width_le some_).trans_lt coarse
  have length : Nat.log2 b.mantissa = 52 :=
    (Nat.log2_eq_iff some_.ne').mpr ⟨full, canonical.mantissa_lt⟩
  rw [shortest, Scientific.value_stripped, length]
  generalize start : ((52 : Nat) + 1 + b.exponent) * 30103 / 100000 + 2 = grid
  have lowest := canonical.le_exponent
  have highest := canonical.exponent_le
  -- The search starts above the grid of the decimal, and does not end before it.
  apply Interval.search_eq low high holds narrow
  · by_contra beyond
    have large : (2 : ℚ) ^ (53 + b.exponent) ≤ 10 ^ q := by
      apply two_pow_le_ten <;> intro side <;> omega
    linarith
  · by_contra below
    have fine : (10 : ℚ) ^ q ≤ 2 ^ b.exponent := by
      apply ten_le_two <;> intro side <;> omega
    linarith

end

end EdmQuery.Number
