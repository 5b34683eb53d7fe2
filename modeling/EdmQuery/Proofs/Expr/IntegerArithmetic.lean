import Mathlib
import EdmQuery.Proofs.Expr.Settled

/-! Operators on integers have the result of unbounded arithmetic wherever 64 bits can hold it. -/

namespace EdmQuery

/-- A number is divided by another: what is left over is less than the divisor and on the same side
of zero as the dividend, so that the quotient is cut towards zero. -/
structure Divides (a b q r : Int) : Prop where
  whole : a = b * q + r
  less : |r| < |b|
  side : 0 ≤ a ∧ 0 ≤ r ∨ a ≤ 0 ∧ r ≤ 0

/-- What the operators of arithmetic mean for integers without any bounds. -/
inductive BinaryOp.Computes : BinaryOp → Int → Int → Int → Prop where
  | sum (a b : Int) : Computes .add a b (a + b)
  | difference (a b : Int) : Computes .sub a b (a - b)
  | product (a b : Int) : Computes .mul a b (a * b)
  | quotient {a b q r : Int} (division : Divides a b q r) : Computes .div a b q
  | remainder {a b q r : Int} (division : Divides a b q r) : Computes .mod a b r

/-- A value is the integer of 64 bits that is wanted, and null where there is none. -/
def Value.Fits (wanted : Int → Prop) (v : Value) : Prop :=
  (∃ n : Int64, wanted n.toInt ∧ v = .integer n) ∨ v = .null ∧ ∀ n : Int64, ¬ wanted n.toInt

section

variable {a b q r n : Int} {wanted : Int → Prop}

/-- Quotient and remainder are those of the division that cuts towards zero. -/
theorem divides_iff : Divides a b q r ↔ b ≠ 0 ∧ q = a.tdiv b ∧ r = a.tmod b := by
  constructor
  · rintro ⟨whole, less, side⟩
    have divisor : b ≠ 0 := abs_pos.mp ((abs_nonneg r).trans_lt less)
    have bounds : -(b.natAbs : Int) < r ∧ r < b.natAbs := by
      rwa [← Int.abs_eq_natAbs, ← abs_lt]
    refine ⟨divisor, ?_⟩
    -- The library has the two sides of zero apart.
    rcases side with ⟨positive, above⟩ | ⟨negative, below⟩
    · have unique := (Int.tdiv_tmod_unique positive divisor).mpr
        ⟨(Int.add_comm r (b * q)).trans whole.symm, above, bounds.2⟩
      exact ⟨unique.1.symm, unique.2.symm⟩
    · have unique := (Int.tdiv_tmod_unique' negative divisor).mpr
        ⟨(Int.add_comm r (b * q)).trans whole.symm, bounds.1, below⟩
      exact ⟨unique.1.symm, unique.2.symm⟩
  · rintro ⟨divisor, rfl, rfl⟩
    refine ⟨(Int.mul_tdiv_add_tmod a b).symm, ?_, ?_⟩
    · rw [Int.abs_eq_natAbs, Int.abs_eq_natAbs, Int.natAbs_tmod]
      exact_mod_cast Nat.mod_lt _ (Int.natAbs_pos.mpr divisor)
    · rcases le_total 0 a with positive | negative
      · exact .inl ⟨positive, Int.tmod_nonneg b positive⟩
      · have opposite := Int.tmod_nonneg b (Int.neg_nonneg_of_nonpos negative)
        rw [Int.neg_tmod] at opposite
        exact .inr ⟨negative, by omega⟩

/-- An integer that 64 bits can hold is the number of a value. -/
theorem isSigned64_iff : Numeral.isSigned64 n = true ↔ ∃ k : Int64, k.toInt = n := by
  simp only [Numeral.isSigned64, Bool.and_eq_true, decide_eq_true_eq]
  constructor
  · rintro ⟨least, greatest⟩
    exact ⟨Int64.ofInt n, Int64.toInt_ofInt_of_le least greatest⟩
  · rintro ⟨k, rfl⟩
    exact ⟨Int64.le_toInt k, Int64.toInt_lt k⟩

/-- An integer becomes the value of its number where 64 bits can hold it, and null elsewhere. -/
theorem fits_int64? (single : ∀ k, wanted k ↔ k = n) : (Value.ofOption (int64? n)).Fits wanted := by
  unfold int64?
  split
  · rename_i holds
    obtain ⟨k, rfl⟩ := isSigned64_iff.mp holds
    refine .inl ⟨k, (single _).mpr rfl, ?_⟩
    rw [Int64.ofInt_toInt]
    rfl
  · rename_i fails
    refine .inr ⟨rfl, fun k asked => fails ?_⟩
    exact isSigned64_iff.mpr ⟨k, (single _).mp asked⟩

/-- The only integer that is wanted is the value that fits. -/
theorem Value.Fits.eq_integer {v : Value} {k : Int64} (fits : v.Fits wanted)
    (single : ∀ j, wanted j ↔ j = k.toInt) : v = .integer k := by
  rcases fits with ⟨j, found, rfl⟩ | ⟨-, none_⟩
  · rw [Int64.toInt_inj.mp ((single _).mp found)]
  · exact absurd ((single _).mpr rfl) (none_ k)

/-- Null fits where 64 bits can hold nothing that is wanted. -/
theorem Value.Fits.eq_null {v : Value} (fits : v.Fits wanted)
    (outside : ∀ j, wanted j → Numeral.isSigned64 j = false) : v = .null := by
  rcases fits with ⟨j, found, -⟩ | ⟨null, -⟩
  · exact absurd (isSigned64_iff.mpr ⟨j, rfl⟩) (Bool.eq_false_iff.mp (outside _ found))
  · exact null

/-- Where nothing is wanted, null fits. -/
theorem fits_null (none_ : ∀ k, ¬ wanted k) : Value.null.Fits wanted :=
  .inr ⟨rfl, fun k => none_ k.toInt⟩

end

namespace BinaryOp

variable {op : BinaryOp} {a b n : Int}

/-- The operators of arithmetic that take integers to integers. -/
def onWholeNumbers : List BinaryOp :=
  [.add, .sub, .mul, .div, .mod]

/-- A quotient of two numbers of 64 bits is one, but for the least of them and minus one. -/
theorem isSigned64_tdiv {a b : Int64} (apart : ¬ (a = Int64.minValue ∧ b = -1)) :
    Numeral.isSigned64 (a.toInt.tdiv b.toInt) = true := by
  refine isSigned64_iff.mpr ⟨a / b, ?_⟩
  by_cases least : a = Int64.minValue
  · exact Int64.toInt_div_of_ne_right a b fun minus => apart ⟨least, minus⟩
  · exact Int64.toInt_div_of_ne_left a b least

theorem computes_add : Computes .add a b n ↔ n = a + b :=
  ⟨fun | .sum .. => rfl, fun same => same ▸ .sum a b⟩

theorem computes_sub : Computes .sub a b n ↔ n = a - b :=
  ⟨fun | .difference .. => rfl, fun same => same ▸ .difference a b⟩

theorem computes_mul : Computes .mul a b n ↔ n = a * b :=
  ⟨fun | .product .. => rfl, fun same => same ▸ .product a b⟩

theorem computes_div : Computes .div a b n ↔ b ≠ 0 ∧ n = a.tdiv b := by
  constructor
  · intro found
    cases found with
    | quotient division =>
      obtain ⟨divisor, quotient, -⟩ := divides_iff.mp division
      exact ⟨divisor, quotient⟩
  · rintro ⟨divisor, rfl⟩
    exact .quotient (divides_iff.mpr ⟨divisor, rfl, rfl⟩)

theorem computes_mod : Computes .mod a b n ↔ b ≠ 0 ∧ n = a.tmod b := by
  constructor
  · intro found
    cases found with
    | remainder division =>
      obtain ⟨divisor, -, remainder⟩ := divides_iff.mp division
      exact ⟨divisor, remainder⟩
  · rintro ⟨divisor, rfl⟩
    exact .remainder (divides_iff.mpr ⟨divisor, rfl, rfl⟩)

/-- Arithmetic on integers gives what the operator computes, where the quotient fits as well. -/
theorem fits_onIntegers (whole : op ∈ onWholeNumbers)
    (quotient : op = .mod → b ≠ 0 → Numeral.isSigned64 (a.tdiv b) = true) :
    (Value.ofOption (op.onIntegers a b)).Fits (op.Computes a b) := by
  -- Only the last two operators have operands without a result.
  simp only [onWholeNumbers, List.mem_cons, List.not_mem_nil, or_false] at whole
  rcases whole with rfl | rfl | rfl | rfl | rfl
  · exact fits_int64? fun n => computes_add
  · exact fits_int64? fun n => computes_sub
  · exact fits_int64? fun n => computes_mul
  · rw [onIntegers]
    split
    · rename_i zero
      exact fits_null fun n found => (computes_div.mp found).1 (eq_of_beq zero)
    · rename_i divisor
      rw [beq_iff_eq] at divisor
      exact fits_int64? fun n => computes_div.trans (and_iff_right divisor)
  · rw [onIntegers]
    by_cases zero : b = 0
    · rw [zero, beq_self_eq_true, Bool.true_or, if_pos rfl]
      exact fits_null fun n found => (computes_mod.mp found).1 rfl
    · rw [quotient rfl zero, beq_false_of_ne zero, if_neg (by decide)]
      exact fits_int64? fun n => computes_mod.trans (and_iff_right zero)

end BinaryOp

section

variable {m : Type → Type} [Monad m] [LawfulMonad m] {lookup : Lookup m} {s : Standpoint}
  {left right : Expression} {a b : Int64} {op : BinaryOp}

/-- An operator of arithmetic on operands that are integers has what arithmetic gives for these. -/
theorem eval_onWholeNumbers (whole : op ∈ BinaryOp.onWholeNumbers)
    (first : left.eval lookup s = pure (.integer a))
    (second : right.eval lookup s = pure (.integer b)) :
    (Expression.binary op left right).eval lookup s
      = pure (.ofOption (op.onIntegers a.toInt b.toInt)) := by
  -- No such operator leaves out an operand or tests for null.
  simp only [BinaryOp.onWholeNumbers, List.mem_cons, List.not_mem_nil, or_false] at whole
  rcases whole with rfl | rfl | rfl | rfl | rfl <;>
    rw [Expression.eval.eq_def] <;> simp [first, second, BinaryOp.isEquality] <;> rfl

/-- The opposite of an operand that is an integer has what arithmetic gives for it. -/
theorem eval_negate (operand : left.eval lookup s = pure (.integer a)) :
    (Expression.negate left).eval lookup s = pure (.ofOption (int64? (-a.toInt))) := by
  rw [Expression.eval, operand, pure_bind]
  rfl

/-- Operators on integers give the exact result where 64 bits can hold it, and null elsewhere.

A quotient is cut towards zero and a remainder is on the side of the dividend. The remainder of the
least integer by minus one is the exception: it is zero, but it is lost along with its quotient. -/
theorem integers_compute (first : left.eval lookup s = pure (.integer a))
    (second : right.eval lookup s = pure (.integer b)) :
    (∀ op ∈ BinaryOp.onWholeNumbers, ∃ v,
      (Expression.binary op left right).eval lookup s = pure v ∧
        (¬ (op = .mod ∧ a = Int64.minValue ∧ b = -1) → v.Fits (op.Computes a.toInt b.toInt)) ∧
        (op = .mod → a = Int64.minValue → b = -1 → v = .null)) ∧
    ∃ v, (Expression.negate left).eval lookup s = pure v ∧ v.Fits fun n => n = -a.toInt := by
  constructor
  · intro op whole
    refine ⟨_, eval_onWholeNumbers whole first second, fun apart => ?_, ?_⟩
    · exact BinaryOp.fits_onIntegers whole fun mod _ =>
        BinaryOp.isSigned64_tdiv fun least => apart ⟨mod, least⟩
    · rintro rfl rfl rfl
      rfl
  · exact ⟨_, eval_negate first, fits_int64? fun n => Iff.rfl⟩

end

/-- A meter shows a whole number. -/
def meterReading : Property :=
  ⟨"reading", .primitive (.integer .int64), true, false, none⟩

/-- What an expression gives for a meter that shows a number. -/
def onMeter (shown : Int64) (x : Expression) : ExceptT RequestError Id Value :=
  x.eval (fun _ _ _ => pure [])
    (.ofEntity (.mk ⟨"Meter", none, [meterReading], []⟩ none [("reading", .integer shown)] []))

/-- The greatest number has no successor but a remainder, and the least one has no opposite. -/
theorem integers_compute_of_meters :
    let reading : Expression := .property .root meterReading
    let number (n : Int64) : Expression := .literal (.integer n)
    onMeter Int64.maxValue reading = pure (.integer Int64.maxValue) ∧
      onMeter Int64.maxValue (.binary .add reading (number 1)) = pure .null ∧
      onMeter Int64.maxValue (.binary .mod reading (number (-10))) = pure (.integer 7) ∧
      onMeter Int64.minValue (.negate reading) = pure .null := by
  intro reading number
  have shows (n : Int64) : onMeter n reading = pure (.integer n) := rfl
  have holds (n k : Int64) : onMeter n (number k) = pure (.integer k) := rfl
  refine ⟨shows _, ?_, ?_, ?_⟩
  · obtain ⟨v, found, fits, -⟩ :=
      (integers_compute (shows _) (holds Int64.maxValue 1)).1 .add (by decide)
    rw [(fits (by decide)).eq_null fun j sum => ?_] at found
    · exact found
    · rw [BinaryOp.computes_add.mp sum]
      decide
  · obtain ⟨v, found, fits, -⟩ :=
      (integers_compute (shows _) (holds Int64.maxValue (-10))).1 .mod (by decide)
    rw [(fits (by decide)).eq_integer fun j => ?_] at found
    · exact found
    · exact BinaryOp.computes_mod.trans (and_iff_right (by decide))
  · obtain ⟨v, found, fits⟩ := (integers_compute (shows Int64.minValue) (holds _ 0)).2
    rw [fits.eq_null fun j opposite => ?_] at found
    · exact found
    · rw [opposite]
      decide

/-- The least integer leaves nothing over when it is divided by minus one, but null comes out. -/
theorem remainder_of_least_is_lost :
    onMeter Int64.minValue (.binary .mod (.property .root meterReading) (.literal (.integer (-1))))
        = pure .null ∧
      BinaryOp.Computes .mod Int64.minValue.toInt (-1 : Int64).toInt (0 : Int64).toInt ∧
      ¬ Value.null.Fits (BinaryOp.Computes .mod Int64.minValue.toInt (-1 : Int64).toInt) := by
  have exact_ : BinaryOp.Computes .mod Int64.minValue.toInt (-1 : Int64).toInt (0 : Int64).toInt :=
    BinaryOp.computes_mod.mpr (by decide)
  refine ⟨rfl, exact_, ?_⟩
  rintro (⟨n, -, same⟩ | ⟨-, none_⟩)
  · cases same
  · exact none_ 0 exact_

end EdmQuery
