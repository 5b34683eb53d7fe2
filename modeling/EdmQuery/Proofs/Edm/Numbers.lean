import Mathlib
import EdmQuery.Proofs.Number.Monotone

/-! Numbers of different kinds: what their comparison keeps of an order. -/

namespace EdmQuery

open Number

namespace Value

/-- Whether a value is a number, and no NaN. -/
def isNumber : Value → Bool
  | .integer _ => true
  | .decimal _ => true
  | .double x => !EdmQuery.isNaN x
  | _ => false

/-- Whether a value is an integer or a decimal, which are compared with each other as they are. -/
def isExact : Value → Bool
  | .integer _ => true
  | .decimal _ => true
  | _ => false

/-- A number as it is compared with doubles. -/
def promoted : Value → Value
  | .integer n => .double (ofInteger n.toInt)
  | .decimal d => .double d.toFloat
  | v => v

/-- Whether two numbers compare as their doubles do. -/
def KeepsOrder (a b : Value) : Prop :=
  a.compare b = a.promoted.compare b.promoted

/-- Whether a value is at most another one, as far as the two have an order. -/
def atMost (a b : Value) : Prop :=
  ascends (a.compare b) = true

/-- Values among which being at most goes on from one pair to the next. -/
def Ordered (values : List Value) : Prop :=
  ∀ a ∈ values, ∀ b ∈ values, ∀ c ∈ values, a.atMost b → b.atMost c → a.atMost c

instance (a b : Value) : Decidable (a.KeepsOrder b) :=
  inferInstanceAs (Decidable (_ = _))

instance (a b : Value) : Decidable (a.atMost b) :=
  inferInstanceAs (Decidable (_ = _))

section

variable {a b c : Value}

/-- A number that is not exact is a double. -/
theorem exists_double (number : a.isNumber = true) (inexact : a.isExact = false) :
    ∃ x, a = .double x ∧ EdmQuery.isNaN x = false := by
  rcases a with _ | s | _
  · cases number
  · cases s with
    | double x => exact ⟨x, rfl, by simpa [isNumber] using number⟩
    | integer | decimal => cases inexact
    | _ => cases number
  · cases number

/-- An exact value is an integer or a decimal. -/
theorem exact_cases (exact_ : a.isExact = true) :
    (∃ n, a = .integer n) ∨ ∃ d, a = .decimal d := by
  rcases a with _ | s | _
  · cases exact_
  · cases s with
    | integer n => exact .inl ⟨n, rfl⟩
    | decimal d => exact .inr ⟨d, rfl⟩
    | _ => cases exact_
  · cases exact_

/-- Integers and decimals are numbers. -/
theorem isNumber_of_isExact (exact_ : a.isExact = true) : a.isNumber = true := by
  rcases exact_cases exact_ with ⟨n, rfl⟩ | ⟨d, rfl⟩ <;> rfl

/-- Numbers stay numbers when they are converted to doubles. -/
theorem exists_promoted (number : a.isNumber = true) :
    ∃ x, a.promoted = .double x ∧ EdmQuery.isNaN x = false := by
  by_cases exact_ : a.isExact = true
  · rcases exact_cases exact_ with ⟨n, rfl⟩ | ⟨d, rfl⟩
    · obtain ⟨_, read⟩ := finite_ofInteger n
      exact ⟨_, rfl, isNaN_of_finite read⟩
    · obtain ⟨_, read⟩ := d.finite_toFloat
      exact ⟨_, rfl, isNaN_of_finite read⟩
  · obtain ⟨x, rfl, finite⟩ := exists_double number (by simpa using exact_)
    exact ⟨x, rfl, finite⟩

/-- The decimal that an exact value stands for. -/
def asDecimal : Value → Decimal
  | .integer n => .ofInt64 n
  | .decimal d => d
  | _ => .zero

/-- An integer is the numerator of its decimal. -/
theorem numerator_ofInt64 (n : Int64) : (Decimal.ofInt64 n).numerator = n.toInt := by
  simp only [Decimal.numerator, Decimal.ofInt64, decide_eq_true_eq]
  split <;> omega

/-- Two exact values compare as decimals. -/
theorem compare_exact (left : a.isExact = true) (right : b.isExact = true) :
    a.compare b = some (a.asDecimal.compare b.asDecimal) := by
  rcases exact_cases left with ⟨m, rfl⟩ | ⟨d, rfl⟩ <;>
    rcases exact_cases right with ⟨n, rfl⟩ | ⟨e, rfl⟩ <;> try rfl
  -- Two integers have the denominator one.
  have whole : (Decimal.ofInt64 m).compare (Decimal.ofInt64 n) = Ord.compare m.toInt n.toInt := by
    rw [Decimal.compare, numerator_ofInt64, numerator_ofInt64]
    show Ord.compare (m.toInt * 10 ^ 0) (n.toInt * 10 ^ 0) = _
    rw [pow_zero, mul_one, mul_one]
  exact congrArg some whole.symm

/-- A double compares with every number as the doubles of both do. -/
theorem keepsOrder_of_double (left : a.isNumber = true) (right : b.isNumber = true)
    (double : a.isExact = false ∨ b.isExact = false) : a.KeepsOrder b := by
  -- Beside a double every number is converted, and a double is its own conversion.
  rcases double with inexact | inexact
  · obtain ⟨x, rfl, -⟩ := exists_double left inexact
    by_cases exact_ : b.isExact = true
    · rcases exact_cases exact_ with ⟨n, rfl⟩ | ⟨d, rfl⟩ <;> rfl
    · obtain ⟨y, rfl, -⟩ := exists_double right (by simpa using exact_)
      rfl
  · obtain ⟨y, rfl, -⟩ := exists_double right inexact
    by_cases exact_ : a.isExact = true
    · rcases exact_cases exact_ with ⟨n, rfl⟩ | ⟨d, rfl⟩ <;> rfl
    · obtain ⟨x, rfl, -⟩ := exists_double left (by simpa using exact_)
      rfl

/-- The doubles of two numbers have an order. -/
theorem compare_promoted (left : a.isNumber = true) (right : b.isNumber = true) :
    ∃ o, a.promoted.compare b.promoted = some o := by
  obtain ⟨x, same, number⟩ := exists_promoted left
  obtain ⟨y, same', number'⟩ := exists_promoted right
  have compared : (Value.double x).compare (.double y) = compareFloats x y := rfl
  rw [same, same', compared, compareFloats_eq, number, number', Bool.or_self,
    if_neg Bool.false_ne_true]
  exact ⟨_, rfl⟩

/-- Two numbers have an order. -/
theorem exists_compare (left : a.isNumber = true) (right : b.isNumber = true) :
    ∃ o, a.compare b = some o := by
  -- Two exact numbers are compared as decimals, any others as doubles.
  by_cases exact_ : a.isExact = true ∧ b.isExact = true
  · exact ⟨_, compare_exact exact_.1 exact_.2⟩
  · have double : a.isExact = false ∨ b.isExact = false := by
      rw [← Bool.not_eq_true, ← Bool.not_eq_true]
      exact not_and_or.mp exact_
    rw [keepsOrder_of_double left right double]
    exact compare_promoted left right

/-- Values compare the other way round when they change places. -/
theorem compare_swap (a b : Value) : a.compare b = (b.compare a).map Ordering.swap := by
  rcases a with _ | a | _ <;> rcases b with _ | b | _ <;> try rfl
  exact Scalar.compare_swap a b

/-- Two values keep their order in both directions. -/
theorem KeepsOrder.symm (keeps : a.KeepsOrder b) : b.KeepsOrder a := by
  rw [KeepsOrder, compare_swap b a, keeps, ← compare_swap]

/-- Values are equal when each of them is at most the other one. -/
theorem compare_eq_iff : a.compare b = some .eq ↔ a.atMost b ∧ b.atMost a := by
  rw [atMost, atMost, compare_swap b a]
  rcases a.compare b with _ | (_ | _ | _) <;> simp [ascends]

/-- Exact values are in order. -/
theorem atMost_trans_of_exact (exactA : a.isExact = true) (exactB : b.isExact = true)
    (exactC : c.isExact = true) (first : a.atMost b) (second : b.atMost c) : a.atMost c := by
  simp only [atMost, compare_exact exactA exactB, compare_exact exactB exactC,
    compare_exact exactA exactC, ascends, Option.any_some] at *
  exact @Std.TransCmp.isLE_trans _ Decimal.compare _ _ _ _ first second

/-- Numbers that keep their order as doubles are in order. -/
theorem atMost_trans_of_keepsOrder (numberA : a.isNumber = true) (numberB : b.isNumber = true)
    (numberC : c.isNumber = true) (keepsAB : a.KeepsOrder b) (keepsBC : b.KeepsOrder c)
    (keepsAC : a.KeepsOrder c) (first : a.atMost b) (second : b.atMost c) : a.atMost c := by
  -- The three comparisons are those of three doubles, which are in order.
  obtain ⟨x, sameX, -⟩ := exists_promoted numberA
  obtain ⟨y, sameY, -⟩ := exists_promoted numberB
  obtain ⟨z, sameZ, -⟩ := exists_promoted numberC
  have asFloats {v w : Value} {p q : Float} (keeps : v.KeepsOrder w) (left : v.promoted = .double p)
      (right : w.promoted = .double q) : v.compare w = compareFloats p q := by
    rw [keeps, left, right]
    rfl
  rw [atMost, asFloats keepsAB sameX sameY] at first
  rw [atMost, asFloats keepsBC sameY sameZ] at second
  rw [atMost, asFloats keepsAC sameX sameZ]
  exact compareFloats_trans first second

/-- A number is equal to itself. -/
theorem compare_self (number : a.isNumber = true) : a.compare a = some .eq := by
  obtain ⟨o, found⟩ := exists_compare number number
  have swapped := compare_swap a a
  rw [found] at swapped ⊢
  cases o <;> simp at swapped ⊢

/-- A number keeps its order with itself. -/
theorem keepsOrder_refl (number : a.isNumber = true) : a.KeepsOrder a := by
  obtain ⟨x, same, finite⟩ := exists_promoted number
  have converted : a.promoted.isNumber = true := by simp [same, isNumber, finite]
  rw [KeepsOrder, compare_self number, compare_self converted]

/-- Comparisons with an outcome agree when they agree on what is at most what. -/
theorem compare_congr {a' b' : Value} (found : ∃ o, a.compare b = some o)
    (found' : ∃ o, a'.compare b' = some o) (up : a.atMost b ↔ a'.atMost b')
    (down : b.atMost a ↔ b'.atMost a') : a.compare b = a'.compare b' := by
  -- An outcome is known from what is at most what.
  obtain ⟨o, found⟩ := found
  obtain ⟨o', found'⟩ := found'
  rw [atMost, atMost, found, found'] at up
  rw [atMost, atMost, compare_swap b a, compare_swap b' a', found, found'] at down
  rw [found, found']
  cases o <;> cases o' <;> simp [ascends] at up down ⊢

/-- Two exact numbers that are in order with every double keep their order as doubles. -/
theorem keepsOrder_of_ordered (exactA : a.isExact = true) (exactB : b.isExact = true)
    (ordered : ∀ x, EdmQuery.isNaN x = false → Ordered [a, b, .double x]) : a.KeepsOrder b := by
  have numberA := isNumber_of_isExact exactA
  have numberB := isNumber_of_isExact exactB
  obtain ⟨x, same, number⟩ := exists_promoted numberA
  have numberX : (Value.double x).isNumber = true := by simp [isNumber, number]
  -- The first number is equal to its own double, which takes its place beside the other one.
  have equal : a.compare (.double x) = some .eq := by
    rw [keepsOrder_of_double numberA numberX (.inr rfl), same]
    exact compare_self numberX
  obtain ⟨up, down⟩ := compare_eq_iff.mp equal
  have mem (v : Value) (is : v = a ∨ v = b ∨ v = .double x) : v ∈ [a, b, .double x] := by
    simpa using is
  have through := ordered x number
  have below : a.atMost b ↔ (Value.double x).atMost b :=
    ⟨through _ (mem _ (.inr (.inr rfl))) _ (mem _ (.inl rfl)) _ (mem _ (.inr (.inl rfl))) down,
      through _ (mem _ (.inl rfl)) _ (mem _ (.inr (.inr rfl))) _ (mem _ (.inr (.inl rfl))) up⟩
  have above : b.atMost a ↔ b.atMost (.double x) :=
    ⟨fun less => through _ (mem _ (.inr (.inl rfl))) _ (mem _ (.inl rfl)) _
        (mem _ (.inr (.inr rfl))) less up,
      fun less => through _ (mem _ (.inr (.inl rfl))) _ (mem _ (.inr (.inr rfl))) _
        (mem _ (.inl rfl)) less down⟩
  rw [KeepsOrder, same]
  have promoted := keepsOrder_of_double numberX numberB (.inl rfl)
  have own : (Value.double x).promoted = .double x := rfl
  rw [KeepsOrder, own] at promoted
  rw [← promoted]
  exact compare_congr (exists_compare numberA numberB) (exists_compare numberX numberB) below above

/-- An integer keeps its order with a greater one unless their doubles are equal. -/
theorem keepsOrder_of_le {m n : Int64} (ascending : m.toInt ≤ n.toInt) :
    (integer m).KeepsOrder (.integer n) ∨
      (integer m).promoted.compare (integer n).promoted = some .eq := by
  have mono := ofInteger_mono ascending
  have converted : (integer m).promoted.compare (integer n).promoted
      = compareFloats (ofInteger m.toInt) (ofInteger n.toInt) := rfl
  cases order : compareFloats (ofInteger m.toInt) (ofInteger n.toInt) with
  | none =>
    rw [order] at mono
    cases mono
  | some o =>
    rw [KeepsOrder, converted, order]
    cases o with
    | eq => exact .inr rfl
    | gt =>
      rw [order] at mono
      cases mono
    | lt =>
      -- Equal integers would have equal doubles.
      have different : m.toInt ≠ n.toInt := by
        intro same
        have swapped := compareFloats_swap (ofInteger m.toInt) (ofInteger n.toInt)
        rw [order, same] at swapped
        rw [same] at order
        rw [order] at swapped
        cases swapped
      refine .inl (congrArg some ?_)
      exact compare_lt_iff_lt.mpr (by omega)

/-- Two integers keep their order as doubles unless their doubles are equal. -/
theorem keepsOrder_integers (m n : Int64) : (integer m).KeepsOrder (.integer n) ∨
    (integer m).promoted.compare (integer n).promoted = some .eq := by
  -- Keeping an order does not depend on which of the two is the smaller one.
  rcases le_total m.toInt n.toInt with ascending | descending
  · exact keepsOrder_of_le ascending
  · rcases keepsOrder_of_le descending with keeps | equal
    · exact .inl keeps.symm
    · exact .inr (by rw [compare_swap, equal]; rfl)

/-- Values that compare are at most each other where they are not greater. -/
theorem atMost_iff (found : ∃ o, a.compare b = some o) :
    a.atMost b ↔ a.compare b ≠ some .gt := by
  obtain ⟨o, found⟩ := found
  rw [atMost, found]
  cases o <;> simp [ascends]

/-- Exact values are in order among themselves. -/
theorem ordered_of_exact {values : List Value} (exact_ : ∀ v ∈ values, v.isExact = true) :
    Ordered values :=
  fun a memA b memB c memC => atMost_trans_of_exact (exact_ a memA) (exact_ b memB) (exact_ c memC)

/-- Numbers are in order where the doubles of the exact ones keep their order. -/
theorem ordered_of_keepsOrder {values : List Value} (numbers : ∀ v ∈ values, v.isNumber = true)
    (keeps : values.Pairwise fun v w => v.isExact = true → w.isExact = true → v.KeepsOrder w) :
    Ordered values := by
  have exactly : ∀ v ∈ values, ∀ w ∈ values, v.isExact = true → w.isExact = true →
      v.KeepsOrder w := by
    have symmetric : Std.Symm fun v w : Value =>
        v.isExact = true → w.isExact = true → v.KeepsOrder w :=
      ⟨fun _ _ keeps left right => (keeps right left).symm⟩
    exact keeps.forall_of_forall fun v mem _ _ => keepsOrder_refl (numbers v mem)
  -- Beside a double the order is that of doubles in any case.
  have all : ∀ v ∈ values, ∀ w ∈ values, v.KeepsOrder w := by
    intro v memV w memW
    by_cases exactV : v.isExact = true
    · by_cases exactW : w.isExact = true
      · exact exactly v memV w memW exactV exactW
      · exact keepsOrder_of_double (numbers v memV) (numbers w memW) (.inr (by simpa using exactW))
    · exact keepsOrder_of_double (numbers v memV) (numbers w memW) (.inl (by simpa using exactV))
  intro a memA b memB c memC
  exact atMost_trans_of_keepsOrder (numbers a memA) (numbers b memB) (numbers c memC)
    (all a memA b memB) (all b memB c memC) (all a memA c memC)

/--
Numbers of every kind compare in both directions, and stand in order where doubles keep the order.

Integers and decimals are in order among themselves, and so are numbers of which at most one is no
double. An integer or decimal is in order with another one and every double exactly when the doubles
of the two compare as they do; those of two integers do unless they are equal.
-/
theorem numbers_compare_in_order (a b c : Value) (numberA : a.isNumber = true)
    (numberB : b.isNumber = true) (numberC : c.isNumber = true) :
    (∃ o, a.compare b = some o ∧ b.compare a = some o.swap) ∧
    ((∀ v ∈ [a, b, c], v.isExact = true) ∨
        [a, b, c].Pairwise (fun v w => v.isExact = true → w.isExact = true → v.KeepsOrder w) →
      (a.compare b ≠ some .gt → b.compare c ≠ some .gt → a.compare c ≠ some .gt) ∧
      (a.compare b = some .eq → b.compare c = some .eq → a.compare c = some .eq)) ∧
    (a.isExact = true → b.isExact = true →
      ((∀ x, EdmQuery.isNaN x = false → Ordered [a, b, .double x]) ↔ a.KeepsOrder b)) ∧
    (∀ m n, (integer m).KeepsOrder (.integer n) ∨
      (integer m).promoted.compare (integer n).promoted = some .eq) := by
  have numbers : ∀ v ∈ [a, b, c], v.isNumber = true := by
    simp only [List.forall_mem_cons, List.not_mem_nil, false_imp_iff, implies_true, and_true]
    exact ⟨numberA, numberB, numberC⟩
  refine ⟨?_, fun kept => ?_, fun exactA exactB => ⟨keepsOrder_of_ordered exactA exactB, ?_⟩,
    keepsOrder_integers⟩
  · obtain ⟨o, found⟩ := exists_compare numberA numberB
    exact ⟨o, found, by rw [compare_swap, found]; rfl⟩
  · have ordered : Ordered [a, b, c] := kept.elim ordered_of_exact (ordered_of_keepsOrder numbers)
    have memA : a ∈ [a, b, c] := by simp
    have memB : b ∈ [a, b, c] := by simp
    have memC : c ∈ [a, b, c] := by simp
    constructor
    · rw [← atMost_iff (exists_compare numberA numberB), ← atMost_iff (exists_compare numberB numberC),
        ← atMost_iff (exists_compare numberA numberC)]
      exact ordered a memA b memB c memC
    · simp only [compare_eq_iff]
      intro ⟨upAB, downAB⟩ ⟨upBC, downBC⟩
      exact ⟨ordered a memA b memB c memC upAB upBC, ordered c memC b memB a memA downBC downAB⟩
  · intro keeps x finite
    refine ordered_of_keepsOrder ?_ ?_
    · simp only [List.forall_mem_cons, List.not_mem_nil, false_imp_iff, implies_true, and_true]
      exact ⟨numberA, numberB, by simp [isNumber, finite]⟩
    · simp only [List.pairwise_cons, List.mem_cons, List.not_mem_nil, or_false, forall_eq_or_imp,
        forall_eq, false_imp_iff, implies_true, List.Pairwise.nil, and_true]
      exact ⟨⟨fun _ _ => keeps, fun _ inexact => nomatch inexact⟩, fun _ inexact => nomatch inexact⟩

/-- A double between two integers is in order with them, as its conversion keeps theirs. -/
theorem numbers_compare_in_order_of_halves :
    (integer 1).compare (.double 1.5) = some .lt ∧ (Value.double 1.5).compare (.integer 2) = some .lt ∧
      (integer 1).compare (.integer 2) ≠ some .gt := by
  have numbers := numbers_compare_in_order (.integer 1) (.double 1.5) (.integer 2) rfl (by decide) rfl
  have kept : [integer 1, .double 1.5, .integer 2].Pairwise
      (fun v w => v.isExact = true → w.isExact = true → v.KeepsOrder w) := by
    decide +kernel
  exact ⟨by decide +kernel, by decide +kernel,
    (numbers.2.1 (.inr kept)).1 (by decide +kernel) (by decide +kernel)⟩

/-- Two integers that one double is equal to are not equal to each other. -/
theorem numbers_are_equal_to_one_double :
    let greater : Value := .integer 9007199254740993
    let double : Value := .double 9007199254740992
    let less : Value := .integer 9007199254740992
    greater.compare double = some .eq ∧ double.compare less = some .eq ∧
      greater.compare less = some .gt := by
  decide +kernel

end

end Value

end EdmQuery
