import Mathlib
import EdmQuery.Proofs.Sql.Mirror

/-! Operators and functions give values of the kinds that the types of their results name. -/

namespace EdmQuery

open Text

namespace StaticType

/-- Every type has null. -/
@[simp] theorem admits_null (type : StaticType) : type.admits .null = true := by
  cases type <;> rfl

/-- Every truth value belongs to the type of truth values. -/
@[simp] theorem admits_boolean (b : Bool) : StaticType.boolean.admits (.boolean b) = true :=
  rfl

/-- A single value belongs to the type that is its own. -/
theorem admits_ofScalar (s : Scalar) : (PrimitiveType.ofScalar s).admits s = true := by
  cases s <;> simp [PrimitiveType.ofScalar, PrimitiveType.admits]

end StaticType

/-- The opposite of a truth value is one, or null. -/
theorem Value.denied_admits (value : Value) : StaticType.boolean.admits value.denied = true := by
  cases value with
  | scalar s => cases s <;> rfl
  | _ => rfl

/-- The opposite of a value is of its type, or null. -/
theorem Value.negated_admits {type : StaticType} {value : Value}
    (admitted : type.admits value = true) : type.admits value.negated = true := by
  rcases value with _ | s | items
  · exact type.admits_null
  · cases s with
    | integer n =>
      -- The opposite of the least integer does not fit and is null.
      rw [negated, int64?]
      split
      · cases type with
        | primitive type => cases type <;> simp_all [StaticType.admits, PrimitiveType.admits, ofOption]
        | _ => simp [StaticType.admits] at admitted
      · exact type.admits_null
    | _ =>
      cases type with
      | primitive type =>
        first
        | exact StaticType.admits_null _
        | cases type <;> simp_all [StaticType.admits, PrimitiveType.admits, negated]
      | _ => simp [StaticType.admits] at admitted
  · exact type.admits_null

namespace BinaryOp

variable {op : BinaryOp}

/-- Arithmetic on integers gives an integer or nothing. -/
theorem onIntegers_kind {a b : Int} {s : Scalar} (found : op.onIntegers a b = some s) :
    ∃ n, s = .integer n := by
  have small {n : Int} (fits : int64? n = some s) : ∃ k, s = .integer k := by
    rw [int64?] at fits
    split at fits
    · exact ⟨_, (Option.some.inj fits).symm⟩
    · cases fits
  cases op <;> simp only [onIntegers, reduceCtorEq] at found
  case add => exact small found
  case sub => exact small found
  case mul => exact small found
  -- A quotient and a remainder are missing when the divisor is zero.
  all_goals
    split at found
    · cases found
    · exact small found

/-- Arithmetic on doubles gives a double or nothing. -/
theorem onDoubles_kind {a b : Float} {s : Scalar} (found : op.onDoubles a b = some s) :
    ∃ x, s = .double x := by
  cases op <;> simp only [onDoubles, reduceCtorEq] at found
  case add => exact ⟨_, (Option.some.inj found).symm⟩
  case sub => exact ⟨_, (Option.some.inj found).symm⟩
  case mul => exact ⟨_, (Option.some.inj found).symm⟩
  all_goals
    split at found
    · cases found
    · exact ⟨_, (Option.some.inj found).symm⟩

/-- Arithmetic on decimals gives a decimal or nothing. -/
theorem onDecimals_kind {a b : Number.Decimal} {s : Scalar} (found : op.onDecimals a b = some s) :
    ∃ d, s = .decimal d := by
  cases op <;> simp only [onDecimals, reduceCtorEq] at found
  all_goals
    obtain ⟨d, -, rfl⟩ := Option.map_eq_some_iff.mp found
    exact ⟨d, rfl⟩

/-- A quotient as doubles is a double or nothing. -/
theorem quotient_kind {a b s : Scalar} (found : quotient a b = some s) : ∃ x, s = .double x := by
  rw [quotient] at found
  split at found
  · split at found
    · cases found
    · exact ⟨_, (Option.some.inj found).symm⟩
  · cases found

/-- A number is an integer, a decimal or a double, as its type says. -/
theorem number_cases {type : PrimitiveType} {a : Scalar} (numeric : type.isNumeric = true)
    (admitted : type.admits a = true) :
    (∃ width n, type = .integer width ∧ a = .integer n) ∨ (∃ d, type = .decimal ∧ a = .decimal d) ∨
      ∃ x, type.isFloating = true ∧ a = .double x := by
  cases a with
  | integer n => cases type <;> simp_all [PrimitiveType.admits]
  | decimal d => cases type <;> simp_all [PrimitiveType.admits]
  | double x => cases type <;> simp_all [PrimitiveType.admits, PrimitiveType.isFloating]
  | _ =>
    cases type <;> simp_all [PrimitiveType.admits, PrimitiveType.isNumeric, PrimitiveType.family]

/-- Arithmetic on numbers of two types gives a number of the type that it is said to have. -/
theorem arithmetic_admits {left right : PrimitiveType} {a b s : Scalar}
    (numeric : left.isNumeric = true) (numeric' : right.isNumeric = true)
    (admitted : left.admits a = true) (admitted' : right.admits b = true)
    (found : op.arithmetic a b = some s) :
    (arithmeticType op (.primitive left) (.primitive right)).admits (.scalar s) = true := by
  unfold arithmetic at found
  rw [arithmeticType]
  split at found
  · rename_i divides
    obtain ⟨x, rfl⟩ := quotient_kind found
    rw [if_pos divides]
    rfl
  · rename_i divides
    rw [if_neg divides]
    simp only [StaticType.primitive?]
    obtain ⟨w, n, rfl, rfl⟩ | ⟨d, rfl, rfl⟩ | ⟨x, floating, rfl⟩ := number_cases numeric admitted
    -- A double on either side makes the result one, and otherwise a decimal does.
    · obtain ⟨w', k, rfl, rfl⟩ | ⟨e, rfl, rfl⟩ | ⟨y, floating', rfl⟩ :=
        number_cases numeric' admitted'
      · obtain ⟨_, rfl⟩ := onIntegers_kind found
        rfl
      · obtain ⟨_, rfl⟩ := onDecimals_kind found
        rfl
      · obtain ⟨_, rfl⟩ := onDoubles_kind found
        simp [floating', StaticType.admits, PrimitiveType.admits]
    · obtain ⟨w', k, rfl, rfl⟩ | ⟨e, rfl, rfl⟩ | ⟨y, floating', rfl⟩ :=
        number_cases numeric' admitted'
      · obtain ⟨_, rfl⟩ := onDecimals_kind found
        rfl
      · obtain ⟨_, rfl⟩ := onDecimals_kind found
        rfl
      · obtain ⟨_, rfl⟩ := onDoubles_kind found
        simp [floating', StaticType.admits, PrimitiveType.admits]
    · have known : ∃ y, b.toFloat? = some y := by
        obtain ⟨w', k, rfl, rfl⟩ | ⟨e, rfl, rfl⟩ | ⟨y, floating', rfl⟩ :=
          number_cases numeric' admitted' <;> exact ⟨_, rfl⟩
      obtain ⟨y, known⟩ := known
      simp only [known] at found
      obtain ⟨_, rfl⟩ := onDoubles_kind found
      simp [floating, StaticType.admits, PrimitiveType.admits]

/-- A comparison or a test for flags gives a truth value or null. -/
theorem apply_boolean (plain : op.isArithmetic = false) (joins : op.isLogical = false)
    (a b : Value) : StaticType.boolean.admits (op.apply a b) = true := by
  unfold apply
  split
  · rfl
  split
  · exact StaticType.admits_ofTruth _
  rename_i compares
  have flags : op = .has := by
    cases op <;> simp_all [isArithmetic, isEquality, isRelational, isLogical]
  rw [if_pos (beq_iff_eq.mpr flags)]
  split <;> rfl

/-- Arithmetic on values gives a number of the type that it is said to have, or null. -/
theorem apply_arithmetic {left right : StaticType} {a b : Value} (computes : op.isArithmetic = true)
    (operand : Expression.isOperand op left = true) (operand' : Expression.isOperand op right = true)
    (admitted : left.admits a = true) (admitted' : right.admits b = true) :
    (arithmeticType op left right).admits (op.apply a b) = true := by
  have other : (op.isEquality || op.isRelational) = false ∧ (op == .has) = false := by
    cases op <;> simp_all [isArithmetic, isEquality, isRelational]
  unfold apply
  split
  · exact StaticType.admits_null _
  rename_i present
  rw [if_neg (by simp [other.1]), if_neg (by simp [other.2])]
  split
  · rename_i s t
    cases computed : op.arithmetic s t with
    | none => exact StaticType.admits_null _
    | some u =>
      -- Two values that are there have types of numbers.
      cases left with
      | primitive left =>
        cases right with
        | primitive right =>
          simp only [Expression.isOperand, Bool.and_eq_true] at operand operand'
          exact arithmetic_admits operand.1 operand'.1 admitted admitted' computed
        | null => simp [StaticType.admits] at admitted'
        | collection element => simp [StaticType.admits] at admitted'
      | null => simp [StaticType.admits] at admitted
      | collection element => simp [StaticType.admits] at admitted
  · exact StaticType.admits_null _

/-- An operator gives a value of the type of its result, if it may have its operands. -/
theorem apply_admits {left right : StaticType} {a b : Value}
    (fit : Expression.fits op left right = true) (joins : op.isLogical = false)
    (admitted : left.admits a = true) (admitted' : right.admits b = true) :
    (if op.isArithmetic then arithmeticType op left right else .boolean).admits (op.apply a b)
      = true := by
  cases computes : op.isArithmetic with
  | false => exact apply_boolean computes joins a b
  | true =>
    have other : (op.isEquality || op.isRelational) = false ∧ (op == .has) = false := by
      cases op <;> simp_all [isArithmetic, isEquality, isRelational]
    simp only [Expression.fits, joins, other, Bool.false_eq_true, if_false, Bool.and_eq_true] at fit
    exact apply_arithmetic computes fit.1 fit.2 admitted admitted'

end BinaryOp

namespace BuiltIn

/-- The type of what a function gives, whatever it is given; rounding depends on its argument. -/
def fixedType : BuiltIn → Option PrimitiveType
  | .contains | .startsWith | .endsWith | .matchesPattern => some .boolean
  | .indexOf | .length | .year | .month | .day | .hour | .minute | .second =>
    some (.integer .int32)
  | .substring | .toLower | .toUpper | .trim | .concat => some .string
  | .date => some .date
  | .time => some .timeOfDay
  | .now => some .dateTime
  | .round | .floor | .ceiling => none

variable {f : BuiltIn}

/-- A function of a fixed type has no other result type. -/
theorem resultType?_fixed {types : List StaticType} {type fixed : PrimitiveType}
    (taken : f.resultType? types = some type) (isFixed : f.fixedType = some fixed) :
    type = fixed := by
  have only {holds : Bool} {given : PrimitiveType}
      (taken : (if holds then some given else none) = some type) : type = given := by
    split at taken
    · exact (Option.some.inj taken).symm
    · cases taken
  cases f <;> cases isFixed <;> exact only taken

/-- A function of texts gives a value of its fixed type or null, whatever it is given. -/
theorem evaluateText_fixed {fixed : PrimitiveType} (isFixed : f.fixedType = some fixed)
    (given : List Scalar) : (StaticType.primitive fixed).admits (f.evaluateText given) = true := by
  unfold evaluateText
  split
  case h_13 => exact StaticType.admits_null _
  all_goals
    cases isFixed
    -- A search may find nothing, and a text may be no pattern.
    try split
    all_goals rfl

/-- A function of dates gives a value of its fixed type or null, whatever it is given. -/
theorem evaluateCalendar_fixed {fixed : PrimitiveType} (isFixed : f.fixedType = some fixed)
    (given : List Scalar) :
    (StaticType.primitive fixed).admits (f.evaluateCalendar given) = true := by
  unfold evaluateCalendar
  split
  case h_15 => exact StaticType.admits_null _
  all_goals
    cases isFixed
    rfl

/-- A function of a fixed type gives a value of that type or null, whatever it is given. -/
theorem evaluate_fixed {fixed : PrimitiveType} (isFixed : f.fixedType = some fixed)
    (args : List Value) : (StaticType.primitive fixed).admits (f.evaluate args) = true := by
  rw [evaluate]
  cases scalars args with
  | none => exact StaticType.admits_null _
  | some given =>
    cases f <;> first
      | exact evaluateText_fixed isFixed given
      | exact evaluateCalendar_fixed isFixed given
      | exact StaticType.admits_null _
      | cases isFixed

/-- Rounding gives a number of the type that it is said to have, or null. -/
theorem evaluate_rounded {types : List StaticType} {type : PrimitiveType} {args : List Value}
    (rounds : f.fixedType = none) (taken : f.resultType? types = some type)
    (admitted : List.Forall₂ (fun type value => type.admits value = true) types args) :
    (StaticType.primitive type).admits (f.evaluate args) = true := by
  have fit : fits [.numeric] types = true ∧ roundedType types.head? = type := by
    cases f <;> cases rounds <;> simpa [resultType?] using taken
  obtain ⟨fit, rfl⟩ := fit
  -- There is exactly one argument.
  obtain ⟨given, value, rfl, rfl, own⟩ : ∃ given value, types = [given] ∧ args = [value] ∧
      given.admits value = true := by
    rcases admitted with _ | ⟨own, _ | _⟩
    · cases fit
    · exact ⟨_, _, rfl, rfl, own⟩
    · simp [fits] at fit
  cases value with
  | null => exact StaticType.admits_null _
  | collection items => exact StaticType.admits_null _
  | scalar s =>
    cases given with
    | null => simp [StaticType.admits] at own
    | collection element => simp [StaticType.admits] at own
    | primitive given =>
      have numeric : given.isNumeric = true := by simpa [fits, PrimitiveType.isNumeric] using fit
      have gives : f.evaluate [.scalar s] = f.evaluateNumber [s] := by
        cases f <;> cases rounds <;> rfl
      rw [gives]
      have decimals (found : Option Number.Decimal) :
          (StaticType.primitive .decimal).admits (ofDecimal? found) = true := by
        cases found <;> rfl
      obtain ⟨w, n, rfl, rfl⟩ | ⟨d, rfl, rfl⟩ | ⟨x, floating, rfl⟩ :=
        BinaryOp.number_cases numeric own
      · cases f <;> cases rounds <;> rfl
      · cases f <;> cases rounds <;> exact decimals _
      · cases given <;> cases floating <;> cases f <;> cases rounds <;> rfl

/-- A function gives a value of the type of its result, or null. -/
theorem evaluate_admits {types : List StaticType} {type : PrimitiveType} {args : List Value}
    (taken : f.resultType? types = some type)
    (admitted : List.Forall₂ (fun type value => type.admits value = true) types args) :
    (StaticType.primitive type).admits (f.evaluate args) = true := by
  cases known : f.fixedType with
  | none => exact evaluate_rounded known taken admitted
  | some fixed => exact resultType?_fixed taken known ▸ evaluate_fixed known args

end BuiltIn

end EdmQuery
