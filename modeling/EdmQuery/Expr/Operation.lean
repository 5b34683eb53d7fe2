import EdmQuery.Expr.Tree

/-! What the operators of filters do to values; where no value comes out, it is null. -/

namespace EdmQuery

open Number Calendar

/-- A value, or null where there is none. -/
def Value.ofOption (found : Option Scalar) : Value :=
  match found with
  | some s => .scalar s
  | none => .null

/-- The opposite of a truth value. -/
def Value.denied : Value → Value
  | .boolean b => .boolean (!b)
  | _ => .null

/-- An integer as a value, where it fits into 64 bits. -/
def int64? (n : Int) : Option Scalar :=
  if Numeral.isSigned64 n then some (.integer (Int64.ofInt n)) else none

/-- The opposite of a number or a duration. -/
def Value.negated : Value → Value
  | .integer n => .ofOption (int64? (-n.toInt))
  | .decimal d => .decimal d.neg
  | .double x => .double (-x)
  | .scalar (.duration d) => .scalar (.duration d.neg)
  | _ => .null

/-- Conjunction in three-valued logic. -/
def both : Option Bool → Option Bool → Option Bool
  | some false, _ => some false
  | _, some false => some false
  | some true, some true => some true
  | _, _ => none

/-- Disjunction in three-valued logic. -/
def either : Option Bool → Option Bool → Option Bool
  | some true, _ => some true
  | _, some true => some true
  | some false, some false => some false
  | _, _ => none

/-- A truth value, null where it is unknown. -/
def Value.ofTruth (truth : Option Bool) : Value :=
  match truth with
  | some b => .boolean b
  | none => .null

namespace BinaryOp

/-- Whether an order between two operands satisfies a comparison. -/
def holdsFor : BinaryOp → Ordering → Bool
  | .eq, o => o == .eq
  | .ne, o => o != .eq
  | .lt, o => o == .lt
  | .le, o => o != .gt
  | .gt, o => o == .gt
  | .ge, o => o != .lt
  | _, _ => false

/-- The outcome of a comparison; operands without an order are different, and neither is greater. -/
def comparison (op : BinaryOp) (order : Option Ordering) : Option Bool :=
  match order with
  | some o => some (op.holdsFor o)
  | none => if op == .eq then some false else if op == .ne then some true else none

/-- Arithmetic on integers, as long as the result fits. -/
def onIntegers (op : BinaryOp) (a b : Int) : Option Scalar :=
  match op with
  | .add => int64? (a + b)
  | .sub => int64? (a - b)
  | .mul => int64? (a * b)
  | .div => if b == 0 then none else int64? (a.tdiv b)
  -- A remainder fails along with the quotient that belongs to it.
  | .mod => if b == 0 || !Numeral.isSigned64 (a.tdiv b) then none else int64? (a.tmod b)
  | _ => none

/-- Arithmetic on doubles, where a zero does not divide. -/
def onDoubles (op : BinaryOp) (a b : Float) : Option Scalar :=
  match op with
  | .add => some (.double (a + b))
  | .sub => some (.double (a - b))
  | .mul => some (.double (a * b))
  | .div => if b == 0.0 then none else some (.double (a / b))
  | .mod => if b == 0.0 then none else some (.double (remainder a b))
  | _ => none

/-- Arithmetic on decimals. -/
def onDecimals (op : BinaryOp) (a b : Decimal) : Option Scalar :=
  match op with
  | .add => (a.add? b).map .decimal
  | .sub => (a.sub? b).map .decimal
  | .mul => (a.mul? b).map .decimal
  | .div => (a.div? b).map .decimal
  | .mod => (a.rem? b).map .decimal
  | _ => none

/-- The quotient of two numbers as doubles. -/
def quotient (a b : Scalar) : Option Scalar :=
  match a.toFloat?, b.toFloat? with
  | some x, some y => if y == 0.0 then none else some (.double (x / y))
  | _, _ => none

/-- Arithmetic on numbers of any kinds: doubles win over decimals, decimals over integers. -/
def arithmetic (op : BinaryOp) (a b : Scalar) : Option Scalar :=
  if op == .divBy then quotient a b
  else
    match a, b with
    | .integer x, .integer y => op.onIntegers x.toInt y.toInt
    | .double _, _ | _, .double _ =>
      match a.toFloat?, b.toFloat? with
      | some x, some y => op.onDoubles x y
      | _, _ => none
    | _, _ =>
      match a.toDecimal?, b.toDecimal? with
      | some x, some y => op.onDecimals x y
      | _, _ => none

/-- The value of an operator other than `and` and `or`; a null operand makes it null. -/
def apply (op : BinaryOp) (a b : Value) : Value :=
  if a.isNull || b.isNull then .null
  else if op.isEquality || op.isRelational then .ofTruth (op.comparison (a.compare b))
  else if op == .has then
    match a, b with
    | .enum _ value, .enum _ wanted => .boolean (Enumeration.hasFlag value wanted)
    | _, _ => .null
  else
    match a, b with
    | .scalar s, .scalar t => .ofOption (op.arithmetic s t)
    | _, _ => .null

end BinaryOp

end EdmQuery
