import EdmQuery.Edm.EntityType
import EdmQuery.Expr.BuiltIn

/-! Typed filter expressions. -/

namespace EdmQuery

open Text

/-- The entity that a member path starts from. -/
inductive Scope where
  | root
  | current
  | bound (name : String)
  deriving DecidableEq

/-- The operators between two operands. -/
inductive BinaryOp where
  | eq
  | ne
  | lt
  | le
  | gt
  | ge
  | and
  | or
  | add
  | sub
  | mul
  | div
  | divBy
  | mod
  | has
  deriving DecidableEq

namespace BinaryOp

/-- The operators. -/
def all : List BinaryOp :=
  [.eq, .ne, .lt, .le, .gt, .ge, .and, .or, .add, .sub, .mul, .div, .divBy, .mod, .has]

/-- The keyword of an operator. -/
def keyword : BinaryOp → String
  | .eq => "eq"
  | .ne => "ne"
  | .lt => "lt"
  | .le => "le"
  | .gt => "gt"
  | .ge => "ge"
  | .and => "and"
  | .or => "or"
  | .add => "add"
  | .sub => "sub"
  | .mul => "mul"
  | .div => "div"
  | .divBy => "divby"
  | .mod => "mod"
  | .has => "has"

/-- The operator of a keyword. -/
def ofKeyword? (word : String) : Option BinaryOp :=
  all.find? (·.keyword == word)

/-- How tightly an operator binds; a higher number binds tighter. -/
def precedence : BinaryOp → Nat
  | .or => 1
  | .and => 2
  | .eq | .ne => 3
  | .lt | .le | .gt | .ge => 4
  | .add | .sub => 5
  | .mul | .div | .divBy | .mod => 6
  | .has => 8

/-- Whether an operator joins truth values. -/
def isLogical : BinaryOp → Bool
  | .and | .or => true
  | _ => false

/-- Whether an operator tests for equality. -/
def isEquality : BinaryOp → Bool
  | .eq | .ne => true
  | _ => false

/-- Whether an operator compares by order. -/
def isRelational : BinaryOp → Bool
  | .lt | .le | .gt | .ge => true
  | _ => false

/-- Whether an operator computes a number. -/
def isArithmetic : BinaryOp → Bool
  | .add | .sub | .mul | .div | .divBy | .mod => true
  | _ => false

end BinaryOp

/-- How tightly the operators in front of an operand bind. -/
def unaryPrecedence : Nat := 7

/-- How tightly a list of alternatives binds. -/
def inPrecedence : Nat := 8

/-- Whether one or every member has to satisfy a condition. -/
inductive Quantifier where
  | any
  | all
  deriving DecidableEq

/-- The keyword of a quantifier. -/
def Quantifier.keyword : Quantifier → String
  | .any => "any"
  | .all => "all"

/-- What a quantifier ranges over: related entities or the items of a collection. -/
inductive Source where
  | related (navigation : Navigation) (target : String)
  | items (property : Property)
  deriving DecidableEq

/-- The name of the property that a quantifier ranges over. -/
def Source.name : Source → String
  | related navigation _ => navigation.name
  | items property => property.name

/-- A typed expression. -/
inductive Expression where
  | literal (value : Value)
  | property (scope : Scope) (property : Property)
  | hop (scope : Scope) (navigation : Navigation) (target : String) (inner : Expression)
  | item (name : String) (element : PrimitiveType)
  | not (operand : Expression)
  | negate (operand : Expression)
  | binary (op : BinaryOp) (left right : Expression)
  | oneOf (operand : Expression) (items : List Expression)
  | call (function : BuiltIn) (arguments : List Expression) (type : PrimitiveType)
  | nonEmpty (scope : Scope) (source : Source)
  | quantified (scope : Scope) (source : Source) (quantifier : Quantifier) (name : String)
    (predicate : Expression)

/-- The type that a number keeps when it is computed with a null. -/
def widened (type : PrimitiveType) : PrimitiveType :=
  if type.isFloating then .double
  else if type.isIntegral then .integer .int64
  else type

/-- The type of a computed number: a double wins over a decimal, a decimal over an integer. -/
def arithmeticType (op : BinaryOp) (left right : StaticType) : StaticType :=
  if op == .divBy then .primitive .double
  else
    match left.primitive?, right.primitive? with
    | none, none => .null
    | some type, none => .primitive (widened type)
    | none, some type => .primitive (widened type)
    | some a, some b =>
      if a.isFloating || b.isFloating then .primitive .double
      else if a == .decimal || b == .decimal then .primitive .decimal
      else .primitive (.integer .int64)

namespace Expression

/-- The type of a value, where a collection has the type of its first item that is there. -/
def typeOfValue : Value → StaticType
  | .null => .null
  | .scalar s => .primitive (.ofScalar s)
  | .collection items =>
    match items.findSome? id with
    | some s => .collection (.ofScalar s)
    | none => .null

/-- The type of an expression. -/
def type : Expression → StaticType
  | literal value => typeOfValue value
  | property _ p => .ofProperty p.type
  | hop _ _ _ inner => inner.type
  | item _ element => .primitive element
  | not _ => .boolean
  | negate operand => operand.type
  | binary op left right =>
    if op.isArithmetic then arithmeticType op left.type right.type else .boolean
  | oneOf _ _ => .boolean
  | call _ _ type => .primitive type
  | nonEmpty _ _ => .boolean
  | quantified _ _ _ _ _ => .boolean

/-- Whether an expression is the null literal. -/
def isNullLiteral : Expression → Bool
  | literal .null => true
  | _ => false

mutual

/-- Equality of expressions, where literals are equal as values are. -/
def same : Expression → Expression → Bool
  | literal a, literal b => a.same b
  | property s p, property t q => s == t && p == q
  | hop s n t x, hop s' n' t' y => s == s' && n == n' && t == t' && x.same y
  | item a s, item b t => a == b && s == t
  | not x, not y => x.same y
  | negate x, negate y => x.same y
  | binary o l r, binary o' l' r' => o == o' && l.same l' && r.same r'
  | oneOf x items, oneOf y items' => x.same y && sameList items items'
  | call f args t, call f' args' t' => f == f' && sameList args args' && t == t'
  | nonEmpty s m, nonEmpty s' m' => s == s' && m == m'
  | quantified s m q v p, quantified s' m' q' v' p' =>
    s == s' && m == m' && q == q' && v == v' && p.same p'
  | _, _ => false

/-- Equality of lists of expressions. -/
def sameList : List Expression → List Expression → Bool
  | [], [] => true
  | x :: xs, y :: ys => x.same y && sameList xs ys
  | _, _ => false

end

end Expression

end EdmQuery
