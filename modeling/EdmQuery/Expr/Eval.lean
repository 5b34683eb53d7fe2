import EdmQuery.Edm.Entity
import EdmQuery.Expr.Operation
import EdmQuery.Query.Error

/-! The values of expressions on entities, with three-valued logic and related entities at hand. -/

namespace EdmQuery

/-- What a lambda variable is bound to. -/
inductive Bound where
  | entity (e : Entity)
  | value (v : Value)

/-- The entities that member paths start from. -/
structure Standpoint where
  root : Entity
  current : Entity
  locals : List (String × Bound)

/-- An outcome that is known without any effect. -/
def settled {m : Type → Type} [Monad m] {α : Type} (r : Except RequestError α) :
    ExceptT RequestError m α :=
  ExceptT.mk (pure r)

/-- How related entities are found: those of a set that a navigation property leads to. -/
abbrev Lookup (m : Type → Type) :=
  String → Navigation → Entity → ExceptT RequestError m (List Entity)

namespace Standpoint

/-- The standpoint of an entity on its own. -/
def ofEntity (e : Entity) : Standpoint :=
  ⟨e, e, []⟩

/-- The entity that a scope names. -/
def entity (s : Standpoint) : Scope → Except RequestError Entity
  | .root => .ok s.root
  | .current => .ok s.current
  | .bound name =>
    match s.locals.lookup name with
    | some (.entity e) => .ok e
    | _ => .error (.unboundVariable name)

/-- The value that a variable stands for. -/
def value (s : Standpoint) (name : String) : Except RequestError Value :=
  match s.locals.lookup name with
  | some (.value v) => .ok v
  | _ => .error (.unboundVariable name)

/-- The standpoint inside a quantifier. -/
def bind (s : Standpoint) (name : String) (b : Bound) : Standpoint :=
  { s with locals := (name, b) :: s.locals }

end Standpoint

/-- The values of the items in a collection property. -/
def itemsOf (e : Entity) (p : Property) : List Value :=
  match e.get? p.name with
  | some (.collection items) => items.map .ofItem
  | _ => []

/-- Whether a quantifier holds, from the outcome for each member. -/
def Quantifier.holds : Quantifier → List Bool → Bool
  | .any, outcomes => outcomes.any id
  | .all, outcomes => outcomes.all id

namespace Expression

variable {m : Type → Type} [Monad m]

/-- What a quantifier ranges over. -/
def members (lookup : Lookup m) (e : Entity) : Source → ExceptT RequestError m (List Bound)
  | .related navigation target => do
    let found ← lookup target navigation e
    return found.map .entity
  | .items p => return (itemsOf e p).map .value

mutual

/-- The value of an expression. -/
def eval (lookup : Lookup m) (s : Standpoint) : Expression → ExceptT RequestError m Value
  | literal value => return value
  | property scope p => do
    let e ← settled (s.entity scope)
    return e.get p.name
  | hop scope navigation target inner => do
    let e ← settled (s.entity scope)
    match ← lookup target navigation e with
    | [] => return .null
    | found :: _ => inner.eval lookup { s with current := found }
  | item name _ => settled (s.value name)
  | not operand => return (← operand.eval lookup s).denied
  | negate operand => return (← operand.eval lookup s).negated
  | binary op left right =>
    match op with
    | .and => do
      let l := (← left.eval lookup s).truth?
      -- The right operand is left alone when the left one decides.
      if l == some false then return .boolean false
      let r := (← right.eval lookup s).truth?
      return .ofTruth (both l r)
    | .or => do
      let l := (← left.eval lookup s).truth?
      if l == some true then return .boolean true
      let r := (← right.eval lookup s).truth?
      return .ofTruth (either l r)
    | op =>
      if op.isEquality && left.isNullLiteral then do
        return .boolean ((← right.eval lookup s).isNull == (op == .eq))
      else if op.isEquality && right.isNullLiteral then do
        return .boolean ((← left.eval lookup s).isNull == (op == .eq))
      else do
        let l ← left.eval lookup s
        let r ← right.eval lookup s
        return op.apply l r
  | oneOf operand items => do
    let wanted ← operand.eval lookup s
    if wanted.isNull then return .null
    evalAmong lookup s wanted false items
  | call function arguments _ => do
    let values ← evalList lookup s arguments
    return function.evaluate values
  | nonEmpty scope source => do
    let e ← settled (s.entity scope)
    return .boolean (!(← members lookup e source).isEmpty)
  | quantified scope source quantifier name predicate => do
    let e ← settled (s.entity scope)
    let outcomes ← (← members lookup e source).mapM fun b => do
      return (← predicate.eval lookup (s.bind name b)).truth? == some true
    return .boolean (quantifier.holds outcomes)

/-- Whether a value is among those of a list, unknown if it is not found and one of them is null. -/
def evalAmong (lookup : Lookup m) (s : Standpoint) (wanted : Value) (sawNull : Bool) :
    List Expression → ExceptT RequestError m Value
  | [] => return if sawNull then .null else .boolean false
  | x :: rest => do
    let candidate ← x.eval lookup s
    if candidate.isNull then evalAmong lookup s wanted true rest
    else if wanted.compare candidate == some .eq then return .boolean true
    else evalAmong lookup s wanted sawNull rest

/-- The values of several expressions. -/
def evalList (lookup : Lookup m) (s : Standpoint) :
    List Expression → ExceptT RequestError m (List Value)
  | [] => return []
  | x :: rest => do
    let value ← x.eval lookup s
    return value :: (← evalList lookup s rest)

end

/-- Whether an entity satisfies a filter, which it does for truth only. -/
def holdsOn (lookup : Lookup m) (e : Entity) (filter : Expression) :
    ExceptT RequestError m Bool := do
  return (← filter.eval lookup (.ofEntity e)).truth? == some true

end Expression

end EdmQuery
