import Mathlib
import EdmQuery.Expr.Operation
import EdmQuery.Sql.Term

/-! What SQL conditions mean on rows, with three-valued logic and selections inside of them. -/

namespace EdmQuery

/-- A row of a table, which has a value in every column; what SQL calls NULL is null. -/
abbrev SqlRow := String → Value

/-- The rows of tables by their names. -/
abbrev Tables := String → List SqlRow

/-- The value that a column holds for a value: an enumeration is stored as its number. -/
def Value.stored : Value → Value
  | .enum _ n => .integer n
  | value => value

namespace SqlTerm

/-- Conjunction: false when a side is false, and else unknown when a side is unknown. -/
def andTruth (a b : Option Bool) : Option Bool :=
  if a = some false ∨ b = some false then some false
  else if a = none ∨ b = none then none
  else some true

/-- Disjunction: true when a side is true, and else unknown when a side is unknown. -/
def orTruth (a b : Option Bool) : Option Bool :=
  if a = some true ∨ b = some true then some true
  else if a = none ∨ b = none then none
  else some false

/-- The truth that a value is, unknown when it is null; other values are none. -/
def truthOf : Value → Option (Option Bool)
  | .null => some none
  | .boolean b => some (some b)
  | _ => none

/-- The truth of a comparison, unknown when an operand is null. -/
def compared (op : BinaryOp) (a b : Value) : Option Bool :=
  if a.isNull || b.isNull then none else op.comparison (a.compare b)

/-- The value of a column in the innermost row that an alias names. -/
def columnIn (env : List (String × SqlRow)) (c : Column) : Option Value :=
  (env.lookup c.table).map (· c.name)

/-- The truth that a row of a nested selection belongs to the row around it. -/
def tied (env : List (String × SqlRow)) (source : Correlation) : Option (Option Bool) := do
  return compared .eq (← columnIn env source.column) (← columnIn env source.parent)

mutual

/--
The value of a term in the rows around it, the innermost first.

Terms that compute, call functions or test texts have none here, nor has a term that mistakes a
value for a truth or names a row or a parameter that is not there.
-/
def value (tables : Tables) (parameters : List Value) (env : List (String × SqlRow)) :
    SqlTerm → Option Value
  | null => some .null
  | number n => some (.integer (.ofInt n))
  | parameter index => if index = 0 then none else parameters[index - 1]?
  | column c => columnIn env c
  | not operand => do
    let truth ← truthOf (← operand.value tables parameters env)
    return .ofTruth (truth.map (!·))
  | nullTest operand isNull => do
    return .boolean ((← operand.value tables parameters env).isNull == isNull)
  | binary op left right => do
    let a ← left.value tables parameters env
    let b ← right.value tables parameters env
    match op with
    | .and => return .ofTruth (andTruth (← truthOf a) (← truthOf b))
    | .or => return .ofTruth (orTruth (← truthOf a) (← truthOf b))
    | .eq | .ne | .lt | .le | .gt | .ge => return .ofTruth (compared op a b)
    | _ => none
  | oneOf operand items => do
    let a ← operand.value tables parameters env
    let candidates ← values tables parameters env items
    return .ofTruth (candidates.foldr (fun b found => orTruth (compared .eq a b) found)
      (some false))
  | exists_ source => do
    let found ← (tables source.table).mapM fun row => tied ((source.tableAlias, row) :: env) source
    return .boolean (found.contains (some true))
  | existsWith source condition => do
    let found ← (tables source.table).mapM fun row => do
      let inner := (source.tableAlias, row) :: env
      let held ← truthOf (← condition.value tables parameters inner)
      return andTruth (← tied inner source) held
    return .boolean (found.contains (some true))
  | existsNoneWithout source condition => do
    let found ← (tables source.table).mapM fun row => do
      let inner := (source.tableAlias, row) :: env
      let held ← truthOf (← condition.value tables parameters inner)
      -- A condition that is unknown counts as false before it is denied.
      return andTruth (← tied inner source) (some (!held.getD false))
    return .boolean (!found.contains (some true))
  | _ => none

/-- The values of several terms. -/
def values (tables : Tables) (parameters : List Value) (env : List (String × SqlRow)) :
    List SqlTerm → Option (List Value)
  | [] => some []
  | x :: rest => do
    return (← x.value tables parameters env) :: (← values tables parameters env rest)

end

-- The equations of the recursion are made here, so that the proofs behind do not wait for them.
section

attribute [local simp] value values

end

/-- A value that stands for a truth is that truth. -/
theorem eq_ofTruth {value : Value} {truth : Option Bool} (stands : truthOf value = some truth) :
    value = .ofTruth truth := by
  rcases value with _ | s | _
  · cases stands
    rfl
  · cases s <;> cases stands
    rfl
  · cases stands

/-- Conjunction is that of filters. -/
theorem andTruth_eq_both (a b : Option Bool) : andTruth a b = both a b := by
  revert a b
  decide

/-- Disjunction is that of filters. -/
theorem orTruth_eq_either (a b : Option Bool) : orTruth a b = either a b := by
  revert a b
  decide

/-- A disjunction of several truths is true when one of them is. -/
theorem foldr_orTruth {α : Type} (truth : α → Option Bool) (list : List α) :
    list.foldr (fun a found => orTruth (truth a) found) (some false) =
      if list.any (truth · == some true) then some true
      else if list.any (truth · == none) then none
      else some false := by
  induction list with
  | nil => rfl
  | cons a rest ih =>
    rw [List.foldr_cons, ih, List.any_cons, List.any_cons]
    rcases truth a with _ | _ | _ <;>
      cases rest.any (truth · == some true) <;> cases rest.any (truth · == none) <;> rfl

end SqlTerm

end EdmQuery
