import Mathlib
import EdmQuery.Expr.Tree
import EdmQuery.Proofs.Expr.Scoping

/-! Trees that are alike but for their literals. -/

namespace EdmQuery

/-- Equality of values under which a NaN is like itself. -/
def Value.alike (a b : Value) : Bool :=
  a.same b || a == b

/-- A value is like itself. -/
theorem Value.alike_refl (a : Value) : a.alike a = true := by
  rw [alike, beq_self_eq_true, Bool.or_true]

namespace Expression

mutual

/-- The literals of an expression, from left to right. -/
@[simp] def literals : Expression → List Value
  | literal value => [value]
  | hop _ _ _ inner => inner.literals
  | not operand => operand.literals
  | negate operand => operand.literals
  | binary _ left right => left.literals ++ right.literals
  | oneOf operand items => operand.literals ++ allLiterals items
  | call _ arguments _ => allLiterals arguments
  | quantified _ _ _ _ predicate => predicate.literals
  | _ => []

/-- The literals of several expressions, from left to right. -/
@[simp] def allLiterals : List Expression → List Value
  | [] => []
  | x :: rest => x.literals ++ allLiterals rest

end

mutual

/-- Equality of expressions under which a NaN is like itself. -/
def alike : Expression → Expression → Bool
  | literal a, literal b => a.alike b
  | property s p, property t q => s == t && p == q
  | hop s n t x, hop s' n' t' y => s == s' && n == n' && t == t' && x.alike y
  | item a s, item b t => a == b && s == t
  | not x, not y => x.alike y
  | negate x, negate y => x.alike y
  | binary o l r, binary o' l' r' => o == o' && l.alike l' && r.alike r'
  | oneOf x items, oneOf y items' => x.alike y && allAlike items items'
  | call f args t, call f' args' t' => f == f' && allAlike args args' && t == t'
  | nonEmpty s m, nonEmpty s' m' => s == s' && m == m'
  | quantified s m q v p, quantified s' m' q' v' p' =>
    s == s' && m == m' && q == q' && v == v' && p.alike p'
  | _, _ => false

/-- Equality of lists of expressions under which a NaN is like itself. -/
def allAlike : List Expression → List Expression → Bool
  | [], [] => true
  | x :: xs, y :: ys => x.alike y && allAlike xs ys
  | _, _ => false

end

mutual

/-- The expression with other values for its literals. -/
def withLiterals (f : Value → Value) : Expression → Expression
  | literal value => literal (f value)
  | property scope p => property scope p
  | hop scope navigation target inner => hop scope navigation target (inner.withLiterals f)
  | item name element => item name element
  | not operand => not (operand.withLiterals f)
  | negate operand => negate (operand.withLiterals f)
  | binary op left right => binary op (left.withLiterals f) (right.withLiterals f)
  | oneOf operand items => oneOf (operand.withLiterals f) (allWithLiterals f items)
  | call function arguments type => call function (allWithLiterals f arguments) type
  | nonEmpty scope source => nonEmpty scope source
  | quantified scope source quantifier name predicate =>
    quantified scope source quantifier name (predicate.withLiterals f)

/-- Several expressions with other values for their literals. -/
def allWithLiterals (f : Value → Value) : List Expression → List Expression
  | [] => []
  | x :: rest => x.withLiterals f :: allWithLiterals f rest

end

section

variable {f : Value → Value}

/-- Several expressions get other literals one by one. -/
theorem allWithLiterals_eq (items : List Expression) :
    allWithLiterals f items = items.map (·.withLiterals f) := by
  induction items with
  | nil => rfl
  | cons x rest ih => rw [allWithLiterals, List.map_cons, ih]

/-- Types stay where each literal keeps its own. -/
theorem type_withLiterals (kept : ∀ value, typeOfValue (f value) = typeOfValue value)
    (x : Expression) : (x.withLiterals f).type = x.type := by
  induction x using Expression.induction with
  | literal value => exact kept value
  | hop _ _ _ _ ih => exact ih
  | negate _ ih => exact ih
  | binary op left right ihLeft ihRight => simp only [withLiterals, type, ihLeft, ihRight]
  | _ => rfl

/-- The literals of one of several expressions are among those of all. -/
theorem literals_subset {x : Expression} {items : List Expression} (mem : x ∈ items) :
    x.literals ⊆ allLiterals items := by
  induction items with
  | nil => cases mem
  | cons y rest ih =>
    rw [allLiterals]
    rcases List.mem_cons.mp mem with rfl | mem
    · exact List.subset_append_left _ _
    · exact List.subset_append_of_subset_right _ (ih mem)

/-- An expression whose literals stay is the same. -/
theorem withLiterals_eq {x : Expression} (kept : ∀ value ∈ x.literals, f value = value) :
    x.withLiterals f = x := by
  have all {items : List Expression} (kept : ∀ value ∈ allLiterals items, f value = value)
      (each : ∀ x ∈ items, (∀ value ∈ x.literals, f value = value) → x.withLiterals f = x) :
      allWithLiterals f items = items := by
    have same : ∀ x ∈ items, x.withLiterals f = x := fun x mem =>
      each x mem fun value among => kept value (literals_subset mem among)
    rw [allWithLiterals_eq, List.map_congr_left same, List.map_id']
  induction x using Expression.induction with
  | literal value => rw [withLiterals, kept value (by simp)]
  | hop scope n target inner ih => rw [withLiterals, ih kept]
  | not operand ih => rw [withLiterals, ih kept]
  | negate operand ih => rw [withLiterals, ih kept]
  | binary op left right ihLeft ihRight =>
    simp only [literals, List.forall_mem_append] at kept
    rw [withLiterals, ihLeft kept.1, ihRight kept.2]
  | oneOf operand items ih ihItems =>
    simp only [literals, List.forall_mem_append] at kept
    rw [withLiterals, ih kept.1, all kept.2 ihItems]
  | call function arguments type ihItems => rw [withLiterals, all kept ihItems]
  | quantified scope source quantifier name predicate ih => rw [withLiterals, ih kept]
  | _ => rfl

/-- An expression is like the one whose literals are like its own. -/
theorem alike_withLiterals (close : ∀ value : Value, value.alike (f value) = true) (x : Expression) :
    x.alike (x.withLiterals f) = true := by
  have all {items : List Expression} (each : ∀ x ∈ items, x.alike (x.withLiterals f) = true) :
      allAlike items (allWithLiterals f items) = true := by
    induction items with
    | nil => rfl
    | cons x rest ih =>
      obtain ⟨first, others⟩ := List.forall_mem_cons.mp each
      rw [allWithLiterals, allAlike, first, ih others, Bool.and_self]
  induction x using Expression.induction with
  | literal value => exact close value
  | hop scope n target inner ih => simp only [withLiterals, alike, beq_self_eq_true, ih, Bool.and_self]
  | not operand ih => exact ih
  | negate operand ih => exact ih
  | binary op left right ihLeft ihRight =>
    simp only [withLiterals, alike, beq_self_eq_true, ihLeft, ihRight, Bool.and_self]
  | oneOf operand items ih ihItems => simp only [withLiterals, alike, ih, all ihItems, Bool.and_self]
  | call function arguments type ihItems =>
    simp only [withLiterals, alike, beq_self_eq_true, all ihItems, Bool.and_self]
  | quantified scope source quantifier name predicate ih =>
    simp only [withLiterals, alike, beq_self_eq_true, ih, Bool.and_self]
  | _ => simp only [withLiterals, alike, beq_self_eq_true, Bool.and_self]

end

end Expression

end EdmQuery
