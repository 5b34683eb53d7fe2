import Mathlib
import EdmQuery.Proofs.Expr.Settled

/-! Predicates about one variable: what they name, and how they read about the root instead. -/

namespace EdmQuery

namespace Expression

/-- Induction over expressions, where each of several operands or arguments has its own hypothesis. -/
@[elab_as_elim]
theorem induction {motive : Expression → Prop} (literal : ∀ value, motive (.literal value))
    (property : ∀ scope p, motive (.property scope p))
    (hop : ∀ scope n target inner, motive inner → motive (.hop scope n target inner))
    (item : ∀ name element, motive (.item name element))
    (not : ∀ operand, motive operand → motive (.not operand))
    (negate : ∀ operand, motive operand → motive (.negate operand))
    (binary : ∀ op left right, motive left → motive right → motive (.binary op left right))
    (oneOf : ∀ operand items, motive operand → (∀ x ∈ items, motive x) →
      motive (.oneOf operand items))
    (call : ∀ f arguments type, (∀ x ∈ arguments, motive x) → motive (.call f arguments type))
    (nonEmpty : ∀ scope source, motive (.nonEmpty scope source))
    (quantified : ∀ scope source quantifier name predicate, motive predicate →
      motive (.quantified scope source quantifier name predicate)) (x : Expression) : motive x :=
  -- The recursor asks for a second motive, which is about lists of expressions.
  @Expression.rec motive (fun items => ∀ x ∈ items, motive x) literal property hop item not negate
    binary oneOf call nonEmpty quantified nofun
    (fun _ _ first others => List.forall_mem_cons.mpr ⟨first, others⟩) x

end Expression

/-- The scope with the root in the place of a variable. -/
def Scope.rescoped (v : String) : Scope → Scope
  | .bound name => if name = v then .root else .bound name
  | scope => scope

/-- Whether a scope is that of a variable or of one of some others, or where a path has led to. -/
def Scope.isOver (v : String) (own : List String) (moved : Bool) : Scope → Bool
  | .root => false
  | .current => moved
  | .bound name => name == v || own.contains name

namespace Expression

mutual

/-- The expression with the root in the place of a variable, also inside quantifiers. -/
def rescoped (v : String) : Expression → Expression
  | literal value => literal value
  | property scope p => property (scope.rescoped v) p
  | hop scope navigation target inner =>
    hop (scope.rescoped v) navigation target (inner.rescoped v)
  | item name element => item name element
  | not operand => not (operand.rescoped v)
  | negate operand => negate (operand.rescoped v)
  | binary op left right => binary op (left.rescoped v) (right.rescoped v)
  | oneOf operand items => oneOf (operand.rescoped v) (allRescoped v items)
  | call function arguments type => call function (allRescoped v arguments) type
  | nonEmpty scope source => nonEmpty (scope.rescoped v) source
  | quantified scope source quantifier name predicate =>
    quantified (scope.rescoped v) source quantifier name (predicate.rescoped v)

/-- Several expressions with the root in the place of a variable. -/
def allRescoped (v : String) : List Expression → List Expression
  | [] => []
  | x :: rest => x.rescoped v :: allRescoped v rest

end

mutual

/--
Whether an expression names nothing but a variable for an entity and the variables of its own
quantifiers, which have other names.

The entity that a path has led to may be named behind that path only.
-/
def isOver (v : String) (own : List String) (moved : Bool) : Expression → Bool
  | literal _ => true
  | property scope _ => scope.isOver v own moved
  | hop scope _ _ inner => scope.isOver v own moved && inner.isOver v own true
  | item name _ => own.contains name
  | not operand => operand.isOver v own moved
  | negate operand => operand.isOver v own moved
  | binary _ left right => left.isOver v own moved && right.isOver v own moved
  | oneOf operand items => operand.isOver v own moved && allOver v own moved items
  | call _ arguments _ => allOver v own moved arguments
  | nonEmpty scope _ => scope.isOver v own moved
  | quantified scope _ _ name predicate =>
    scope.isOver v own moved && name != v && predicate.isOver v (name :: own) moved

/-- Whether that holds for several expressions. -/
def allOver (v : String) (own : List String) (moved : Bool) : List Expression → Bool
  | [] => true
  | x :: rest => x.isOver v own moved && allOver v own moved rest

end

/-- Null literals name no variable. -/
@[simp] theorem isNullLiteral_rescoped (v : String) (x : Expression) :
    (x.rescoped v).isNullLiteral = x.isNullLiteral := by
  cases x <;> rfl

end Expression

/--
Two standpoints that differ in how they have an entity: as a variable, or as the root.

They agree on other variables and, once a path has led somewhere, on where that is.
-/
structure Standpoint.Rescopes (v : String) (own : List String) (moved : Bool) (s s' : Standpoint) :
    Prop where
  outer : s.locals.lookup v = some (.entity s'.root)
  own : ∀ name ∈ own, name ≠ v ∧ s.locals.lookup name = s'.locals.lookup name
  current : moved = true → s.current = s'.current

namespace Standpoint.Rescopes

variable {v : String} {own : List String} {moved : Bool} {s s' : Standpoint}

/-- An entity that is bound to the only variable stands for the same as on its own. -/
theorem start (s : Standpoint) (v : String) (e : Entity) :
    (s.bind v (.entity e)).Rescopes v [] false (.ofEntity e) where
  outer := List.lookup_cons_self
  own := nofun
  current := nofun

/-- Paths lead both standpoints to the same place. -/
theorem follow (rescopes : s.Rescopes v own moved s') (e : Entity) :
    { s with current := e }.Rescopes v own true { s' with current := e } where
  outer := rescopes.outer
  own := rescopes.own
  current := fun _ => rfl

/-- A variable of another name is bound alike. -/
theorem bind (rescopes : s.Rescopes v own moved s') {name : String} (other : name ≠ v) (b : Bound) :
    (s.bind name b).Rescopes v (name :: own) moved (s'.bind name b) where
  outer := by
    rw [Standpoint.bind, List.lookup_cons, beq_eq_false_iff_ne.mpr (Ne.symm other)]
    exact rescopes.outer
  own := by
    intro known mem
    by_cases same : known = name
    · subst same
      exact ⟨other, by simp [Standpoint.bind]⟩
    · -- The variables bound before are found behind the new one.
      obtain ⟨apart, agree⟩ := rescopes.own known ((List.mem_cons.mp mem).resolve_left same)
      exact ⟨apart, by simp [Standpoint.bind, List.lookup_cons, beq_eq_false_iff_ne.mpr same, agree]⟩
  current := rescopes.current

/-- A scope and its rescoped form name the same entity. -/
theorem entity_eq (rescopes : s.Rescopes v own moved s') {scope : Scope}
    (within : scope.isOver v own moved = true) :
    s'.entity (scope.rescoped v) = s.entity scope := by
  cases scope with
  | root => cases within
  | current => exact congrArg Except.ok (rescopes.current within).symm
  | bound name =>
    by_cases same : name = v
    · subst same
      simp only [Scope.rescoped, if_true, Standpoint.entity, rescopes.outer]
    · have mem : name ∈ own := by simpa [Scope.isOver, same] using within
      simp only [Scope.rescoped, same, if_false, Standpoint.entity, (rescopes.own name mem).2]

end Standpoint.Rescopes

namespace Expression

variable {m : Type → Type} [Monad m] {lookup : Lookup m} {v : String}
  {own : List String} {moved : Bool} {s s' : Standpoint}

/-- Alternatives that have the same values elsewhere are searched with the same outcome. -/
theorem evalAmong_rescoped {items : List Expression}
    (each : ∀ x ∈ items, x.isOver v own moved = true →
      (x.rescoped v).eval lookup s' = x.eval lookup s)
    (within : allOver v own moved items = true) (wanted : Value) (sawNull : Bool) :
    evalAmong lookup s' wanted sawNull (allRescoped v items)
      = evalAmong lookup s wanted sawNull items := by
  induction items generalizing sawNull with
  | nil => simp only [allRescoped, evalAmong]
  | cons x rest ih =>
    simp only [allOver, Bool.and_eq_true] at within
    obtain ⟨first, others⟩ := List.forall_mem_cons.mp each
    simp only [allRescoped, evalAmong, first within.1, ih others within.2]

/-- Arguments that have the same values elsewhere are evaluated with the same outcome. -/
theorem evalList_rescoped {items : List Expression}
    (each : ∀ x ∈ items, x.isOver v own moved = true →
      (x.rescoped v).eval lookup s' = x.eval lookup s)
    (within : allOver v own moved items = true) :
    evalList lookup s' (allRescoped v items) = evalList lookup s items := by
  induction items with
  | nil => simp only [allRescoped, evalList]
  | cons x rest ih =>
    simp only [allOver, Bool.and_eq_true] at within
    obtain ⟨first, others⟩ := List.forall_mem_cons.mp each
    simp only [allRescoped, evalList, first within.1, ih others within.2]

/-- An expression about a variable has the value that it has, rescoped, on the entity itself. -/
theorem eval_rescoped (x : Expression) (within : x.isOver v own moved = true)
    (rescopes : s.Rescopes v own moved s') :
    (x.rescoped v).eval lookup s' = x.eval lookup s := by
  -- The induction keeps both standpoints general, since quantifiers and paths change them.
  induction x using Expression.induction generalizing own moved s s' with
  | literal value => simp only [rescoped, eval]
  | property scope p => simp only [rescoped, eval, rescopes.entity_eq within]
  | hop scope n target inner ih =>
    simp only [isOver, Bool.and_eq_true] at within
    have onward (e : Entity) : (inner.rescoped v).eval lookup { s' with current := e }
        = inner.eval lookup { s with current := e } := ih within.2 (rescopes.follow e)
    simp only [rescoped, eval, rescopes.entity_eq within.1, onward]
  | item name element =>
    have mem : name ∈ own := by simpa [isOver] using within
    simp only [rescoped, eval, Standpoint.value, (rescopes.own name mem).2]
  | not operand ih => simp only [rescoped, eval, ih within rescopes]
  | negate operand ih => simp only [rescoped, eval, ih within rescopes]
  | binary op left right ihLeft ihRight =>
    simp only [isOver, Bool.and_eq_true] at within
    have first := ihLeft within.1 rescopes
    have second := ihRight within.2 rescopes
    rw [rescoped]
    unfold eval
    simp only [isNullLiteral_rescoped, first, second]
  | oneOf operand items ih ihItems =>
    simp only [isOver, Bool.and_eq_true] at within
    have among := evalAmong_rescoped (fun x mem part => ihItems x mem part rescopes) within.2
    simp only [rescoped, eval, ih within.1 rescopes, among]
  | call f arguments type ihItems =>
    have all := evalList_rescoped (fun x mem part => ihItems x mem part rescopes) within
    simp only [rescoped, eval, all]
  | nonEmpty scope source => simp only [rescoped, eval, rescopes.entity_eq within]
  | quantified scope source quantifier name predicate ih =>
    simp only [isOver, Bool.and_eq_true, bne_iff_ne, ne_eq] at within
    have inside (b : Bound) : (predicate.rescoped v).eval lookup (s'.bind name b)
        = predicate.eval lookup (s.bind name b) := ih within.2 (rescopes.bind within.1.2 b)
    simp only [rescoped, eval, rescopes.entity_eq within.1.1, inside]

end Expression

end EdmQuery
