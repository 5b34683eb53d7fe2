import Mathlib
import EdmQuery.Proofs.Expr.Scoping
import EdmQuery.Proofs.Sql.Condition
import EdmQuery.Proofs.Sql.References
import EdmQuery.Sql.Statement

/-! Failing attempts leave nothing behind in a statement, however deep inside they fail. -/

namespace EdmQuery

section

variable {α β : Type}

/--
A step between numbers of open quantifiers that only adds to what a statement has gathered.

A step that fails only adds as well, but it may leave any number of quantifiers open.
-/
def Compile.Gathers (opened closed : Nat) (step : Compile α) : Prop :=
  ∀ b, b.depth = opened →
    b.parameters <+: (step.run b).2.parameters ∧ b.joins <+: (step.run b).2.joins ∧
      ∀ a, (step.run b).1 = .ok a → (step.run b).2.depth = closed

namespace Compile.Gathers

variable {d e f : Nat} {step : Compile α}

/-- A step that leaves what has been gathered alone adds nothing to it. -/
theorem of_unchanged (unchanged : ∀ b, (step.run b).2 = b) : Gathers d d step := by
  intro b depth
  rw [unchanged b]
  exact ⟨List.prefix_refl _, List.prefix_refl _, fun _ _ => depth⟩

/-- A value that is returned adds nothing. -/
protected theorem pure (a : α) : Gathers d d (Pure.pure a) :=
  of_unchanged fun _ => rfl

/-- An outcome that is known beforehand adds nothing. -/
theorem known (r : Except SqlError α) : Gathers d d (EdmQuery.known r) :=
  of_unchanged fun _ => rfl

/-- A refusal adds nothing. -/
theorem refused (reason : String) : Gathers d d (unsupported reason : Compile α) :=
  of_unchanged fun _ => rfl

/-- Looking at what has been gathered adds nothing. -/
theorem looked : Gathers d d (get : Compile Builder) :=
  of_unchanged fun _ => rfl

/-- Two steps only add when both do, whether the first one fails or not. -/
theorem bind {next : α → Compile β} (first : Gathers d e step)
    (second : ∀ a, Gathers e f (next a)) : Gathers d f (step >>= next) := by
  intro b depth
  obtain ⟨parameters, joins, closed⟩ := first b depth
  rw [run_bind]
  rcases found : step.run b with ⟨fault | a, between⟩
  · rw [found] at parameters joins
    exact ⟨parameters, joins, nofun⟩
  · rw [found] at parameters joins closed
    obtain ⟨more, moreJoins, balanced⟩ := second a between (closed a rfl)
    exact ⟨parameters.trans more, joins.trans moreJoins, balanced⟩

/-- A step that is refused under some condition only adds when it does so otherwise. -/
theorem guarded {p : Prop} [Decidable p] {reason : String} {next : Unit → Compile β}
    (first : Gathers d e (next ())) :
    Gathers d e (if p then unsupported reason >>= next else next ()) := by
  split
  · intro b depth
    exact ⟨List.prefix_refl _, List.prefix_refl _, nofun⟩
  · exact first

/-- A parameter is added behind those that are there. -/
theorem bindValue (value : Value) : Gathers d d (EdmQuery.bindValue value) := by
  intro b depth
  exact ⟨List.prefix_append _ _, List.prefix_refl _, fun _ _ => depth⟩

/-- The term of a literal adds its value or nothing. -/
theorem literalTerm (value : Value) : Gathers d d (EdmQuery.literalTerm value) := by
  rcases value with _ | s | _
  · exact .pure _
  · cases s with
    | enum => exact .pure _
    | _ => exact .bindValue _
  · exact .refused _

/-- One more quantifier is open behind the start of one. -/
theorem openQuantifier : Gathers d (d + 1) EdmQuery.openQuantifier := by
  intro b depth
  exact ⟨List.prefix_refl _, List.prefix_refl _, fun _ _ => congrArg (· + 1) depth⟩

/-- One less is open behind its end. -/
theorem closeQuantifier : Gathers (d + 1) d EdmQuery.closeQuantifier := by
  intro b depth
  exact ⟨List.prefix_refl _, List.prefix_refl _, fun _ _ => congrArg (· - 1) depth⟩

end Compile.Gathers

end

open Compile

section

variable {ctx : SqlContext}

namespace Expression

/-- Several expressions only add when each of them does. -/
theorem terms_gathers {d : Nat} {locals : List (String × TableFrame)} {current : TableFrame}
    {items : List Expression} (each : ∀ x ∈ items, Gathers d d (x.term ctx locals current)) :
    Gathers d d (terms ctx locals current items) := by
  induction items with
  | nil => exact .pure _
  | cons x rest ih =>
    obtain ⟨first, others⟩ := List.forall_mem_cons.mp each
    rw [terms]
    exact .bind first fun _ => .bind (ih others) fun _ => .pure _

/-- An expression only adds to a statement, and it closes the quantifiers that it opens. -/
theorem term_gathers (x : Expression) (d : Nat) (locals : List (String × TableFrame))
    (current : TableFrame) : Gathers d d (x.term ctx locals current) := by
  -- The number of open quantifiers stays general, since predicates stand inside one more.
  induction x using Expression.induction generalizing d locals current with
  | literal value =>
    rw [term]
    exact .literalTerm value
  | property scope p =>
    rw [term]
    split
    · exact .bind (.pure _) fun _ => .pure _
    · exact .bind (.known _) fun _ => .pure _
  | hop scope n target inner ih =>
    rw [term]
    have joined (parent : Option String) : Gathers d d (do
        let table ← EdmQuery.known (ctx.resolve.table target)
        inner.term ctx locals ⟨joinAlias parent n.name, table.type⟩) :=
      .bind (.known _) fun _ => ih d locals _
    refine .bind .looked fun b => ?_
    cases scope with
    | root => exact .guarded (.bind (.pure _) joined)
    | current => exact .guarded (.bind (.pure _) joined)
    | bound name => exact .guarded (.bind (.refused _) joined)
  | item name element =>
    rw [term]
    exact .refused _
  | not operand ih =>
    rw [term]
    exact .bind (ih d locals current) fun _ => .pure _
  | negate operand ih =>
    rw [term]
    split
    · exact .refused _
    · exact .bind (ih d locals current) fun _ => .pure _
  | binary op left right ihLeft ihRight =>
    have first := ihLeft d locals current
    have second := ihRight d locals current
    rw [term]
    split
    · exact .bind second fun _ => .pure _
    split
    · exact .bind first fun _ => .pure _
    split
    · exact .refused _
    · refine .bind first fun _ => .bind second fun _ => ?_
      split
      · exact .pure _
      · exact .pure _
  | oneOf operand items ih ihItems =>
    rw [term]
    exact .bind (ih d locals current) fun _ =>
      .bind (terms_gathers fun x mem => ihItems x mem d locals current) fun _ => .pure _
  | call f arguments type ihItems =>
    rw [term]
    exact .bind (.known _) fun _ =>
      .bind (terms_gathers fun x mem => ihItems x mem d locals current) fun _ => .pure _
  | nonEmpty scope source =>
    rw [term]
    refine .bind (.known _) fun _ => .bind (.known _) fun _ => .bind (.known _) fun _ => ?_
    exact .bind .openQuantifier fun _ => .bind .closeQuantifier fun _ => .pure _
  | quantified scope source quantifier name predicate ih =>
    rw [term]
    refine .bind (.known _) fun _ => .bind (.known _) fun _ => .bind (.known _) fun _ => ?_
    refine .bind .openQuantifier fun _ => .bind (ih (d + 1) _ _) fun _ => ?_
    refine .bind .closeQuantifier fun _ => ?_
    cases quantifier with
    | any => exact .pure _
    | all => exact .pure _

end Expression

/-- Joins are added behind those that are there. -/
theorem prefix_addJoins (found joins : List Join) : found <+: addJoins found joins := by
  induction joins generalizing found with
  | nil => exact List.prefix_refl _
  | cons j rest ih =>
    rw [addJoins]
    split
    · exact ih found
    · exact (List.prefix_append _ _).trans (ih _)

/-- A filter only adds to a statement, its joins first. -/
theorem compileFilter_gathers (x : Expression) (d : Nat) : Gathers d d (compileFilter ctx x) := by
  refine .bind (.known _) fun joins => .bind (fun b depth => ?_) fun _ =>
    x.term_gathers d [] ctx.rootFrame
  exact ⟨List.prefix_refl _, prefix_addJoins _ _, fun _ _ => depth⟩

/-- The tests of columns only add their parameters. -/
theorem textTests_gathers (caseSensitive : Bool) (text : String) (columns : List Column)
    (d : Nat) : Gathers d d (textTests caseSensitive text columns) := by
  induction columns with
  | nil => exact .pure _
  | cons column rest ih =>
    intro b depth
    -- The value for the first column is there before the others are looked at.
    let next : Builder := { b with parameters := b.parameters ++ [searchValue caseSensitive text] }
    have others : Gathers d d (do
        let tests ← textTests caseSensitive text rest
        return (⟨column, b.parameters.length + 1, caseSensitive⟩ : TextTest) :: tests) :=
      .bind ih fun _ => .pure _
    obtain ⟨parameters, joins, closed⟩ := others next depth
    exact ⟨(List.prefix_append _ _).trans parameters, joins, closed⟩

/-- A search only adds its parameters. -/
theorem compileSearch_gathers (caseSensitive : Bool) (x : Search) (d : Nat) :
    Gathers d d (compileSearch ctx caseSensitive x) := by
  induction x with
  | term text => exact .bind (textTests_gathers _ _ _ d) fun _ => .pure _
  | and left right ihLeft ihRight => exact .bind ihLeft fun _ => .bind ihRight fun _ => .pure _
  | or left right ihLeft ihRight => exact .bind ihLeft fun _ => .bind ihRight fun _ => .pure _
  | not operand ih => exact .bind ih fun _ => .pure _

end

/-- What a statement has gathered, with the variables of the open quantifiers on a stack. -/
structure Workspace where
  builder : Builder
  locals : List (String × TableFrame)

/-- A step on a statement that finds the tables of variables on the stack. -/
abbrev Working (α : Type) := ExceptT SqlError (StateM Workspace) α

/-- Steps that look at no variables leave the stack alone. -/
instance : MonadLift Compile Working where
  monadLift step := ExceptT.mk fun w =>
    let (outcome, after) := step.run w.builder
    (outcome, ⟨after, w.locals⟩)

namespace Working

variable {α β : Type}

/-- The table of a scope, where variables are looked for on the stack. -/
def frame (ctx : SqlContext) (scope : Scope) : Working TableFrame :=
  ExceptT.mk fun w => (ctx.frame w.locals scope, w)

/-- A step with one more variable on the stack, which is taken off again even if the step fails. -/
def inside (name : String) (frame : TableFrame) (step : Working α) : Working α :=
  ExceptT.mk fun w =>
    let (outcome, after) := step.run ⟨w.builder, (name, frame) :: w.locals⟩
    (outcome, ⟨after.builder, after.locals.tail⟩)

/-- A step that leaves nothing behind when it fails, the stack included. -/
def attempt (step : Working α) : Working α :=
  ExceptT.mk fun w =>
    match step.run w with
    | (.ok a, after) => (.ok a, after)
    | (.error e, after) =>
      let parameters := after.builder.parameters.take w.builder.parameters.length
      let joins := after.builder.joins.take w.builder.joins.length
      (.error e, ⟨⟨parameters, joins, 0⟩, []⟩)

end Working

namespace Expression

mutual

/-- The term of an expression, with the variables around it on the stack. -/
def stackTerm (ctx : SqlContext) (current : TableFrame) : Expression → Working SqlTerm
  | literal value => literalTerm value
  | property scope p => do
    let frame ← if scope == .current then pure current else Working.frame ctx scope
    return .column ⟨frame.tableAlias, p.column⟩
  | hop scope navigation target inner => do
    if 0 < (← get).depth then
      unsupported (α := Unit) s!"navigation `{navigation.name}` inside a lambda"
    let parent ← match scope with
      | .root => pure none
      | .current => pure (some current.tableAlias)
      | .bound _ => unsupported (α := Option String) "navigation from a lambda variable"
    let table ← known (ctx.resolve.table target)
    inner.stackTerm ctx ⟨joinAlias parent navigation.name, table.type⟩
  | item name _ => unsupported (α := SqlTerm) s!"primitive lambda variable `{name}`"
  | not operand => return .not (← operand.stackTerm ctx current)
  | negate operand =>
    if isDuration operand then unsupported (α := SqlTerm) "arithmetic on Edm.Duration"
    else return .negate (← operand.stackTerm ctx current)
  | binary op left right =>
    if op.isEquality && left.isNullLiteral then
      return .nullTest (← right.stackTerm ctx current) (op == .eq)
    else if op.isEquality && right.isNullLiteral then
      return .nullTest (← left.stackTerm ctx current) (op == .eq)
    else if !op.isLogical && !op.isEquality && (isDuration left || isDuration right) then
      unsupported (α := SqlTerm) s!"{op.title} on Edm.Duration"
    else do
      let l ← left.stackTerm ctx current
      let r ← right.stackTerm ctx current
      if op == .div && isIntegral left && isIntegral right then return .integerQuotient l r
      else return .binary op l r
  | oneOf operand items => do
    let x ← operand.stackTerm ctx current
    return .oneOf x (← stackTerms ctx current items)
  | call function arguments _ => do
    let template ← known (templateFor ctx.dialect function arguments.length)
    return .call template (← stackTerms ctx current arguments)
  | nonEmpty scope source => do
    let (navigation, target) ← known (relatedSource source)
    let parent ← Working.frame ctx scope
    let (table, column, related) ← known (correlate ctx parent navigation target)
    let name := "$any" ++ toString (← openQuantifier)
    closeQuantifier
    return .exists_ ⟨table.name, name, ⟨name, column⟩, related⟩
  | quantified scope source quantifier name predicate => do
    let (navigation, target) ← known (relatedSource source)
    let parent ← Working.frame ctx scope
    let (table, column, related) ← known (correlate ctx parent navigation target)
    let _ ← openQuantifier
    let frame : TableFrame := ⟨name, table.type⟩
    let condition ← Working.inside name frame (predicate.stackTerm ctx frame)
    closeQuantifier
    let correlation : Correlation := ⟨table.name, name, ⟨name, column⟩, related⟩
    match quantifier with
    | .any => return .existsWith correlation condition
    | .all => return .existsNoneWithout correlation condition

/-- The terms of several expressions, with the variables around them on the stack. -/
def stackTerms (ctx : SqlContext) (current : TableFrame) :
    List Expression → Working (List SqlTerm)
  | [] => return []
  | x :: rest => do
    let t ← x.stackTerm ctx current
    return t :: (← stackTerms ctx current rest)

end

end Expression

/--
A step with variables on the stack does what one does that is given the variables.

Whatever comes of it, the stack is afterwards as it was before.
-/
def Working.Follows {α : Type} (onStack : Working α)
    (given : List (String × TableFrame) → Compile α) : Prop :=
  ∀ b locals, onStack.run ⟨b, locals⟩ =
    (((given locals).run b).1, ⟨((given locals).run b).2, locals⟩)

namespace Working.Follows

variable {α β : Type} {onStack : Working α} {given : List (String × TableFrame) → Compile α}

/-- A value that is returned leaves the stack alone. -/
protected theorem pure (a : α) : Follows (Pure.pure a) fun _ => Pure.pure a :=
  fun _ _ => rfl

/-- So does a step that looks at no variables. -/
theorem lifted (step : Compile α) : Follows (liftM step) fun _ => step :=
  fun _ _ => rfl

/-- The table of a scope is looked for among the variables on the stack. -/
theorem frame (ctx : SqlContext) (scope : Scope) :
    Follows (Working.frame ctx scope) fun locals => known (ctx.frame locals scope) :=
  fun _ _ => rfl

/-- Two steps leave the stack as it was when both do, whether the first one fails or not. -/
theorem bind {nextOnStack : α → Working β} {next : α → List (String × TableFrame) → Compile β}
    (first : Follows onStack given) (second : ∀ a, Follows (nextOnStack a) (next a)) :
    Follows (onStack >>= nextOnStack) fun locals => given locals >>= fun a => next a locals := by
  intro b locals
  have split (w : Workspace) : (onStack >>= nextOnStack).run w =
      match onStack.run w with
      | (.ok a, after) => (nextOnStack a).run after
      | (.error fault, after) => (.error fault, after) := by
    simp only [ExceptT.run, Bind.bind, ExceptT.bind, ExceptT.mk, StateT.bind]
    rcases onStack w with ⟨_ | _, after⟩ <;> rfl
  rw [split, first b locals, run_bind]
  rcases (given locals).run b with ⟨fault | a, between⟩
  · rfl
  · exact second a between locals

/-- A step that a condition may refuse leaves the stack as it does where it is not refused. -/
theorem guarded {p : Prop} [Decidable p] {reason : String} {nextOnStack : Unit → Working β}
    {next : Unit → List (String × TableFrame) → Compile β}
    (first : Follows (nextOnStack ()) (next ())) :
    Follows (if p then liftM (unsupported reason : Compile Unit) >>= nextOnStack
      else nextOnStack ())
      fun locals => if p then unsupported reason >>= fun a => next a locals
        else next () locals := by
  split
  · exact fun _ _ => rfl
  · exact first

/-- A step inside a quantifier finds its variable first, and the variable is gone afterwards. -/
theorem inside (name : String) (frame : TableFrame) (first : Follows onStack given) :
    Follows (Working.inside name frame onStack) fun locals => given ((name, frame) :: locals) := by
  intro b locals
  have pushed := first b ((name, frame) :: locals)
  simp only [Working.inside, ExceptT.run_mk, pushed, List.tail_cons]

/-- An attempt that only adds to a statement without open quantifiers keeps the stack empty. -/
theorem attempt (first : Follows onStack given) (b : Builder) :
    (Working.attempt onStack).run ⟨b, []⟩ =
      (((EdmQuery.attempt (given [])).run b).1, ⟨((EdmQuery.attempt (given [])).run b).2, []⟩) := by
  have same := first b []
  simp only [Working.attempt, EdmQuery.attempt, ExceptT.run_mk, same]
  rcases (given []).run b with ⟨fault | a, after⟩
  · rfl
  · rfl

end Working.Follows

namespace Expression

variable {ctx : SqlContext}

/-- Several terms are compiled on the stack as each of them is. -/
theorem stackTerms_follows {current : TableFrame} {items : List Expression}
    (each : ∀ x ∈ items, Working.Follows (x.stackTerm ctx current)
      fun locals => x.term ctx locals current) :
    Working.Follows (stackTerms ctx current items)
      fun locals => terms ctx locals current items := by
  induction items with
  | nil =>
    simp only [stackTerms, terms]
    exact .pure _
  | cons x rest ih =>
    obtain ⟨first, others⟩ := List.forall_mem_cons.mp each
    simp only [stackTerms, terms]
    exact .bind first fun _ => .bind (ih others) fun _ => .pure _

/--
A term is compiled on the stack as it is with the variables given.

So variables that are passed on are those on a stack that grows and shrinks with the quantifiers.
-/
theorem stackTerm_follows (x : Expression) (current : TableFrame) :
    Working.Follows (x.stackTerm ctx current) fun locals => x.term ctx locals current := by
  induction x using Expression.induction generalizing current with
  | literal value =>
    simp only [stackTerm, term]
    exact .lifted _
  | property scope p =>
    simp only [stackTerm, term]
    split
    · exact .bind (.pure _) fun _ => .pure _
    · exact .bind (.frame ctx scope) fun _ => .pure _
  | hop scope n target inner ih =>
    simp only [stackTerm, term]
    have joined (parent : Option String) : Working.Follows (do
          let table ← known (ctx.resolve.table target)
          inner.stackTerm ctx ⟨joinAlias parent n.name, table.type⟩)
        fun locals => (do
          let table ← known (ctx.resolve.table target)
          inner.term ctx locals ⟨joinAlias parent n.name, table.type⟩) :=
      .bind (.lifted _) fun _ => ih _
    refine .bind (.lifted get) fun b => ?_
    cases scope with
    | root => exact .guarded (.bind (.pure _) joined)
    | current => exact .guarded (.bind (.pure _) joined)
    | bound name => exact .guarded (.bind (.lifted _) joined)
  | item name element =>
    simp only [stackTerm, term]
    exact .lifted _
  | not operand ih =>
    simp only [stackTerm, term]
    exact .bind (ih current) fun _ => .pure _
  | negate operand ih =>
    simp only [stackTerm, term]
    split
    · exact .lifted _
    · exact .bind (ih current) fun _ => .pure _
  | binary op left right ihLeft ihRight =>
    have first := ihLeft current
    have second := ihRight current
    simp only [stackTerm, term]
    split
    · exact .bind second fun _ => .pure _
    split
    · exact .bind first fun _ => .pure _
    split
    · exact .lifted _
    · refine .bind first fun _ => .bind second fun _ => ?_
      split
      · exact .pure _
      · exact .pure _
  | oneOf operand items ih ihItems =>
    simp only [stackTerm, term]
    exact .bind (ih current) fun _ =>
      .bind (stackTerms_follows fun x mem => ihItems x mem current) fun _ => .pure _
  | call f arguments type ihItems =>
    simp only [stackTerm, term]
    exact .bind (.lifted _) fun _ =>
      .bind (stackTerms_follows fun x mem => ihItems x mem current) fun _ => .pure _
  | nonEmpty scope source =>
    simp only [stackTerm, term]
    refine .bind (.lifted _) fun _ => .bind (.frame ctx scope) fun _ => ?_
    refine .bind (.lifted _) fun _ => ?_
    exact .bind (.lifted _) fun _ => .bind (.lifted _) fun _ => .pure _
  | quantified scope source quantifier name predicate ih =>
    simp only [stackTerm, term]
    refine .bind (.lifted _) fun _ => .bind (.frame ctx scope) fun _ => ?_
    refine .bind (.lifted _) fun _ => ?_
    refine .bind (.lifted _) fun _ => .bind (.inside name _ (ih _)) fun _ => ?_
    refine .bind (.lifted _) fun _ => ?_
    cases quantifier with
    | any => exact .pure _
    | all => exact .pure _

end Expression

/-- A condition that may become a part of a statement. -/
inductive Condition where
  | filter (x : Expression)
  | search (caseSensitive : Bool) (x : Search)

namespace Condition

/-- The term of a condition. -/
def compile (ctx : SqlContext) : Condition → Compile SqlTerm
  | filter x => compileFilter ctx x
  | search caseSensitive x => compileSearch ctx caseSensitive x

/-- The term of a condition, with the variables of quantifiers on the stack. -/
def stackCompile (ctx : SqlContext) : Condition → Working SqlTerm
  | filter x => do
    let joins ← known (discoverJoins ctx.resolve ctx.table.type x)
    (modify fun b => { b with joins := addJoins b.joins joins } : Compile Unit)
    x.stackTerm ctx ctx.rootFrame
  | search caseSensitive x => compileSearch ctx caseSensitive x

/-- A condition only adds to a statement. -/
theorem compile_gathers (ctx : SqlContext) (c : Condition) (d : Nat) :
    Gathers d d (c.compile ctx) := by
  cases c with
  | filter x => exact compileFilter_gathers x d
  | search caseSensitive x => exact compileSearch_gathers caseSensitive x d

/-- A condition is compiled on an empty stack as it is without variables. -/
theorem stackCompile_follows (ctx : SqlContext) (c : Condition) (b : Builder) :
    (Working.attempt (c.stackCompile ctx)).run ⟨b, []⟩ =
      (((attempt (c.compile ctx)).run b).1, ⟨((attempt (c.compile ctx)).run b).2, []⟩) := by
  cases c with
  | filter x =>
    -- A filter starts without variables, whatever is on the stack.
    have first : Working.Follows ((Condition.filter x).stackCompile ctx) fun locals => (do
        let joins ← known (discoverJoins ctx.resolve ctx.table.type x)
        modify fun b => { b with joins := addJoins b.joins joins }
        x.term ctx locals ctx.rootFrame) :=
      .bind (.lifted _) fun joins => .bind (.lifted (modify _)) fun _ => x.stackTerm_follows _
    exact first.attempt b
  | search caseSensitive x =>
    exact (Working.Follows.lifted (compileSearch ctx caseSensitive x)).attempt b

end Condition

/-- The outcomes of steps for conditions, one after the other, and the state after the last one. -/
def inTurn {σ : Type} (step : Condition → ExceptT SqlError (StateM σ) SqlTerm) :
    List Condition → σ → List (Except SqlError SqlTerm) × σ
  | [], s => ([], s)
  | c :: rest, s =>
    let first := (step c).run s
    let others := inTurn step rest first.2
    (first.1 :: others.1, others.2)

/-- The outcomes of attempts at conditions, and what they have gathered. -/
def attemptAll (ctx : SqlContext) : List Condition → Builder →
    List (Except SqlError SqlTerm) × Builder :=
  inTurn fun c => attempt (c.compile ctx)

/-- The outcomes of attempts at conditions with the variables of quantifiers on a stack. -/
def stackAttemptAll (ctx : SqlContext) : List Condition → Workspace →
    List (Except SqlError SqlTerm) × Workspace :=
  inTurn fun c => Working.attempt (c.stackCompile ctx)

/-- The conditions whose outcomes are successes. -/
def succeeding (conditions : List Condition) (outcomes : List (Except SqlError SqlTerm)) :
    List Condition :=
  ((conditions.zip outcomes).filter (·.2.isOk)).map (·.1)

/-- The selection by the conditions that became terms. -/
def selectOf (ctx : SqlContext) (ran : List (Except SqlError SqlTerm) × Builder)
    (order : List OrderTerm) (skip top : Option Nat) : Select :=
  ⟨ctx.table, ran.2.joins, ran.1.filterMap (·.toOption), order, skip, top⟩

/-- The statement that asks for the rows on which the conditions hold that became terms. -/
def rowsStatement (ctx : SqlContext) (ran : List (Except SqlError SqlTerm) × Builder)
    (order : List OrderTerm) (skip top : Option Nat) : Statement :=
  ⟨(selectOf ctx ran order skip top).text ctx.dialect, ran.2.parameters⟩

/-- The statement that asks for the number of these rows. -/
def countStatement (ctx : SqlContext) (ran : List (Except SqlError SqlTerm) × Builder) :
    Statement :=
  ⟨(selectOf ctx ran [] none none).countText ctx.dialect, ran.2.parameters⟩

/-- An attempt that fails leaves a statement without open quantifiers as it was. -/
theorem attempt_error {ctx : SqlContext} {c : Condition} {b after : Builder} {fault : SqlError}
    (closed : b.depth = 0) (failed : (attempt (c.compile ctx)).run b = (.error fault, after)) :
    after = b := by
  obtain ⟨parameters, joins, -⟩ := c.compile_gathers ctx 0 b closed
  simp only [attempt, ExceptT.run_mk] at failed
  rcases found : (c.compile ctx).run b with ⟨fault' | t, between⟩
  · -- What is cut off is exactly what was added.
    rw [found] at failed parameters joins
    cases failed
    rw [← List.prefix_iff_eq_take.mp parameters, ← List.prefix_iff_eq_take.mp joins, ← closed]
  · rw [found] at failed
    cases failed

/-- An attempt that succeeds closes the quantifiers that it opens. -/
theorem attempt_ok {ctx : SqlContext} {c : Condition} {b after : Builder} {t : SqlTerm}
    (closed : b.depth = 0) (done : (attempt (c.compile ctx)).run b = (.ok t, after)) :
    after.depth = 0 := by
  obtain ⟨-, -, balanced⟩ := c.compile_gathers ctx 0 b closed
  simp only [attempt, ExceptT.run_mk] at done
  rcases found : (c.compile ctx).run b with ⟨fault | t', between⟩
  · rw [found] at done
    cases done
  · rw [found] at done balanced
    cases done
    exact balanced _ rfl

/-- No attempt leaves a quantifier open. -/
theorem attempt_closed {ctx : SqlContext} (c : Condition) {b : Builder} (closed : b.depth = 0) :
    ((attempt (c.compile ctx)).run b).2.depth = 0 := by
  rcases found : (attempt (c.compile ctx)).run b with ⟨fault | t, after⟩
  · exact attempt_error closed found ▸ closed
  · exact attempt_ok closed found

section

variable {ctx : SqlContext} {b : Builder}

/-- No sequence of attempts leaves a quantifier open. -/
theorem attemptAll_closed (conditions : List Condition) (closed : b.depth = 0) :
    (attemptAll ctx conditions b).2.depth = 0 := by
  induction conditions generalizing b with
  | nil => exact closed
  | cons c rest ih => exact ih (attempt_closed c closed)

/-- A sequence of attempts comes to the same without those that fail. -/
theorem attemptAll_succeeding (conditions : List Condition) (closed : b.depth = 0) :
    attemptAll ctx (succeeding conditions (attemptAll ctx conditions b).1) b =
      ((attemptAll ctx conditions b).1.filter (·.isOk), (attemptAll ctx conditions b).2) := by
  -- The induction goes along the sequence: each attempt that fails hands on what it was given.
  induction conditions generalizing b with
  | nil => rfl
  | cons c rest ih =>
    rcases found : (attempt (c.compile ctx)).run b with ⟨fault | t, after⟩
    · have same : after = b := attempt_error closed found
      subst same
      have ran : attemptAll ctx (c :: rest) after =
          (.error fault :: (attemptAll ctx rest after).1, (attemptAll ctx rest after).2) := by
        simp only [attemptAll, inTurn, found]
      rw [ran]
      exact ih closed
    · have ran : attemptAll ctx (c :: rest) b =
          (.ok t :: (attemptAll ctx rest after).1, (attemptAll ctx rest after).2) := by
        simp only [attemptAll, inTurn, found]
      have kept (others : List Condition) : attemptAll ctx (c :: others) b =
          (.ok t :: (attemptAll ctx others after).1, (attemptAll ctx others after).2) := by
        simp only [attemptAll, inTurn, found]
      have left : succeeding (c :: rest) (.ok t :: (attemptAll ctx rest after).1) =
          c :: succeeding rest (attemptAll ctx rest after).1 := rfl
      rw [ran, left, kept, ih (attempt_ok closed found)]
      rfl

/-- Attempts with a stack of variables have the same outcomes, and the stack stays empty. -/
theorem stackAttemptAll_eq (conditions : List Condition) (b : Builder) :
    stackAttemptAll ctx conditions ⟨b, []⟩ =
      ((attemptAll ctx conditions b).1, ⟨(attemptAll ctx conditions b).2, []⟩) := by
  induction conditions generalizing b with
  | nil => rfl
  | cons c rest ih =>
    have first := c.stackCompile_follows ctx b
    have others := ih ((attempt (c.compile ctx)).run b).2
    simp only [stackAttemptAll, attemptAll] at others ⊢
    simp only [inTurn, first, others]

end

/-- Failures contribute no terms, so a selection is the same without them. -/
theorem selectOf_filter (ctx : SqlContext) (outcomes : List (Except SqlError SqlTerm))
    (b : Builder) : selectOf ctx (outcomes.filter (·.isOk), b) = selectOf ctx (outcomes, b) := by
  have terms : (outcomes.filter (·.isOk)).filterMap (·.toOption) =
      outcomes.filterMap (·.toOption) := by
    rw [List.filterMap_filter]
    refine List.filterMap_congr fun outcome _ => ?_
    cases outcome <;> rfl
  unfold selectOf
  rw [terms]

/--
Attempts that fail leave nothing behind.

Whatever filters and searches are attempted on a statement, it comes to what it does without those
that fail: the same terms, parameters and joins, and so the same statements. An attempt that fails
then leaves parameters, joins, variables and the number of open quantifiers as they were.
-/
theorem failed_attempts_leave_nothing (ctx : SqlContext) (conditions : List Condition)
    (parameters : List Value) (joins : List Join) :
    let start : Builder := ⟨parameters, joins, 0⟩
    let ran := attemptAll ctx conditions start
    let without := attemptAll ctx (succeeding conditions ran.1) start
    let onStack := stackAttemptAll ctx conditions ⟨start, []⟩
    (without = (ran.1.filter (·.isOk), ran.2) ∧
      rowsStatement ctx without = rowsStatement ctx ran ∧
      countStatement ctx without = countStatement ctx ran) ∧
    onStack = (ran.1, ⟨ran.2, []⟩) ∧
    ∀ (c : Condition) (fault : SqlError) (after : Workspace),
      (Working.attempt (c.stackCompile ctx)).run onStack.2 = (.error fault, after) →
        after = onStack.2 := by
  intro start ran without onStack
  have same : without = (ran.1.filter (·.isOk), ran.2) := attemptAll_succeeding conditions rfl
  have empty : onStack = (ran.1, ⟨ran.2, []⟩) := stackAttemptAll_eq conditions start
  refine ⟨⟨same, ?_, ?_⟩, empty, fun c fault after failed => ?_⟩
  · unfold rowsStatement
    rw [same, selectOf_filter]
  · unfold countStatement
    rw [same, selectOf_filter]
  · rw [empty, c.stackCompile_follows ctx] at failed
    rw [empty]
    rcases found : (attempt (c.compile ctx)).run ran.2 with ⟨fault' | t, between⟩
    · rw [found] at failed
      cases failed
      rw [attempt_error (attemptAll_closed conditions rfl) found]
    · rw [found] at failed
      cases failed

/-- Whether a branch grows from a high stem and has a twig with a label of a certain form. -/
def matchedTwigs : Expression :=
  .binary .and
    (.binary .gt (.hop .root ⟨"stem", "Branch", false, [⟨"of", "id"⟩]⟩ "branches"
      (.property .current (Service.plainProperty "id" (.integer .int32)))) (.literal (.integer 7)))
    (.quantified .root (.related ⟨"twigs", "Branch", true, [⟨"id", "of"⟩]⟩ "branches") .any "t"
      (.binary .and
        (.binary .lt (.property (.bound "t") (Service.plainProperty "id" (.integer .int32)))
          (.literal (.integer 5)))
        (.call .matchesPattern
          [.property (.bound "t") ⟨"label", .primitive .string, true, true, none⟩,
            .literal (.string "y")] .boolean)))

/-- Attempts at conditions on branches, every other one of which fails. -/
def branchConditions : List Condition :=
  [.filter matchedTwigs, .filter branchFilter, .filter matchedTwigs, .search false (.term "old")]

/-- Filters that fail inside their quantifier leave the other conditions their joins and numbers. -/
theorem failed_attempts_leave_nothing_on_branches :
    let ran := attemptAll branchContext branchConditions .empty
    let onStack := stackAttemptAll branchContext branchConditions ⟨.empty, []⟩
    parseFilter branchModel "branches"
        "stem/id gt 7 and twigs/any(t:t/id lt 5 and matchesPattern(t/label,'y'))"
        = .ok matchedTwigs ∧
      ((compileFilter branchContext matchedTwigs).run .empty).2.depth = 1 ∧
      ran.2.parameters = [.integer 1, .string "%old%"] ∧
      ran.2.joins.map (·.tableAlias) = ["stem", "stem_stem"] ∧
      rowsStatement branchContext (attemptAll branchContext
        [.filter branchFilter, .search false (.term "old")] .empty)
          = rowsStatement branchContext ran ∧
      ∃ fault, (Working.attempt ((Condition.filter matchedTwigs).stackCompile branchContext)).run
        onStack.2 = (.error fault, onStack.2) := by
  have parsed : parseFilter branchModel "branches"
      "stem/id gt 7 and twigs/any(t:t/id lt 5 and matchesPattern(t/label,'y'))"
        = .ok matchedTwigs := by cbv
  obtain ⟨⟨-, rows, -⟩, -, leaves⟩ :=
    failed_attempts_leave_nothing branchContext branchConditions [] []
  have failed : ∃ fault after, (Working.attempt ((Condition.filter matchedTwigs).stackCompile
      branchContext)).run (stackAttemptAll branchContext branchConditions ⟨.empty, []⟩).2
        = (.error fault, after) := ⟨_, _, rfl⟩
  obtain ⟨fault, after, failed⟩ := failed
  have left := leaves _ fault after failed
  exact ⟨parsed, rfl, rfl, rfl, rows, fault, left ▸ failed⟩

end EdmQuery
