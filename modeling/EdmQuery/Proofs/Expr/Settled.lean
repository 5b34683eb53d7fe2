import Mathlib
import EdmQuery.Expr.Eval

/-! Laws of outcomes: what a success came from, and those that are known without any effect. -/

namespace EdmQuery

-- The equations of evaluation are made here, so that the proofs behind do not wait for them.
section

attribute [local simp] Expression.type Expression.eval Expression.evalAmong Expression.evalList

end

section

variable {ε ζ α β : Type} {r : Except ε α}

/-- A function of an outcome has a value where the outcome has one. -/
theorem map_ok {f : α → β} {b : β} (read : r.map f = .ok b) : ∃ a, r = .ok a ∧ f a = b := by
  cases r with
  | error e => cases read
  | ok a => exact ⟨a, rfl, Except.ok.inj read⟩

/-- Two steps succeed where the first does and then the second. -/
theorem bind_ok {next : α → Except ε β} {b : β} (read : r >>= next = .ok b) :
    ∃ a, r = .ok a ∧ next a = .ok b := by
  cases r with
  | error e => cases read
  | ok a => exact ⟨a, rfl, read⟩

/-- An outcome is a success under whatever name its fault would have. -/
theorem mapError_ok {name : ε → ζ} {a : α} (read : r.mapError name = .ok a) : r = .ok a := by
  cases r with
  | error e => cases read
  | ok b => exact congrArg Except.ok (Except.ok.inj read)

/-- Items are all read where each of them is. -/
theorem mapM_ok_iff {read : α → Except ε β} {items : List α} {found : List β} :
    items.mapM read = .ok found ↔ List.Forall₂ (fun a b => read a = .ok b) items found := by
  induction items generalizing found with
  | nil =>
    rw [List.mapM_nil, List.forall₂_nil_left_iff]
    exact ⟨fun same => (Except.ok.inj same).symm, fun none_ => none_ ▸ rfl⟩
  | cons a items ih =>
    rw [List.mapM_cons, List.forall₂_cons_left_iff]
    constructor
    · intro all
      obtain ⟨b, first, all⟩ := bind_ok all
      obtain ⟨others, rest, all⟩ := bind_ok all
      exact ⟨b, others, first, ih.mp rest, (Except.ok.inj all).symm⟩
    · rintro ⟨b, others, first, rest, rfl⟩
      rw [first, ih.mpr rest]
      rfl

end

variable {m : Type → Type} [Monad m] {α β : Type}

/-- A value that is returned is a known success. -/
theorem pure_eq_settled (a : α) : (pure a : ExceptT RequestError m α) = settled (.ok a) :=
  rfl

/-- A fault that is thrown is a known failure. -/
theorem throw_eq_settled (fault : RequestError) :
    (throw fault : ExceptT RequestError m α) = settled (.error fault) :=
  rfl

/-- Reading a known outcome has no effect. -/
@[simp] theorem run_settled (r : Except RequestError α) :
    (settled r : ExceptT RequestError m α).run = pure r :=
  rfl

variable [LawfulMonad m]

/-- A known success passes its value on. -/
@[simp] theorem settled_ok_bind (a : α) (next : α → ExceptT RequestError m β) :
    settled (.ok a) >>= next = next a :=
  pure_bind _ _

/-- A known failure ends a computation. -/
@[simp] theorem settled_error_bind (fault : RequestError) (next : α → ExceptT RequestError m β) :
    settled (.error fault) >>= next = settled (.error fault) :=
  pure_bind _ _

/-- A function of a known outcome is known. -/
@[simp] theorem map_settled (f : α → β) (r : Except RequestError α) :
    (f <$> settled r : ExceptT RequestError m β) = settled (r.map f) := by
  rw [map_eq_pure_bind]
  cases r with
  | error fault => rw [settled_error_bind]; rfl
  | ok a => rw [settled_ok_bind]; rfl

/-- A known value of the monad below is a known success. -/
@[simp] theorem lift_pure (a : α) :
    (ExceptT.lift (pure a) : ExceptT RequestError m α) = settled (.ok a) := by
  rw [ExceptT.lift, map_pure]
  rfl

/-- Two known outcomes, one after the other, are one known outcome. -/
theorem settled_bind_settled (r : Except RequestError α) (next : α → Except RequestError β) :
    (settled r >>= fun a => settled (next a) : ExceptT RequestError m β) = settled (r >>= next) := by
  cases r with
  | error fault => rw [settled_error_bind]; rfl
  | ok a => rw [settled_ok_bind]; rfl

/-- Two steps without effects have a value where the first does and then the second. -/
theorem bind_eq_pure {step : ExceptT RequestError Id α} {next : α → ExceptT RequestError Id β}
    {b : β} (done : step >>= next = pure b) : ∃ a, step = pure a ∧ next a = pure b := by
  -- Without effects, every computation is a known outcome.
  have known : step = settled step.run := rfl
  cases outcome : step.run with
  | error fault =>
    rw [known, outcome, settled_error_bind] at done
    cases done
  | ok a =>
    rw [known, outcome, settled_ok_bind] at done
    exact ⟨a, known.trans (congrArg settled outcome), done⟩

/-- A known outcome is a value where it is a success. -/
theorem settled_eq_pure {r : Except RequestError α} {a : α}
    (done : (settled r : ExceptT RequestError Id α) = pure a) : r = .ok a :=
  done

/-- A property of computations that values have and that one has whose steps, in turn, have it. -/
structure Sequential {m : Type → Type} [Monad m]
    (P : ∀ {α : Type}, ExceptT RequestError m α → Prop) : Prop where
  pure : ∀ {α : Type} (a : α), P (Pure.pure a : ExceptT RequestError m α)
  bind : ∀ {α β : Type} {step : ExceptT RequestError m α} {next : α → ExceptT RequestError m β},
    P step → (∀ a, P (next a)) → P (step >>= next)

namespace Sequential

variable {m : Type → Type} [Monad m] {P : ∀ {α : Type}, ExceptT RequestError m α → Prop}
  {lookup : Lookup m} {s : Standpoint} {items : List Expression}

/-- Steps for the members of a list have a property together that each of them has. -/
theorem mapM [LawfulMonad m] {α β : Type} {step : α → ExceptT RequestError m β} {list : List α}
    (kept : Sequential P) (each : ∀ a ∈ list, P (step a)) : P (list.mapM step) := by
  induction list with
  | nil =>
    rw [List.mapM_nil]
    exact kept.pure _
  | cons a rest ih =>
    obtain ⟨first, others⟩ := List.forall_mem_cons.mp each
    rw [List.mapM_cons]
    exact kept.bind first fun _ => kept.bind (ih others) fun _ => kept.pure _

/-- An operator has a property that its operands have. -/
theorem eval_binary (kept : Sequential P) {op : BinaryOp} {left right : Expression}
    (first : P (left.eval lookup s)) (second : P (right.eval lookup s)) :
    P ((Expression.binary op left right).eval lookup s) := by
  unfold Expression.eval
  -- A conjunction or disjunction may leave out its right operand, a test for null its literal.
  split
  · refine kept.bind first fun l => ?_
    dsimp only
    split
    · exact kept.pure _
    · exact kept.bind second fun _ => kept.pure _
  · refine kept.bind first fun l => ?_
    dsimp only
    split
    · exact kept.pure _
    · exact kept.bind second fun _ => kept.pure _
  · split
    · exact kept.bind second fun _ => kept.pure _
    split
    · exact kept.bind first fun _ => kept.pure _
    · exact kept.bind first fun _ => kept.bind second fun _ => kept.pure _

/-- Looking for a value among alternatives has a property that the alternatives have. -/
theorem evalAmong (kept : Sequential P) (each : ∀ x ∈ items, P (x.eval lookup s)) (wanted : Value)
    (sawNull : Bool) : P (Expression.evalAmong lookup s wanted sawNull items) := by
  induction items generalizing sawNull with
  | nil =>
    rw [Expression.evalAmong]
    exact kept.pure _
  | cons x rest ih =>
    obtain ⟨first, others⟩ := List.forall_mem_cons.mp each
    rw [Expression.evalAmong]
    refine kept.bind first fun candidate => ?_
    split
    · exact ih others true
    split
    · exact kept.pure _
    · exact ih others sawNull

/-- A list of arguments has a property that the arguments have. -/
theorem evalList (kept : Sequential P) (each : ∀ x ∈ items, P (x.eval lookup s)) :
    P (Expression.evalList lookup s items) := by
  induction items with
  | nil =>
    rw [Expression.evalList]
    exact kept.pure _
  | cons x rest ih =>
    obtain ⟨first, others⟩ := List.forall_mem_cons.mp each
    rw [Expression.evalList]
    exact kept.bind first fun _ => kept.bind (ih others) fun _ => kept.pure _

end Sequential

end EdmQuery
