import Mathlib
import EdmQuery.Proofs.Expr.Scoping
import EdmQuery.Proofs.Query.Failures

/-! Evaluation and the stages of a query have no effects but those of the lookups that they make. -/

namespace EdmQuery

variable {m : Type → Type} [Monad m] {α β : Type}

/-- A computation has an outcome that is known without any effect. -/
def Settles (step : ExceptT RequestError m α) : Prop :=
  ∃ r, step = settled r

namespace Settles

/-- A known outcome is known. -/
theorem of (r : Except RequestError α) : Settles (settled r : ExceptT RequestError m α) :=
  ⟨r, rfl⟩

/-- What is returned is known. -/
protected theorem pure (a : α) : Settles (Pure.pure a : ExceptT RequestError m α) :=
  .of (.ok a)

/-- What is thrown is known. -/
protected theorem throw (fault : RequestError) :
    Settles (MonadExcept.throw fault : ExceptT RequestError m α) :=
  .of (.error fault)

variable [LawfulMonad m]

/-- Two steps without effects have none together. -/
theorem bind {step : ExceptT RequestError m α} {next : α → ExceptT RequestError m β}
    (first : Settles step) (second : ∀ a, Settles (next a)) : Settles (step >>= next) := by
  obtain ⟨_ | a, rfl⟩ := first
  · rw [settled_error_bind]
    exact .of _
  · rw [settled_ok_bind]
    exact second a

/-- A function of an outcome that is known is known. -/
theorem map {step : ExceptT RequestError m α} (first : Settles step) (f : α → β) :
    Settles (f <$> step) := by
  obtain ⟨r, rfl⟩ := first
  rw [map_settled]
  exact .of _

/-- Computations without effects have none one after the other. -/
theorem sequential : Sequential (m := m) Settles where
  pure := .pure
  bind := bind

end Settles

variable [LawfulMonad m] {lookup : Lookup m}

namespace Expression

/-- Only members that are looked up need effects. -/
theorem members_settles {source : Source} {e : Entity}
    (found : ∀ target ∈ source.targets, ∀ n, Settles (lookup target n e)) :
    Settles (members lookup e source) := by
  cases source with
  | related n target => exact (found target List.mem_cons_self n).bind fun _ => .pure _
  | items p => exact .pure _

/-- An expression has no effects but those of looking into the sets that it leads to. -/
theorem eval_settles {x : Expression} (s : Standpoint)
    (found : ∀ target ∈ x.targets, ∀ n e, Settles (lookup target n e)) :
    Settles (x.eval lookup s) := by
  -- The standpoint stays general, since paths and quantifiers move it.
  induction x using Expression.induction generalizing s with
  | literal value =>
    rw [eval]
    exact .pure _
  | property scope p =>
    rw [eval]
    exact .bind (.of _) fun _ => .pure _
  | hop scope n target inner ih =>
    obtain ⟨here, deeper⟩ := List.forall_mem_cons.mp found
    rw [eval]
    refine .bind (.of _) fun e => (here n e).bind fun others => ?_
    cases others with
    | nil => exact .pure _
    | cons first rest => exact ih _ deeper
  | item name element =>
    rw [eval]
    exact .of _
  | not operand ih =>
    rw [eval]
    exact (ih s found).bind fun _ => .pure _
  | negate operand ih =>
    rw [eval]
    exact (ih s found).bind fun _ => .pure _
  | binary op left right ihLeft ihRight =>
    obtain ⟨first, second⟩ := List.forall_mem_append.mp found
    exact Settles.sequential.eval_binary (ihLeft s first) (ihRight s second)
  | oneOf operand items ih ihItems =>
    obtain ⟨first, others⟩ := List.forall_mem_append.mp found
    rw [eval]
    refine (ih s first).bind fun wanted => ?_
    split
    · exact .pure _
    · exact Settles.sequential.evalAmong (fun x mem => ihItems x mem s fun target among =>
        others target (targets_subset_all mem among)) _ _
  | call f arguments type ihItems =>
    rw [eval]
    exact .bind (Settles.sequential.evalList fun x mem => ihItems x mem s fun target among =>
      found target (targets_subset_all mem among)) fun _ => .pure _
  | nonEmpty scope source =>
    rw [eval]
    refine .bind (.of _) fun e => .bind (members_settles fun target among n => ?_) fun _ => .pure _
    exact found target among n e
  | quantified scope source quantifier name predicate ih =>
    obtain ⟨here, inside⟩ := List.forall_mem_append.mp found
    rw [eval]
    refine .bind (.of _) fun e =>
      .bind (members_settles fun target among n => here target among n e) fun bounds => ?_
    exact .bind (Settles.sequential.mapM fun b _ => (ih _ inside).bind fun _ => .pure _)
      fun _ => .pure _

end Expression

namespace Stages

variable {stages : Stages} {keep : Entity → ExceptT RequestError m Bool}
  {finish : Entity → ExceptT RequestError m Entity}

/-- A filter and a search have no effects but those of the filter. -/
theorem keeps_settles (caseSensitive : Bool) (e : Entity)
    (judged : ∀ filter ∈ stages.filter, ∀ s, Settles (filter.eval lookup s)) :
    Settles (stages.keeps lookup caseSensitive e) := by
  rw [keeps]
  cases here : stages.filter with
  | none => exact .bind (.pure _) fun _ => .pure _
  | some filter =>
    exact .bind ((judged filter here _).bind fun _ => .pure _) fun _ => .pure _

/-- Reading a whole stream has no effects but those of its test. -/
theorem gather_settles (judged : ∀ e, Settles (keep e)) (source : Entities) :
    Settles (gather keep source) := by
  choose verdict known using judged
  exact ⟨_, gather_eq_all fun e _ => known e⟩

/-- Reading a stream piece by piece has no effects but those of its test and of what finishes it. -/
theorem deliver_pure (patience : Patience) (judged : ∀ e, Settles (keep e))
    (finished : ∀ e, Settles (finish e)) (skip : Nat) (top : Option Nat) (source : Entities) :
    ∃ found, deliver patience keep finish skip top source = pure found := by
  choose verdict judged using judged
  choose shown finished using finished
  -- The window stays general: it moves and closes as entities are delivered.
  induction source generalizing skip top with
  | nil => rcases top with _ | _ | _ <;> exact ⟨[], rfl⟩
  | cons item rest ih =>
    by_cases closed : top = some 0
    · subst closed
      exact ⟨[], by unfold deliver; rfl⟩
    -- A fault is either the last item or has the rest behind it.
    have fault (fault : RequestError) (skip : Nat) (top : Option Nat) :
        ∃ found, (if patience == .upToFault then pure [.error fault]
          else (.error fault :: ·) <$> deliver patience keep finish skip top rest)
            = pure found := by
      obtain ⟨found, more⟩ := ih skip top
      split
      · exact ⟨_, rfl⟩
      · exact ⟨_, by rw [more, map_pure]⟩
    cases item with
    | error e =>
      obtain ⟨found, whole⟩ := fault e skip top
      exact ⟨found, by rw [← whole]; simp [deliver]⟩
    | ok e =>
      have known := judged e
      cases passed : verdict e with
      | error e' =>
        rw [passed] at known
        rw [deliver_fault known closed]
        exact fault e' skip top
      | ok passes =>
        rw [passed] at known
        cases passes with
        | false =>
          rw [deliver_dropped known]
          exact ih skip top
        | true =>
          cases skip with
          | succ skip =>
            rw [deliver_skipped known]
            exact ih skip top
          | zero =>
            rw [deliver_shown known closed, finished]
            cases done : shown e with
            | error e' =>
              obtain ⟨found, whole⟩ := fault e' 0 (top.map (· - 1))
              exact ⟨found, by rw [← whole]; simp⟩
            | ok e' =>
              obtain ⟨found, more⟩ := ih 0 (top.map (· - 1))
              exact ⟨.ok e' :: found, by simp [more]⟩

/-- What comes out of a stream has no effects but those of the filter and of what finishes it. -/
theorem run_settles (patience : Patience) (caseSensitive : Bool) (source : Entities)
    (judged : ∀ filter ∈ stages.filter, ∀ s, Settles (filter.eval lookup s))
    (finished : ∀ e, Settles (finish e)) :
    Settles (stages.run patience lookup caseSensitive finish source) := by
  have keeps := fun e => keeps_settles caseSensitive e judged
  have delivered {keep : Entity → ExceptT RequestError m Bool} (judged : ∀ e, Settles (keep e))
      (skip : Nat) (source : Entities) :
      Settles (ExceptT.lift (deliver patience keep finish skip stages.top source)) := by
    obtain ⟨found, whole⟩ := deliver_pure patience judged finished skip stages.top source
    rw [whole, lift_pure]
    exact .of _
  rw [run]
  split
  · exact delivered keeps _ _
  · exact (gather_settles keeps source).bind fun _ => delivered (fun _ => .pure _) _ _

/-- Counting a stream has no effects but those of the filter. -/
theorem count_settles (caseSensitive : Bool) (source : Entities)
    (judged : ∀ filter ∈ stages.filter, ∀ s, Settles (filter.eval lookup s)) :
    Settles (stages.count lookup caseSensitive source) :=
  (gather_settles (fun e => keeps_settles caseSensitive e judged) source).bind fun _ => .pure _

end Stages

end EdmQuery
