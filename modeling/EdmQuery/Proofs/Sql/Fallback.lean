import Mathlib
import EdmQuery.Proofs.Sql.Navigation
import EdmQuery.Proofs.Sql.Plan

/-! Filters without an SQL form are left to memory, and none of them is a fault of a database. -/

namespace EdmQuery

section

variable {config : Config} {ctx : SqlContext} {stages : Stages} {filter : Expression}
  {reason : String} {after : Builder}

/-- A stage that becomes SQL is pushed whenever there is one. -/
theorem tryStage_pushed {α : Type} (config : Config) {stage : Option α} {compile : α → Compile SqlTerm} {b : Builder}
    (each : ∀ a ∈ stage, ∃ condition after, (compile a).run b = (.ok condition, after)) :
    ∃ condition after, tryStage config stage compile b = .ok (condition, after) ∧
      condition.isSome = stage.isSome := by
  cases stage with
  | none => exact ⟨none, b, rfl, rfl⟩
  | some a =>
    obtain ⟨condition, after, done⟩ := each a rfl
    refine ⟨some condition, after, ?_, rfl⟩
    simp only [tryStage, tryCondition, attempt, ExceptT.run_mk, done]

/-- A search is pushed whenever there is one. -/
theorem trySearch_pushed (config : Config) (ctx : SqlContext) (stages : Stages) (b : Builder) :
    ∃ condition after,
      tryStage config stages.search (compileSearch ctx config.caseSensitive) b
        = .ok (condition, after) ∧
      condition.isSome = stages.search.isSome :=
  tryStage_pushed config fun search _ =>
    have ⟨condition, after, done, _, _⟩ := compileSearch_total ctx config.caseSensitive search b
    ⟨condition, after, done⟩

/-- Nothing is left of a search behind its condition. -/
theorem search_left {α β : Type} {condition : Option α} {search : Option β}
    (pushed : condition.isSome = search.isSome) :
    (if condition.isSome then none else search) = none := by
  rw [pushed]
  cases search <;> rfl

/-- A filter that is refused stays with all other stages but the search. -/
theorem pushDown_of_refused (filtered : stages.filter = some filter)
    (refused : (compileFilter ctx filter).run .empty = (.error (.unsupported reason), after))
    (allowed : config.fallback = true) :
    ∃ conditions b,
      pushDown config ctx stages = .ok (⟨conditions, { stages with search := none }⟩, b) := by
  have kept : tryStage config stages.filter (compileFilter ctx) .empty = .ok (none, .empty) := by
    simp only [filtered, tryStage, tryCondition, attempt, ExceptT.run_mk, refused, fallBack,
      allowed, if_true]
    rfl
  obtain ⟨condition, b, searched, pushed⟩ := trySearch_pushed config ctx stages .empty
  refine ⟨condition.toList, b, ?_⟩
  simp only [pushDown, kept, searched, search_left pushed, Bind.bind, Except.bind]
  rfl

/-- Rows for a filter that is refused are chosen, sorted and cut to a page in memory. -/
theorem planRows_of_refused (filtered : stages.filter = some filter)
    (refused : (compileFilter ctx filter).run .empty = (.error (.unsupported reason), after))
    (allowed : config.fallback = true) :
    ∃ plan, planRows config ctx stages = .ok plan ∧
      plan.remaining = { stages with search := none } := by
  obtain ⟨conditions, b, pushed⟩ := pushDown_of_refused filtered refused allowed
  simp only [planRows, pushed, Bind.bind, Except.bind, Pushed.isComplete, filtered,
    Option.isNone_some, Bool.false_and, Bool.false_eq_true, if_false]
  exact ⟨_, rfl, by rw [← filtered]⟩

/-- Entities for a filter that is refused are counted in memory. -/
theorem planCount_of_refused (filtered : stages.filter = some filter)
    (refused : (compileFilter ctx filter).run .empty = (.error (.unsupported reason), after))
    (allowed : config.fallback = true) :
    ∃ plan, planCount config ctx stages = .ok (plan, false) ∧
      plan.remaining = { stages with search := none } := by
  obtain ⟨conditions, b, pushed⟩ := pushDown_of_refused filtered refused allowed
  simp only [planCount, pushed, Bind.bind, Except.bind, Pushed.isComplete, filtered,
    Option.isNone_some, Bool.false_and]
  exact ⟨_, rfl, by rw [← filtered]⟩

/-- An outcome that fails only where nothing may be left to memory, for want of an SQL form. -/
def OnlyForbids {α : Type} (config : Config) (r : Except RequestError α) : Prop :=
  ∀ fault, r = .error fault → config.fallback = false ∧ ∃ reason, fault = .notImplemented reason

namespace OnlyForbids

variable {α β : Type}

/-- A value is no failure. -/
theorem ok (a : α) : OnlyForbids config (.ok a) :=
  fun _ failed => by cases failed

/-- Two outcomes, one after the other, fail where one of them does. -/
theorem bind {r : Except RequestError α} {next : α → Except RequestError β}
    (first : OnlyForbids config r) (second : ∀ a, OnlyForbids config (next a)) :
    OnlyForbids config (r >>= next) := by
  intro fault failed
  cases r with
  | error fault' =>
    cases failed
    exact first _ rfl
  | ok a => exact second a fault failed

/-- What has no SQL form is a failure only where it may not be left to memory. -/
theorem map_fallBack (reason : String) (f : Unit → α) :
    OnlyForbids config ((fallBack config reason).map f) := by
  intro fault failed
  rw [fallBack] at failed
  split at failed
  · cases failed
  · rename_i forbidden
    cases failed
    exact ⟨Bool.eq_false_iff.mpr forbidden, reason, rfl⟩

/-- A condition whose steps have no other faults is pushed, left to memory or forbidden. -/
theorem tryCondition {step : Compile SqlTerm} (only : OnlyUnsupported step) (b : Builder) :
    OnlyForbids config (EdmQuery.tryCondition config step b) := by
  unfold EdmQuery.tryCondition
  simp only [attempt, ExceptT.run_mk]
  rcases done : step.run b with ⟨fault | condition, after⟩
  · obtain ⟨reason, rfl⟩ := only _ _ _ done
    exact map_fallBack _ _
  · exact ok _

/-- So is the condition of a stage, if there is the stage. -/
theorem tryStage {stage : Option α} {compile : α → Compile SqlTerm}
    (only : ∀ a ∈ stage, OnlyUnsupported (compile a)) (b : Builder) :
    OnlyForbids config (EdmQuery.tryStage config stage compile b) := by
  cases stage with
  | none => exact ok _
  | some a => exact tryCondition (only a rfl) b

/-- A search has no faults, so those of filter and search are those of the filter. -/
theorem pushDown (only : ∀ filter ∈ stages.filter, OnlyUnsupported (compileFilter ctx filter)) :
    OnlyForbids config (EdmQuery.pushDown config ctx stages) := by
  have searches (search : Search) :
      OnlyUnsupported (compileSearch ctx config.caseSensitive search) := by
    refine .of_total fun b => ?_
    obtain ⟨condition, after, done, -⟩ := compileSearch_total ctx config.caseSensitive search b
    exact ⟨condition, after, done⟩
  exact bind (tryStage only _) fun _ => bind (tryStage (fun search _ => searches search) _)
    fun _ => ok _

/-- An order is pushed, left to memory or forbidden. -/
theorem pushOrder (keys : List SortKey) :
    OnlyForbids config (EdmQuery.pushOrder config ctx keys) := by
  unfold EdmQuery.pushOrder
  cases compiled : compileOrder ctx.table.type keys with
  | ok terms => exact ok _
  | error fault =>
    obtain ⟨reason, rfl⟩ := compileOrder_fault compiled
    exact map_fallBack _ _

/-- A plan of rows fails only where something may not be left to memory. -/
theorem planRows (only : ∀ filter ∈ stages.filter, OnlyUnsupported (compileFilter ctx filter)) :
    OnlyForbids config (EdmQuery.planRows config ctx stages) := by
  refine bind (pushDown only) fun first => ?_
  obtain ⟨pushed, b⟩ := first
  dsimp only
  split
  · refine bind (pushOrder _) fun order => ?_
    cases order <;> exact ok _
  · refine bind (ok _) fun order => ?_
    cases order <;> exact ok _

/-- So does a plan of a count. -/
theorem planCount (only : ∀ filter ∈ stages.filter, OnlyUnsupported (compileFilter ctx filter)) :
    OnlyForbids config (EdmQuery.planCount config ctx stages) :=
  bind (pushDown only) fun _ => ok _

end OnlyForbids

/--
A filter that was read over a built model becomes SQL, or something in it has no SQL form.

In the latter case it is left to memory with all other stages but the search; only where that is
forbidden, it is not implemented. It never is a fault of the database.
-/
theorem filters_fall_back_to_memory {d : Draft} {m : Model} (built : d.build = .ok m)
    {set input : String} {s : EntitySet} (queried : m.set? set = some s)
    (read : parseFilter m set input = .ok filter) (own : ctx.resolve.Own m)
    (typed : ctx.table.type = s.type) :
    (∀ b, (∃ condition after, (compileFilter ctx filter).run b = (.ok condition, after)) ∨
      ∃ reason after, (compileFilter ctx filter).run b = (.error (.unsupported reason), after)) ∧
    ∀ (config : Config) (stages : Stages), stages.filter = some filter →
      OnlyForbids config (planRows config ctx stages) ∧
      OnlyForbids config (planCount config ctx stages) ∧
      ∀ fault after, (compileFilter ctx filter).run .empty = (.error fault, after) →
        config.fallback = true →
          ∃ rows count, planRows config ctx stages = .ok rows ∧
            planCount config ctx stages = .ok (count, false) ∧
            rows.remaining = { stages with search := none } ∧
            count.remaining = { stages with search := none } := by
  obtain ⟨s', tokens, queried', -, readFrom, -⟩ := parseFilter_sound read
  cases queried.symm.trans queried'
  obtain ⟨rfl, -⟩ := Model.set?_some queried
  have only : OnlyUnsupported (compileFilter ctx filter) :=
    onlyUnsupported_compileFilter built own ⟨s, queried, rfl⟩ typed readFrom
  refine ⟨fun b => ?_, fun config stages filtered => ?_⟩
  · -- A run has one of two outcomes, and a fault has one kind.
    rcases done : (compileFilter ctx filter).run b with ⟨fault | condition, after⟩
    · obtain ⟨reason, rfl⟩ := only _ _ _ done
      exact .inr ⟨reason, after, rfl⟩
    · exact .inl ⟨condition, after, rfl⟩
  have onlyHere : ∀ filter ∈ stages.filter, OnlyUnsupported (compileFilter ctx filter) := by
    rw [filtered]
    rintro _ ⟨⟩
    exact only
  refine ⟨.planRows onlyHere, .planCount onlyHere, fun fault after refused allowed => ?_⟩
  obtain ⟨reason, rfl⟩ := only _ _ _ refused
  obtain ⟨rows, planned, left⟩ := planRows_of_refused filtered refused allowed
  obtain ⟨count, plannedCount, leftCount⟩ := planCount_of_refused filtered refused allowed
  exact ⟨rows, count, planned, plannedCount, left, leftCount⟩

end

namespace Service

/-- What conditions on loans are written for where only the volumes share the database. -/
def volumesContext : SqlContext :=
  ⟨.mysql, ⟨"t_loans", loanType⟩, fun name =>
    if name = "volumes" then some ⟨"t_volumes", volumeType⟩ else none⟩

/-- The stages that filter loans by the case of their volumes, of which one is wanted. -/
def placeStages : Stages :=
  ⟨some placeFilter, some (.term "red"), [], none, some 1⟩

/-- The cases are in no table, so the loans of a case are chosen in memory. -/
theorem filters_fall_back_to_memory_in_lending :
    parseFilter (lending 1).model "loans" "volume/place/number eq 1" = .ok placeFilter ∧
      (compileFilter volumesContext placeFilter).run .empty
        = (.error (.unsupported "entity set `cases` has no SQL table"), .empty) ∧
      ∃ rows count, planRows .default volumesContext placeStages = .ok rows ∧
        planCount .default volumesContext placeStages = .ok (count, false) ∧
        rows.remaining = { placeStages with search := none } ∧
        count.remaining = { placeStages with search := none } := by
  have read : parseFilter (lending 1).model "loans" "volume/place/number eq 1"
      = .ok placeFilter := by cbv
  have own : volumesContext.resolve.Own (lending 1).model := by
    intro name table resolved
    simp only [volumesContext] at resolved
    split at resolved
    · rename_i isVolumes
      cases resolved
      exact ⟨⟨"volumes", volumeType, .all, .memory⟩, by rw [isVolumes]; rfl, rfl⟩
    · cases resolved
  have refused : (compileFilter volumesContext placeFilter).run .empty
      = (.error (.unsupported "entity set `cases` has no SQL table"), .empty) := by cbv
  obtain ⟨-, plans⟩ := filters_fall_back_to_memory (build_lending 1) rfl read own rfl
  obtain ⟨-, -, left⟩ := plans .default placeStages rfl
  exact ⟨read, refused, left _ _ refused rfl⟩

end Service

end EdmQuery
