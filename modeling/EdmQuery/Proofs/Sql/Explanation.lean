import Mathlib
import EdmQuery.Proofs.Expr.Alternatives
import EdmQuery.Proofs.Expr.Scoping
import EdmQuery.Proofs.Query.Pushdown

/-! What is explained of a query is what the query sends, if it leaves nothing to memory. -/

namespace EdmQuery

/-- A resolver finds the tables that another one finds. -/
def Resolver.Within (small large : Resolver) : Prop :=
  ∀ name table, small name = some table → large name = some table

/-- Wherever a step succeeds, another one does the same. -/
def Compile.Extends {α : Type} (step step' : Compile α) : Prop :=
  ∀ b a after, step.run b = (.ok a, after) → step'.run b = (.ok a, after)

namespace Compile.Extends

variable {α β : Type} {step step' : Compile α} {r r' : Except SqlError α}

/-- A step does what it does itself. -/
protected theorem refl (step : Compile α) : Extends step step :=
  fun _ _ _ done => done

/-- Two steps do what two others do when each does. -/
theorem bind {next next' : α → Compile β} (first : Extends step step')
    (second : ∀ a, Extends (next a) (next' a)) : Extends (step >>= next) (step' >>= next') := by
  intro b r after done
  obtain ⟨a, between, found, done⟩ := run_bind_ok done
  rw [run_bind, first _ _ _ found]
  exact second a _ _ _ done

/-- Steps behind outcomes that are known beforehand only have to agree on a success. -/
theorem known_bind {next next' : α → Compile β} (same : ∀ a, r = .ok a → r' = .ok a)
    (second : ∀ a, Extends (next a) (next' a)) :
    Extends (known r >>= next) (known r' >>= next') := by
  intro b t after done
  obtain ⟨a, found, done⟩ := run_known_bind_ok done
  rw [same a found]
  exact second a _ _ _ done

/-- A step that does the same under some condition may be refused otherwise. -/
theorem guarded {p : Prop} [Decidable p] {reason : String} {next next' : Unit → Compile β}
    (first : Extends (next ()) (next' ())) :
    Extends (if p then unsupported reason >>= next else next ())
      (if p then unsupported reason >>= next' else next' ()) := by
  split
  · exact .bind (.refl _) fun _ => first
  · exact first

end Compile.Extends

open Compile

section

variable {ctx : SqlContext} {large : Resolver}

/-- A table that is found is found among more tables as well. -/
theorem Resolver.Within.table {small : Resolver} (within : small.Within large) {target : String}
    {table : Table} (found : small.table target = .ok table) : large.table target = .ok table := by
  rw [Resolver.table, within _ _ (table_ok found)]

/-- Tables that are tied together are tied alike where there are more tables. -/
theorem correlate_within (within : ctx.resolve.Within large) {parent : TableFrame} {n : Navigation}
    {target : String} {tied : Table × String × Column}
    (ties : correlate ctx parent n target = .ok tied) :
    correlate { ctx with resolve := large } parent n target = .ok tied := by
  obtain ⟨con, sole, ties⟩ := bind_ok ties
  obtain ⟨table, resolved, ties⟩ := bind_ok ties
  rw [correlate, sole]
  show (large.table target >>= _) = _
  rw [within.table resolved]
  exact ties

namespace Expression

/-- The joins of several expressions stay when those of each one do. -/
theorem joinsFromList_within {small : Resolver} {root current : PathEnd} {items : List Expression}
    {joins : List Join}
    (each : ∀ x ∈ items, ∀ joins, joinsFrom small root current x = .ok joins →
      joinsFrom large root current x = .ok joins)
    (found : joinsFromList small root current items = .ok joins) :
    joinsFromList large root current items = .ok joins := by
  induction items generalizing joins with
  | nil => exact found
  | cons x rest ih =>
    obtain ⟨first, others⟩ := List.forall_mem_cons.mp each
    rw [joinsFromList] at found ⊢
    obtain ⟨joinsOfFirst, foundFirst, found⟩ := bind_ok found
    obtain ⟨joinsOfRest, foundRest, found⟩ := bind_ok found
    rw [first _ foundFirst, ih others foundRest]
    exact found

/-- The joins that are found for an expression stay the same where there are more tables. -/
theorem joinsFrom_within {small : Resolver} (within : small.Within large) {root current : PathEnd}
    {x : Expression} {joins : List Join} (found : joinsFrom small root current x = .ok joins) :
    joinsFrom large root current x = .ok joins := by
  induction x using Expression.induction generalizing current joins with
  | hop scope n target inner ih =>
    cases scope with
    | bound name =>
      rw [joinsFrom] at found ⊢
      exact found
    | _ =>
      rw [joinsFrom] at found ⊢
      · obtain ⟨con, sole, found⟩ := bind_ok found
        obtain ⟨table, resolved, found⟩ := bind_ok found
        obtain ⟨column, remote, found⟩ := bind_ok found
        obtain ⟨related, local_, found⟩ := bind_ok found
        obtain ⟨more, foundMore, found⟩ := bind_ok found
        simp only [sole, within.table resolved, remote, local_, ih foundMore, Bind.bind,
          Except.bind]
        exact found
      · simp
      · simp
  | not operand ih | negate operand ih =>
    rw [joinsFrom] at found ⊢
    exact ih found
  | binary op left right ihLeft ihRight =>
    rw [joinsFrom] at found ⊢
    obtain ⟨l, foundL, found⟩ := bind_ok found
    obtain ⟨r, foundR, found⟩ := bind_ok found
    rw [ihLeft foundL, ihRight foundR]
    exact found
  | oneOf operand items ih ihItems =>
    rw [joinsFrom] at found ⊢
    obtain ⟨l, foundL, found⟩ := bind_ok found
    obtain ⟨r, foundR, found⟩ := bind_ok found
    rw [ih foundL, joinsFromList_within (fun x mem _ => ihItems x mem) foundR]
    exact found
  | call f arguments type ihItems =>
    rw [joinsFrom] at found ⊢
    exact joinsFromList_within (fun x mem _ => ihItems x mem) found
  | _ =>
    simp only [joinsFrom] at found ⊢
    exact found

/-- Several expressions have the same terms when each one has. -/
theorem terms_within {locals : List (String × TableFrame)} {current : TableFrame}
    {items : List Expression}
    (each : ∀ x ∈ items,
      Extends (x.term ctx locals current) (x.term { ctx with resolve := large } locals current)) :
    Extends (terms ctx locals current items)
      (terms { ctx with resolve := large } locals current items) := by
  induction items with
  | nil => exact .refl _
  | cons x rest ih =>
    obtain ⟨first, others⟩ := List.forall_mem_cons.mp each
    rw [terms, terms]
    exact .bind first fun _ => .bind (ih others) fun _ => .refl _

/-- The term of an expression stays the same where there are more tables. -/
theorem term_within (within : ctx.resolve.Within large) (x : Expression)
    (locals : List (String × TableFrame)) (current : TableFrame) :
    Extends (x.term ctx locals current) (x.term { ctx with resolve := large } locals current) := by
  -- Only hops and quantifiers look for tables; every other step is the same in both.
  induction x using Expression.induction generalizing locals current with
  | literal value =>
    rw [term, term]
    exact .refl _
  | property scope p =>
    rw [term, term]
    exact .refl _
  | hop scope n target inner ih =>
    rw [term, term]
    have joined (parent : Option String) : Extends
        (do
          let table ← known (ctx.resolve.table target)
          inner.term ctx locals ⟨joinAlias parent n.name, table.type⟩)
        (do
          let table ← known (large.table target)
          inner.term { ctx with resolve := large } locals
            ⟨joinAlias parent n.name, table.type⟩) :=
      .known_bind (fun _ => within.table) fun _ => ih locals _
    refine .bind (.refl _) fun b => ?_
    cases scope with
    | root => exact .guarded (.bind (.refl _) joined)
    | current => exact .guarded (.bind (.refl _) joined)
    | bound name => exact .guarded (.bind (.refl _) joined)
  | item name element =>
    rw [term, term]
    exact .refl _
  | not operand ih =>
    rw [term, term]
    exact .bind (ih locals current) fun _ => .refl _
  | negate operand ih =>
    rw [term, term]
    split
    · exact .refl _
    · exact .bind (ih locals current) fun _ => .refl _
  | binary op left right ihLeft ihRight =>
    have first := ihLeft locals current
    have second := ihRight locals current
    rw [term, term]
    split
    · exact .bind second fun _ => .refl _
    split
    · exact .bind first fun _ => .refl _
    split
    · exact .refl _
    · exact .bind first fun _ => .bind second fun _ => .refl _
  | oneOf operand items ih ihItems =>
    rw [term, term]
    exact .bind (ih locals current) fun _ =>
      .bind (terms_within fun x mem => ihItems x mem locals current) fun _ => .refl _
  | call f arguments type ihItems =>
    rw [term, term]
    exact .bind (.refl _) fun _ =>
      .bind (terms_within fun x mem => ihItems x mem locals current) fun _ => .refl _
  | nonEmpty scope source =>
    rw [term, term]
    exact .bind (.refl _) fun _ => .bind (.refl _) fun _ =>
      .known_bind (fun _ => correlate_within within) fun _ => .refl _
  | quantified scope source quantifier name predicate ih =>
    rw [term, term]
    exact .bind (.refl _) fun _ => .bind (.refl _) fun _ =>
      .known_bind (fun _ => correlate_within within) fun _ => .bind (.refl _) fun _ =>
      .bind (ih _ _) fun _ => .refl _

end Expression

/-- A filter that compiles has the same condition and joins where there are more tables. -/
theorem compileFilter_within (within : ctx.resolve.Within large) (filter : Expression) :
    Extends (compileFilter ctx filter) (compileFilter { ctx with resolve := large } filter) := by
  refine .known_bind (fun joins found => ?_) fun joins => .bind (.refl _) fun _ =>
    filter.term_within within [] ctx.rootFrame
  obtain ⟨all, looked, rfl⟩ := map_ok found
  rw [discoverJoins, Expression.joinsFrom_within within looked]
  rfl

/-- A search looks for no tables. -/
theorem compileSearch_within (ctx : SqlContext) (large : Resolver) (caseSensitive : Bool)
    (search : Search) : compileSearch { ctx with resolve := large } caseSensitive search
      = compileSearch ctx caseSensitive search := by
  induction search with
  | term text => rfl
  | and l r ihL ihR => rw [compileSearch, compileSearch, ihL, ihR]
  | or l r ihL ihR => rw [compileSearch, compileSearch, ihL, ihR]
  | not x ih => rw [compileSearch, compileSearch, ih]

/-- The condition of a stage, if there is the stage. -/
def stageTerm {α : Type} (stage : Option α) (compile : α → Compile SqlTerm) :
    Compile (Option SqlTerm) :=
  match stage with
  | none => pure none
  | some stage => some <$> compile stage

/-- What is explained are the conditions of both stages and the order, one after the other. -/
theorem explainSteps_eq (config : Config) (ctx : SqlContext) (s : Stages) :
    explainSteps config ctx s = do
      let filter ← stageTerm s.filter (compileFilter ctx)
      let search ← stageTerm s.search (compileSearch ctx config.caseSensitive)
      let order ← known (compileOrder ctx.table.type s.orderby)
      return ⟨ctx.table, (← get).joins, filter.toList ++ search.toList, order, s.skip, s.top⟩ := by
  unfold explainSteps stageTerm
  cases s.filter <;> cases s.search <;> rfl

variable {config : Config} {s : Stages} {plan : Plan} {b after : Builder}

/-- The condition of a stage stays where those of all such stages do. -/
theorem stageTerm_extends {α : Type} {stage : Option α} {compile compile' : α → Compile SqlTerm}
    (each : ∀ a, Extends (compile a) (compile' a)) :
    Extends (stageTerm stage compile) (stageTerm stage compile') := by
  cases stage with
  | none => exact .refl _
  | some a =>
    rw [stageTerm, stageTerm, map_eq_pure_bind, map_eq_pure_bind]
    exact .bind (each a) fun _ => .refl _

/-- A stage is pushed as it compiles, or it is left to memory and leaves nothing behind. -/
theorem tryStage_ok {α : Type} {stage : Option α} {compile : α → Compile SqlTerm}
    {condition : Option SqlTerm}
    (tried : tryStage config stage compile b = .ok (condition, after)) :
    (stageTerm stage compile).run b = (.ok condition, after) ∨
      condition = none ∧ stage ≠ none ∧ ∃ rest : Builder, after =
        ⟨rest.parameters.take b.parameters.length, rest.joins.take b.joins.length, 0⟩ := by
  cases stage with
  | none =>
    cases tried
    exact .inl rfl
  | some a =>
    rw [tryStage, tryCondition] at tried
    simp only [attempt, ExceptT.run_mk] at tried
    rcases done : (compile a).run b with ⟨fault | term, rest⟩
    · rw [done] at tried
      cases fault with
      | unsupported reason =>
        obtain ⟨_, -, made⟩ := map_ok tried
        cases made
        exact .inr ⟨rfl, Option.some_ne_none a, rest, rfl⟩
      | _ => cases tried
    · rw [done] at tried
      cases tried
      rw [stageTerm, map_eq_pure_bind, run_bind, done]
      exact .inl rfl

/-- A stage of which nothing is left has been pushed. -/
theorem stageTerm_of_pushed {α : Type} {stage : Option α} {compile : α → Compile SqlTerm}
    {condition : Option SqlTerm} (tried : tryStage config stage compile b = .ok (condition, after))
    (whole : (if condition.isSome then none else stage) = none) :
    (stageTerm stage compile).run b = (.ok condition, after) := by
  obtain done | ⟨rfl, there, -⟩ := tryStage_ok tried
  · exact done
  · exact absurd whole there

/-- An order that is left to memory has a key. -/
theorem pushOrder_none {keys : List SortKey} (pushed : pushOrder config ctx keys = .ok none) :
    keys ≠ [] := by
  rintro rfl
  cases pushed

/-- An order that is pushed has the terms of its keys. -/
theorem pushOrder_some {keys : List SortKey} {terms : List OrderTerm}
    (pushed : pushOrder config ctx keys = .ok (some terms)) :
    compileOrder ctx.table.type keys = .ok terms := by
  rw [pushOrder] at pushed
  split at pushed
  · rename_i compiled
    cases pushed
    exact compiled
  · obtain ⟨_, -, made⟩ := map_ok pushed
    cases made
  · cases pushed

/-- What is pushed are the conditions of filter and search, one after the other. -/
theorem pushDown_ok {pushed : Pushed} (done : pushDown config ctx s = .ok (pushed, b)) :
    ∃ filter search between,
      tryStage config s.filter (compileFilter ctx) .empty = .ok (filter, between) ∧
      tryStage config s.search (compileSearch ctx config.caseSensitive) between
        = .ok (search, b) ∧
      pushed = ⟨filter.toList ++ search.toList, { s with
        filter := if filter.isSome then none else s.filter
        search := if search.isSome then none else s.search }⟩ := by
  obtain ⟨⟨filter, between⟩, first, done⟩ := bind_ok done
  obtain ⟨⟨search, last⟩, second, done⟩ := bind_ok done
  cases done
  exact ⟨filter, search, between, first, second, rfl⟩

/-- A plan of rows has the order and the page, or it leaves what is left of the stages to memory. -/
theorem planRows_ok (planned : planRows config ctx s = .ok plan) :
    ∃ pushed b terms, pushDown config ctx s = .ok (pushed, b) ∧ plan.parameters = b.parameters ∧
      (pushed.isComplete = true ∧ compileOrder ctx.table.type s.orderby = .ok terms ∧
        plan.select = ⟨ctx.table, b.joins, pushed.conditions, terms, s.skip, s.top⟩ ∨
      (pushed.isComplete = true → s.orderby ≠ []) ∧ plan.remaining = pushed.remaining ∧
        plan.select = ⟨ctx.table, b.joins, pushed.conditions, terms, none, none⟩) := by
  obtain ⟨⟨pushed, b⟩, done, planned⟩ := bind_ok planned
  dsimp only at planned
  split at planned
  · rename_i complete
    obtain ⟨order, ordered, planned⟩ := bind_ok planned
    cases order with
    | none =>
      cases planned
      exact ⟨pushed, b, _, done, rfl, .inr ⟨fun _ => pushOrder_none ordered, rfl, rfl⟩⟩
    | some terms =>
      cases planned
      exact ⟨pushed, b, terms, done, rfl, .inl ⟨complete, pushOrder_some ordered, rfl⟩⟩
  · rename_i incomplete
    cases planned
    exact ⟨pushed, b, _, done, rfl, .inr ⟨fun complete => absurd complete incomplete, rfl, rfl⟩⟩

/-- A plan that leaves nothing to memory has the conditions of both stages, the order and page. -/
theorem planRows_whole (planned : planRows config ctx s = .ok plan)
    (whole : plan.remaining = .empty) :
    ∃ pushed b terms, pushDown config ctx s = .ok (pushed, b) ∧ pushed.isComplete = true ∧
      compileOrder ctx.table.type s.orderby = .ok terms ∧ plan.parameters = b.parameters ∧
      plan.select = ⟨ctx.table, b.joins, pushed.conditions, terms, s.skip, s.top⟩ := by
  obtain ⟨pushed, b, terms, done, parameters, ⟨complete, ordered, select⟩ | ⟨partly, left, -⟩⟩ :=
    planRows_ok planned
  · exact ⟨pushed, b, terms, done, complete, ordered, parameters, select⟩
  · -- Nothing is left of the filter and the search, so it is the order that was not pushed.
    obtain ⟨filter, search, -, -, -, rfl⟩ := pushDown_ok done
    obtain ⟨noFilter, noSearch, noOrder, -⟩ := Stages.mk.inj (left.symm.trans whole)
    refine absurd noOrder (partly ?_)
    rw [Pushed.isComplete, noFilter, noSearch]
    rfl

/--
A plan of rows that leaves nothing to memory asks for what is explained.

This also holds where the explanation finds more tables.
-/
theorem explainSteps_of_planRows (within : ctx.resolve.Within large)
    (planned : planRows config ctx s = .ok plan) (whole : plan.remaining = .empty) :
    ∃ b, (explainSteps config { ctx with resolve := large } s).run .empty = (.ok plan.select, b) ∧
      b.parameters = plan.parameters := by
  -- All stages were pushed, and whatever was pushed is a success that the explanation repeats.
  obtain ⟨pushed, b, terms, done, complete, ordered, parameters, select⟩ :=
    planRows_whole planned whole
  obtain ⟨filter, search, between, first, second, rfl⟩ := pushDown_ok done
  rw [Pushed.isComplete, Bool.and_eq_true, Option.isNone_iff_eq_none,
    Option.isNone_iff_eq_none] at complete
  have filters : (stageTerm s.filter (compileFilter { ctx with resolve := large })).run .empty
      = (.ok filter, between) :=
    stageTerm_extends (compileFilter_within within) _ _ _ (stageTerm_of_pushed first complete.1)
  have searches : (stageTerm s.search (compileSearch { ctx with resolve := large }
      config.caseSensitive)).run between = (.ok search, b) :=
    stageTerm_extends (fun search => compileSearch_within ctx large _ search ▸ .refl _) _ _ _
      (stageTerm_of_pushed second complete.2)
  refine ⟨b, ?_, parameters.symm⟩
  rw [explainSteps_eq, run_bind, filters]
  dsimp only
  rw [run_bind, searches, select]
  dsimp only
  rw [ordered]
  rfl

end

namespace Service

/-- The tables of a database are among those that stand for sets in explanations. -/
theorem resolver_within {m : Type → Type} (v : Service m) (provider : Nat) :
    (v.resolver provider).Within fun name => (v.model.set? name).map tableOf := by
  intro name table resolved
  obtain ⟨set, present, backed⟩ := Option.bind_eq_some_iff.mp resolved
  show (v.model.set? name).map tableOf = some table
  rw [present, Option.map_some, tableOf]
  cases held : set.backing with
  | memory =>
    rw [held] at backed
    cases backed
  | table own database =>
    rw [held] at backed
    dsimp only at backed ⊢
    split at backed
    · exact backed
    · cases backed

/--
A query that leaves nothing to memory sends what is explained of it.

Explanations know a table for every set of the model, the query only those of its own database.
-/
theorem queries_send_what_is_explained {m : Type → Type} [Monad m] [LawfulMonad m] {v : Service m}
    {s : EntitySet} {table : String} {provider : Nat} {o : QueryOptions} {plan : Plan}
    (present : v.model.set? s.name = some s) (backed : s.backing = .table table provider)
    (configured : v.databases.dialect provider = v.model.config.dialect)
    (planned : planRows v.model.config (v.sqlContext s table provider) o.stages = .ok plan)
    (whole : plan.remaining = .empty) :
    ∃ statement, explain v.model s.name o.stages = .ok statement ∧
      v.query s o = (do
        ensure s .query
        let rows ← v.databases.withConnection provider (v.databases.rows provider statement)
        let entities ← settled (materialize s.type rows)
        Stages.empty.run .throughFaults v.related v.model.config.caseSensitive (v.finish o)
          (entities.map .ok)) := by
  have explained : explain v.model s.name o.stages
      = .ok (plan.statement (v.databases.dialect provider)) := by
    obtain ⟨b, done, parameters⟩ :=
      explainSteps_of_planRows (v.resolver_within provider) planned whole
    have done : (explainSteps v.model.config ⟨v.model.config.dialect, tableOf s,
        fun name => (v.model.set? name).map tableOf⟩ o.stages).run .empty
          = (.ok plan.select, b) := by
      rw [tableOf, backed, ← configured]
      exact done
    simp only [explain, present, Option.map_some, done, parameters]
    rw [Plan.statement, configured]
  refine ⟨_, explained, ?_⟩
  simp only [query, stream, fetch, backed, planned, settled_ok_bind, whole, bind_assoc, pure_bind]
  rfl

/-- The first two gears, from the greatest number on, whose twins have a number above one. -/
def gearOptions : QueryOptions :=
  ⟨⟨some (.binary .gt twinNumber (.literal (.integer 1))), none,
    [⟨⟨"number", .primitive (.integer .int32), true, false, none⟩, true⟩], none, some 2⟩,
    false, none, []⟩

/-- The selection of these gears, with their twins joined. -/
def gearSelect : Select :=
  ⟨⟨"gears", gearType⟩, [⟨"twin", "gears", "number", ⟨rootAlias, "number"⟩⟩],
    [.binary .gt (.column ⟨"twin", "number"⟩) (.parameter 1)], [⟨"number", true⟩], none, some 2⟩

/-- The statement that selects them. -/
def gearStatement : Statement :=
  ⟨"SELECT \"$it\".\"number\" AS \"number\" FROM \"gears\" AS \"$it\" " ++
    "LEFT JOIN \"gears\" AS \"twin\" ON \"twin\".\"number\" = \"$it\".\"number\" " ++
    "WHERE (\"twin\".\"number\" > ?1) ORDER BY \"$it\".\"number\" DESC LIMIT 2", [.integer 1]⟩

/-- A query of gears by their twins sends the statement that is explained of it. -/
theorem queries_send_what_is_explained_of_gears :
    QueryOptions.parse gearService.model gearSet
        ⟨[(.filter, "twin/number gt 1"), (.orderby, "number desc"), (.top, "2")]⟩
        = .ok gearOptions ∧
      explain gearService.model "gears" gearOptions.stages = .ok gearStatement ∧
      gearService.query gearSet gearOptions = (do
        ensure gearSet .query
        let rows ← gearService.databases.withConnection 0
          (gearService.databases.rows 0 gearStatement)
        let entities ← settled (materialize gearType rows)
        Stages.empty.run .throughFaults gearService.related gearService.model.config.caseSensitive
          (gearService.finish gearOptions) (entities.map .ok)) := by
  have parsed : QueryOptions.parse gearService.model gearSet
      ⟨[(.filter, "twin/number gt 1"), (.orderby, "number desc"), (.top, "2")]⟩
        = .ok gearOptions := by cbv
  have text : gearSelect.text .sqlite = gearStatement.sql := by decide +kernel
  have explained : explain gearService.model "gears" gearOptions.stages = .ok gearStatement := by
    show Except.ok (⟨gearSelect.text .sqlite, [.integer 1]⟩ : Statement) = _
    rw [text]
    rfl
  have planned : ∃ plan, planRows gearService.model.config
      (gearService.sqlContext gearSet "gears" 0) gearOptions.stages = .ok plan ∧
        plan.remaining = .empty := ⟨_, rfl, rfl⟩
  obtain ⟨plan, planned, whole⟩ := planned
  obtain ⟨statement, same, sent⟩ := queries_send_what_is_explained rfl rfl rfl planned whole
  cases explained.symm.trans same
  exact ⟨parsed, explained, sent⟩

end Service

end EdmQuery
