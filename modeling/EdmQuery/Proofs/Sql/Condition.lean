import Mathlib
import EdmQuery.Proofs.Edm.Model
import EdmQuery.Proofs.Expr.Reading
import EdmQuery.Sql.Condition

/-! Filters over a built model become SQL, or they contain something that has no SQL form. -/

namespace EdmQuery

-- The equations of compilation are made here, so that the proofs behind do not wait for them.
section

attribute [local simp] Expression.term Expression.terms joinsFrom joinsFromList

end

section

variable {α β : Type}

/-- A step before another one hands on its value, or its fault ends both. -/
theorem run_bind (step : Compile α) (next : α → Compile β) (b : Builder) :
    (step >>= next).run b =
      match step.run b with
      | (.ok a, after) => (next a).run after
      | (.error fault, after) => (.error fault, after) := by
  simp only [ExceptT.run, Bind.bind, ExceptT.bind, ExceptT.mk, StateT.bind]
  rcases step b with ⟨_ | _, after⟩ <;> rfl

/-- Two steps succeed together when both do, one after the other. -/
theorem run_bind_ok {step : Compile α} {next : α → Compile β} {b after : Builder} {r : β}
    (done : (step >>= next).run b = (.ok r, after)) :
    ∃ a between, step.run b = (.ok a, between) ∧ (next a).run between = (.ok r, after) := by
  rw [run_bind] at done
  rcases found : step.run b with ⟨fault | a, between⟩
  · rw [found] at done
    cases done
  · rw [found] at done
    exact ⟨a, between, rfl, done⟩

/-- A step behind an outcome that is known beforehand succeeds with its value. -/
theorem run_known_bind_ok {r : Except SqlError α} {next : α → Compile β} {b after : Builder}
    {t : β} (done : (known r >>= next).run b = (.ok t, after)) :
    ∃ a, r = .ok a ∧ (next a).run b = (.ok t, after) := by
  cases r with
  | error fault => cases done
  | ok a => exact ⟨a, rfl, done⟩

/-- A step whose only faults are about what has no SQL form. -/
def OnlyUnsupported (step : Compile α) : Prop :=
  ∀ b fault after, step.run b = (.error fault, after) → ∃ reason, fault = .unsupported reason

namespace OnlyUnsupported

/-- A step that returns a value has no faults. -/
theorem pure (a : α) : OnlyUnsupported (Pure.pure a) := by
  intro b fault after failed
  cases failed

/-- Two steps have the faults of both. -/
theorem bind {step : Compile α} {next : α → Compile β} (first : OnlyUnsupported step)
    (second : ∀ a, OnlyUnsupported (next a)) : OnlyUnsupported (step >>= next) := by
  intro b fault after failed
  rw [run_bind] at failed
  rcases found : step.run b with ⟨_ | a, between⟩
  · rw [found] at failed
    cases failed
    exact first b _ _ found
  · rw [found] at failed
    exact second a between fault after failed

/-- Steps that only look at or change what has been gathered have no faults. -/
theorem of_total {step : Compile α} (total : ∀ b, ∃ a after, step.run b = (.ok a, after)) :
    OnlyUnsupported step := by
  intro b fault after failed
  obtain ⟨a, after', done⟩ := total b
  rw [done] at failed
  cases failed

/-- A refusal is about what has no SQL form. -/
theorem refused (reason : String) : OnlyUnsupported (unsupported reason : Compile α) := by
  intro b fault after failed
  cases failed
  exact ⟨reason, rfl⟩

/-- A step behind an outcome that is known beforehand can rely on what it is. -/
theorem known_bind {r : Except SqlError α} {next : α → Compile β}
    (sound : ∀ fault, r = .error fault → ∃ reason, fault = .unsupported reason)
    (second : ∀ a, r = .ok a → OnlyUnsupported (next a)) :
    OnlyUnsupported (known r >>= next) := by
  cases r with
  | error fault =>
    intro b fault' after failed
    cases failed
    exact sound _ rfl
  | ok a => exact second a rfl

end OnlyUnsupported

end

/-- A frame of a set of the model. -/
def Frame.Known (m : Model) (frame : Frame) : Prop :=
  ∃ set, m.set? frame.set = some set ∧ set.type = frame.type

/-- Tables that sets resolve to have the entity types of the sets. -/
def Resolver.Own (m : Model) (resolve : Resolver) : Prop :=
  ∀ name table, resolve name = some table → ∃ set, m.set? name = some set ∧ table.type = set.type

/-- The frames of the variables that stand for entities. -/
def framesOf (binders : List Binder) : List (String × Frame) :=
  binders.filterMap fun
    | .entity name target => some (name, target)
    | .element _ _ => none

/-- The tables of the variables that stand for entities, under their names. -/
def localsOf (binders : List Binder) : List (String × TableFrame) :=
  (framesOf binders).map fun (name, target) => (name, ⟨name, target.type⟩)

/-- A variable that stands for an entity has its frame. -/
theorem lookup_framesOf {binders : List Binder} {name : String} {target : Frame}
    (found : binders.find? (·.name == name) = some (.entity name target)) :
    (framesOf binders).lookup name = some target := by
  induction binders with
  | nil => cases found
  | cons b rest ih =>
    rw [List.find?_cons] at found
    cases b with
    | entity other frame =>
      by_cases same : other = name
      · simp only [Binder.name, same, beq_self_eq_true, Option.some.injEq, Binder.entity.injEq,
          true_and] at found
        simp [framesOf, same, found]
      · simp only [Binder.name, beq_eq_false_iff_ne.mpr same] at found
        have := ih found
        rw [framesOf] at this
        simpa [framesOf, List.lookup_cons, beq_eq_false_iff_ne.mpr (Ne.symm same)] using this
    | element other type =>
      by_cases same : other = name
      · simp [Binder.name, same] at found
      · simp only [Binder.name, beq_eq_false_iff_ne.mpr same] at found
        exact ih found

/-- A variable that stands for an entity has the table of its frame. -/
theorem lookup_localsOf {binders : List Binder} {name : String} {target : Frame}
    (found : binders.find? (·.name == name) = some (.entity name target)) :
    (localsOf binders).lookup name = some ⟨name, target.type⟩ := by
  have framed := lookup_framesOf found
  rw [localsOf]
  generalize framesOf binders = frames at framed
  induction frames with
  | nil => cases framed
  | cons frame rest ih =>
    rw [List.map_cons, List.lookup_cons]
    rw [List.lookup_cons] at framed
    cases same : name == frame.1 with
    | true =>
      simp only [same, Option.some.injEq] at framed
      rw [framed, eq_of_beq same]
    | false =>
      simp only [same] at framed
      exact ih framed

section

variable {d : Draft} {c : FilterContext} {tokens : List Token} {ctx : SqlContext}

/-- A table that a set has no entry for, and nothing else, makes the look-up fail. -/
theorem table_fault {resolve : Resolver} {set : String} {fault : SqlError}
    (failed : resolve.table set = .error fault) : ∃ reason, fault = .unsupported reason := by
  rw [Resolver.table] at failed
  split at failed
  · cases failed
  · cases failed
    exact ⟨_, rfl⟩

/-- A table that was looked up is the one that its set resolves to. -/
theorem table_ok {resolve : Resolver} {target : String} {table : Table}
    (found : resolve.table target = .ok table) : resolve target = some table := by
  rw [Resolver.table] at found
  split at found
  · rename_i resolved
    cases found
    exact resolved
  · cases found

/-- The table that a set resolves to has the type of the set. -/
theorem Resolver.Own.type_eq {m : Model} {resolve : Resolver} (own : resolve.Own m)
    {target : String} {set : EntitySet} (present : m.set? target = some set) {table : Table}
    (resolved : resolve target = some table) : table.type = set.type := by
  obtain ⟨set', present', same⟩ := own _ _ resolved
  cases present.symm.trans present'
  exact same

/-- A bound navigation property ties tables together by the columns of its only constraint. -/
theorem correlate_eq (built : d.build = .ok c.model) (own : ctx.resolve.Own c.model)
    {frame : Frame} {name target : String} {n : Navigation} {set : EntitySet}
    (known : frame.Known c.model) (found : frame.type.navigation? name = some n)
    (bound : c.model.target? frame.set name = some target)
    (present : c.model.set? target = some set) {parent : TableFrame}
    (typed : parent.type = frame.type) :
    ∃ con p q, n.constraint? = some con ∧ frame.type.property? con.property = some p ∧
      set.type.property? con.referenced = some q ∧
      correlate ctx parent n target = (ctx.resolve.table target).map fun table =>
        (table, q.column, ⟨parent.tableAlias, p.column⟩) := by
  obtain ⟨source, inModel, sameType⟩ := known
  obtain ⟨con, p, q, only, local_, remote⟩ :=
    Model.navigation_joins built inModel (sameType ▸ found) bound present
  refine ⟨con, p, q, only, sameType ▸ local_, remote, ?_⟩
  have sole : soleConstraint n = .ok con := by rw [soleConstraint, only]
  simp only [correlate, sole, Bind.bind, Except.bind]
  cases resolved : ctx.resolve.table target with
  | error fault => rfl
  | ok table =>
    have typedTable := own.type_eq present (table_ok resolved)
    simp [columnOf, typedTable, remote, typed, ← sameType, local_, Pure.pure, Except.pure,
      Except.map]

/-- Tables are not tied together only where there is none for the set. -/
theorem correlate_fault {r : Except SqlError (Table × String × Column)} {target : String}
    {f : Table → Table × String × Column} (tied : r = (ctx.resolve.table target).map f)
    {fault : SqlError} (failed : r = .error fault) : ∃ reason, fault = .unsupported reason := by
  rw [tied] at failed
  cases resolved : ctx.resolve.table target with
  | error fault' =>
    rw [resolved] at failed
    cases failed
    exact table_fault resolved
  | ok table =>
    rw [resolved] at failed
    cases failed

/-- The scopes that paths start from have the tables of their frames. -/
def Behind (ctx : SqlContext) (m : Model) (binders : List Binder) (scope : Scope)
    (frame : Frame) : Prop :=
  frame.Known m ∧
    ∀ parent, ctx.frame (localsOf binders) scope = .ok parent → parent.type = frame.type

/-- The entities that variables stand for come from sets of the model. -/
def KnownBinders (m : Model) (binders : List Binder) : Prop :=
  ∀ name target, .entity name target ∈ binders → target.Known m

/-- A frame is missing only where a scope has no table of its own. -/
theorem frame_fault {locals : List (String × TableFrame)} {scope : Scope} {fault : SqlError}
    (failed : ctx.frame locals scope = .error fault) : ∃ reason, fault = .unsupported reason := by
  cases scope with
  | root => cases failed
  | current =>
    cases failed
    exact ⟨_, rfl⟩
  | bound name =>
    simp only [SqlContext.frame] at failed
    split at failed
    · cases failed
    · cases failed
      exact ⟨_, rfl⟩

/-- What a quantifier over a property's items lacks is an SQL form. -/
theorem relatedSource_fault {source : Source} {fault : SqlError}
    (failed : relatedSource source = .error fault) : ∃ reason, fault = .unsupported reason := by
  cases source with
  | related n target => cases failed
  | items p =>
    cases failed
    exact ⟨_, rfl⟩

/-- A template is missing for functions that have no SQL form. -/
theorem templateFor_fault {f : BuiltIn} {arity : Nat} {fault : SqlError}
    (failed : templateFor ctx.dialect f arity = .error fault) :
    ∃ reason, fault = .unsupported reason := by
  rw [templateFor] at failed
  split at failed
  · cases failed
    exact ⟨_, rfl⟩
  · split at failed
    · cases failed
      exact ⟨_, rfl⟩
    · cases failed

/-- A literal becomes a parameter or a constant, unless it is a collection. -/
theorem onlyUnsupported_literal (value : Value) : OnlyUnsupported (literalTerm value) := by
  rcases value with _ | s | _
  · exact .pure _
  · cases s with
    | enum e n => exact .pure _
    | _ => exact .of_total fun b => ⟨_, _, rfl⟩
  · exact .refused _

namespace Expression

/-- The terms of expressions fail as the terms of each of them do. -/
theorem onlyUnsupported_terms {locals : List (String × TableFrame)} {current : TableFrame}
    {items : List Expression} (each : ∀ x ∈ items, OnlyUnsupported (x.term ctx locals current)) :
    OnlyUnsupported (terms ctx locals current items) := by
  induction items with
  | nil => exact .pure _
  | cons x rest ih =>
    rw [terms]
    obtain ⟨first, others⟩ := List.forall_mem_cons.mp each
    exact .bind first fun _ => .bind (ih others) fun _ => .pure _

/-- Over a built model, the term of a filter is missing only for what has no SQL form. -/
theorem ReadFrom.onlyUnsupported (built : d.build = .ok c.model) (own : ctx.resolve.Own c.model)
    (rootKnown : c.root.Known c.model) (rootTyped : ctx.table.type = c.root.type)
    {binders : List Binder} {start : Option (Scope × Frame)} {x : Expression}
    (read : x.ReadFrom c tokens binders start) (known : KnownBinders c.model binders)
    (behind : ∀ scope frame, start = some (scope, frame) → Behind ctx c.model binders scope frame)
    (current : TableFrame) :
    OnlyUnsupported (x.term ctx (localsOf binders) current) := by
  induction read generalizing current with
  | literal _ _ => exact onlyUnsupported_literal _
  | rooted _ ih =>
    refine ih known (fun scope frame same => ?_) current
    cases same
    refine ⟨rootKnown, fun parent found => ?_⟩
    cases found
    exact rootTyped
  | through found _ ih =>
    refine ih known (fun scope frame same => ?_) current
    cases same
    refine ⟨known _ _ (List.mem_of_find?_eq_some found), fun parent present => ?_⟩
    simp only [SqlContext.frame, lookup_localsOf found] at present
    cases present
    rfl
  | item _ => exact .refused _
  | not _ _ ih =>
    rw [term]
    exact .bind (ih known (by simp) current) fun _ => .pure _
  | negate _ _ ih =>
    rw [term]
    split
    · exact .refused _
    · exact .bind (ih known (by simp) current) fun _ => .pure _
  | binary _ _ _ ihL ihR =>
    rw [term]
    have left := ihL known (by simp) current
    have right := ihR known (by simp) current
    split
    · exact .bind right fun _ => .pure _
    split
    · exact .bind left fun _ => .pure _
    split
    · exact .refused _
    · refine .bind left fun _ => .bind right fun _ => ?_
      split <;> exact .pure _
  | oneOf _ _ _ _ ih ihItems =>
    rw [term]
    exact .bind (ih known (by simp) current) fun _ => .bind
      (onlyUnsupported_terms fun x mem => ihItems x mem known (by simp) current) fun _ => .pure _
  | call _ _ ihItems =>
    rw [term]
    exact .known_bind (fun _ => templateFor_fault) fun _ _ => .bind
      (onlyUnsupported_terms fun x mem => ihItems x mem known (by simp) current) fun _ => .pure _
  | property _ _ _ _ =>
    rw [term]
    split
    · exact .bind (.pure _) fun _ => .pure _
    · exact .known_bind (fun _ => frame_fault) fun _ _ => .pure _
  | @hop binders scope frame t n target set inner mem named unshadowed found single bound present _
      ih =>
    -- The path goes on in the joined table, from which no quantifier can start.
    have inside : ∀ scope frame, some (Scope.current, (⟨target, set.type⟩ : Frame)) =
        some (scope, frame) → Behind ctx c.model binders scope frame := by
      rintro scope frame ⟨⟩
      exact ⟨⟨set, present, rfl⟩, fun parent absurd => by cases absurd⟩
    have joined (parent : Option String) : OnlyUnsupported (do
        let table ← EdmQuery.known (ctx.resolve.table target)
        term ctx (localsOf binders) ⟨joinAlias parent n.name, table.type⟩ inner) :=
      .known_bind (fun _ => table_fault) fun _ _ => ih known inside _
    rw [term]
    refine .bind (.of_total fun b => ⟨b, b, rfl⟩) fun b => ?_
    dsimp only
    split
    · refine .bind (.refused _) fun _ => ?_
      split
      · exact .bind (.pure _) fun _ => joined _
      · exact .bind (.pure _) fun _ => joined _
      · exact .bind (.refused _) fun _ => joined _
    · split
      · exact .bind (.pure _) fun _ => joined _
      · exact .bind (.pure _) fun _ => joined _
      · exact .bind (.refused _) fun _ => joined _
  | @nonEmpty binders scope frame source binder t mem named spelled ranges =>
    obtain ⟨frameKnown, typed⟩ := behind scope frame rfl
    rw [term]
    refine .known_bind (fun _ => relatedSource_fault) fun related ranged => ?_
    cases ranges with
    | items _ _ => cases ranged
    | related unshadowed found several bound present =>
      cases ranged
      refine .known_bind (fun _ => frame_fault) fun parent inFrame => ?_
      obtain ⟨con, p, q, -, -, -, tied⟩ :=
        correlate_eq built own frameKnown found bound present (typed parent inFrame)
      refine .known_bind (fun fault failed => correlate_fault tied failed) fun _ _ => ?_
      exact .of_total fun b => ⟨_, _, rfl⟩
  | @quantified binders scope frame source binder t v quantifier predicate mem named spelled ranges
      memV namedV notRoot fresh _ fit ih =>
    obtain ⟨frameKnown, typed⟩ := behind scope frame rfl
    rw [term]
    refine .known_bind (fun _ => relatedSource_fault) fun related ranged => ?_
    cases ranges with
    | items _ _ => cases ranged
    | @related name target n set unshadowed found several bound present =>
      cases ranged
      refine .known_bind (fun _ => frame_fault) fun parent inFrame => ?_
      obtain ⟨con, p, q, -, -, -, tied⟩ :=
        correlate_eq built own frameKnown found bound present (typed parent inFrame)
      refine .known_bind (fun fault failed => correlate_fault tied failed) fun tables tied' => ?_
      -- The variable stands for an entity of the set that the tables are tied to.
      have known' : KnownBinders c.model (.entity v.text ⟨target, set.type⟩ :: binders) := by
        intro name frame mem
        rcases List.mem_cons.mp mem with same | later
        · cases same
          exact ⟨set, present, rfl⟩
        · exact known name frame later
      obtain ⟨table, column, parentColumn⟩ := tables
      have typedTable : table.type = set.type := by
        rw [tied] at tied'
        obtain ⟨table', resolved, same⟩ := map_ok tied'
        cases same
        exact own.type_eq present (table_ok resolved)
      refine .bind (.of_total fun b => ⟨_, _, rfl⟩) fun _ => ?_
      have inner := ih known' (by simp) ⟨v.text, set.type⟩
      dsimp only
      rw [typedTable]
      refine .bind inner fun _ => .bind (.of_total fun b => ⟨_, _, rfl⟩) fun _ => ?_
      cases quantifier <;> exact .pure _

end Expression

/-- What looks for joins fails only over what has no SQL form. -/
def JoinsOnlyUnsupported {α : Type} (r : Except SqlError α) : Prop :=
  ∀ fault, r = .error fault → ∃ reason, fault = .unsupported reason

namespace JoinsOnlyUnsupported

/-- A value is no fault. -/
theorem ok {α : Type} (a : α) : JoinsOnlyUnsupported (.ok a) :=
  fun _ failed => by cases failed

/-- Two outcomes, one after the other, have the faults of both. -/
theorem bind {α β : Type} {r : Except SqlError α} {next : α → Except SqlError β}
    (first : JoinsOnlyUnsupported r) (second : ∀ a, r = .ok a → JoinsOnlyUnsupported (next a)) :
    JoinsOnlyUnsupported (r >>= next) := by
  intro fault failed
  cases r with
  | error fault' =>
    cases failed
    exact first _ rfl
  | ok a => exact second a rfl fault failed

end JoinsOnlyUnsupported

namespace Expression

/-- The joins of expressions are missing only where those of one of them are. -/
theorem joinsFromList_fault {root current : PathEnd} {items : List Expression}
    (each : ∀ x ∈ items, JoinsOnlyUnsupported (joinsFrom ctx.resolve root current x)) :
    JoinsOnlyUnsupported (joinsFromList ctx.resolve root current items) := by
  induction items with
  | nil => exact .ok _
  | cons x rest ih =>
    obtain ⟨first, others⟩ := List.forall_mem_cons.mp each
    rw [joinsFromList]
    exact .bind first fun _ _ => .bind (ih others) fun _ _ => .ok _

/-- Over a built model, the joins of a filter are missing only for what has no SQL form. -/
theorem ReadFrom.joins_fault (built : d.build = .ok c.model) (own : ctx.resolve.Own c.model)
    (rootKnown : c.root.Known c.model) {root : PathEnd} (rootTyped : root.type = c.root.type)
    {binders : List Binder} {start : Option (Scope × Frame)} {x : Expression}
    (read : x.ReadFrom c tokens binders start) {current : PathEnd}
    (behind : ∀ scope frame, start = some (scope, frame) →
      (scope = .root → frame = c.root) ∧
      (scope = .current → frame.Known c.model ∧ current.type = frame.type)) :
    JoinsOnlyUnsupported (joinsFrom ctx.resolve root current x) := by
  induction read generalizing current with
  | rooted _ ih => exact ih fun scope frame same => by cases same; exact ⟨fun _ => rfl, nofun⟩
  | through _ _ ih => exact ih fun scope frame same => by cases same; exact ⟨nofun, nofun⟩
  | not _ _ ih =>
    rw [joinsFrom]
    exact ih (by simp)
  | negate _ _ ih =>
    rw [joinsFrom]
    exact ih (by simp)
  | binary _ _ _ ihL ihR =>
    rw [joinsFrom]
    exact .bind (ihL (by simp)) fun _ _ => .bind (ihR (by simp)) fun _ _ => .ok _
  | oneOf _ _ _ _ ih ihItems =>
    rw [joinsFrom]
    exact .bind (ih (by simp)) fun _ _ => .bind
      (joinsFromList_fault fun x mem => ihItems x mem (by simp)) fun _ _ => .ok _
  | call _ _ ihItems =>
    rw [joinsFrom]
    exact joinsFromList_fault fun x mem => ihItems x mem (by simp)
  | @hop binders scope frame t n target set inner mem named unshadowed found single bound present _
      ih =>
    obtain ⟨atRoot, atCurrent⟩ := behind scope frame rfl
    -- A hop from the root or from the end of another hop joins the table of its target.
    have followed (start : PathEnd) (known : frame.Known c.model) (typed : start.type = frame.type) :
        JoinsOnlyUnsupported (do
          let constraint ← soleConstraint n
          let table ← ctx.resolve.table target
          let column ← columnOf table.type constraint.referenced
          let related ← columnOf start.type constraint.property
          let name := joinAlias start.tableAlias n.name
          let parent := start.tableAlias.getD rootAlias
          let more ← joinsFrom ctx.resolve root ⟨some name, table.type⟩ inner
          return (⟨name, table.name, column, ⟨parent, related⟩⟩ : Join) :: more) := by
      obtain ⟨source, inModel, sameType⟩ := known
      obtain ⟨con, p, q, only, local_, remote⟩ :=
        Model.navigation_joins built inModel (sameType ▸ found) bound present
      have sole : soleConstraint n = .ok con := by rw [soleConstraint, only]
      refine .bind (by rw [sole]; exact .ok _) fun con' same => ?_
      cases sole.symm.trans same
      refine .bind (fun _ => table_fault) fun table resolved => ?_
      have typedTable := own.type_eq present (table_ok resolved)
      have column : columnOf table.type con.referenced = .ok q.column := by
        rw [columnOf, typedTable, remote]
      have related : columnOf start.type con.property = .ok p.column := by
        rw [columnOf, typed, ← sameType, local_]
      refine .bind (by rw [column]; exact .ok _) fun _ _ => ?_
      refine .bind (by rw [related]; exact .ok _) fun _ _ => ?_
      refine .bind (ih fun scope frame same => ?_) fun _ _ => .ok _
      cases same
      exact ⟨nofun, fun _ => ⟨⟨set, present, rfl⟩, typedTable⟩⟩
    cases scope with
    | root =>
      rw [joinsFrom]
      · exact followed root (atRoot rfl ▸ rootKnown) (atRoot rfl ▸ rootTyped)
      · simp
    | current =>
      rw [joinsFrom]
      · exact followed current (atCurrent rfl).1 (atCurrent rfl).2
      · simp
    | bound name =>
      rw [joinsFrom]
      exact .ok _
  | _ =>
    simp only [joinsFrom]
    exact .ok _

end Expression

/-- A filter that was read over a built model becomes SQL or has something without an SQL form. -/
theorem onlyUnsupported_compileFilter (built : d.build = .ok c.model)
    (own : ctx.resolve.Own c.model) (rootKnown : c.root.Known c.model)
    (rootTyped : ctx.table.type = c.root.type) {filter : Expression}
    (read : filter.ReadFrom c tokens [] none) : OnlyUnsupported (compileFilter ctx filter) := by
  rw [compileFilter]
  refine .known_bind (fun fault failed => ?_) fun joins _ => .bind (.of_total fun b => ⟨_, _, rfl⟩)
    fun _ => read.onlyUnsupported built own rootKnown rootTyped (fun _ _ mem => by cases mem)
      (by simp) _
  rw [discoverJoins] at failed
  cases found : joinsFrom ctx.resolve ⟨none, ctx.table.type⟩ ⟨none, ctx.table.type⟩ filter with
  | error fault' =>
    simp only [found] at failed
    cases failed
    exact read.joins_fault built own rootKnown rootTyped (by simp) fault found
  | ok joins =>
    simp only [found] at failed
    cases failed

/-- The tests of columns for a term always become SQL, and they add parameters only. -/
theorem textTests_total (caseSensitive : Bool) (text : String) (columns : List Column)
    (b : Builder) :
    ∃ tests after, (textTests caseSensitive text columns).run b = (.ok tests, after) ∧
      b.parameters <+: after.parameters ∧ after.joins = b.joins := by
  induction columns generalizing b with
  | nil => exact ⟨[], b, rfl, List.prefix_refl _, rfl⟩
  | cons column rest ih =>
    let next : Builder := { b with parameters := b.parameters ++ [searchValue caseSensitive text] }
    obtain ⟨tests, after, done, more, joins⟩ := ih next
    refine ⟨⟨column, b.parameters.length + 1, caseSensitive⟩ :: tests, after, ?_,
      (List.prefix_append _ _).trans more, joins⟩
    rw [textTests]
    show ((textTests caseSensitive text rest >>= _) : Compile _).run next = _
    rw [run_bind, done]
    rfl

/-- A search always becomes SQL, and it adds parameters only. -/
theorem compileSearch_total (ctx : SqlContext) (caseSensitive : Bool) (search : Search)
    (b : Builder) :
    ∃ term after, (compileSearch ctx caseSensitive search).run b = (.ok term, after) ∧
      b.parameters <+: after.parameters ∧ after.joins = b.joins := by
  induction search generalizing b with
  | term text =>
    obtain ⟨tests, after, done, more, joins⟩ := textTests_total caseSensitive text
      (ctx.table.type.searchable.map fun p => ⟨rootAlias, p.column⟩) b
    refine ⟨.textTests tests, after, ?_, more, joins⟩
    rw [compileSearch, run_bind, done]
    rfl
  | and l r ihL ihR =>
    obtain ⟨left, between, doneL, moreL, joinsL⟩ := ihL b
    obtain ⟨right, after, doneR, moreR, joinsR⟩ := ihR between
    refine ⟨.binary .and left right, after, ?_, moreL.trans moreR, joinsR.trans joinsL⟩
    rw [compileSearch, run_bind, doneL]
    show ((compileSearch ctx caseSensitive r >>= _) : Compile _).run between = _
    rw [run_bind, doneR]
    rfl
  | or l r ihL ihR =>
    obtain ⟨left, between, doneL, moreL, joinsL⟩ := ihL b
    obtain ⟨right, after, doneR, moreR, joinsR⟩ := ihR between
    refine ⟨.binary .or left right, after, ?_, moreL.trans moreR, joinsR.trans joinsL⟩
    rw [compileSearch, run_bind, doneL]
    show ((compileSearch ctx caseSensitive r >>= _) : Compile _).run between = _
    rw [run_bind, doneR]
    rfl
  | not x ih =>
    obtain ⟨operand, after, done, more, joins⟩ := ih b
    refine ⟨.not operand, after, ?_, more, joins⟩
    rw [compileSearch, run_bind, done]
    rfl

end

/-- The sort terms of keys are missing only for a key that has no SQL form. -/
theorem compileOrder_fault {type : EntityType} {keys : List SortKey} {fault : SqlError}
    (failed : compileOrder type keys = .error fault) : ∃ reason, fault = .unsupported reason := by
  rw [compileOrder] at failed
  split at failed
  · cases failed
    exact ⟨_, rfl⟩
  · cases failed

end EdmQuery
