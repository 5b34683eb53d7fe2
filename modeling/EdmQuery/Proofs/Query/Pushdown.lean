import Mathlib
import EdmQuery.Proofs.Sql.Plan
import EdmQuery.Query.Service

/-! Queries and counts of a table give the same whatever of them its database can be asked for. -/

namespace EdmQuery

/-- Every sort key that a text writes is a declared property. -/
theorem parseOrder_declared {type : EntityType} {input : String} {keys : List SortKey}
    (parsed : parseOrder type input = .ok keys) :
    ∀ k ∈ keys, type.property? k.property.name = some k.property := by
  -- One key is looked up by its name, and a property has the name that it is found under.
  have one {c next : Cursor} {k : SortKey} (read : SortKey.parseOne type c = .ok (k, next)) :
      type.property? k.property.name = some k.property := by
    simp only [SortKey.parseOne] at read
    split at read
    · cases read
    split at read
    · cases read
    split at read
    · cases read
    rename_i found
    split at read
    · cases read
    cases read
    rw [EntityType.property?_name found]
    exact found
  have all (fuel : Nat) : ∀ {c : Cursor} {keys : List SortKey},
      SortKey.parseFrom type fuel c = .ok keys →
      ∀ k ∈ keys, type.property? k.property.name = some k.property := by
    -- The induction is on the fuel, which every key that is read takes one of.
    induction fuel with
    | zero =>
      intro c keys read
      cases read
      exact nofun
    | succ fuel ih =>
      intro c keys read
      rw [SortKey.parseFrom] at read
      split at read
      · cases read
      rename_i key next first
      split at read
      · cases read
        simpa using one first
      split at read
      · cases read
      · obtain ⟨others, more, rfl⟩ := map_ok read
        exact List.forall_mem_cons.mpr ⟨one first, ih more⟩
  exact all _ parsed

namespace QueryOptions

variable {m : Model} {s : EntitySet} {raw : RawOptions} {o : QueryOptions}

/-- What is read from an option is the fallback or what its text gives. -/
theorem parseGiven_ok {α : Type} {option : QueryOption} {fallback a : α}
    {read : String → Except RequestError α} (given : parseGiven raw option fallback read = .ok a) :
    a = fallback ∨ ∃ text, read text = .ok a := by
  rw [parseGiven] at given
  split at given
  · cases given
    exact .inl rfl
  · exact .inr ⟨_, given⟩

/-- Options that are read have the stages that their texts write. -/
theorem parse_stages (parsed : parse m s raw = .ok o) : parseStages m s raw = .ok o.stages := by
  rw [parse, levelsOf, parseLevels] at parsed
  simp only [Bind.bind, Except.bind] at parsed
  split at parsed
  · cases parsed
  split at parsed
  · cases parsed
  rename_i stages staged
  split at parsed
  · cases parsed
  split at parsed
  · cases parsed
  split at parsed
  · cases parsed
  cases parsed
  exact staged

/-- The filter of options is one that a text writes, and their sort keys are declared. -/
theorem parse_ok (parsed : parse m s raw = .ok o) :
    (∀ filter ∈ o.stages.filter, ∃ text, parseFilter m s.name text = .ok filter) ∧
      ∀ k ∈ o.stages.orderby, s.type.property? k.property.name = some k.property := by
  have staged := parse_stages parsed
  simp only [parseStages, Bind.bind, Except.bind] at staged
  split at staged
  · cases staged
  rename_i filter filtered
  split at staged
  · cases staged
  split at staged
  · cases staged
  rename_i orderby ordered
  split at staged
  · cases staged
  split at staged
  · cases staged
  simp only [Pure.pure, Except.pure, Except.ok.injEq] at staged
  rw [← staged]
  refine ⟨?_, ?_⟩
  · rcases parseGiven_ok filtered with rfl | ⟨text, read⟩
    · nofun
    · rintro filter ⟨⟩
      cases parsed : parseFilter m s.name text with
      | error fault =>
        rw [parsed] at read
        cases read
      | ok filter =>
        rw [parsed] at read
        cases read
        exact ⟨text, parsed⟩
  · rcases parseGiven_ok ordered with rfl | ⟨text, read⟩
    · nofun
    · cases parsed : parseOrder s.type text with
      | error fault =>
        rw [parsed] at read
        cases read
      | ok keys =>
        rw [parsed] at read
        cases read
        exact parseOrder_declared parsed

end QueryOptions

/-- A database that answers the statements of a set from the rows of its table. -/
structure Engine.Serves {m : Type → Type} [Monad m] (db : Engine) (v : Service m)
    (s : EntitySet) (table : String) (provider : Nat) (stages : Stages) (rows : List Record) :
    Prop where
  acquires : v.databases.acquire provider = pure (.ok ())
  releases : v.databases.release provider = pure ()
  answers : ∀ plan, planRows v.model.config (v.sqlContext s table provider) stages = .ok plan →
    v.databases.query provider (plan.statement (v.sqlContext s table provider).dialect) =
      pure (.ok (db.answer plan.select plan.parameters rows))
  answersCount : ∀ plan whole,
    planCount v.model.config (v.sqlContext s table provider) stages = .ok (plan, whole) →
    let statement :=
      if whole then plan.countStatement (v.sqlContext s table provider).dialect
      else plan.statement (v.sqlContext s table provider).dialect
    let sent := db.answer plan.select plan.parameters rows
    v.databases.query provider statement =
      pure (.ok (if whole then [[("count", .ofInt sent.length)]] else sent))

namespace Service

/-- Tables are resolved to those of sets of the model. -/
theorem resolver_own {m : Type → Type} (v : Service m) (provider : Nat) : (v.resolver provider).Own v.model := by
  intro name table resolved
  obtain ⟨set, present, backed⟩ := Option.bind_eq_some_iff.mp resolved
  refine ⟨set, present, ?_⟩
  split at backed
  · split at backed
    · cases backed
      rfl
    · cases backed
  · cases backed

/-- Rows that all describe entities become those entities. -/
theorem materialize_eq {type : EntityType} {rows : List Record} {entity : Record → Entity}
    (made : ∀ row ∈ rows, Entity.ofRecord type row = .ok (entity row)) :
    materialize type rows = .ok (rows.map entity) := by
  induction rows with
  | nil => rfl
  | cons row rest ih =>
    obtain ⟨first, others⟩ := List.forall_mem_cons.mp made
    rw [materialize] at ih ⊢
    rw [List.mapM_cons, first, ih others]
    rfl

variable {m : Type → Type} [Monad m] [LawfulMonad m]

/-- A connection that is open answers a statement without any other effect. -/
theorem withConnection_rows {dbs : Databases m} {provider : Nat} {statement : Statement}
    {rows : List Record} (acquires : dbs.acquire provider = pure (.ok ()))
    (releases : dbs.release provider = pure ())
    (answers : dbs.query provider statement = pure (.ok rows)) :
    dbs.withConnection provider (dbs.rows provider statement) = settled (.ok rows) := by
  have sent : (dbs.rows provider statement).run = pure (.ok rows) := by
    simp only [Databases.rows, ExceptT.run_mk, answers, pure_bind]
    rfl
  simp only [Databases.withConnection, acquires, pure_bind, sent, releases]
  rfl

section

variable {d : Draft} {v : Service m} {s : EntitySet} {table : String} {provider : Nat}
  {stages : Stages} {db : Engine} {rows : List Record} {entity : Record → Entity}
  {value : Entity → Value}

/-- A plan of rows fetches the entities in the rows that its database answers. -/
theorem fetch_eq (backed : s.backing = .table table provider)
    (serves : db.Serves v s table provider stages rows)
    (made : ∀ row ∈ rows, Entity.ofRecord s.type row = .ok (entity row)) {plan : Plan}
    (planned : planRows v.model.config (v.sqlContext s table provider) stages = .ok plan) :
    v.fetch s stages = settled (.ok
      (((db.answer plan.select plan.parameters rows).map entity).map .ok, plan.remaining)) := by
  have among := answer_subset db plan.select plan.parameters rows
  have made' := materialize_eq fun row mem => made row (among mem)
  have sent := withConnection_rows serves.acquires serves.releases (serves.answers plan planned)
  simp only [fetch, backed, planned, settled_ok_bind]
  rw [sent, settled_ok_bind, made', settled_ok_bind]
  rfl

/-- A plan that is refused ends what needs its rows. -/
theorem fetch_refused (backed : s.backing = .table table provider) {fault : RequestError}
    (refused : planRows v.model.config (v.sqlContext s table provider) stages = .error fault) :
    v.fetch s stages = settled (.error fault) := by
  simp only [fetch, backed, refused, settled_error_bind]

/-- What is left to memory completes the selection from rows in the order of their keys. -/
theorem run_remaining {config : Config} {lookup : Lookup m} {pushed left : Option Expression}
    {entities : List Entity} {key : List SortKey} (patience : Patience)
    (splits : Splits config stages pushed left)
    (sortable : Sortable (stages.orderby ++ key) entities)
    (evaluates : ∀ filter ∈ stages.filter, ∀ e ∈ entities,
      filter.eval lookup (.ofEntity e) = pure (value e)) (caseSensitive : Bool) :
    ({ stages with filter := left, search := none } : Stages).run patience lookup caseSensitive pure
      (((entities.filter (({ stages with filter := pushed } : Stages).accepts
        caseSensitive value)).mergeSort (inOrder key)).map .ok) =
      pure ((page (stages.skip.getD 0) stages.top
        ((entities.filter (stages.accepts caseSensitive value)).mergeSort
          (inOrder (stages.orderby ++ key)))).map .ok) := by
  let remaining : Stages := { stages with filter := left, search := none }
  let sent := entities.filter (({ stages with filter := pushed } : Stages).accepts
    caseSensitive value)
  have among {e : Entity} (mem : e ∈ sent.mergeSort (inOrder key)) : e ∈ entities :=
    List.mem_of_mem_filter (List.mem_mergeSort.mp mem)
  have evaluates' : remaining.Evaluates lookup (fun e => .ok (value e))
      ((sent.mergeSort (inOrder key)).map .ok) := by
    intro filter given e mem
    obtain ⟨e', mem', same⟩ := List.mem_map.mp mem
    cases same
    exact evaluates filter (splits.left_subset given) e (among mem')
  -- Selecting by the rest after sorting by the key is selecting by all before it.
  have accepted : (sent.mergeSort (inOrder key)).filter (remaining.accepts caseSensitive value) =
      (entities.filter (stages.accepts caseSensitive value)).mergeSort (inOrder key) := by
    rw [filter_mergeSort (sortable.mono (List.subset_append_right _ _)
      fun _ => List.mem_of_mem_filter), List.filter_filter]
    simp only [remaining, splits.accepts]
  have sortable' : Sortable (stages.orderby ++ key)
      (entities.filter (stages.accepts caseSensitive value)) :=
    sortable.mono (List.Subset.refl _) fun _ => List.mem_of_mem_filter
  have sortableSent : Sortable remaining.orderby
      ((sent.mergeSort (inOrder key)).filter (remaining.accepts caseSensitive value)) := by
    rw [accepted]
    exact sortable'.mono (List.subset_append_left _ _) fun _ => List.mem_mergeSort.mp
  rw [Stages.run_of_unfailing patience evaluates' (fun e _ _ => ⟨value e, rfl⟩) sortableSent,
    accepted, mergeSort_mergeSort sortable']

/-- What is left to memory completes the count of rows that are selected by what is pushed. -/
theorem count_remaining {config : Config} {lookup : Lookup m} {pushed left : Option Expression}
    {entities : List Entity} (splits : Splits config stages pushed left)
    (evaluates : ∀ filter ∈ stages.filter, ∀ e ∈ entities,
      filter.eval lookup (.ofEntity e) = pure (value e)) (caseSensitive : Bool) :
    ({ stages with filter := left, search := none } : Stages).count lookup caseSensitive
      ((entities.filter (({ stages with filter := pushed } : Stages).accepts
        caseSensitive value)).map .ok) =
      pure (entities.filter (stages.accepts caseSensitive value)).length := by
  let remaining : Stages := { stages with filter := left, search := none }
  have evaluates' : remaining.Evaluates lookup (fun e => .ok (value e))
      ((entities.filter (({ stages with filter := pushed } : Stages).accepts
        caseSensitive value)).map .ok) := by
    intro filter given e mem
    obtain ⟨e', mem', same⟩ := List.mem_map.mp mem
    cases same
    exact evaluates filter (splits.left_subset given) e (List.mem_of_mem_filter mem')
  refine (Stages.count_of_unfailing (s := remaining) evaluates' (fun e _ _ => ⟨value e, rfl⟩)
    stages.orderby stages.skip stages.top).trans ?_
  rw [List.filter_filter]
  simp only [remaining, splits.accepts]

/-- The number that a database sends is read as it is. -/
theorem countAmong_ofInt (n : Nat) : countAmong [[("count", .ofInt n)]] = .ok n := by
  simp [countAmong, Json.ofInt]

/-- A query of a table is refused, or it gives the selected entities by whatever plan it has. -/
theorem stream_eq (patience : Patience) (backed : s.backing = .table table provider)
    (queries : s.capabilities.contains .query = true)
    (serves : db.Serves v s table provider stages rows)
    (honest : db.Honest (v.sqlContext s table provider) v.model.config.caseSensitive stages rows
      entity value)
    (few : rows.length ≤ Dialect.pageLimit)
    (made : ∀ row ∈ rows, Entity.ofRecord s.type row = .ok (entity row))
    (only : ∀ filter ∈ stages.filter,
      OnlyUnsupported (compileFilter (v.sqlContext s table provider) filter))
    (declared : ∀ k ∈ stages.orderby, s.type.property? k.property.name = some k.property)
    (sortable : Sortable (stages.orderby ++ keyOrder s.type) (rows.map entity))
    (evaluates : ∀ filter ∈ stages.filter, ∀ e ∈ rows.map entity,
      filter.eval v.related (.ofEntity e) = pure (value e)) :
    (∃ reason, v.model.config.fallback = false ∧
      v.stream patience v.related pure s stages = throw (.notImplemented reason)) ∨
    ∃ plan, planRows v.model.config (v.sqlContext s table provider) stages = .ok plan ∧
      (v.model.config.fallback = false → plan.remaining = .empty) ∧
      v.stream patience v.related pure s stages =
        pure ((page (stages.skip.getD 0) stages.top
          (((rows.map entity).filter (stages.accepts v.model.config.caseSensitive value)).mergeSort
            (inOrder (stages.orderby ++ keyOrder s.type)))).map .ok) := by
  have allowed : (ensure s .query : ExceptT RequestError m Unit) = settled (.ok ()) := by
    rw [ensure, if_pos queries]
    rfl
  obtain ⟨reason, forbidden, refused⟩ | ⟨plan, planned, whole | ⟨fallback, partly⟩⟩ :=
    planRows_eq honest only few declared
  · refine .inl ⟨reason, forbidden, ?_⟩
    rw [stream, allowed, settled_ok_bind, fetch_refused backed refused, settled_error_bind]
    rfl
  · obtain ⟨nothing, answered⟩ := whole
    refine .inr ⟨plan, planned, fun _ => nothing, ?_⟩
    rw [stream, allowed, settled_ok_bind, fetch_eq backed serves made planned, settled_ok_bind]
    dsimp only
    rw [nothing, answered]
    -- The database has done everything already.
    exact Stages.run_empty v.related patience _ _
  · obtain ⟨pushed, left, splits, remaining, answered⟩ := partly
    refine .inr ⟨plan, planned, fun forbidden => by simp [forbidden] at fallback, ?_⟩
    rw [stream, allowed, settled_ok_bind, fetch_eq backed serves made planned, settled_ok_bind]
    dsimp only
    rw [remaining, answered]
    exact run_remaining patience splits sortable evaluates v.model.config.caseSensitive

/-- A count of a table is refused, or it is that of the selected entities by whatever plan. -/
theorem count_eq {o : QueryOptions} (backed : s.backing = .table table provider)
    (counts : s.capabilities.contains .count = true)
    (serves : db.Serves v s table provider o.stages rows)
    (honest : db.Honest (v.sqlContext s table provider) v.model.config.caseSensitive o.stages rows
      entity value)
    (few : rows.length ≤ Dialect.pageLimit)
    (made : ∀ row ∈ rows, Entity.ofRecord s.type row = .ok (entity row))
    (only : ∀ filter ∈ o.stages.filter,
      OnlyUnsupported (compileFilter (v.sqlContext s table provider) filter))
    (evaluates : ∀ filter ∈ o.stages.filter, ∀ e ∈ rows.map entity,
      filter.eval v.related (.ofEntity e) = pure (value e)) :
    (∃ reason, v.model.config.fallback = false ∧ v.count s o = throw (.notImplemented reason)) ∨
    ∃ plan whole, planCount v.model.config (v.sqlContext s table provider) o.stages
        = .ok (plan, whole) ∧
      (v.model.config.fallback = false → whole = true) ∧
      v.count s o =
        pure ((rows.map entity).filter
          (o.stages.accepts v.model.config.caseSensitive value)).length := by
  have allowed : (ensure s .count : ExceptT RequestError m Unit) = settled (.ok ()) := by
    rw [ensure, if_pos counts]
    rfl
  obtain ⟨reason, forbidden, refused⟩ |
      ⟨plan, pushed, left, splits, planned, remaining, answered⟩ := planCount_eq honest only few
  · refine .inl ⟨reason, forbidden, ?_⟩
    rw [count, allowed, settled_ok_bind]
    simp only [backed, refused, settled_error_bind]
    rfl
  refine .inr ⟨plan, left.isNone, planned, fun forbidden => ?_, ?_⟩
  · rw [splits.allowed forbidden]
    rfl
  have answers := serves.answersCount plan _ planned
  rw [count, allowed, settled_ok_bind]
  simp only [backed, planned, settled_ok_bind]
  cases left with
  | none =>
    -- Everything is pushed, so the number comes from the database.
    have whole : pushed = o.stages.filter := splits.once.elim And.left fun left => left.1.trans left.2
    have sent := withConnection_rows serves.acquires serves.releases answers
    have number := congrArg List.length answered
    rw [List.length_map, whole] at number
    simp only [Option.isNone_none, if_true] at sent ⊢
    rw [sent, settled_ok_bind, countAmong_ofInt, number]
    rfl
  | some filter =>
    have among := answer_subset db plan.select plan.parameters rows
    have made' := materialize_eq fun row mem => made row (among mem)
    have sent := withConnection_rows serves.acquires serves.releases answers
    simp only [Option.isNone_some, Bool.false_eq_true, if_false] at sent ⊢
    rw [sent, settled_ok_bind, made', settled_ok_bind, remaining, answered]
    exact count_remaining splits evaluates v.model.config.caseSensitive

/--
Queries and counts of a table give what the stages select from the entities in its rows.

The entities that filter and search accept come sorted by the sort keys and then by the key of
their type, skipped and cut, and the count is their number, whichever stages the database takes.
Where nothing may be left to memory, everything is pushed or the request is not implemented.
-/
theorem stream_and_count_agree {raw : RawOptions} {o : QueryOptions} (patience : Patience)
    (built : d.build = .ok v.model) (present : v.model.set? s.name = some s)
    (backed : s.backing = .table table provider)
    (queries : s.capabilities.contains .query = true)
    (counts : s.capabilities.contains .count = true)
    (parsed : QueryOptions.parse v.model s raw = .ok o)
    (serves : db.Serves v s table provider o.stages rows)
    (honest : db.Honest (v.sqlContext s table provider) v.model.config.caseSensitive o.stages rows
      entity value)
    (few : rows.length ≤ Dialect.pageLimit)
    (made : ∀ row ∈ rows, Entity.ofRecord s.type row = .ok (entity row))
    (numbers : ∀ row ∈ rows, ∀ name, ((entity row).get name).isNaN = false)
    (evaluates : ∀ filter ∈ o.stages.filter, ∀ row ∈ rows,
      filter.eval v.related (.ofEntity (entity row)) = pure (value (entity row))) :
    let accepted := (rows.map entity).filter (o.stages.accepts v.model.config.caseSensitive value)
    let found := page (o.stages.skip.getD 0) o.stages.top
      (accepted.mergeSort (inOrder (o.stages.orderby ++ keyOrder s.type)))
    let ctx := v.sqlContext s table provider
    (v.model.config.fallback = true →
      v.stream patience v.related pure s o.stages = pure (found.map .ok) ∧
      v.count s o = pure accepted.length) ∧
    (v.model.config.fallback = false →
      ((∃ plan, planRows v.model.config ctx o.stages = .ok plan ∧ plan.remaining = .empty ∧
          v.stream patience v.related pure s o.stages = pure (found.map .ok)) ∨
        ∃ reason, v.stream patience v.related pure s o.stages = throw (.notImplemented reason)) ∧
      ((∃ plan, planCount v.model.config ctx o.stages = .ok (plan, true) ∧
          v.count s o = pure accepted.length) ∨
        ∃ reason, v.count s o = throw (.notImplemented reason))) := by
  intro accepted found ctx
  obtain ⟨filters, declared⟩ := QueryOptions.parse_ok parsed
  -- A filter that a text writes over a built model is refused for one reason only.
  have only : ∀ filter ∈ o.stages.filter, OnlyUnsupported (compileFilter ctx filter) := by
    intro filter mem
    obtain ⟨text, read⟩ := filters filter mem
    obtain ⟨s', tokens, present', -, readFrom, -⟩ := parseFilter_sound read
    cases present.symm.trans present'
    exact onlyUnsupported_compileFilter built (v.resolver_own provider)
      ⟨s, present, rfl⟩ rfl readFrom
  have typed : ∀ e ∈ rows.map entity, e.Typed s.type := by
    intro e mem
    obtain ⟨row, memRow, rfl⟩ := List.mem_map.mp mem
    exact Entity.typed_ofRecord (made row memRow)
  have sortable : Sortable (o.stages.orderby ++ keyOrder s.type) (rows.map entity) := by
    refine sortable_of_typed typed (fun k mem => ⟨k.property, ?_⟩) fun e mem k _ => ?_
    · exact (List.mem_append.mp mem).elim (declared k) (declared_keyOrder s.type k)
    · obtain ⟨row, memRow, rfl⟩ := List.mem_map.mp mem
      exact numbers row memRow _
  have evaluates' : ∀ filter ∈ o.stages.filter, ∀ e ∈ rows.map entity,
      filter.eval v.related (.ofEntity e) = pure (value e) := by
    intro filter mem e memE
    obtain ⟨row, memRow, rfl⟩ := List.mem_map.mp memE
    exact evaluates filter mem row memRow
  have streamed := stream_eq patience backed queries serves honest few made only declared sortable
    evaluates'
  have counted := count_eq backed counts serves honest few made only evaluates'
  refine ⟨fun fallback => ?_, fun fallback => ?_⟩
  · obtain ⟨-, forbidden, -⟩ | ⟨-, -, -, streamed⟩ := streamed
    · simp [fallback] at forbidden
    obtain ⟨-, forbidden, -⟩ | ⟨-, -, -, -, counted⟩ := counted
    · simp [fallback] at forbidden
    exact ⟨streamed, counted⟩
  · refine ⟨?_, ?_⟩
    · obtain ⟨reason, -, refused⟩ | ⟨plan, planned, whole, streamed⟩ := streamed
      · exact .inr ⟨reason, refused⟩
      · exact .inl ⟨plan, planned, whole fallback, streamed⟩
    · obtain ⟨reason, -, refused⟩ | ⟨plan, complete, planned, whole, counted⟩ := counted
      · exact .inr ⟨reason, refused⟩
      · rw [whole fallback] at planned
        exact .inl ⟨plan, planned, counted⟩

end

/-- Entities with a whole number as their key. -/
def numbersType : EntityType :=
  ⟨"Numbered", some "n", [Stages.number], []⟩

/-- A set of such entities in a table. -/
def numbersSet : EntitySet :=
  ⟨"numbers", numbersType, .all, .table "numbers" 0⟩

/-- A table with three numbers. -/
def numberRows : List Record :=
  [[("n", .ofInt 3)], [("n", .ofInt 1)], [("n", .ofInt 2)]]

/-- The entity in a row of the table. -/
def numberEntity (row : Record) : Entity :=
  ((Entity.ofRecord numbersType row).toOption).getD (Stages.numbered 0)

/-- A database that compares columns with parameters. -/
def numbersEngine : Engine where
  holds parameters _ condition row :=
    match condition with
    | .binary .gt (.column c) (.parameter i) =>
      match (numberEntity row).get c.name, parameters[i - 1]? with
      | .integer n, some (.integer least) => least < n
      | _, _ => false
    | _ => false
  order column a b :=
    SortKey.compareValues ((numberEntity a).get column) ((numberEntity b).get column)

/-- The texts of a filter, an order and a number of entities to skip. -/
def numberOptions : RawOptions :=
  ⟨[(.filter, "n gt 1"), (.orderby, "n desc"), (.skip, "1")]⟩

/-- The source and the condition of the statements that the texts lead to. -/
def numbersAboveOne : String :=
  " FROM \"numbers\" AS \"$it\" WHERE (\"$it\".\"n\" > ?1)"

/-- The statement that counts the numbers above one. -/
def countNumbers : String :=
  "SELECT COUNT(*) AS \"count\"" ++ numbersAboveOne

/-- The statement that selects the numbers above one except the greatest. -/
def selectNumbers : String :=
  "SELECT \"$it\".\"n\" AS \"n\"" ++ numbersAboveOne ++
    " ORDER BY \"$it\".\"n\" DESC LIMIT -1 OFFSET 1"

/-- A service with the table behind a connection that knows two statements. -/
def numbersService : Service Id where
  model := ⟨.default, [], [numbersType], [numbersSet], []⟩
  collections := []
  databases := {
    Databases.none with
    acquire _ := pure (.ok ())
    query _ statement := pure <|
      if statement.sql == countNumbers then .ok [[("count", .ofInt 2)]]
      else if statement.sql == selectNumbers then .ok [[("n", .ofInt 2)]]
      else .error .execution }

/-- The stages that the texts write. -/
def numberStages : Stages :=
  ⟨some Stages.aboveOne, none, [⟨Stages.number, true⟩], some 1, none⟩

/-- The condition that a number is above the first parameter. -/
def numberCondition : SqlTerm :=
  .binary .gt (.column ⟨"$it", "n"⟩) (.parameter 1)

/-- The filter becomes a condition with one parameter. -/
theorem compileFilter_aboveOne :
    (compileFilter (numbersService.sqlContext numbersSet "numbers" 0) Stages.aboveOne).run .empty
      = (.ok numberCondition, ⟨[.integer 1], [], 0⟩) := by
  cbv

/-- The rows above one. -/
theorem answer_numbers (select : Select) (found : select.conditions = [numberCondition])
    (ordered : select.order = [] ∨ select.order = [⟨"n", true⟩]) :
    numbersEngine.answer select [.integer 1] numberRows =
      page (min (select.skip.getD 0) Dialect.pageLimit) (select.top.map (min · Dialect.pageLimit))
        [[("n", .ofInt 3)], [("n", .ofInt 2)]] := by
  have kept : numbersEngine.select [.integer 1] select.joins select.conditions numberRows
      = [[("n", .ofInt 3)], [("n", .ofInt 2)]] := by
    rw [found]
    cbv
  rw [Engine.answer, kept, List.mergeSort_of_pairwise]
  rcases ordered with order | order <;> rw [order] <;> decide

/-- The database answers with the numbers above one. -/
theorem serves_numbers :
    numbersEngine.Serves numbersService numbersSet "numbers" 0 numberStages numberRows := by
  have planned : planRows numbersService.model.config
      (numbersService.sqlContext numbersSet "numbers" 0) numberStages =
      .ok ⟨⟨⟨"numbers", numbersType⟩, [], [numberCondition], [⟨"n", true⟩], some 1, none⟩,
        [.integer 1], .empty⟩ := by cbv
  have plannedCount : planCount numbersService.model.config
      (numbersService.sqlContext numbersSet "numbers" 0) numberStages =
      .ok (⟨.rows ⟨"numbers", numbersType⟩ [] [numberCondition], [.integer 1],
        { numberStages with filter := none }⟩, true) := by cbv
  have query (statement : Statement) : numbersService.databases.query 0 statement = pure
      (if statement.sql == countNumbers then .ok [[("count", .ofInt 2)]]
      else if statement.sql == selectNumbers then .ok [[("n", .ofInt 2)]]
      else .error .execution) := rfl
  refine ⟨rfl, rfl, fun plan planned' => ?_, fun plan whole planned' => ?_⟩
  · cases planned.symm.trans planned'
    have text : Select.text ⟨⟨"numbers", numbersType⟩, [], [numberCondition], [⟨"n", true⟩], some 1,
        none⟩ .sqlite = selectNumbers := by decide +kernel
    have other : (selectNumbers == countNumbers) = false := by decide +kernel
    rw [answer_numbers _ rfl (.inr rfl), query, Plan.statement]
    simp only [numbersService, sqlContext, Databases.none, text, other, beq_self_eq_true, if_true,
      Bool.false_eq_true, if_false]
    rfl
  · cases plannedCount.symm.trans planned'
    have text : Select.countText (.rows ⟨"numbers", numbersType⟩ [] [numberCondition]) .sqlite
        = countNumbers := by decide +kernel
    dsimp only
    rw [answer_numbers _ rfl (.inl rfl), query, if_pos rfl, Plan.countStatement]
    simp only [numbersService, sqlContext, Databases.none, text, beq_self_eq_true, if_true]
    rfl

/-- Whether the number of an entity is above one. -/
def numberValue (e : Entity) : Value :=
  match e.get "n" with
  | .integer n => .boolean (1 < n)
  | _ => .null

/-- The database reads the filter and the order as the stages do. -/
theorem honest_numbers :
    numbersEngine.Honest (numbersService.sqlContext numbersSet "numbers" 0) false numberStages
      numberRows numberEntity numberValue where
  filters := by
    rintro filter ⟨⟩ condition b compiled parameters ⟨more, rfl⟩ row mem
    cases compileFilter_aboveOne.symm.trans compiled
    simp only [numberRows, List.mem_cons, List.not_mem_nil, or_false] at mem
    rcases mem with rfl | rfl | rfl <;> rfl
  searches := nofun
  sorts := by
    intro p declared a memA b memB
    -- The only property is stored in a column of its name.
    have only : p = Stages.number := by
      have mem := List.mem_of_find?_eq_some declared
      simpa [numbersService, sqlContext, numbersSet, numbersType] using mem
    rw [only]
    rfl

/-- Of three numbers, those above one are counted, and all but the greatest are queried. -/
theorem stream_and_count_agree_on_numbers :
    ∃ o, QueryOptions.parse numbersService.model numbersSet numberOptions = .ok o ∧
      numbersService.stream .throughFaults numbersService.related pure numbersSet o.stages
        = pure [.ok (numberEntity [("n", .ofInt 2)])] ∧
      numbersService.count numbersSet o = pure 2 := by
  have parsed : QueryOptions.parse numbersService.model numbersSet numberOptions
      = .ok ⟨numberStages, false, none, []⟩ := by cbv
  have built : Draft.build ⟨.default, [], [], [numbersSet], []⟩ = .ok numbersService.model := by cbv
  have made : ∀ row ∈ numberRows,
      Entity.ofRecord numbersSet.type row = .ok (numberEntity row) := by
    simp only [numberRows, List.forall_mem_cons, List.not_mem_nil, false_imp_iff, implies_true,
      and_true]
    exact ⟨rfl, rfl, rfl⟩
  have numbers : ∀ row ∈ numberRows, ∀ name, ((numberEntity row).get name).isNaN = false := by
    intro row mem name
    obtain ⟨k, same⟩ : ∃ k, numberEntity row = .mk numbersType (some (.integer k))
        [("n", .integer k)] [] := by
      simp only [numberRows, List.mem_cons, List.not_mem_nil, or_false] at mem
      rcases mem with rfl | rfl | rfl <;> exact ⟨_, rfl⟩
    rw [same]
    simp only [Entity.get, Entity.get?, Entity.properties, List.lookup_cons, List.lookup_nil]
    cases name == "n" <;> rfl
  have evaluates : ∀ filter ∈ numberStages.filter, ∀ row ∈ numberRows,
      filter.eval numbersService.related (.ofEntity (numberEntity row))
        = pure (numberValue (numberEntity row)) := by
    rintro filter ⟨⟩ row mem
    simp only [numberRows, List.mem_cons, List.not_mem_nil, or_false] at mem
    rcases mem with rfl | rfl | rfl <;> rfl
  have agree := (stream_and_count_agree .throughFaults built rfl rfl rfl rfl parsed serves_numbers
    honest_numbers (by decide) made numbers evaluates).1 rfl
  have accepted : (numberRows.map numberEntity).filter (numberStages.accepts false numberValue)
      = [numberEntity [("n", .ofInt 3)], numberEntity [("n", .ofInt 2)]] := rfl
  refine ⟨_, parsed, agree.1.trans ?_, agree.2.trans ?_⟩
  · have sorted : ([numberEntity [("n", .ofInt 3)], numberEntity [("n", .ofInt 2)]]).mergeSort
        (inOrder (numberStages.orderby ++ keyOrder numbersType))
        = [numberEntity [("n", .ofInt 3)], numberEntity [("n", .ofInt 2)]] :=
      List.mergeSort_of_pairwise (by decide)
    exact congrArg
      (fun list => (pure (List.map Except.ok (page 1 none list)) : ExceptT RequestError Id Entities))
      ((congrArg (List.mergeSort · _) accepted).trans sorted)
  · exact congrArg (fun list => (pure list.length : ExceptT RequestError Id Nat)) accepted

end Service

end EdmQuery
