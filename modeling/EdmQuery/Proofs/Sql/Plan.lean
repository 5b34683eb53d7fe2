import Mathlib
import EdmQuery.Proofs.Query.Pipeline
import EdmQuery.Proofs.Sql.Condition
import EdmQuery.Sql.Plan

/-! Plans ask a database for rows that the remaining stages turn into what the stages select. -/

namespace EdmQuery

/-- What a database makes of conditions, under their parameters and joins, and of columns. -/
structure Engine where
  /-- Whether a condition holds on a row. -/
  holds : List Value → List Join → SqlTerm → Record → Bool
  /-- The order of two rows by a column. -/
  order : String → Record → Record → Ordering

namespace Engine

/-- The order of two rows by the first sort term that tells them apart. -/
def compareBy (db : Engine) : List OrderTerm → Record → Record → Ordering
  | [], _, _ => .eq
  | t :: rest, a, b =>
    let order := db.order t.column a b
    (if t.descending then order.swap else order).then (compareBy db rest a b)

/-- The rows of a table on which some conditions hold. -/
def select (db : Engine) (parameters : List Value) (joins : List Join)
    (conditions : List SqlTerm) (rows : List Record) : List Record :=
  rows.filter fun row => conditions.all fun condition => db.holds parameters joins condition row

/--
What a database answers to a selection from the rows of a table.

Rows are selected and sorted stably; numbers of a page beyond the greatest one are cut to it.
-/
def answer (db : Engine) (s : Select) (parameters : List Value) (rows : List Record) :
    List Record :=
  page (min (s.skip.getD 0) Dialect.pageLimit) (s.top.map (min · Dialect.pageLimit))
    ((db.select parameters s.joins s.conditions rows).mergeSort fun a b =>
      (db.compareBy s.order a b).isLE)

/--
A database that reads stages as they read the entities in its rows.

What is pushed holds on a row when the stage in memory keeps the entity, whatever further
parameters a statement has, and columns sort as the values of their properties do.
-/
structure Honest (db : Engine) (ctx : SqlContext) (caseSensitive : Bool) (s : Stages)
    (rows : List Record) (entity : Record → Entity) (value : Entity → Value) : Prop where
  filters : ∀ filter ∈ s.filter, ∀ condition b,
    (compileFilter ctx filter).run .empty = (.ok condition, b) →
    ∀ parameters, b.parameters <+: parameters → ∀ row ∈ rows,
      db.holds parameters b.joins condition row = decide (value (entity row) = .boolean true)
  searches : ∀ search ∈ s.search, ∀ before condition b,
    (compileSearch ctx caseSensitive search).run before = (.ok condition, b) → ∀ row ∈ rows,
      db.holds b.parameters b.joins condition row = search.matches_ caseSensitive (entity row)
  sorts : ∀ p, ctx.table.type.property? p.name = some p → ∀ a ∈ rows, ∀ b ∈ rows,
    db.order p.column a b =
      SortKey.compareValues ((entity a).get p.name) ((entity b).get p.name)

end Engine

/-- The sort term that stands for a key. -/
def SortKey.term (k : SortKey) : OrderTerm :=
  ⟨k.property.column, k.descending⟩

/-- The order that entities of a type have by their key. -/
def keyOrder (type : EntityType) : List SortKey :=
  type.keyProperty?.toList.map (⟨·, false⟩)

/-- Whether an entity passes filter and search when the filter has a value on every entity. -/
abbrev Stages.accepts (s : Stages) (caseSensitive : Bool) (value : Entity → Value) :
    Entity → Bool :=
  s.passes caseSensitive fun e => .ok (value e)

section

variable {config : Config} {ctx : SqlContext}

/-- A condition is pushed as it compiles, or it is left to memory where that is allowed. -/
theorem tryCondition_eq (config : Config) {step : Compile SqlTerm} (only : OnlyUnsupported step) :
    (∃ condition b, step.run .empty = (.ok condition, b) ∧
      tryCondition config step .empty = .ok (some condition, b)) ∨
    ∃ reason, tryCondition config step .empty =
      (fallBack config reason).map fun _ => (none, .empty) := by
  rcases done : step.run .empty with ⟨fault | condition, b⟩
  · obtain ⟨reason, rfl⟩ := only _ _ _ done
    refine .inr ⟨reason, ?_⟩
    have left : (attempt step).run .empty = (.error (.unsupported reason), .empty) := by
      simp only [attempt, ExceptT.run_mk, done]
      rfl
    rw [tryCondition, left]
  · refine .inl ⟨condition, b, rfl, ?_⟩
    have kept : (attempt step).run .empty = (.ok condition, b) := by
      simp [attempt, done]
    rw [tryCondition, kept]

section

variable {s : Stages} {db : Engine} {rows : List Record} {entity : Record → Entity}
  {value : Entity → Value}

/-- Conditions that hold where the stages keep entities select the rows of those entities. -/
theorem select_eq_accepts {parameters : List Value} {joins : List Join}
    {conditions : List SqlTerm} {caseSensitive : Bool}
    (holds : ∀ row ∈ rows, (conditions.all fun condition => db.holds parameters joins condition row)
      = s.accepts caseSensitive value (entity row)) :
    (db.select parameters joins conditions rows).map entity =
      (rows.map entity).filter (s.accepts caseSensitive value) := by
  rw [List.filter_map, Engine.select]
  exact congrArg (·.map entity) (List.filter_congr holds)

/-- A search is always pushed, behind what the filter has gathered. -/
theorem trySearch_eq (honest : db.Honest ctx config.caseSensitive s rows entity value)
    (b : Builder) :
    ∃ condition after,
      tryStage config s.search (compileSearch ctx config.caseSensitive) b
        = .ok (condition, after) ∧
      condition.isSome = s.search.isSome ∧ b.parameters <+: after.parameters ∧
      after.joins = b.joins ∧ ∀ row ∈ rows,
        (condition.toList.all fun condition => db.holds after.parameters after.joins condition row)
          = s.search.all (·.matches_ config.caseSensitive (entity row)) := by
  cases present : s.search with
  | none => exact ⟨none, b, rfl, rfl, List.prefix_refl _, rfl, fun _ _ => rfl⟩
  | some search =>
    obtain ⟨condition, after, done, more, joins⟩ :=
      compileSearch_total ctx config.caseSensitive search b
    have kept : (attempt (compileSearch ctx config.caseSensitive search)).run b
        = (.ok condition, after) := by
      simp only [attempt, ExceptT.run_mk, done]
    refine ⟨some condition, after, ?_, rfl, more, joins, fun row mem => ?_⟩
    · rw [tryStage, tryCondition, kept]
    · simpa using honest.searches search present b condition after done row mem

/-- What is gathered for stages: some conditions, whose filter is pushed or left to memory. -/
structure Splits (config : Config) (s : Stages) (pushed left : Option Expression) : Prop where
  once : pushed = s.filter ∧ left = none ∨ pushed = none ∧ left = s.filter
  allowed : config.fallback = false → left = none

/-- A filter that is left to memory is that of the stages. -/
theorem Splits.left_subset {pushed left : Option Expression} (splits : Splits config s pushed left)
    {filter : Expression} (mem : filter ∈ left) : filter ∈ s.filter := by
  rcases splits.once with ⟨-, rfl⟩ | ⟨-, rfl⟩
  · cases mem
  · exact mem

/-- What is pushed and what is left accept together what the stages accept. -/
theorem Splits.accepts {pushed left : Option Expression} (splits : Splits config s pushed left)
    (caseSensitive : Bool) (value : Entity → Value) (e : Entity) :
    (({ s with filter := left, search := none } : Stages).accepts caseSensitive value e &&
      ({ s with filter := pushed } : Stages).accepts caseSensitive value e)
      = s.accepts caseSensitive value e := by
  rcases splits.once with ⟨rfl, rfl⟩ | ⟨rfl, rfl⟩ <;> simp [Stages.accepts, Stages.passes]

/-- A condition from the filter holds where the filter is true, unless it is left to memory. -/
theorem tryFilter_eq (honest : db.Honest ctx config.caseSensitive s rows entity value)
    (only : ∀ filter ∈ s.filter, OnlyUnsupported (compileFilter ctx filter)) :
    (∃ reason, config.fallback = false ∧
      tryStage config s.filter (compileFilter ctx) .empty = .error (.notImplemented reason)) ∨
    ∃ condition b pushed left, Splits config s pushed left ∧
      tryStage config s.filter (compileFilter ctx) .empty = .ok (condition, b) ∧
      (if condition.isSome then none else s.filter) = left ∧
      ∀ parameters, b.parameters <+: parameters → ∀ row ∈ rows,
        (condition.toList.all fun condition => db.holds parameters b.joins condition row)
          = pushed.all fun _ => value (entity row) = .boolean true := by
  cases present : s.filter with
  | none =>
    exact .inr ⟨none, .empty, none, none, ⟨.inl ⟨present.symm, rfl⟩, fun _ => rfl⟩, rfl, rfl,
      fun _ _ _ _ => rfl⟩
  | some filter =>
    obtain ⟨condition, b, done, kept⟩ | ⟨reason, kept⟩ :=
      tryCondition_eq config (only filter present)
    · refine .inr ⟨some condition, b, some filter, none, ⟨.inl ⟨present.symm, rfl⟩, fun _ => rfl⟩,
        kept, rfl, fun parameters more row mem => ?_⟩
      simpa using honest.filters filter present condition b done parameters more row mem
    · rw [tryStage, kept, fallBack]
      cases allowed : config.fallback with
      | false => exact .inl ⟨reason, rfl, rfl⟩
      | true =>
        exact .inr ⟨none, .empty, none, some filter,
          ⟨.inr ⟨rfl, present.symm⟩, by simp [allowed]⟩, rfl, rfl, fun _ _ _ _ => rfl⟩

/-- Filter and search are pushed such that their conditions select what is not left to memory. -/
theorem pushDown_eq (honest : db.Honest ctx config.caseSensitive s rows entity value)
    (only : ∀ filter ∈ s.filter, OnlyUnsupported (compileFilter ctx filter)) :
    (∃ reason, config.fallback = false ∧
      pushDown config ctx s = .error (.notImplemented reason)) ∨
    ∃ conditions b pushed left, Splits config s pushed left ∧
      pushDown config ctx s = .ok (⟨conditions, { s with filter := left, search := none }⟩, b) ∧
      (db.select b.parameters b.joins conditions rows).map entity =
        (rows.map entity).filter
          (({ s with filter := pushed } : Stages).accepts config.caseSensitive value) := by
  obtain ⟨reason, forbidden, failed⟩ | ⟨condition, b, pushed, left, splits, done, rest, holds⟩ :=
    tryFilter_eq honest only
  · refine .inl ⟨reason, forbidden, ?_⟩
    rw [pushDown, failed]
    rfl
  · obtain ⟨search, after, doneS, given, more, joins, holdsS⟩ := trySearch_eq honest b
    refine .inr ⟨condition.toList ++ search.toList, after, pushed, left, splits, ?_, ?_⟩
    · have searched : (if search.isSome then none else s.search) = none := by
        rw [given]
        cases s.search <;> rfl
      simp only [pushDown, done, doneS, rest, searched, Bind.bind, Except.bind]
      rfl
    · refine select_eq_accepts fun row mem => ?_
      have filtered := holds after.parameters more row mem
      rw [← joins] at filtered
      rw [List.all_append, filtered, holdsS row mem]
      simp [Stages.accepts, Stages.passes, Except.toOption]

/-- What a database answers are rows of the table. -/
theorem answer_subset (db : Engine) (select : Select) (parameters : List Value)
    (rows : List Record) : db.answer select parameters rows ⊆ rows := by
  -- A page is a part of the sorted rows, and sorting and selecting add none.
  intro row mem
  have sorted : row ∈ (db.select parameters select.joins select.conditions rows).mergeSort
      fun a b => (db.compareBy select.order a b).isLE := by
    simp only [Engine.answer, page] at mem
    split at mem
    · exact List.mem_of_mem_drop mem
    · exact List.mem_of_mem_drop (List.mem_of_mem_take mem)
  exact List.mem_of_mem_filter (List.mem_mergeSort.mp sorted)

/-- Numbers of a page that are cut to the length of a list or more still give the page. -/
theorem page_min {α : Type} {list : List α} {limit : Nat} (short : list.length ≤ limit)
    (skip : Nat) (top : Option Nat) :
    page (min skip limit) (top.map (min · limit)) list = page skip top list := by
  have dropped : list.drop (min skip limit) = list.drop skip := by
    rcases Nat.le_total skip limit with below | above
    · rw [Nat.min_eq_left below]
    · rw [Nat.min_eq_right above, List.drop_eq_nil_of_le short,
        List.drop_eq_nil_of_le (short.trans above)]
  have shorter : (list.drop skip).length ≤ limit := by
    rw [List.length_drop]
    omega
  cases top with
  | none => exact dropped
  | some n =>
    simp only [page, Option.map_some, dropped]
    rcases Nat.le_total n limit with below | above
    · rw [Nat.min_eq_left below]
    · rw [Nat.min_eq_right above, List.take_of_length_le shorter,
        List.take_of_length_le (shorter.trans above)]

/-- A page of mapped members is a mapped page. -/
theorem map_page {α β : Type} (f : α → β) (skip : Nat) (top : Option Nat) (list : List α) :
    (page skip top list).map f = page skip top (list.map f) := by
  cases top <;> simp [page]

/-- Rows sort by the terms of keys as their entities sort by the keys. -/
theorem compareBy_term (honest : db.Honest ctx config.caseSensitive s rows entity value)
    {keys : List SortKey}
    (declared : ∀ k ∈ keys, ctx.table.type.property? k.property.name = some k.property)
    {a b : Record} (memA : a ∈ rows) (memB : b ∈ rows) :
    db.compareBy (keys.map SortKey.term) a b = compareEntities keys (entity a) (entity b) := by
  induction keys with
  | nil => rfl
  | cons k rest ih =>
    obtain ⟨first, others⟩ := List.forall_mem_cons.mp declared
    rw [List.map_cons, Engine.compareBy, ih others, compareEntities_cons]
    simp only [SortKey.term, SortKey.compare, honest.sorts k.property first a memA b memB]

/-- An honest database answers with the rows of the selected entities, sorted and paged. -/
theorem map_answer (honest : db.Honest ctx config.caseSensitive s rows entity value)
    (few : rows.length ≤ Dialect.pageLimit) {keys : List SortKey}
    (declared : ∀ k ∈ keys, ctx.table.type.property? k.property.name = some k.property)
    (select : Select) (ordered : select.order = keys.map SortKey.term) (parameters : List Value) :
    (db.answer select parameters rows).map entity =
      page (select.skip.getD 0) select.top
        (((db.select parameters select.joins select.conditions rows).map entity).mergeSort
          (inOrder keys)) := by
  have sorted : ((db.select parameters select.joins select.conditions rows).mergeSort fun a b =>
      (db.compareBy select.order a b).isLE).map entity =
      ((db.select parameters select.joins select.conditions rows).map entity).mergeSort
        (inOrder keys) := by
    refine List.map_mergeSort fun a memA b memB => ?_
    rw [ordered, compareBy_term honest declared (List.mem_of_mem_filter memA)
      (List.mem_of_mem_filter memB), inOrder]
  rw [Engine.answer, map_page, sorted, page_min]
  rw [List.length_mergeSort, List.length_map]
  exact (List.length_filter_le _ _).trans few

/-- The terms of sort keys order by them and then by the key of the type. -/
theorem compileOrder_ok {type : EntityType} {keys : List SortKey} {terms : List OrderTerm}
    (done : compileOrder type keys = .ok terms) :
    ∃ all : List SortKey, terms = all.map SortKey.term ∧ all ⊆ keys ++ keyOrder type ∧
      inOrder all = inOrder (keys ++ keyOrder type) := by
  rw [compileOrder] at done
  split at done
  · cases done
  cases done
  cases declared : type.keyProperty? with
  | none => exact ⟨keys, by simp [SortKey.term], by simp, by simp [keyOrder, declared]⟩
  | some p =>
    by_cases named : keys.any (·.property.name == p.name) = true
    · -- The key is among the sort keys, so entities that they find equal have equal keys.
      refine ⟨keys, by simp [SortKey.term, Option.filter, named], by simp, ?_⟩
      funext a b
      have tied (equal : compareEntities keys a b = .eq) :
          compareEntities (keyOrder type) a b = .eq := by
        obtain ⟨k, mem, same⟩ := List.any_eq_true.mp named
        have equal := compare_eq_of_mem mem equal
        rw [SortKey.compare, eq_of_beq same] at equal
        simp only [keyOrder, declared, Option.toList_some, List.map_cons, List.map_nil,
          compareEntities_cons, compareEntities, SortKey.compare, Bool.false_eq_true, if_false]
        cases descending : k.descending <;> simpa [descending] using equal
      rw [inOrder, inOrder, compareEntities_append]
      cases decided : compareEntities keys a b with
      | eq => rw [tied decided]; rfl
      | lt => rfl
      | gt => rfl
    · refine ⟨keys ++ keyOrder type, ?_, List.Subset.refl _, rfl⟩
      simp [SortKey.term, keyOrder, declared, Option.filter, named]

/-- The key that orders entities of a type is one of its properties. -/
theorem declared_keyOrder (type : EntityType) :
    ∀ k ∈ keyOrder type, type.property? k.property.name = some k.property := by
  intro k mem
  rw [keyOrder, EntityType.keyProperty?] at mem
  cases keyed : type.key with
  | none => simp [keyed] at mem
  | some key =>
    simp only [keyed, Option.bind_some, List.mem_map, Option.mem_toList] at mem
    obtain ⟨p, found, rfl⟩ := mem
    rw [EntityType.property?_name found]
    exact found

/-- Sort terms that compile come from keys that sort as the given ones and the key of the type. -/
theorem map_answer_of_order (honest : db.Honest ctx config.caseSensitive s rows entity value)
    (few : rows.length ≤ Dialect.pageLimit) {keys : List SortKey}
    (declared : ∀ k ∈ keys, ctx.table.type.property? k.property.name = some k.property)
    (select : Select) (ordered : compileOrder ctx.table.type keys = .ok select.order)
    (parameters : List Value) :
    (db.answer select parameters rows).map entity =
      page (select.skip.getD 0) select.top
        (((db.select parameters select.joins select.conditions rows).map entity).mergeSort
          (inOrder (keys ++ keyOrder ctx.table.type))) := by
  obtain ⟨all, terms, among, same⟩ := compileOrder_ok ordered
  rw [← same]
  refine map_answer honest few (fun k mem => ?_) select terms parameters
  rcases List.mem_append.mp (among mem) with given | key
  · exact declared k given
  · exact declared_keyOrder ctx.table.type k key

/--
A plan of rows asks for everything, or for rows in the order of their keys.

In the latter case order and page are left to memory, and with them what the filter may need.
-/
theorem planRows_eq (honest : db.Honest ctx config.caseSensitive s rows entity value)
    (only : ∀ filter ∈ s.filter, OnlyUnsupported (compileFilter ctx filter))
    (few : rows.length ≤ Dialect.pageLimit)
    (declared : ∀ k ∈ s.orderby, ctx.table.type.property? k.property.name = some k.property) :
    (∃ reason, config.fallback = false ∧
      planRows config ctx s = .error (.notImplemented reason)) ∨
    ∃ plan, planRows config ctx s = .ok plan ∧
      ((plan.remaining = .empty ∧
        (db.answer plan.select plan.parameters rows).map entity =
          page (s.skip.getD 0) s.top
            (((rows.map entity).filter (s.accepts config.caseSensitive value)).mergeSort
              (inOrder (s.orderby ++ keyOrder ctx.table.type)))) ∨
      config.fallback = true ∧ ∃ pushed left, Splits config s pushed left ∧
        plan.remaining = { s with filter := left, search := none } ∧
        (db.answer plan.select plan.parameters rows).map entity =
          ((rows.map entity).filter
            (({ s with filter := pushed } : Stages).accepts config.caseSensitive value)).mergeSort
              (inOrder (keyOrder ctx.table.type))) := by
  obtain ⟨reason, forbidden, failed⟩ | ⟨conditions, b, pushed, left, splits, done, selected⟩ :=
    pushDown_eq honest only
  · refine .inl ⟨reason, forbidden, ?_⟩
    rw [planRows, failed]
    rfl
  -- Without a condition for the filter, or without an order, only the key orders the rows.
  have partly (unordered : left = none → pushOrder config ctx s.orderby = .ok none) :
      ∃ plan, planRows config ctx s = .ok plan ∧
        plan.remaining = { s with filter := left, search := none } ∧
        (db.answer plan.select plan.parameters rows).map entity =
          ((rows.map entity).filter
            (({ s with filter := pushed } : Stages).accepts config.caseSensitive value)).mergeSort
              (inOrder (keyOrder ctx.table.type)) := by
    obtain ⟨terms, ordered⟩ : ∃ terms, compileOrder ctx.table.type [] = .ok terms := ⟨_, rfl⟩
    let plan : Plan := ⟨⟨ctx.table, b.joins, conditions, terms, none, none⟩, b.parameters,
      { s with filter := left, search := none }⟩
    refine ⟨plan, ?_, rfl, ?_⟩
    · simp only [planRows, done, Bind.bind, Except.bind, Pushed.isComplete, Option.isNone_none,
        Bool.and_true, ordered, Except.mapError]
      cases left with
      | some filter => rfl
      | none => simp only [Option.isNone_none, if_true, unordered rfl]; rfl
    · have undeclared : ∀ k ∈ ([] : List SortKey),
          ctx.table.type.property? k.property.name = some k.property := nofun
      rw [map_answer_of_order honest few undeclared plan.select ordered, selected]
      rfl
  cases left with
  | some filter =>
    refine .inr ?_
    obtain ⟨plan, planned, rest, answered⟩ := partly nofun
    refine ⟨plan, planned, .inr ⟨?_, pushed, some filter, splits, rest, answered⟩⟩
    cases allowed : config.fallback with
    | true => rfl
    | false => cases splits.allowed allowed
  | none =>
    cases compiled : compileOrder ctx.table.type s.orderby with
    | error fault =>
      obtain ⟨reason, rfl⟩ := compileOrder_fault compiled
      have kept : pushOrder config ctx s.orderby = (fallBack config reason).map fun _ => none := by
        rw [pushOrder, compiled]
      cases allowed : config.fallback with
      | false =>
        refine .inl ⟨reason, rfl, ?_⟩
        simp only [planRows, done, Bind.bind, Except.bind, Pushed.isComplete, Option.isNone_none,
          Bool.and_true, if_true, kept, fallBack, allowed]
        rfl
      | true =>
        obtain ⟨plan, planned, rest, answered⟩ := partly fun _ => by
          simp [kept, fallBack, allowed, Except.map]
        exact .inr ⟨plan, planned, .inr ⟨rfl, pushed, none, splits, rest, answered⟩⟩
    | ok terms =>
      let plan : Plan :=
        ⟨⟨ctx.table, b.joins, conditions, terms, s.skip, s.top⟩, b.parameters, .empty⟩
      refine .inr ⟨plan, ?_, .inl ⟨rfl, ?_⟩⟩
      · simp only [planRows, done, Bind.bind, Except.bind, Pushed.isComplete, Option.isNone_none,
          Bool.and_true, if_true, pushOrder, compiled]
        rfl
      · have whole : pushed = s.filter := splits.once.elim And.left fun left => left.1.trans left.2
        rw [map_answer_of_order honest few declared plan.select compiled, selected, whole]

/-- A plan of a count selects what is not left to memory, and tells whether nothing is. -/
theorem planCount_eq (honest : db.Honest ctx config.caseSensitive s rows entity value)
    (only : ∀ filter ∈ s.filter, OnlyUnsupported (compileFilter ctx filter))
    (few : rows.length ≤ Dialect.pageLimit) :
    (∃ reason, config.fallback = false ∧
      planCount config ctx s = .error (.notImplemented reason)) ∨
    ∃ plan pushed left, Splits config s pushed left ∧
      planCount config ctx s = .ok (plan, left.isNone) ∧
      plan.remaining = { s with filter := left, search := none } ∧
      (db.answer plan.select plan.parameters rows).map entity =
        (rows.map entity).filter
          (({ s with filter := pushed } : Stages).accepts config.caseSensitive value) := by
  obtain ⟨reason, forbidden, failed⟩ | ⟨conditions, b, pushed, left, splits, done, selected⟩ :=
    pushDown_eq honest only
  · refine .inl ⟨reason, forbidden, ?_⟩
    rw [planCount, failed]
    rfl
  · let plan : Plan := ⟨.rows ctx.table b.joins conditions, b.parameters,
      { s with filter := left, search := none }⟩
    refine .inr ⟨plan, pushed, left, splits, ?_, rfl, ?_⟩
    · simp only [planCount, done, Bind.bind, Except.bind, Pushed.isComplete, Option.isNone_none,
        Bool.and_true]
      rfl
    · have undeclared : ∀ k ∈ ([] : List SortKey),
          ctx.table.type.property? k.property.name = some k.property := nofun
      rw [map_answer honest few undeclared plan.select rfl]
      -- Rows that no term orders stay in their places.
      show page 0 none (List.mergeSort (List.map entity (db.select b.parameters b.joins conditions
        rows)) (inOrder [])) = _
      rw [selected, mergeSort_inOrder_nil]
      rfl

end

end

end EdmQuery
