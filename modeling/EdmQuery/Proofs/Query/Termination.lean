import Mathlib
import EdmQuery.Proofs.Query.Effects
import EdmQuery.Proofs.Query.Expansion

/-! Filters and expansions are evaluated with boundedly many nested queries, also on cyclic data. -/

namespace EdmQuery

namespace Expansion

mutual

/-- How deep expansions are nested. -/
def height : Expansion → Nat
  | mk _ _ _ _ _ nested => heights nested + 1

/-- How deep the deepest of several expansions is nested. -/
def heights : List Expansion → Nat
  | [] => 0
  | x :: rest => max x.height (heights rest)

end

/-- Induction over expansions, where each of the nested ones has its own hypothesis. -/
@[elab_as_elim]
theorem induction {motive : Expansion → Prop}
    (mk : ∀ n target stages count select nested, (∀ x ∈ nested, motive x) →
      motive (.mk n target stages count select nested)) (x : Expansion) : motive x :=
  -- The recursor asks for a second motive, which is about lists of expansions.
  @Expansion.rec motive (fun nested => ∀ x ∈ nested, motive x) mk nofun
    (fun _ _ first others => List.forall_mem_cons.mpr ⟨first, others⟩) x

/-- Each of several expansions is no deeper than the deepest. -/
theorem height_le_heights {nested : List Expansion} {x : Expansion} (mem : x ∈ nested) :
    x.height ≤ heights nested := by
  induction nested with
  | nil => cases mem
  | cons first rest ih =>
    rw [heights]
    rcases List.mem_cons.mp mem with rfl | later
    · exact Nat.le_max_left _ _
    · exact Nat.le_trans (ih later) (Nat.le_max_right _ _)

end Expansion

/-- What a query calls for each of its entities: a lookup of related entities, and an expansion. -/
structure Calls (m : Type → Type) where
  related : Lookup m
  expand : Entity → Expansion → ExceptT RequestError m Entity

namespace Calls

variable {m : Type → Type} [Monad m]

/-- An entity with its expansions, each made by a call, and the properties that options select. -/
def finish (c : Calls m) (o : QueryOptions) (e : Entity) : ExceptT RequestError m Entity :=
  Service.project o.select <$> o.expand.foldlM c.expand e

/-- The entities related to an entity that options leave, from a query that makes calls. -/
def query (v : Service m) (c : Calls m) (o : QueryOptions) : Lookup m := fun target n source => do
  match ← settled (v.relation target n source) with
  | none => return []
  | some condition =>
    v.collect c.related (c.finish o) target (o.stages.andFilter condition)

end Calls

namespace Service

variable {m : Type → Type} [Monad m]

/-- The calls of queries, as the service makes them. -/
def calls (v : Service m) : Calls m :=
  ⟨v.related, v.expand⟩

/-- Calls that each open one query, whose own calls are made as given. -/
def through (v : Service m) (inner : Calls m) : Calls m where
  related := inner.query v .empty
  expand e x := do
    let found ← inner.query v x.options x.target x.navigation e
    return e.attach x.navigation.name found

variable {v : Service m} {c : Calls m}

/-- A stream is filtered by a comparison of a property with a value without looking anything up. -/
theorem run_condition {p : Property} {value : Value} (patience : Patience) (lookup : Lookup m)
    (caseSensitive : Bool) (finish : Entity → ExceptT RequestError m Entity) (source : Entities) :
    (Stages.empty.andFilter (.binary .eq (.property .root p) (.literal value))).run patience lookup
        caseSensitive finish source
      = (Stages.empty.andFilter (.binary .eq (.property .root p) (.literal value))).run patience
        noLookup caseSensitive finish source := by
  -- Neither operand follows a navigation property, so every lookup gives the same value.
  have same (s : Standpoint) :
      (Expression.binary .eq (.property .root p) (.literal value)).eval lookup s
        = (Expression.binary .eq (.property .root p) (.literal value)).eval noLookup s := by
    unfold Expression.eval
    unfold Expression.eval
    rfl
  have keeps (e : Entity) :
      (Stages.empty.andFilter (.binary .eq (.property .root p) (.literal value))).keeps lookup
          caseSensitive e
        = (Stages.empty.andFilter (.binary .eq (.property .root p) (.literal value))).keeps noLookup
          caseSensitive e := by
    simp only [Stages.keeps, Stages.andFilter, Stages.empty, Expression.holdsOn, same]
  rw [Stages.run, Stages.run, funext keeps]

/-- Several expansions are made alike by calls that make each of them alike. -/
theorem foldlM_expand {nested : List Expansion}
    (same : ∀ x ∈ nested, ∀ e, c.expand e x = v.expand e x) (e : Entity) :
    nested.foldlM c.expand e = v.expandAll e nested := by
  induction nested generalizing e with
  | nil =>
    rw [List.foldlM_nil, expandAll]
  | cons x rest ih =>
    obtain ⟨first, others⟩ := List.forall_mem_cons.mp same
    rw [List.foldlM_cons, expandAll, first]
    exact bind_congr fun expanded => ih others expanded

variable [LawfulMonad m]

/-- An entity that nothing is asked for is finished as it is. -/
theorem finish_empty : c.finish .empty = pure := by
  funext e
  simp [Calls.finish, QueryOptions.empty, project]

section

variable (backed : ∀ name s, v.model.set? name = some s → s.backing = .memory)
include backed

/-- The query that a hop opens makes no calls, so it is the same whatever they would do. -/
theorem related_through : (v.through c).related = v.related := by
  funext target n source
  show (settled (v.relation target n source) >>= _) = _
  rw [related]
  cases tied : v.relation target n source with
  | error fault => simp only [settled_error_bind]
  | ok condition? =>
    simp only [settled_ok_bind]
    cases condition? with
    | none => rfl
    | some condition =>
      obtain ⟨k, s, q, -, -, present, -, rfl⟩ := of_relation_some tied
      simp only [collect, present, stream, fetch, backed target s present, pure_bind, finish_empty]
      show (do
        let found ← (do
          ensure s .query
          (Stages.empty.andFilter _).run .upToFault c.related v.model.config.caseSensitive pure
            (v.collection s).entities)
        settled found.all) = _
      simp only [run_condition]
      rfl

omit backed in
/-- An expansion is made alike by a query that makes lookups and nested expansions alike. -/
theorem expand_of_nested (related : c.related = v.related) (x : Expansion) (e : Entity)
    (same : ∀ y ∈ x.options.expand, ∀ e, c.expand e y = v.expand e y) :
    (v.through c).expand e x = v.expand e x := by
  obtain ⟨n, target, stages, count, select, nested⟩ := x
  have finished : c.finish ⟨stages, count, select, nested⟩
      = fun e => project select <$> v.expandAll e nested :=
    funext fun e => congrArg _ (foldlM_expand same e)
  rw [expand]
  simp only [through, Calls.query, related, Expansion.options, Expansion.navigation,
    Expansion.target, finished, bind_assoc]
  -- What is done with the entities that were found is written behind both cases of the other.
  refine bind_congr fun condition? => ?_
  cases condition? <;> rfl

/-- Expansions are made alike through as many calls as they are deep. -/
theorem expand_through (related : c.related = v.related) (x : Expansion) (e : Entity)
    (levels : Nat) (enough : x.height ≤ levels) :
    (v.through^[levels] c).expand e x = v.expand e x := by
  -- At every level the queries look up entities alike, so that filters have the same values.
  have lookups (levels : Nat) : (v.through^[levels] c).related = v.related := by
    cases levels with
    | zero => exact related
    | succ levels =>
      rw [Function.iterate_succ_apply']
      exact related_through backed
  induction x using Expansion.induction generalizing e levels with
  | mk n target stages count select nested ih =>
    rw [Expansion.height] at enough
    obtain ⟨levels, rfl⟩ : ∃ k, levels = k + 1 := ⟨levels - 1, by omega⟩
    rw [Function.iterate_succ_apply']
    refine expand_of_nested (lookups levels) _ e fun y mem e => ih y mem e levels ?_
    have inner : y.height ≤ Expansion.heights nested := Expansion.height_le_heights mem
    omega

/-- Entities in memory are collected without effects but those of the filter and of finishing. -/
theorem collect_settles {lookup : Lookup m} {finish : Entity → ExceptT RequestError m Entity}
    (set : String) (stages : Stages)
    (judged : ∀ filter ∈ stages.filter, ∀ s, Settles (filter.eval lookup s))
    (finished : ∀ e, Settles (finish e)) : Settles (v.collect lookup finish set stages) := by
  rw [collect]
  split
  · exact .throw _
  rename_i s present
  refine .bind ?_ fun found => .of _
  rw [stream]
  refine .bind ?_ fun _ => ?_
  · rw [ensure]
    split
    · exact .pure _
    · exact .throw _
  · simp only [fetch, backed set s present, pure_bind]
    exact Stages.run_settles _ _ _ judged finished

/-- Related entities in memory are found without effects. -/
theorem related_settles (target : String) (n : Navigation) (source : Entity) :
    Settles (v.related target n source) := by
  rw [related]
  refine .bind (.of _) fun condition? => ?_
  cases condition? with
  | none => exact .pure _
  | some condition =>
    refine collect_settles backed _ _ (fun filter _ s => ?_) fun _ => .pure _
    exact Expression.eval_settles s fun _ _ _ _ => .pure _

/-- Filters on entities in memory have no effects. -/
theorem eval_related_settles (x : Expression) (s : Standpoint) : Settles (x.eval v.related s) :=
  x.eval_settles s fun target _ n e => related_settles backed target n e

/-- Expansions of entities in memory have no effects. -/
theorem expand_settles (x : Expansion) (e : Entity) : Settles (v.expand e x) := by
  induction x using Expansion.induction generalizing e with
  | mk n target stages count select nested ih =>
    have deeper (e : Entity) : Settles (v.expandAll e nested) := by
      induction nested generalizing e with
      | nil =>
        rw [expandAll]
        exact .pure _
      | cons x rest others =>
        obtain ⟨first, later⟩ := List.forall_mem_cons.mp ih
        rw [expandAll]
        exact (first e).bind fun expanded => others later expanded
    rw [expand]
    refine .bind (.of _) fun condition? => ?_
    cases condition? with
    | none => exact .bind (.pure _) fun _ => .pure _
    | some condition =>
      refine .bind ?_ fun found => .pure _
      exact collect_settles backed _ _ (fun filter _ s => eval_related_settles backed filter s)
        fun e => (deeper e).map _

end

/--
Over sets in memory, filters and expansions come to an outcome, whatever the bindings and the data.

Related entities are found by one query, whose filter only compares a property with a value; this
query makes no calls, so that it is the same whatever calls would do, coming to no end among it. A
filter calls nothing else. Expansions call expansions no deeper than they are nested.
-/
theorem nested_queries_end (v : Service m)
    (backed : ∀ name s, v.model.set? name = some s → s.backing = .memory) :
    v.through v.calls = v.calls ∧
    (∀ target n e condition, v.relation target n e = .ok (some condition) →
      ∃ p value, condition = .binary .eq (.property .root p) (.literal value)) ∧
    (∀ beyond, (v.through beyond).related = v.related) ∧
    (∀ (x : Expression) s, ∃ r, ∀ beyond, x.eval (v.through beyond).related s = settled r) ∧
    ∀ e x, ∃ r,
      (∀ beyond levels, x.height ≤ levels → beyond.related = v.related →
        (v.through^[levels] beyond).expand e x = settled r) ∧
      ∀ beyond levels, x.height < levels → (v.through^[levels] beyond).expand e x = settled r := by
  refine ⟨?_, ?_, fun beyond => related_through backed, ?_, ?_⟩
  · have expand : (v.through v.calls).expand = v.expand :=
      funext fun e => funext fun x => expand_of_nested rfl x e fun _ _ _ => rfl
    exact (Calls.mk.injEq _ _ _ _).mpr ⟨related_through backed, expand⟩
  · intro target n e condition tied
    obtain ⟨c, s, q, -, -, -, -, same⟩ := of_relation_some tied
    exact ⟨q, _, same⟩
  · intro x s
    obtain ⟨r, known⟩ := eval_related_settles backed x s
    exact ⟨r, fun beyond => by rw [related_through backed, known]⟩
  · intro e x
    obtain ⟨r, known⟩ := expand_settles backed x e
    refine ⟨r, fun beyond levels enough related => ?_, fun beyond levels enough => ?_⟩
    · rw [expand_through backed related x e levels enough, known]
    · -- The innermost calls find related entities as the service does, whatever is beyond them.
      obtain ⟨levels, rfl⟩ : ∃ k, levels = k + 1 := ⟨levels - 1, by omega⟩
      rw [Function.iterate_succ_apply, expand_through backed (related_through backed) x e levels
        (by omega), known]

/-- Those whom a person follows. -/
def idolsOf : Navigation :=
  ⟨"idols", "Person", true, [⟨"follows", "id"⟩]⟩

/-- People, who follow somebody. -/
def personType : EntityType :=
  ⟨"Person", none,
    [plainProperty "id" (.integer .int32), plainProperty "follows" (.integer .int32)],
    [idolsOf]⟩

/-- Two people, each of whom follows the other. -/
def admirers : Service Option where
  model := ⟨.default, [], [personType], [⟨"people", personType, .all, .memory⟩],
    [⟨"people", "idols", "people"⟩]⟩
  collections := [⟨"people", personType,
    [⟨none, [("id", .ofInt 1), ("follows", .ofInt 2)]⟩,
      ⟨none, [("id", .ofInt 2), ("follows", .ofInt 1)]⟩]⟩]
  databases := .none

/-- A person, with those whom the person follows if they are shown. -/
def admirer (id idol : Int64) (shown : List (String × List Entity)) : Entity :=
  .mk personType none [("id", .integer id), ("follows", .integer idol)] shown

/-- The expansion of those whom people follow. -/
def idols (nested : List Expansion) : Expansion :=
  .mk idolsOf "people" .empty false none nested

/-- Calls that come to no end. -/
def endless : Calls Option :=
  ⟨fun _ _ _ => ExceptT.mk none, fun _ _ => ExceptT.mk none⟩

/-- A person follows somebody who follows the first person. -/
def admired : Expression :=
  .quantified .root (.related idolsOf "people") .any "p"
    (.quantified (.bound "p") (.related idolsOf "people") .any "q"
      (.binary .eq (.property (.bound "q") (plainProperty "id" (.integer .int32)))
        (.literal (.integer 1))))

/-- Among people who follow each other, nested queries end before they make an endless call. -/
theorem nested_queries_end_among_admirers :
    (admirers.through^[3] endless).expand (admirer 1 2 []) (idols [idols []])
        = settled (.ok (admirer 1 2 [("idols", [admirer 2 1 [("idols", [admirer 1 2 []])]])])) ∧
      admired.eval (admirers.through endless).related (.ofEntity (admirer 1 2 []))
        = settled (.ok (.boolean true)) := by
  have backed : ∀ name s, admirers.model.set? name = some s → s.backing = .memory := by
    intro name s present
    have mem := List.mem_of_find?_eq_some present
    rw [List.mem_singleton.mp mem]
  obtain ⟨fixed, -, -, filters, expansions⟩ := nested_queries_end admirers backed
  obtain ⟨r, within, reached⟩ := expansions (admirer 1 2 []) (idols [idols []])
  obtain ⟨t, known⟩ := filters admired (.ofEntity (admirer 1 2 []))
  -- The calls of the service itself are never left, so they show what the outcomes are.
  have shown : admirers.expand (admirer 1 2 []) (idols [idols []])
      = settled (.ok (admirer 1 2 [("idols", [admirer 2 1 [("idols", [admirer 1 2 []])]])])) := by
    cbv
  have holds : admired.eval admirers.related (.ofEntity (admirer 1 2 []))
      = settled (.ok (.boolean true)) := by
    cbv
  have outcome := within admirers.calls 2 (by decide) rfl
  have value := known admirers.calls
  rw [Function.iterate_fixed fixed] at outcome
  rw [fixed] at value
  exact ⟨(reached endless 3 (by decide)).trans (outcome.symm.trans shown),
    (known endless).trans (value.symm.trans holds)⟩

end Service

end EdmQuery
