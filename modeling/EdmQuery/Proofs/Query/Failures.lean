import Mathlib
import EdmQuery.Proofs.Query.TypeSafety

/-! Read filters evaluate on every entity, unless a set that they look into refuses queries. -/

namespace EdmQuery

/-- A set that a name finds cannot be queried. -/
def Model.Refuses (m : Model) (target : String) : Prop :=
  ∃ t, m.set? target = some t ∧ t.capabilities.contains .query = false

/-- The sets that a quantifier looks entities up in. -/
def Source.targets : Source → List String
  | .related _ target => [target]
  | .items _ => []

namespace Expression

mutual

/-- The sets that the navigation properties of an expression lead to. -/
def targets : Expression → List String
  | hop _ _ target inner => target :: inner.targets
  | not operand => operand.targets
  | negate operand => operand.targets
  | binary _ left right => left.targets ++ right.targets
  | oneOf operand items => operand.targets ++ allTargets items
  | call _ arguments _ => allTargets arguments
  | nonEmpty _ source => source.targets
  | quantified _ source _ _ predicate => source.targets ++ predicate.targets
  | _ => []

/-- The sets that the navigation properties of several expressions lead to. -/
def allTargets : List Expression → List String
  | [] => []
  | x :: rest => x.targets ++ allTargets rest

end

/-- The sets of one of several expressions are among those of all. -/
theorem targets_subset_all {items : List Expression} {x : Expression} (mem : x ∈ items) :
    x.targets ⊆ allTargets items := by
  induction items with
  | nil => cases mem
  | cons first rest ih =>
    rw [allTargets]
    rcases List.mem_cons.mp mem with rfl | later
    · exact List.subset_append_left _ _
    · exact fun target among => List.mem_append_right _ (ih later among)

end Expression

variable {m : Type → Type} [Monad m] {α β : Type}

/-- A computation has a value as it should be, or it is refused the query of one of some sets. -/
def Model.Answers (model : Model) (targets : List String) (good : α → Prop)
    (step : ExceptT RequestError m α) : Prop :=
  (∃ a, good a ∧ step = pure a) ∨ ∃ target ∈ targets, model.Refuses target ∧
    step = throw (.notAllowed Capability.query.name target)

namespace Model.Answers

variable {model : Model} {targets more : List String} {good : α → Prop} {fine : β → Prop}

/-- What is returned is a value. -/
protected theorem pure {a : α} (holds : good a) :
    model.Answers targets good (Pure.pure a : ExceptT RequestError m α) :=
  .inl ⟨a, holds, rfl⟩

/-- A computation that may be refused some sets may be refused more. -/
theorem mono {step : ExceptT RequestError m α} (answers : model.Answers targets good step)
    (fewer : targets ⊆ more) : model.Answers more good step := by
  rcases answers with value | ⟨target, mem, refused⟩
  · exact .inl value
  · exact .inr ⟨target, fewer mem, refused⟩

variable [LawfulMonad m]

/-- Two steps are refused what one of them is. -/
theorem bind {step : ExceptT RequestError m α} {next : α → ExceptT RequestError m β}
    (first : model.Answers targets good step)
    (second : ∀ a, good a → model.Answers targets fine (next a)) :
    model.Answers targets fine (step >>= next) := by
  rcases first with ⟨a, holds, rfl⟩ | ⟨target, mem, refused, rfl⟩
  · rw [pure_bind]
    exact second a holds
  · refine .inr ⟨target, mem, refused, ?_⟩
    rw [throw_eq_settled, settled_error_bind]
    rfl

/-- Computations that answer do so one after the other. -/
theorem sequential : Sequential (m := m) fun step => model.Answers targets (fun _ => True) step where
  pure _ := .pure trivial
  bind first second := first.bind fun a _ => second a

end Model.Answers

namespace Service

variable {v : Service m}

/-- All sets of a service are in memory, and every record in them can be read as an entity. -/
structure Materializes (v : Service m) : Prop where
  backed : ∀ name s, v.model.set? name = some s → s.backing = .memory
  kept : ∀ name s, v.model.set? name = some s →
    ∃ found : List Entity, (v.collection s).entities = found.map .ok

variable [LawfulMonad m]

/-- Related entities are found by every bound navigation property, if its target can be queried. -/
theorem Materializes.related_answers {d : Draft} (readable : v.Materializes)
    (built : d.build = .ok v.model) {frame : Frame} {name target : String} {n : Navigation}
    {s : EntitySet} (known : frame.Known v.model) (found : frame.type.navigation? name = some n)
    (bound : v.model.target? frame.set name = some target)
    (present : v.model.set? target = some s) (e : Entity) :
    v.model.Answers [target] (fun _ => True) (v.related target n e) := by
  -- The checks of the model leave the constraint nothing that it could miss.
  obtain ⟨source, hasSource, typed⟩ := known
  rw [← typed] at found
  obtain ⟨c, p, q, only, -, remote⟩ :=
    Model.navigation_joins built hasSource found bound present
  obtain ⟨entities, kept⟩ := readable.kept target s present
  have backed := readable.backed target s present
  cases queries : s.capabilities.contains .query with
  | true =>
    rw [related_eq present backed queries only remote kept e]
    exact .pure trivial
  | false =>
    cases missing : (e.get c.property).isNull with
    | true =>
      simp only [related, relation, only, missing, if_true, settled_ok_bind]
      exact .pure trivial
    | false =>
      refine .inr ⟨target, List.mem_singleton_self _, ⟨s, present, queries⟩, ?_⟩
      have refused : (ensure s .query : ExceptT RequestError m Unit)
          = settled (.error (.notAllowed Capability.query.name target)) := by
        rw [ensure, queries, ← (Model.set?_some present).1]
        rfl
      simp only [related, relation, only, missing, Bool.false_eq_true, if_false, present, remote,
        settled_ok_bind, collect, stream, refused, settled_error_bind]
      rfl

end Service

/-- What a variable is bound to is an entity or a value, as its binder says. -/
def Bound.Matches : Bound → Binder → Prop
  | .entity _, .entity _ _ => True
  | .value _, .element _ _ => True
  | _, _ => False

/-- A standpoint that has all that a tree read among binders, behind the start of a path, names. -/
structure Standpoint.Covers (binders : List Binder) (start : Option (Scope × Frame))
    (s : Standpoint) : Prop where
  locals : ∀ name binder, binders.find? (·.name == name) = some binder →
    ∃ bound, s.locals.lookup name = some bound ∧ bound.Matches binder
  start : ∀ scope frame, start = some (scope, frame) → ∃ e, s.entity scope = .ok e

namespace Standpoint.Covers

variable {binders : List Binder} {start : Option (Scope × Frame)} {s : Standpoint}

/-- The root is there. -/
theorem rooted (covers : s.Covers binders start) (frame : Frame) :
    s.Covers binders (some (.root, frame)) where
  locals := covers.locals
  start := by
    rintro _ _ ⟨⟩
    exact ⟨s.root, rfl⟩

/-- A variable for an entity stands for one. -/
theorem through (covers : s.Covers binders start) {name : String} {target : Frame}
    (found : binders.find? (·.name == name) = some (.entity name target)) :
    s.Covers binders (some (.bound name, target)) where
  locals := covers.locals
  start := by
    rintro _ _ ⟨⟩
    obtain ⟨bound, present, fits⟩ := covers.locals name _ found
    cases bound with
    | entity e => exact ⟨e, by rw [Standpoint.entity, present]⟩
    | value => cases fits

/-- An entity that a path has led to is there. -/
theorem moved (covers : s.Covers binders start) (e : Entity) (frame : Frame) :
    { s with current := e }.Covers binders (some (.current, frame)) where
  locals := covers.locals
  start := by
    rintro _ _ ⟨⟩
    exact ⟨e, rfl⟩

/-- A predicate has its own variable beside those around it. -/
theorem bound (covers : s.Covers binders start) {binder : Binder} {local_ : String} {b : Bound}
    (named : binder.name = local_) (fits : b.Matches binder) :
    (s.bind local_ b).Covers (binder :: binders) none where
  locals := by
    subst named
    intro name other found
    rw [List.find?_cons] at found
    simp only [Standpoint.bind, List.lookup_cons]
    by_cases own : binder.name = name
    · subst own
      simp only [beq_self_eq_true] at found ⊢
      cases found
      exact ⟨b, rfl, fits⟩
    · -- Another variable is looked for among those around.
      simp only [beq_eq_false_iff_ne.mpr own, beq_eq_false_iff_ne.mpr (Ne.symm own)] at found ⊢
      exact covers.locals name other found
  start := nofun

end Standpoint.Covers

namespace Expression

variable {v : Service m} {c : FilterContext} {tokens : List Token} {binders : List Binder}
  {start : Option (Scope × Frame)} {x : Expression}

/-- What a source ranges over is found, and it is of the sort that its variable stands for. -/
theorem Ranges.members_answer [LawfulMonad m] {d : Draft} (readable : v.Materializes)
    (built : d.build = .ok v.model) (same : c.model = v.model) {frame : Frame} {source : Source}
    {binder : String → Binder} (ranges : Ranges c frame source binder)
    (known : frame.Known v.model) (e : Entity) :
    v.model.Answers source.targets (fun found => ∀ b ∈ found, ∀ name, b.Matches (binder name))
      (members v.related e source) := by
  cases ranges with
  | items declared several =>
    rw [members]
    refine .pure fun b mem name => ?_
    obtain ⟨value, -, rfl⟩ := List.mem_map.mp mem
    exact trivial
  | related unshadowed declared several bound present =>
    rw [same] at bound present
    rw [members]
    refine (readable.related_answers built known declared bound present e).bind fun found _ => ?_
    refine .pure fun b mem name => ?_
    obtain ⟨other, -, rfl⟩ := List.mem_map.mp mem
    exact trivial

/-- A source leads its variable to entities of sets of the model only. -/
theorem Ranges.known_binders {frame : Frame} {source : Source} {binder : String → Binder}
    (ranges : Ranges c frame source binder) (known : KnownBinders c.model binders)
    (name : String) : KnownBinders c.model (binder name :: binders) := by
  intro other target mem
  rcases List.mem_cons.mp mem with same | before
  · cases ranges with
    | items => cases same
    | related unshadowed declared several bound present =>
      cases same
      exact ⟨_, present, rfl⟩
  · exact known other target before

/-- What was read answers at every standpoint that has what it names. -/
theorem ReadFrom.answers [LawfulMonad m] {d : Draft} (readable : v.Materializes)
    (built : d.build = .ok v.model) (same : c.model = v.model) (rootKnown : c.root.Known c.model)
    (read : x.ReadFrom c tokens binders start) (known : KnownBinders c.model binders)
    (startKnown : ∀ scope frame, start = some (scope, frame) → frame.Known c.model)
    {s : Standpoint} (covers : s.Covers binders start) :
    v.model.Answers x.targets (fun _ => True) (x.eval v.related s) := by
  -- The induction is on how the tree was read; the standpoint grows with the binders.
  induction read generalizing s with
  | literal =>
    rw [eval]
    exact .pure trivial
  | rooted _ ih =>
    exact ih known (by rintro _ _ ⟨⟩; exact rootKnown) (covers.rooted _)
  | through found _ ih =>
    refine ih known ?_ (covers.through found)
    rintro _ _ ⟨⟩
    exact known _ _ (List.mem_of_find?_eq_some found)
  | item found =>
    obtain ⟨bound, present, fits⟩ := covers.locals _ _ found
    cases bound with
    | entity => cases fits
    | value stored =>
      rw [eval, Standpoint.value, present]
      exact .pure trivial
  | not _ _ ih =>
    rw [eval]
    exact (ih known startKnown covers).bind fun _ _ => .pure trivial
  | negate _ _ ih =>
    rw [eval]
    exact (ih known startKnown covers).bind fun _ _ => .pure trivial
  | binary _ _ _ ihLeft ihRight =>
    exact Model.Answers.sequential.eval_binary
      ((ihLeft known startKnown covers).mono (List.subset_append_left _ _))
      ((ihRight known startKnown covers).mono (List.subset_append_right _ _))
  | oneOf _ _ _ _ ih ihItems =>
    rw [eval]
    refine ((ih known startKnown covers).mono (List.subset_append_left _ _)).bind
      fun wanted _ => ?_
    split
    · exact .pure trivial
    · refine Model.Answers.sequential.evalAmong (fun y mem => (ihItems y mem known startKnown covers).mono ?_) _ _
      exact fun target among => List.mem_append_right _ (targets_subset_all mem among)
  | call _ _ ihItems =>
    rw [eval]
    refine Model.Answers.bind (Model.Answers.sequential.evalList fun y mem => ?_) fun _ _ => .pure trivial
    exact (ihItems y mem known startKnown covers).mono (targets_subset_all mem)
  | property =>
    obtain ⟨e, stands⟩ := covers.start _ _ rfl
    rw [eval, stands, settled_ok_bind]
    exact .pure trivial
  | hop _ _ _ found _ bound present _ ih =>
    obtain ⟨e, stands⟩ := covers.start _ _ rfl
    have frameKnown := startKnown _ _ rfl
    rw [same] at bound frameKnown
    have looked := readable.related_answers built frameKnown found bound (same ▸ present) e
    rw [eval, stands, settled_ok_bind]
    refine (looked.mono (by simp [targets])).bind fun others _ => ?_
    cases others with
    | nil => exact .pure trivial
    | cons first rest =>
      refine (ih known ?_ (covers.moved first _)).mono (List.subset_cons_self _ _)
      rintro _ _ ⟨⟩
      exact ⟨_, present, rfl⟩
  | nonEmpty _ _ _ ranges =>
    obtain ⟨e, stands⟩ := covers.start _ _ rfl
    have frameKnown := startKnown _ _ rfl
    rw [eval, stands, settled_ok_bind]
    exact (ranges.members_answer readable built same (same ▸ frameKnown) e).bind
      fun _ _ => .pure trivial
  | quantified _ _ _ ranges _ _ _ _ _ _ ih =>
    obtain ⟨e, stands⟩ := covers.start _ _ rfl
    have frameKnown := startKnown _ _ rfl
    rw [eval, stands, settled_ok_bind]
    refine ((ranges.members_answer readable built same (same ▸ frameKnown) e).mono
      (List.subset_append_left _ _)).bind fun found matching => ?_
    refine (Model.Answers.sequential.mapM fun b mem => ?_).bind fun _ _ => .pure trivial
    -- Each member takes the place of the variable that the predicate was read under.
    have answers := ih (ranges.known_binders known _) (by simp)
      (covers.bound (ranges.binder_name _) (matching b mem _))
    exact (answers.mono (List.subset_append_right _ _)).bind fun _ _ => .pure trivial

end Expression

namespace Service

/--
A read filter has a value on every entity, unless it leads to a set that cannot be queried.

Nothing that it names is missing: no variable, no set, and no constraint of a navigation property.
-/
theorem filters_fail_on_refusal_only [LawfulMonad m] {v : Service m} {d : Draft}
    {set input : String} {x : Expression} (built : d.build = .ok v.model)
    (readable : v.Materializes) (read : parseFilter v.model set input = .ok x) (e : Entity) :
    (∃ value, x.eval v.related (.ofEntity e) = pure value) ∨
      ∃ target ∈ x.targets, ∃ t, v.model.set? target = some t ∧
        t.capabilities.contains .query = false ∧
        x.eval v.related (.ofEntity e) = throw (.notAllowed "query" target) := by
  obtain ⟨s, tokens, present, -, readFrom, -⟩ := parseFilter_sound read
  have covers : (Standpoint.ofEntity e).Covers [] none := ⟨nofun, nofun⟩
  have named := Model.set?_name built (Model.set?_some present).2
  rcases readFrom.answers readable built rfl ⟨s, named, rfl⟩ nofun nofun covers with
    ⟨value, -, evaluated⟩ | ⟨target, mem, ⟨t, found, refuses⟩, refused⟩
  · exact .inl ⟨value, evaluated⟩
  · exact .inr ⟨target, mem, t, found, refuses, refused⟩

/-- Whether a shelf has a book with the number of the shelf itself. -/
def ownBooksFilter : Expression :=
  .quantified .root (.related (booksBy "books" "id") "books") .any "b"
    (.binary .eq (.property (.bound "b") (plainProperty "shelf" (.integer .int32)))
      (.property .root (plainProperty "id" (.integer .int32))))

/-- In the library, a filter about books has a value, and one about the archive is refused. -/
theorem filters_fail_on_refusal_only_in_library :
    (parseFilter library.model "shelves" "books/any(b:b/shelf eq $it/id)" = .ok ownBooksFilter ∧
      ∃ value, ownBooksFilter.eval library.related (.ofEntity shelf) = pure value) ∧
    (parseFilter library.model "shelves" "stored/any() or books/any(b:b/shelf eq $it/id)"
        = .ok (.binary .or (hasBooks "stored" "id" "archive") ownBooksFilter) ∧
      (Expression.binary .or (hasBooks "stored" "id" "archive") ownBooksFilter).eval
        library.related (.ofEntity shelf) = throw (.notAllowed "query" "archive")) := by
  have readable : library.Materializes :=
    ⟨mirrors_library.inMemory, fun name s present => ⟨_, mirrors_library.kept name s present⟩⟩
  have readBooks : parseFilter library.model "shelves" "books/any(b:b/shelf eq $it/id)"
      = .ok ownBooksFilter := by cbv
  have readBoth : parseFilter library.model "shelves"
      "stored/any() or books/any(b:b/shelf eq $it/id)"
      = .ok (.binary .or (hasBooks "stored" "id" "archive") ownBooksFilter) := by cbv
  refine ⟨⟨readBooks, ?_⟩, readBoth, ?_⟩
  · rcases filters_fail_on_refusal_only build_library readable readBooks shelf with
      value | ⟨target, mem, t, found, refuses, -⟩
    · exact value
    · -- The only set that this filter leads to can be queried.
      obtain rfl : target = "books" := by simpa [ownBooksFilter, Expression.targets,
        Source.targets] using mem
      cases found
      cases refuses
  · rcases filters_fail_on_refusal_only build_library readable readBoth shelf with
      ⟨value, evaluated⟩ | ⟨target, mem, t, found, refuses, refused⟩
    · cases evaluated
    · have among : target = "archive" ∨ target = "books" := by
        simpa [ownBooksFilter, hasBooks, Expression.targets, Source.targets] using mem
      rcases among with rfl | rfl
      · exact refused
      · cases found
        cases refuses

end Service

end EdmQuery
