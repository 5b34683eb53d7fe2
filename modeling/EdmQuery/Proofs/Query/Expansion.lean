import Mathlib
import EdmQuery.Proofs.Expr.Scoping
import EdmQuery.Proofs.Query.TypeSafety

/-! Quantifiers over related entities agree with expansions under the same condition. -/

namespace EdmQuery

namespace Entities

/-- A window from the start without an end shows the whole stream. -/
theorem window_unbounded (stream : Entities) : window 0 none stream = stream := by
  -- Every item is shown, whatever stands before it, and its place is dropped again.
  have every (before : Nat) (item : Except RequestError Entity) :
      shown 0 none before item = true := by simp [shown]
  simp [window, every]

/-- A stream is read up to its first fault anyway, so nothing is lost by leaving it there. -/
theorem all_cut (patience : Patience) (stream : Entities) :
    (patience.cut stream).all = stream.all := by
  cases patience with
  | throughFaults => rfl
  | upToFault =>
    induction stream with
    | nil => rfl
    | cons item rest ih =>
      cases item with
      | error fault => rfl
      | ok e =>
        simp only [Patience.cut, Except.isOk, Except.toBool, List.takeWhile_cons_of_pos,
          List.dropWhile_cons_of_pos, List.cons_append, all] at ih ⊢
        rw [ih]

/-- A stream of which all entities are read has no faults. -/
theorem eq_map_of_all {stream : Entities} {entities : List Entity}
    (read : stream.all = .ok entities) : stream = entities.map .ok := by
  induction stream generalizing entities with
  | nil =>
    cases read
    rfl
  | cons item rest ih =>
    cases item with
    | error fault => cases read
    | ok e =>
      obtain ⟨others, more, rfl⟩ := map_ok read
      rw [ih more, List.map_cons]

/-- A test without faults on a stream without faults is what leaves no faults. -/
theorem of_sift_eq_map {verdict : Entity → Except RequestError Bool} {source : Entities}
    {kept : List Entity} (sifted : sift verdict source = kept.map .ok) :
    ∃ entities : List Entity, source = entities.map .ok ∧ ∀ e ∈ entities, ∃ b, verdict e = .ok b := by
  induction source generalizing kept with
  | nil => exact ⟨[], rfl, nofun⟩
  | cons item rest ih =>
    cases item with
    | error fault =>
      rw [sift_cons_error] at sifted
      cases kept <;> cases sifted
    | ok e =>
      rw [sift_cons_ok] at sifted
      cases judged : verdict e with
      | error fault =>
        simp only [judged] at sifted
        cases kept <;> cases sifted
      | ok b =>
        -- The entity itself may be kept or not; the rest of the stream is sifted alike.
        have others : ∃ kept : List Entity, sift verdict rest = kept.map .ok := by
          cases b with
          | false =>
            simp only [judged] at sifted
            exact ⟨kept, sifted⟩
          | true =>
            simp only [judged] at sifted
            cases kept with
            | nil => cases sifted
            | cons first kept => exact ⟨kept, (List.cons.inj sifted).2⟩
        obtain ⟨kept, left⟩ := others
        obtain ⟨entities, rfl, each⟩ := ih left
        exact ⟨e :: entities, rfl, List.forall_mem_cons.mpr ⟨⟨b, judged⟩, each⟩⟩

end Entities

/-- The entities that are attached last under a navigation property are found there. -/
@[simp] theorem Entity.attached?_attach (e : Entity) (navigation : String) (found : List Entity) :
    (e.attach navigation found).attached? navigation = some found := by
  -- What was attached under that name before is gone.
  have gone : (e.expanded.filter fun attached => attached.1 != navigation).lookup navigation
      = none := by
    rw [List.lookup_eq_none_iff]
    intro attached mem
    have other := (List.mem_filter.mp mem).2
    simp only [bne_iff_ne, ne_eq] at other
    simpa using Ne.symm other
  rw [attach, attached?, expanded, List.lookup_append, gone]
  simp

namespace Expression

variable {m : Type → Type} [Monad m] [LawfulMonad m] {lookup : Lookup m}

/-- A conjunction of known values is their conjunction. -/
theorem eval_and {s : Standpoint} {x y : Expression} {a b : Value}
    (left : x.eval lookup s = pure a) (right : y.eval lookup s = pure b) :
    (binary .and x y).eval lookup s = pure (.ofTruth (both a.truth? b.truth?)) := by
  unfold eval
  simp only [left, right, pure_bind]
  -- A false operand on the left decides, so the one on the right is not asked for.
  rcases a.truth? with _ | _ | _ <;> rfl

/-- The truth of a truth value is the truth that it was made from. -/
@[simp] theorem truth?_ofTruth (truth : Option Bool) : (Value.ofTruth truth).truth? = truth := by
  cases truth <;> rfl

/-- Two truths are both true when each of them is. -/
theorem both_eq_true (a b : Option Bool) :
    both a b = some true ↔ a = some true ∧ b = some true := by
  rcases a with _ | _ | _ <;> rcases b with _ | _ | _ <;> simp [both]

/-- A quantifier over related entities is what it says of the values of its predicate on them. -/
theorem eval_quantified {scope : Scope} {n : Navigation} {target name : String}
    {quantifier : Quantifier} {p : Expression} {s : Standpoint} {e : Entity} {found : List Entity}
    {value : Entity → Value} (stands : s.entity scope = .ok e)
    (related : lookup target n e = pure found)
    (each : ∀ r ∈ found, p.eval lookup (s.bind name (.entity r)) = pure (value r)) :
    (quantified scope (.related n target) quantifier name p).eval lookup s
      = pure (.boolean (quantifier.holds (found.map fun r => (value r).truth? == some true))) := by
  have outcomes : (found.map Bound.entity).mapM (fun b => do
      return (← p.eval lookup (s.bind name b)).truth? == some true)
      = (pure (found.map fun r => (value r).truth? == some true) :
        ExceptT RequestError m (List Bool)) := by
    refine mapM_map_eq_pure fun r mem => ?_
    rw [each r mem, pure_bind]
  rw [eval, stands, settled_ok_bind, members, related, pure_bind, pure_bind, outcomes, pure_bind]

end Expression

/-- A condition that is added to no filter is the only one. -/
theorem Stages.empty_andFilter (condition : Expression) :
    Stages.empty.andFilter condition = { Stages.empty with filter := some condition } :=
  rfl

/-- A condition that is added to a filter stands behind it. -/
theorem Stages.filter_andFilter (filter condition : Expression) :
    ({ Stages.empty with filter := some filter } : Stages).andFilter condition
      = { Stages.empty with filter := some (.binary .and filter condition) } :=
  rfl

namespace Service

variable {v : Service Id} {target name : String} {n : Navigation} {p : Expression}

/-- A query that only filters and fails nowhere has a value of the filter on every entity. -/
theorem of_collect_filtered {lookup : Lookup Id} {filter : Expression} {shown : List Entity}
    {s : EntitySet} (present : v.model.set? target = some s) (inMemory : s.backing = .memory)
    (collected : v.collect lookup pure target { Stages.empty with filter := some filter }
      = pure shown) :
    s.capabilities.contains .query = true ∧
      ∃ entities : List Entity, (v.collection s).entities = entities.map .ok ∧
        ∀ e ∈ entities, ∃ value, filter.eval lookup (.ofEntity e) = pure value := by
  -- The steps of the query succeeded one after the other.
  simp only [collect, present] at collected
  obtain ⟨stream, streamed, all⟩ := bind_eq_pure collected
  obtain ⟨_, allowed, streamed⟩ := bind_eq_pure streamed
  obtain ⟨⟨source, stages⟩, fetched, streamed⟩ := bind_eq_pure streamed
  rw [fetch, inMemory] at fetched
  cases fetched
  have queries : s.capabilities.contains .query = true := by
    rw [ensure] at allowed
    split at allowed
    · assumption
    · cases allowed
  refine ⟨queries, ?_⟩
  -- What came out is what the filter leaves, so it failed on no entity.
  let value (e : Entity) : Except RequestError Value := filter.eval lookup (.ofEntity e)
  let stages : Stages := { Stages.empty with filter := some filter }
  have evaluates : stages.Evaluates lookup value (v.collection s).entities := by
    rintro _ ⟨⟩ e -
    rfl
  have ran := Stages.run_unordered .upToFault v.model.config.caseSensitive evaluates rfl
  cases ran.symm.trans streamed
  have read := settled_eq_pure all
  rw [Entities.all_cut] at read
  have sifted := (Entities.window_unbounded _).symm.trans (Entities.eq_map_of_all read)
  obtain ⟨entities, kept, judged⟩ := Entities.of_sift_eq_map sifted
  refine ⟨entities, kept, fun e mem => ?_⟩
  obtain ⟨b, verdict⟩ := judged e mem
  cases found : value e with
  | error fault =>
    simp only [Stages.verdict, stages, found] at verdict
    cases verdict
  | ok known => exact ⟨known, found⟩

/-- An expansion is settled once it is known whether anything can be related to an entity. -/
theorem expand_eq {e : Entity} {stages : Stages} {count : Bool} :
    v.expand e (.mk n target stages count none []) = settled (v.relation target n e) >>= fun
      | none => pure (e.attach n.name [])
      | some condition => do
        let found ← v.collect v.related pure target (stages.andFilter condition)
        return e.attach n.name found := by
  -- Without nested expansions and selected properties, entities are finished as they are.
  have finish : (fun r => project none <$> v.expandAll r []) = pure := by
    funext r
    rw [expandAll]
    rfl
  rw [expand, finish]
  refine congrArg _ (funext fun condition? => ?_)
  cases condition? <;> rfl

/-- A condition on related entities compares a property of theirs with a value that is there. -/
theorem of_relation_some {m : Type → Type} {v : Service m} {e : Entity} {condition : Expression}
    (tied : v.relation target n e = .ok (some condition)) :
    ∃ c s q, n.constraint? = some c ∧ (e.get c.property).isNull = false ∧
      v.model.set? target = some s ∧ s.type.property? c.referenced = some q ∧
      condition = .binary .eq (.property .root q) (.literal (e.get c.property)) := by
  rw [relation] at tied
  split at tied
  · cases tied
  rename_i c only
  dsimp only at tied
  split at tied
  · cases tied
  rename_i there
  split at tied
  · cases tied
  rename_i s present
  split at tied
  · cases tied
  rename_i q remote
  cases tied
  exact ⟨c, s, q, only, by simpa using there, present, remote, rfl⟩

/-- The members of a list that pass a test are there when the test holds of any of its members. -/
theorem not_isEmpty_filter {α : Type} (list : List α) (test : α → Bool) :
    (!(list.filter test).isEmpty) = list.any test := by
  rw [Bool.eq_iff_iff]
  simp [List.filter_eq_nil_iff]

/-- The members of a list that pass a test are as many as its members when it holds of them all. -/
theorem length_filter_beq {α : Type} (list : List α) (test : α → Bool) :
    ((list.filter test).length == list.length) = list.all test := by
  rw [Bool.eq_iff_iff]
  simp [List.length_filter_eq_length_iff]

/--
An expansion with a filter attaches the related entities on which the filter is true.

When it fails nowhere, the filter has a value on each of them, and nothing else fails either.
-/
theorem of_expand_filtered (inMemory : v.InMemory) {filter : Expression} {e shown : Entity}
    {count : Bool} (expanded : v.expand e
      (.mk n target { Stages.empty with filter := some filter } count none []) = pure shown) :
    ∃ (all : List Entity) (value : Entity → Value), v.related target n e = pure all ∧
      v.expand e (.mk n target .empty count none []) = pure (e.attach n.name all) ∧
      (∀ r ∈ all, filter.eval v.related (.ofEntity r) = pure (value r)) ∧
      shown = e.attach n.name (all.filter fun r => (value r).truth? == some true) := by
  rw [expand_eq] at expanded
  obtain ⟨condition?, tied, expanded⟩ := bind_eq_pure expanded
  have tied := settled_eq_pure tied
  cases condition? with
  | none =>
    -- Nothing is related by a null, so nothing is attached, whatever the filter is.
    cases expanded
    refine ⟨[], fun _ => .null, ?_, ?_, nofun, rfl⟩
    · rw [related, tied, settled_ok_bind]
    · rw [expand_eq, tied, settled_ok_bind]
  | some condition =>
    obtain ⟨found, looked, attached⟩ := bind_eq_pure expanded
    cases attached
    obtain ⟨c, s, q, only, there, present, remote, rfl⟩ := of_relation_some tied
    have backed := inMemory.backed target s present
    rw [Stages.filter_andFilter] at looked
    obtain ⟨queries, entities, kept, each⟩ := of_collect_filtered present backed looked
    -- The filter comes before the condition, so it has a value wherever both together have one.
    have valued : ∀ r ∈ entities, ∃ a, filter.eval v.related (.ofEntity r) = pure a := by
      intro r mem
      obtain ⟨_, done⟩ := each r mem
      unfold Expression.eval at done
      obtain ⟨a, first, -⟩ := bind_eq_pure done
      exact ⟨a, first⟩
    have : Nonempty Value := ⟨.null⟩
    choose! value known using valued
    let tie (r : Entity) : Option Bool :=
      SqlTerm.compared .eq (r.get q.name) (e.get c.property)
    have tieKnown (r : Entity) (_ : r ∈ entities) : (Expression.binary .eq (.property .root q)
        (.literal (e.get c.property))).eval v.related (.ofEntity r) = pure (.ofTruth (tie r)) :=
      Expression.eval_tie there r
    have all := collect_filtered present backed queries kept tieKnown
    have both := collect_filtered present backed queries kept fun r mem =>
      Expression.eval_and (known r mem) (tieKnown r mem)
    simp only [Value.ofTruth_eq_true] at all both
    have related := related_eq present backed queries only remote kept e
    refine ⟨_, value, related, ?_, fun r mem => known r (List.mem_filter.mp mem).1, ?_⟩
    · rw [expand_eq, tied, settled_ok_bind]
      dsimp only
      rw [Stages.empty_andFilter, all, pure_bind]
    · cases both.symm.trans looked
      rw [List.filter_filter]
      refine congrArg (e.attach n.name) (List.filter_congr fun r _ => ?_)
      rw [Bool.eq_iff_iff]
      simp [Expression.both_eq_true, tie]

/--
Where an expansion with a filter fails nowhere, it shows what quantifiers say of the filter.

The filter is their predicate with the root in the place of their variable.
-/
theorem quantifiers_agree_with_expansions (inMemory : v.InMemory)
    (about : p.isOver name [] false = true) {e shown : Entity} {count : Bool}
    (expanded : v.expand e (.mk n target { Stages.empty with filter := some (p.rescoped name) }
      count none []) = pure shown) :
    ∃ everything found all, shown.attached? n.name = some found ∧
      v.expand e (.mk n target .empty count none []) = pure everything ∧
      everything.attached? n.name = some all ∧
      (Expression.quantified .root (.related n target) .any name p).eval v.related (.ofEntity e)
        = pure (.boolean (!found.isEmpty)) ∧
      (Expression.quantified .root (.related n target) .all name p).eval v.related (.ofEntity e)
        = pure (.boolean (found.length == all.length)) := by
  obtain ⟨all, value, related, plain, known, rfl⟩ := of_expand_filtered inMemory expanded
  -- The predicate has on a variable the value that the filter has on the entity itself.
  have each : ∀ r ∈ all,
      p.eval v.related ((Standpoint.ofEntity e).bind name (.entity r)) = pure (value r) := by
    intro r mem
    rw [← known r mem]
    exact (p.eval_rescoped about (.start _ name r)).symm
  refine ⟨_, _, all, e.attached?_attach _ _, plain, e.attached?_attach _ _, ?_, ?_⟩
  · rw [Expression.eval_quantified rfl related each, not_isEmpty_filter, Quantifier.holds,
      List.any_map]
    rfl
  · rw [Expression.eval_quantified rfl related each, length_filter_beq, Quantifier.holds,
      List.all_map]
    rfl

/-- Whether a book is on the second shelf. -/
def onSecondShelf : Expression :=
  .binary .eq (.property (.bound "b") (plainProperty "shelf" (.integer .int32)))
    (.literal (.integer 2))

/-- The expansion of the books of shelves, of those that pass a filter if there is one. -/
def booksExpansion (filter : Option Expression) : Expansion :=
  .mk (booksBy "books" "id") "books" { Stages.empty with filter } false none []

/-- In the library, the only book is not on the second shelf, so no book of the shelf is shown. -/
theorem quantifiers_agree_with_expansions_in_library :
    onSecondShelf.rescoped "b" = .binary .eq
        (.property .root (plainProperty "shelf" (.integer .int32))) (.literal (.integer 2)) ∧
      library.expand shelf (booksExpansion (some (onSecondShelf.rescoped "b")))
        = pure (shelf.attach "books" []) ∧
      library.expand shelf (booksExpansion none) = pure (shelf.attach "books" [book]) ∧
      (Expression.quantified .root (.related (booksBy "books" "id") "books") .any "b"
        onSecondShelf).eval library.related (.ofEntity shelf) = pure (.boolean false) ∧
      (Expression.quantified .root (.related (booksBy "books" "id") "books") .all "b"
        onSecondShelf).eval library.related (.ofEntity shelf) = pure (.boolean false) := by
  have inMemory : library.InMemory := ⟨mirrors_library.inMemory, mirrors_library.own⟩
  have filtered : library.expand shelf (booksExpansion (some (onSecondShelf.rescoped "b")))
      = pure (shelf.attach "books" []) := by cbv
  have plain : library.expand shelf (booksExpansion none) = pure (shelf.attach "books" [book]) := by
    cbv
  obtain ⟨everything, found, all, shown, whole, showsAll, some_, every⟩ :=
    quantifiers_agree_with_expansions inMemory (by decide) filtered
  cases whole.symm.trans plain
  cases shown
  cases showsAll
  exact ⟨rfl, filtered, plain, some_, every⟩

end Service

end EdmQuery
