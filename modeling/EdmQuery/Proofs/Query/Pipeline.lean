import Mathlib
import EdmQuery.Proofs.Expr.Order
import EdmQuery.Proofs.Expr.Settled
import EdmQuery.Query.Pipeline

/-! The stages of a stream agree with a list function: filter, stable sort, skip and top. -/

namespace EdmQuery

/-- A page of a list: some members are skipped, and then at most so many are taken. -/
def page {α : Type} (skip : Nat) (top : Option Nat) (list : List α) : List α :=
  match top with
  | none => list.drop skip
  | some n => (list.drop skip).take n

namespace Entities

/-- How many entities stand before a place in a stream, where faults do not count. -/
def before (stream : Entities) (i : Nat) : Nat :=
  (stream.take i).countP (·.isOk)

/--
Whether an item is in a window when so many entities stand before it.

A fault is not skipped and does not count, and nothing follows the last entity asked for.
-/
def shown (skip : Nat) (top : Option Nat) (before : Nat) (item : Except RequestError Entity) :
    Bool :=
  (!item.isOk || skip ≤ before) && top.all (before - skip < ·)

/-- The window of a stream, by the places of its items. -/
def window (skip : Nat) (top : Option Nat) (stream : Entities) : Entities :=
  (stream.zipIdx.filter fun (item, i) => shown skip top (stream.before i) item).map (·.1)

/-- What a test leaves in the place of an item: itself, nothing, or the fault of the test. -/
def tested (verdict : Entity → Except RequestError Bool) :
    Except RequestError Entity → Option (Except RequestError Entity)
  | .error fault => some (.error fault)
  | .ok e =>
    match verdict e with
    | .error fault => some (.error fault)
    | .ok true => some (.ok e)
    | .ok false => none

/-- A stream with every entity tested. -/
def sift (verdict : Entity → Except RequestError Bool) (stream : Entities) : Entities :=
  stream.filterMap (tested verdict)

/-- A fault stays in a stream that is tested. -/
theorem sift_cons_error (verdict : Entity → Except RequestError Bool) (fault : RequestError)
    (rest : Entities) : sift verdict (.error fault :: rest) = .error fault :: sift verdict rest :=
  rfl

/-- The test decides whether an entity, a fault or nothing stays in a stream. -/
theorem sift_cons_ok (verdict : Entity → Except RequestError Bool) (e : Entity)
    (rest : Entities) :
    sift verdict (.ok e :: rest) =
      match verdict e with
      | .error fault => .error fault :: sift verdict rest
      | .ok true => .ok e :: sift verdict rest
      | .ok false => sift verdict rest := by
  rcases found : verdict e with fault | _ | _ <;> simp [sift, tested, found]

/-- A test that every entity passes leaves entities without faults as they are. -/
theorem sift_map_ok (entities : List Entity) :
    sift (fun _ => .ok true) (entities.map .ok) = entities.map .ok := by
  induction entities with
  | nil => rfl
  | cons e rest ih => rw [List.map_cons, sift_cons_ok, ih]

/-- Entities without faults are all of their stream. -/
theorem all_map_ok (entities : List Entity) : all (entities.map .ok) = .ok entities := by
  induction entities with
  | nil => rfl
  | cons e rest ih => rw [List.map_cons, all, ih]; rfl

/-- No window shows anything once no entity is asked for any more. -/
theorem window_top_zero (skip : Nat) (stream : Entities) : window skip (some 0) stream = [] := by
  simp [window, shown]

/-- The window of a stream looks at its first item and then at the others, one place on. -/
theorem window_cons (skip : Nat) (top : Option Nat) (item : Except RequestError Entity)
    (rest : Entities) :
    window skip top (item :: rest) =
      (if shown skip top 0 item then [item] else []) ++
        (rest.zipIdx.filter fun (later, i) =>
          shown skip top (rest.before i + if item.isOk then 1 else 0) later).map (·.1) := by
  have further (i : Nat) :
      before (item :: rest) (i + 1) = rest.before i + if item.isOk then 1 else 0 := by
    rw [before, List.take_succ_cons, List.countP_cons]
    rfl
  have none : before (item :: rest) 0 = 0 := rfl
  rw [window, List.zipIdx_cons', List.filter_cons, List.filter_map]
  simp only [none]
  split <;> simp [Function.comp_def, further]

/-- A fault keeps its place while entities are still asked for. -/
theorem window_cons_error {top : Option Nat} (wanted : top ≠ some 0) (skip : Nat)
    (fault : RequestError) (rest : Entities) :
    window skip top (.error fault :: rest) = .error fault :: window skip top rest := by
  have first : shown skip top 0 (.error fault) = true := by
    cases top with
    | none => rfl
    | some n =>
      have positive : 0 < n := Nat.pos_of_ne_zero fun zero => wanted (congrArg some zero)
      simp [shown, Except.isOk, Except.toBool, positive]
  rw [window_cons, first]
  rfl

/-- An entity that is still to be skipped takes one off the number of those. -/
theorem window_cons_skipped (skip : Nat) (top : Option Nat) (e : Entity) (rest : Entities) :
    window (skip + 1) top (.ok e :: rest) = window skip top rest := by
  have first : shown (skip + 1) top 0 (.ok e) = false := by
    simp [shown, Except.isOk, Except.toBool]
  have moved (n : Nat) (later : Except RequestError Entity) :
      shown (skip + 1) top (n + 1) later = shown skip top n later := by
    simp [shown]
  rw [window_cons, first]
  simp only [Except.isOk, Except.toBool, if_true, moved]
  rfl

/-- An entity behind those to skip is shown, and one less is asked for. -/
theorem window_cons_shown {top : Option Nat} (wanted : top ≠ some 0) (e : Entity)
    (rest : Entities) :
    window 0 top (.ok e :: rest) = .ok e :: window 0 (top.map (· - 1)) rest := by
  have first : shown 0 top 0 (.ok e) = true := by
    cases top with
    | none => rfl
    | some n =>
      have positive : 0 < n := Nat.pos_of_ne_zero fun zero => wanted (congrArg some zero)
      simp [shown, positive]
  have moved (n : Nat) (later : Except RequestError Entity) :
      shown 0 top (n + 1) later = shown 0 (top.map (· - 1)) n later := by
    cases top with
    | none => simp [shown]
    | some k => simp [shown]; omega
  rw [window_cons, first]
  simp only [Except.isOk, Except.toBool, if_true, moved]
  rfl

/-- The window of a stream without faults is a page of its entities. -/
theorem window_map_ok (skip : Nat) (top : Option Nat) (entities : List Entity) :
    window skip top (entities.map .ok) = (page skip top entities).map .ok := by
  induction entities generalizing skip top with
  | nil => cases top <;> simp [window, page]
  | cons e rest ih =>
    by_cases wanted : top = some 0
    · simp [wanted, window_top_zero, page]
    cases skip with
    | succ skip =>
      rw [List.map_cons, window_cons_skipped, ih]
      cases top <;> rfl
    | zero =>
      rw [List.map_cons, window_cons_shown wanted, ih]
      rcases top with _ | _ | n
      · rfl
      · exact absurd rfl wanted
      · rfl

end Entities

/-- What a reader has of a stream, which some readers leave at the first fault. -/
def Patience.cut : Patience → Entities → Entities
  | .throughFaults, stream => stream
  | .upToFault, stream => (stream.takeWhile (·.isOk)) ++ (stream.dropWhile (·.isOk)).take 1

/-- Every reader has the whole of a stream without faults. -/
theorem Patience.cut_map_ok (patience : Patience) (entities : List Entity) :
    patience.cut (entities.map .ok) = entities.map .ok := by
  cases patience with
  | throughFaults => rfl
  | upToFault =>
    induction entities with
    | nil => rfl
    | cons e rest ih =>
      simp only [cut, List.map_cons, Except.isOk, Except.toBool, List.takeWhile_cons_of_pos,
        List.dropWhile_cons_of_pos, List.cons_append, List.cons.injEq, true_and] at ih ⊢
      exact ih

namespace Stages

variable {m : Type → Type} [Monad m] [LawfulMonad m]

section

variable {keep : Entity → ExceptT RequestError m Bool}
  {verdict : Entity → Except RequestError Bool}

/-- Reading on to the end gives what the test leaves, or the first fault. -/
theorem gather_eq_all {source : Entities}
    (judged : ∀ e, .ok e ∈ source → keep e = settled (verdict e)) :
    gather keep source = settled (Entities.sift verdict source).all := by
  induction source with
  | nil => rfl
  | cons item rest ih =>
    have ih := ih fun e mem => judged e (List.mem_cons_of_mem item mem)
    cases item with
    | error fault => rfl
    | ok e =>
      rw [gather, judged e List.mem_cons_self, ih]
      rw [Entities.sift_cons_ok]
      rcases verdict e with fault | _ | _
      · rw [settled_error_bind]
        rfl
      · cases Entities.all (.sift verdict rest) <;> simp [pure_eq_settled]
      · rw [Entities.all]
        cases Entities.all (.sift verdict rest) <;> simp [pure_eq_settled, Except.map]

section

variable {patience : Patience} {finish : Entity → ExceptT RequestError m Entity} {skip : Nat}
  {top : Option Nat} {e : Entity} {rest : Entities}

/-- A fault of the test takes the place of its entity. -/
theorem deliver_fault {fault : RequestError} (known : keep e = settled (.error fault))
    (wanted : top ≠ some 0) :
    deliver patience keep finish skip top (.ok e :: rest)
      = if patience == .upToFault then pure [.error fault]
        else (.error fault :: ·) <$> deliver patience keep finish skip top rest := by
  cases skip <;> simp [deliver, known]

/-- An entity that does not pass the test leaves nothing in a stream. -/
theorem deliver_dropped (known : keep e = pure false) :
    deliver patience keep finish skip top (.ok e :: rest)
      = deliver patience keep finish skip top rest := by
  rcases top with _ | _ | _ <;> cases skip <;> simp [deliver, known]

/-- An entity that passes the test takes one off the number of those to skip. -/
theorem deliver_skipped (known : keep e = pure true) :
    deliver patience keep finish (skip + 1) top (.ok e :: rest)
      = deliver patience keep finish skip top rest := by
  rcases top with _ | _ | _ <;> simp [deliver, known]

/-- An entity that passes the test behind those to skip is finished before the others are read. -/
theorem deliver_shown (known : keep e = pure true) (wanted : top ≠ some 0) :
    deliver patience keep finish 0 top (.ok e :: rest) = (finish e).run >>= fun
      | .error fault =>
        if patience == .upToFault then pure [.error fault]
        else (.error fault :: ·) <$> deliver patience keep finish 0 (top.map (· - 1)) rest
      | .ok finished =>
        (.ok finished :: ·) <$> deliver patience keep finish 0 (top.map (· - 1)) rest := by
  rw [deliver]
  · rw [known, ExceptT.run_pure, pure_bind]
    dsimp only
    refine congrArg _ (funext fun finished => ?_)
    cases finished with
    | error fault =>
      dsimp only
      rw [map_eq_pure_bind]
    | ok shown =>
      dsimp only
      rw [map_eq_pure_bind]
  · exact wanted

end

/-- A stream is delivered as the window of what the test leaves. -/
theorem deliver_eq_window {source : Entities} (patience : Patience) (skip : Nat)
    (top : Option Nat) (judged : ∀ e, .ok e ∈ source → keep e = settled (verdict e)) :
    deliver patience keep pure skip top source
      = pure (patience.cut (.window skip top (.sift verdict source))) := by
  induction source generalizing skip top with
  | nil => cases patience <;> rcases top with _ | _ | _ <;> rfl
  | cons item rest ih =>
    have ih := fun skip top => ih skip top fun e mem => judged e (List.mem_cons_of_mem item mem)
    by_cases wanted : top = some 0
    · rw [wanted, Entities.window_top_zero, deliver]
      cases patience <;> rfl
    cases item with
    | error fault =>
      have step : deliver patience keep pure skip top (.error fault :: rest) =
          if patience == .upToFault then pure [.error fault]
          else (.error fault :: ·) <$> deliver patience keep pure skip top rest := by
        simp [deliver]
      rw [step, Entities.sift_cons_error, Entities.window_cons_error wanted, ih]
      cases patience <;> simp [Patience.cut, Except.isOk, Except.toBool]
    | ok e =>
      have known := judged e List.mem_cons_self
      rw [Entities.sift_cons_ok]
      cases found : verdict e with
      | error fault =>
        rw [found] at known
        rw [deliver_fault known wanted, ih]
        simp only [Entities.window_cons_error wanted]
        cases patience <;> simp [Patience.cut, Except.isOk, Except.toBool]
      | ok passes =>
        rw [found] at known
        cases passes with
        | false => rw [deliver_dropped known, ih]
        | true =>
          cases skip with
          | succ skip =>
            rw [deliver_skipped known, ih]
            simp only [Entities.window_cons_skipped]
          | zero =>
            rw [deliver_shown known wanted, ExceptT.run_pure, pure_bind, ih]
            simp only [Entities.window_cons_shown wanted]
            cases patience <;> simp [Patience.cut, Except.isOk, Except.toBool]

end

/-- Whether an entity has the value true under the filter and matches the search. -/
def passes (s : Stages) (caseSensitive : Bool) (value : Entity → Except RequestError Value)
    (e : Entity) : Bool :=
  s.filter.all (fun _ => (value e).toOption = some (.boolean true)) &&
    s.search.all (·.matches_ caseSensitive e)

/-- What filter and search say of an entity, which is a fault when the filter has no value. -/
def verdict (s : Stages) (caseSensitive : Bool) (value : Entity → Except RequestError Value)
    (e : Entity) : Except RequestError Bool :=
  match s.filter, value e with
  | some _, .error fault => .error fault
  | _, _ => .ok (s.passes caseSensitive value e)

/-- The filter of some stages evaluates on the entities of a stream to known values or faults. -/
def Evaluates (s : Stages) (lookup : Lookup m) (value : Entity → Except RequestError Value)
    (source : Entities) : Prop :=
  ∀ filter ∈ s.filter, ∀ e, .ok e ∈ source →
    filter.eval lookup (.ofEntity e) = settled (value e)

/-- An entity passes when its verdict says so. -/
theorem keeps_eq_verdict {lookup : Lookup m} {s : Stages} {source : Entities}
    {value : Entity → Except RequestError Value} (caseSensitive : Bool)
    (evaluates : s.Evaluates lookup value source) (e : Entity) (mem : .ok e ∈ source) :
    s.keeps lookup caseSensitive e = settled (s.verdict caseSensitive value e) := by
  -- Only the truth value true holds, and it is what the test of the value finds.
  have truth (v : Value) : (v.truth? == some true) = decide (v = .boolean true) := by
    rcases v with _ | (_ | _) | _ <;> simp [Value.truth?]
  cases present : s.filter with
  | none => simp [keeps, verdict, passes, present, pure_eq_settled]
  | some filter =>
    simp only [keeps, verdict, passes, present, Expression.holdsOn, evaluates filter present e mem]
    cases value e <;> simp [Except.map, Except.toOption, truth]

/-- Without an order, a run yields the window of the entities that pass and of all faults. -/
theorem run_unordered {lookup : Lookup m} {s : Stages} {source : Entities}
    {value : Entity → Except RequestError Value} (patience : Patience) (caseSensitive : Bool)
    (evaluates : s.Evaluates lookup value source) (unordered : s.orderby = []) :
    s.run patience lookup caseSensitive pure source = pure (patience.cut
      (.window (s.skip.getD 0) s.top (.sift (s.verdict caseSensitive value) source))) := by
  simp only [run, unordered, List.isEmpty_nil, if_true]
  rw [deliver_eq_window patience _ _ (keeps_eq_verdict caseSensitive evaluates), lift_pure]
  rfl

/-- With an order, a run needs all entities that pass and fails with the first fault. -/
theorem run_ordered {lookup : Lookup m} {s : Stages} {source : Entities}
    {value : Entity → Except RequestError Value} (patience : Patience) (caseSensitive : Bool)
    (evaluates : s.Evaluates lookup value source) (ordered : s.orderby ≠ []) :
    s.run patience lookup caseSensitive pure source =
      settled ((Entities.all (.sift (s.verdict caseSensitive value) source)).map fun kept =>
        (page (s.skip.getD 0) s.top (sortEntities s.orderby kept)).map .ok) := by
  have nonempty : s.orderby.isEmpty = false := by simpa using ordered
  simp only [run, nonempty, Bool.false_eq_true, if_false]
  rw [gather_eq_all (keeps_eq_verdict caseSensitive evaluates)]
  cases Entities.all (.sift (s.verdict caseSensitive value) source) with
  | error fault => simp [Except.map]
  | ok kept =>
    -- What has been sorted is delivered without another test.
    have passing (e : Entity) : .ok e ∈ ((sortEntities s.orderby kept).map .ok : Entities) →
        (pure true : ExceptT RequestError m Bool) = settled ((fun _ => .ok true) e) := fun _ => rfl
    rw [settled_ok_bind, deliver_eq_window patience _ _ passing, Entities.sift_map_ok,
      Entities.window_map_ok, Patience.cut_map_ok, lift_pure]
    rfl

/-- A count is that of the entities that pass, or the first fault. -/
theorem count_eq {lookup : Lookup m} {s : Stages} {source : Entities}
    {value : Entity → Except RequestError Value} (caseSensitive : Bool)
    (evaluates : s.Evaluates lookup value source) (orderby : List SortKey)
    (skip top : Option Nat) :
    ({ s with orderby, skip, top } : Stages).count lookup caseSensitive source =
      settled ((Entities.all (.sift (s.verdict caseSensitive value) source)).map (·.length)) := by
  -- The test of an entity looks at filter and search only, whatever the other stages are.
  have judged (e : Entity) (mem : .ok e ∈ source) :
      ({ s with orderby, skip, top } : Stages).keeps lookup caseSensitive e
        = settled (s.verdict caseSensitive value e) :=
    keeps_eq_verdict caseSensitive evaluates e mem
  rw [count, gather_eq_all judged]
  simp

/-- A stream whose first fault is known has that fault and not all entities. -/
theorem all_of_fault {stream : Entities} {before : List Entity} {fault : RequestError}
    {after : Entities} (first : stream = before.map .ok ++ .error fault :: after) :
    stream.all = .error fault := by
  subst first
  induction before with
  | nil => rfl
  | cons e rest ih => rw [List.map_cons, List.cons_append, Entities.all, ih]; rfl

/-- Entities on all of which the filter has a value are left as those that pass. -/
theorem sift_of_unfailing {s : Stages} {caseSensitive : Bool} {entities : List Entity}
    {value : Entity → Except RequestError Value}
    (unfailing : ∀ e ∈ entities, s.filter.isSome → ∃ v, value e = .ok v) :
    Entities.sift (s.verdict caseSensitive value) (entities.map .ok)
      = (entities.filter (s.passes caseSensitive value)).map .ok := by
  induction entities with
  | nil => rfl
  | cons e rest ih =>
    have known : s.verdict caseSensitive value e = .ok (s.passes caseSensitive value e) := by
      rw [verdict]
      cases present : s.filter with
      | none => rfl
      | some filter =>
        obtain ⟨v, found⟩ := unfailing e List.mem_cons_self (by simp [present])
        simp [found]
    rw [List.map_cons, Entities.sift_cons_ok, known,
      ih fun e mem => unfailing e (List.mem_cons_of_mem _ mem), List.filter_cons]
    cases s.passes caseSensitive value e <;> rfl

section

variable {lookup : Lookup m} {s : Stages} {entities : List Entity}
  {value : Entity → Except RequestError Value} {caseSensitive : Bool}

/-- Entities on all of which the filter has a value come out selected, sorted and paged. -/
theorem run_eq_page (patience : Patience)
    (evaluates : s.Evaluates lookup value (entities.map .ok))
    (unfailing : ∀ e ∈ entities, s.filter.isSome → ∃ v, value e = .ok v) :
    s.run patience lookup caseSensitive pure (entities.map .ok) =
      pure ((page (s.skip.getD 0) s.top
        (sortEntities s.orderby (entities.filter (s.passes caseSensitive value)))).map .ok) := by
  have sifted : Entities.sift (s.verdict caseSensitive value) (entities.map .ok)
      = (entities.filter (s.passes caseSensitive value)).map .ok := sift_of_unfailing unfailing
  by_cases ordered : s.orderby = []
  · rw [run_unordered patience caseSensitive evaluates ordered, sifted, Entities.window_map_ok,
      Patience.cut_map_ok, ordered, sortEntities_nil]
  · rw [run_ordered patience caseSensitive evaluates ordered, sifted, Entities.all_map_ok]
    rfl

/-- Where the sort keys have an order, the entities come out sorted stably by it. -/
theorem run_of_unfailing (patience : Patience)
    (evaluates : s.Evaluates lookup value (entities.map .ok))
    (unfailing : ∀ e ∈ entities, s.filter.isSome → ∃ v, value e = .ok v)
    (sortable : Sortable s.orderby (entities.filter (s.passes caseSensitive value))) :
    s.run patience lookup caseSensitive pure (entities.map .ok) =
      pure ((page (s.skip.getD 0) s.top
        ((entities.filter (s.passes caseSensitive value)).mergeSort (inOrder s.orderby))).map
          .ok) := by
  rw [run_eq_page patience evaluates unfailing, sortEntities_eq_mergeSort sortable]

/-- Entities on all of which the filter has a value are counted by how many are selected. -/
theorem count_of_unfailing (evaluates : s.Evaluates lookup value (entities.map .ok))
    (unfailing : ∀ e ∈ entities, s.filter.isSome → ∃ v, value e = .ok v)
    (orderby : List SortKey) (skip top : Option Nat) :
    ({ s with orderby, skip, top } : Stages).count lookup caseSensitive (entities.map .ok)
      = pure (entities.filter (s.passes caseSensitive value)).length := by
  rw [count_eq caseSensitive evaluates, sift_of_unfailing unfailing, Entities.all_map_ok]
  rfl

end

/-- Stages that ask for nothing hand entities on as they come. -/
theorem run_empty (lookup : Lookup m) (patience : Patience) (caseSensitive : Bool)
    (entities : List Entity) :
    empty.run patience lookup caseSensitive pure (entities.map .ok) = pure (entities.map .ok) := by
  have evaluates : empty.Evaluates lookup (fun _ => .ok .null) (entities.map .ok) := nofun
  have all : entities.filter (empty.passes caseSensitive fun _ => .ok .null) = entities :=
    List.filter_eq_self.mpr fun _ _ => rfl
  rw [run_of_unfailing patience evaluates nofun nofun, all]
  exact congrArg (fun sorted => pure (List.map Except.ok sorted)) (mergeSort_inOrder_nil entities)

/--
A run agrees with the list functions that filter, sort stably, skip and take.

A fault, of the stream or of the filter, ends runs with an order and counts.
Without an order it stays at its place in the window, where it neither counts nor is skipped.
-/
theorem run_agrees {lookup : Lookup m} {s : Stages} {source : Entities}
    {value : Entity → Except RequestError Value} (caseSensitive : Bool)
    (evaluates : s.Evaluates lookup value source) :
    (∀ entities : List Entity, source = entities.map .ok →
      (∀ e ∈ entities, s.filter.isSome → ∃ v, value e = .ok v) →
      let accepted := entities.filter (s.passes caseSensitive value)
      (Sortable s.orderby accepted →
        s.run .throughFaults lookup caseSensitive pure source =
          pure ((page (s.skip.getD 0) s.top (accepted.mergeSort (inOrder s.orderby))).map .ok)) ∧
      ∀ orderby skip top, ({ s with orderby, skip, top } : Stages).count lookup caseSensitive source
        = pure accepted.length) ∧
    (∀ (before : List Entity) (fault : RequestError) (after : Entities),
      Entities.sift (s.verdict caseSensitive value) source
        = before.map .ok ++ .error fault :: after →
      (s.orderby ≠ [] → s.run .throughFaults lookup caseSensitive pure source = throw fault) ∧
      ∀ orderby skip top, ({ s with orderby, skip, top } : Stages).count lookup caseSensitive source
        = throw fault) ∧
    (s.orderby = [] →
      s.run .throughFaults lookup caseSensitive pure source =
        pure (.window (s.skip.getD 0) s.top (.sift (s.verdict caseSensitive value) source))) := by
  refine ⟨?_, ?_, run_unordered .throughFaults caseSensitive evaluates⟩
  · rintro entities rfl unfailing
    exact ⟨run_of_unfailing .throughFaults evaluates unfailing,
      count_of_unfailing evaluates unfailing⟩
  · intro before fault after first
    refine ⟨fun ordered => ?_, fun orderby skip top => ?_⟩
    · rw [run_ordered .throughFaults caseSensitive evaluates ordered, all_of_fault first]
      rfl
    · rw [count_eq caseSensitive evaluates, all_of_fault first]
      rfl

/-- An entity with one whole number. -/
def numbered (n : Int64) : Entity :=
  .mk ⟨"Numbered", none, [], []⟩ none [("n", .integer n)] []

/-- The property of those entities. -/
def number : Property := ⟨"n", .primitive (.integer .int64), false, false, none⟩

/-- Whether a number is above one. -/
def aboveOne : Expression :=
  .binary .gt (.property .root number) (.literal (.integer 1))

/-- The second greatest number above one. -/
def secondAboveOne : Stages :=
  ⟨some aboveOne, none, [⟨number, true⟩], some 1, some 1⟩

/-- Three numbers are filtered and sorted and the greatest is skipped; a fault ends such a run. -/
theorem run_agrees_on_numbers :
    secondAboveOne.run (m := Id) .throughFaults (fun _ _ _ => pure []) true pure
        ([2, 1, 3].map fun n => .ok (numbered n)) = pure [.ok (numbered 2)] ∧
      secondAboveOne.run (m := Id) .throughFaults (fun _ _ _ => pure []) true pure
        [.ok (numbered 1), .error .missingBody] = throw .missingBody ∧
      ({ secondAboveOne with orderby := [] } : Stages).run (m := Id) .throughFaults
        (fun _ _ _ => pure []) true pure
        [.ok (numbered 2), .error .missingBody, .ok (numbered 3)]
        = pure [.error .missingBody, .ok (numbered 3)] := by
  let value (e : Entity) : Except RequestError Value :=
    aboveOne.eval (m := Id) (fun _ _ _ => pure []) (.ofEntity e)
  have evaluates (source : Entities) :
      secondAboveOne.Evaluates (m := Id) (fun _ _ _ => pure []) value source := by
    rintro filter ⟨⟩ e -
    rfl
  have accepted : ([2, 1, 3].map numbered).filter (secondAboveOne.passes true value)
      = [2, 3].map numbered := rfl
  have sortable : Sortable secondAboveOne.orderby ([2, 3].map numbered) := by decide
  refine ⟨?_, ?_, ?_⟩
  · have known : ∀ e ∈ [2, 1, 3].map numbered, secondAboveOne.filter.isSome →
        ∃ v, value e = .ok v := by
      simp only [List.map_cons, List.map_nil, List.mem_cons, List.not_mem_nil, or_false]
      rintro e (rfl | rfl | rfl) - <;> exact ⟨_, rfl⟩
    have agrees := ((run_agrees true (evaluates _)).1 ([2, 1, 3].map numbered) rfl known).1
    rw [accepted] at agrees
    refine (agrees sortable).trans ?_
    rw [← sortEntities_eq_mergeSort sortable]
    rfl
  · exact ((run_agrees true (evaluates _)).2.1 [] .missingBody [] rfl).1 (by decide)
  · exact (run_agrees (s := { secondAboveOne with orderby := [] }) true (evaluates _)).2.2 rfl

end Stages

end EdmQuery
