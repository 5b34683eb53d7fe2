import Mathlib
import EdmQuery.Proofs.Query.Expansion

/-! What is attached to an entity are its related entities after the stages of the request. -/

namespace EdmQuery

variable {m : Type → Type} [Monad m] [LawfulMonad m]

section

variable {α : Type} {a : α} {list : List α} {skip : Nat} {top : Option Nat}

/-- Where nothing is asked for any more a page is empty. -/
theorem page_top_zero (skip : Nat) (list : List α) : page skip (some 0) list = [] := by
  rw [page, List.take_zero]

/-- There is nothing on a page of nothing. -/
theorem page_nil : page skip top ([] : List α) = [] := by
  cases top <;> simp [page]

/-- A page behind a member that is skipped is one of the others. -/
theorem page_cons_skipped : page (skip + 1) top (a :: list) = page skip top list := by
  cases top <;> rfl

/-- A page with nothing to skip shows the first member, and one less of the others. -/
theorem page_cons_shown (wanted : top ≠ some 0) :
    page 0 top (a :: list) = a :: page 0 (top.map (· - 1)) list := by
  rcases top with _ | _ | n
  · rfl
  · exact absurd rfl wanted
  · rfl

end

namespace Stages

/-- The entities of a list that come out of stages, where values of the filter are known. -/
def leave (s : Stages) (caseSensitive : Bool) (value : Entity → Value) (entities : List Entity) :
    List Entity :=
  page (s.skip.getD 0) s.top
    (sortEntities s.orderby (entities.filter (s.passes caseSensitive fun e => .ok (value e))))

section

variable {lookup : Lookup m} {s : Stages} {entities : List Entity} {value : Entity → Value}
  {keep : Entity → ExceptT RequestError m Bool}

/-- Of no entities none come out. -/
theorem leave_nil (s : Stages) (caseSensitive : Bool) (value : Entity → Value) :
    s.leave caseSensitive value [] = [] := by
  have sorted : sortEntities s.orderby [] = [] := by
    cases s.orderby <;> rfl
  rw [leave, List.filter_nil, sorted, page_nil]

/--
A stream that is read up to its first fault has each entity of its page finished in turn.

The induction is on the entities; whatever is left to skip and to show is general in it.
-/
theorem all_deliver (finish : Entity → ExceptT RequestError m Entity) (passing : Entity → Bool)
    (skip : Nat) (top : Option Nat) (judged : ∀ e ∈ entities, keep e = pure (passing e)) :
    Entities.all <$> deliver .upToFault keep finish skip top (entities.map .ok)
      = ((page skip top (entities.filter passing)).mapM finish).run := by
  have nothing : Entities.all <$> (pure [] : m Entities) = (List.mapM finish []).run := by
    rw [map_pure, List.mapM_nil]
    rfl
  induction entities generalizing skip top with
  | nil =>
    -- No entity is left, so the stream is over and the page is empty.
    have stream : deliver .upToFault keep finish skip top [] = pure [] := by
      rcases top with _ | _ | _ <;> rfl
    rw [List.map_nil, stream, List.filter_nil, page_nil, nothing]
  | cons e rest ih =>
    have known := judged e List.mem_cons_self
    have ih := fun skip top => ih skip top fun e mem => judged e (List.mem_cons_of_mem _ mem)
    by_cases wanted : top = some 0
    · -- The page is full before this entity is looked at.
      have stream : deliver .upToFault keep finish skip (some 0) ((e :: rest).map .ok)
          = pure [] := by
        rw [deliver]
      rw [wanted, stream, page_top_zero, nothing]
    rw [List.map_cons, List.filter_cons]
    cases decided : passing e with
    | false =>
      -- It is dropped from the stream and from the list alike.
      rw [decided] at known
      rw [deliver_dropped known, ih]
      rfl
    | true =>
      -- It is skipped while any are to be skipped, and shown after that.
      rw [decided] at known
      rw [if_pos rfl]
      cases skip with
      | succ skip => rw [deliver_skipped known, ih, page_cons_skipped]
      | zero =>
        rw [deliver_shown known wanted, page_cons_shown wanted, List.mapM_cons, ExceptT.run_bind,
          map_bind]
        refine congrArg _ (funext fun finished => ?_)
        cases finished with
        | error fault =>
          -- The fault is the last item, and it is what reading everything gives.
          exact map_pure Entities.all [.error fault]
        | ok shown =>
          dsimp only
          -- The rest of the stream is the rest of the page, behind the entity that is shown.
          rw [bind_pure_comp, ExceptT.run_map, ← ih, Functor.map_map, Functor.map_map]
          rfl

omit [LawfulMonad m] in
/-- A filter that fails on no entity has a known value on each of them. -/
theorem evaluates_of_unfailing (unfailing : ∀ filter ∈ s.filter, ∀ e ∈ entities,
    ∃ value, filter.eval lookup (.ofEntity e) = pure value) :
    ∃ value : Entity → Value, s.Evaluates lookup (fun e => .ok (value e)) (entities.map .ok) := by
  cases filtered : s.filter with
  | none => exact ⟨fun _ => .null, fun filter present => by simp [filtered] at present⟩
  | some filter =>
    -- The values of the entities are chosen all at once.
    have : Nonempty Value := ⟨.null⟩
    choose! value known using unfailing filter filtered
    refine ⟨value, fun _ present e mem => ?_⟩
    cases filtered.symm.trans present
    obtain ⟨_, mem, ⟨⟩⟩ := List.mem_map.mp mem
    exact known e mem

/-- Where the filter has known values, filter and search have a verdict on each entity. -/
theorem keeps_of_known (caseSensitive : Bool)
    (known : s.Evaluates lookup (fun e => .ok (value e)) (entities.map .ok)) :
    ∀ e ∈ entities, s.keeps lookup caseSensitive e
      = pure (s.passes caseSensitive (fun e => .ok (value e)) e) := by
  intro e mem
  rw [keeps_eq_verdict caseSensitive known e (List.mem_map_of_mem mem), verdict]
  cases s.filter <;> rfl

omit [LawfulMonad m] in
/-- Where the filter has known values, those are left on which it is true. -/
theorem sift_of_known (s : Stages) (caseSensitive : Bool) (value : Entity → Value)
    (entities : List Entity) :
    Entities.sift (s.verdict caseSensitive fun e => .ok (value e)) (entities.map .ok)
      = (entities.filter (s.passes caseSensitive fun e => .ok (value e))).map .ok :=
  sift_of_unfailing fun e _ _ => ⟨value e, rfl⟩

/-- Where the filter has known values, what comes out of a run are the entities that are left. -/
theorem run_leave (patience : Patience) (caseSensitive : Bool)
    (known : s.Evaluates lookup (fun e => .ok (value e)) (entities.map .ok)) :
    s.run patience lookup caseSensitive pure (entities.map .ok)
      = pure ((s.leave caseSensitive value entities).map .ok) := by
  rw [run_eq_page patience known fun e _ _ => ⟨value e, rfl⟩, leave]

/-- A run over no entities has none come out. -/
theorem run_nil (patience : Patience) (caseSensitive : Bool) :
    s.run patience lookup caseSensitive pure [] = pure [] := by
  have known : s.Evaluates lookup (fun _ => .ok .null) (([] : List Entity).map .ok) :=
    fun _ _ _ mem => nomatch mem
  have ran := run_leave patience caseSensitive known
  rwa [leave_nil, List.map_nil] at ran

/-- A stream that is read to its first fault, as a computation that may fail. -/
theorem lift_bind_all (stream : m Entities) :
    (ExceptT.lift stream >>= fun found => settled found.all : ExceptT RequestError m (List Entity))
      = ExceptT.mk (Entities.all <$> stream) := by
  refine ExceptT.ext ?_
  simp

/-- A run that is read to its first fault finishes each of the entities that are left in turn. -/
theorem run_finish (caseSensitive : Bool) (finish : Entity → ExceptT RequestError m Entity)
    (known : s.Evaluates lookup (fun e => .ok (value e)) (entities.map .ok)) :
    (s.run .upToFault lookup caseSensitive finish (entities.map .ok) >>= fun found =>
      settled found.all) = (s.leave caseSensitive value entities).mapM finish := by
  have judged := keeps_of_known caseSensitive known
  by_cases ordered : s.orderby = []
  · -- Without an order the stream is delivered as it is read.
    simp only [run, ordered, List.isEmpty_nil, if_true]
    rw [lift_bind_all, all_deliver finish _ _ _ judged, leave, ordered, sortEntities_nil]
    rfl
  · -- With one it is gathered and sorted first, and then delivered without another test.
    have nonempty : s.orderby.isEmpty = false := by simpa using ordered
    have sifted := sift_of_known s caseSensitive value entities
    simp only [run, nonempty, Bool.false_eq_true, if_false]
    rw [gather_eq_all (keeps_eq_verdict caseSensitive known), sifted, Entities.all_map_ok,
      settled_ok_bind, lift_bind_all, all_deliver finish (fun _ => true) _ _ fun _ _ => rfl,
      List.filter_true]
    rfl

end

section

variable {lookup : Lookup m} {s : Stages} {entities : List Entity} {value : Entity → Value}
  {tie : Entity → Option Bool} {condition : Expression}

/-- The value of the filter of stages that have a condition added, whose truth is known. -/
def tied (s : Stages) (value : Entity → Value) (tie : Entity → Option Bool) (e : Entity) : Value :=
  .ofTruth (match s.filter with
    | some _ => both (value e).truth? (tie e)
    | none => tie e)

/-- A condition that is known is known in addition to a filter that is. -/
theorem evaluates_andFilter
    (known : s.Evaluates lookup (fun e => .ok (value e)) (entities.map .ok))
    (stated : ∀ e ∈ entities, condition.eval lookup (.ofEntity e) = pure (.ofTruth (tie e))) :
    (s.andFilter condition).Evaluates lookup (fun e => .ok (s.tied value tie e))
      (entities.map .ok) := by
  intro whole isWhole e mem
  obtain ⟨_, among, ⟨⟩⟩ := List.mem_map.mp mem
  have own := stated e among
  show _ = settled (.ok (s.tied value tie e))
  rw [tied]
  cases present : s.filter with
  | none =>
    -- The condition is the whole filter.
    rw [andFilter, present] at isWhole
    cases isWhole
    exact own
  | some filter =>
    -- The condition stands behind the filter, and both are known.
    rw [andFilter, present] at isWhole
    cases isWhole
    have conjoined := Expression.eval_and (known filter present e mem) own
    rw [Expression.truth?_ofTruth] at conjoined
    exact conjoined

/-- With a condition added those pass that passed before and on which the condition is true. -/
theorem passes_andFilter (caseSensitive : Bool) (e : Entity) :
    (s.andFilter condition).passes caseSensitive (fun e => .ok (s.tied value tie e)) e
      = (s.passes caseSensitive (fun e => .ok (value e)) e && decide (tie e = some true)) := by
  -- A value passes as a filter when it is the truth and nothing else is.
  have truth (v : Value) : v.truth? = some true ↔ v = .boolean true := by
    rcases v with _ | (_ | _) | _ <;> simp [Value.truth?]
  rw [Bool.eq_iff_iff]
  cases present : s.filter with
  | none =>
    simp [passes, andFilter, tied, present, Except.toOption, Value.ofTruth_eq_true, and_comm]
  | some filter =>
    simp only [passes, andFilter, tied, present, Except.toOption, Option.all_some,
      Option.some.injEq, Value.ofTruth_eq_true, Expression.both_eq_true, truth, Bool.and_eq_true,
      decide_eq_true_eq]
    exact and_right_comm

/-- Stages with a condition added leave what they leave of those on which the condition is true. -/
theorem leave_andFilter (caseSensitive : Bool) :
    (s.andFilter condition).leave caseSensitive (s.tied value tie) entities
      = s.leave caseSensitive value (entities.filter fun e => tie e = some true) := by
  have passing : (s.andFilter condition).passes caseSensitive (fun e => .ok (s.tied value tie e))
      = fun e => s.passes caseSensitive (fun e => .ok (value e)) e && decide (tie e = some true) :=
    funext (passes_andFilter caseSensitive)
  rw [leave, leave, List.filter_filter, passing]
  rfl

end

section

variable {lookup : Lookup Id} {s : Stages} {condition : Expression} {tie : Entity → Option Bool}
  {entities : List Entity} {finish : Entity → ExceptT RequestError Id Entity}
  {finished : List Entity}

/-- Where the verdict with a condition added is known, so is the one without it, if it matters. -/
theorem of_keeps_andFilter {caseSensitive : Bool} {e : Entity} {b : Bool}
    (stated : condition.eval lookup (.ofEntity e) = pure (.ofTruth (tie e)))
    (kept : (s.andFilter condition).keeps lookup caseSensitive e = pure b) :
    (tie e = some true → s.keeps lookup caseSensitive e = pure b) ∧
      (tie e ≠ some true → b = false) := by
  -- The verdict came from a filter that has been evaluated, and from the search.
  obtain ⟨held, holds, rest⟩ := bind_eq_pure kept
  cases rest
  cases present : s.filter with
  | none =>
    have own : (pure (tie e == some true) : ExceptT RequestError Id Bool) = pure held := by
      rw [← holds]
      simp [present, Expression.holdsOn, stated]
    cases own
    refine ⟨fun meets => ?_, fun other => ?_⟩
    · simp [keeps, present, meets, andFilter]
    · simp [other]
  | some filter =>
    simp only [present] at holds
    obtain ⟨value, known, truth⟩ := bind_eq_pure holds
    cases truth
    -- The filter stands before the condition, so it has a value where both together have one.
    obtain ⟨own, first⟩ : ∃ own, filter.eval lookup (.ofEntity e) = pure own := by
      have conjoined := known
      unfold Expression.eval at conjoined
      obtain ⟨own, first, -⟩ := bind_eq_pure conjoined
      exact ⟨own, first⟩
    cases (Expression.eval_and first stated).symm.trans known
    simp only [Expression.truth?_ofTruth]
    refine ⟨fun meets => ?_, fun other => ?_⟩
    · -- Where the condition is true the filter decides.
      have alone : (both own.truth? (tie e) == some true) = (own.truth? == some true) := by
        rw [meets, Bool.eq_iff_iff]
        simp [Expression.both_eq_true]
      rw [alone, keeps, present]
      simp only [Expression.holdsOn, first, pure_bind]
      rfl
    · simp [Expression.both_eq_true, other]

variable {keep keep' : Entity → ExceptT RequestError Id Bool}

/--
A test narrows another one down to the entities that a condition is true on.

Where its verdict is known it is the other one's on these, and the others do not pass.
-/
def Narrows (keep keep' : Entity → ExceptT RequestError Id Bool) (tie : Entity → Option Bool)
    (entities : List Entity) : Prop :=
  ∀ e ∈ entities, ∀ b, keep e = pure b →
    (tie e = some true → keep' e = pure b) ∧ (tie e ≠ some true → b = false)

/--
A stream without faults is the one of the entities it is narrowed to, each finished in turn.

The induction is on the entities. Those behind the last one that is shown are not looked at, so
nothing has to be known of them.
-/
theorem of_deliver (skip : Nat) (top : Option Nat)
    (narrows : Narrows keep keep' tie entities)
    (delivered : Entities.all (deliver .upToFault keep finish skip top (entities.map .ok) : Id _)
      = .ok finished) :
    ∃ shown : List Entity,
      (∀ patience, (deliver patience keep' pure skip top
        ((entities.filter fun e => tie e = some true).map .ok) : Id _) = shown.map .ok) ∧
      shown.mapM finish = pure finished := by
  induction entities generalizing skip top finished with
  | nil =>
    -- Nothing comes out on either side.
    refine ⟨[], fun patience => ?_, ?_⟩
    · rcases top with _ | _ | _ <;> rfl
    · rcases top with _ | _ | _ <;> cases delivered <;> rfl
  | cons e rest ih =>
    by_cases wanted : top = some 0
    · -- No more is asked for, so neither stream is read on.
      subst wanted
      rw [deliver] at delivered
      cases delivered
      exact ⟨[], fun patience => by rw [deliver]; rfl, rfl⟩
    obtain ⟨first, others⟩ := List.forall_mem_cons.mp narrows
    cases known : keep e with
    | error fault =>
      -- A fault of the test would have come out.
      rw [List.map_cons, deliver_fault known wanted] at delivered
      cases delivered
    | ok b =>
      obtain ⟨inside, outside⟩ := first b known
      rw [List.filter_cons]
      cases b with
      | false =>
        -- An entity that does not pass is in neither stream, whether the condition is true or not.
        rw [List.map_cons, deliver_dropped known] at delivered
        obtain ⟨shown, stream, ended⟩ := ih skip top others delivered
        refine ⟨shown, fun patience => ?_, ended⟩
        by_cases meets : tie e = some true
        · rw [if_pos (decide_eq_true meets), List.map_cons, deliver_dropped (inside meets), stream]
        · rw [if_neg (by simpa using meets), stream]
      | true =>
        -- One that passes is among the narrower entities and passes there.
        have meets : tie e = some true := by
          by_contra other
          cases outside other
        rw [if_pos (decide_eq_true meets), List.map_cons]
        have passes := inside meets
        cases skip with
        | succ skip =>
          rw [List.map_cons, deliver_skipped known] at delivered
          obtain ⟨shown, stream, ended⟩ := ih skip top others delivered
          exact ⟨shown, fun patience => by rw [deliver_skipped passes, stream], ended⟩
        | zero =>
          rw [List.map_cons, deliver_shown known wanted] at delivered
          cases done : (finish e).run with
          | error fault =>
            -- A fault of what finishes it would have come out as well.
            rw [done] at delivered
            cases delivered
          | ok last =>
            rw [done] at delivered
            obtain ⟨more, later, rfl⟩ := map_ok delivered
            obtain ⟨shown, stream, ended⟩ := ih 0 (top.map (· - 1)) others later
            refine ⟨e :: shown, fun patience => ?_, ?_⟩
            · rw [deliver_shown passes wanted, stream]
              rfl
            · have own : finish e = pure last := done
              rw [List.mapM_cons, own, pure_bind, ended, pure_bind]

/-- What is gathered without a fault is gathered among the narrower entities alone. -/
theorem of_gather (narrows : Narrows keep keep' tie entities) {kept : List Entity}
    (gathered : gather keep (entities.map .ok) = pure kept) :
    gather keep' ((entities.filter fun e => tie e = some true).map .ok) = pure kept := by
  induction entities generalizing kept with
  | nil => exact gathered
  | cons e rest ih =>
    -- Every entity is tested, the first one before the others.
    obtain ⟨first, others⟩ := List.forall_mem_cons.mp narrows
    rw [List.map_cons, gather] at gathered
    obtain ⟨b, known, gathered⟩ := bind_eq_pure gathered
    obtain ⟨more, later, last⟩ := bind_eq_pure gathered
    cases last
    obtain ⟨inside, outside⟩ := first b known
    have found := ih others later
    rw [List.filter_cons]
    by_cases meets : tie e = some true
    · rw [if_pos (decide_eq_true meets), List.map_cons, gather, inside meets, pure_bind, found,
        pure_bind]
    · rw [if_neg (by simpa using meets), found, outside meets]
      rfl

/-- A run with a condition added that has no fault is the run of the entities it is true on. -/
theorem of_run_andFilter (caseSensitive : Bool)
    (stated : ∀ e ∈ entities, condition.eval lookup (.ofEntity e) = pure (.ofTruth (tie e)))
    (ran : ((s.andFilter condition).run .upToFault lookup caseSensitive finish
      (entities.map .ok) >>= fun found => settled found.all) = pure finished) :
    ∃ shown : List Entity,
      (∀ patience, s.run patience lookup caseSensitive pure
        ((entities.filter fun e => tie e = some true).map .ok) = pure (shown.map .ok)) ∧
      shown.mapM finish = pure finished := by
  have narrows : Narrows ((s.andFilter condition).keeps lookup caseSensitive)
      (s.keeps lookup caseSensitive) tie entities :=
    fun e mem b kept => of_keeps_andFilter (stated e mem) kept
  by_cases ordered : s.orderby = []
  · -- The stream is read only as far as the window reaches.
    have plain : (s.andFilter condition).orderby.isEmpty = true := by
      rw [andFilter, ordered, List.isEmpty_nil]
    simp only [run, plain, if_true] at ran
    rw [lift_bind_all] at ran
    obtain ⟨shown, stream, ended⟩ := of_deliver _ _ narrows ran
    refine ⟨shown, fun patience => ?_, ended⟩
    simp only [run, ordered, List.isEmpty_nil, if_true]
    exact congrArg ExceptT.lift (stream patience)
  · -- The whole stream is read beforehand, and the same entities are kept of it.
    have sorts : (s.andFilter condition).orderby.isEmpty = false := by
      simpa [andFilter] using ordered
    have sorts' : s.orderby.isEmpty = false := sorts
    simp only [run, sorts, Bool.false_eq_true, if_false] at ran
    rw [bind_assoc] at ran
    obtain ⟨kept, gathered, ran⟩ := bind_eq_pure ran
    rw [lift_bind_all] at ran
    -- What has been sorted is not tested again, so no entity is left out there.
    have alike : Narrows (fun _ => pure true) (fun _ => pure true) (fun _ => some true)
        (sortEntities (s.andFilter condition).orderby kept) :=
      fun _ _ _ passed => ⟨fun _ => passed, fun other => absurd rfl other⟩
    obtain ⟨shown, stream, ended⟩ := of_deliver _ _ alike ran
    rw [List.filter_eq_self.mpr fun _ _ => decide_eq_true rfl] at stream
    refine ⟨shown, fun patience => ?_, ended⟩
    simp only [run, sorts', Bool.false_eq_true, if_false]
    rw [of_gather narrows gathered, pure_bind]
    exact congrArg ExceptT.lift (stream patience)

end

end Stages

namespace Service

variable {v : Service m} {source s : EntitySet} {target set name : String} {n : Navigation}
  {stages : Stages} {entities : List Entity}

/-- A query of a set in memory finishes what its stages leave, where its filter is known. -/
theorem collect_eq {lookup : Lookup m} {value : Entity → Value}
    (finish : Entity → ExceptT RequestError m Entity) (present : v.model.set? target = some s)
    (inMemory : s.backing = .memory) (queries : s.capabilities.contains .query = true)
    (kept : (v.collection s).entities = entities.map .ok)
    (known : stages.Evaluates lookup (fun e => .ok (value e)) (entities.map .ok)) :
    v.collect lookup finish target stages
      = (stages.leave v.model.config.caseSensitive value entities).mapM finish := by
  rw [collect_eq_run finish present inMemory queries, kept]
  exact Stages.run_finish v.model.config.caseSensitive finish known

/-- An expansion of an entity that is related by a null attaches nothing. -/
theorem expand_null {c : Constraint} (only : n.constraint? = some c) {e : Entity}
    (missing : (e.get c.property).isNull = true) (count : Bool) (select : Option (List String))
    (nested : List Expansion) :
    v.expand e (.mk n target stages count select nested) = pure (e.attach n.name []) := by
  have nowhere : v.relation target n e = .ok none := by
    simp only [relation, only, missing, if_true]
  rw [expand, nowhere, settled_ok_bind]
  exact pure_bind _ _

/-- An expansion of an entity that is related by a value adds the condition to the request. -/
theorem expand_some {c : Constraint} {q : Property} (only : n.constraint? = some c)
    (inTarget : v.model.set? target = some s) (remote : s.type.property? c.referenced = some q)
    {e : Entity} (there : (e.get c.property).isNull = false) (count : Bool)
    (select : Option (List String)) (nested : List Expansion) :
    v.expand e (.mk n target stages count select nested) = do
      let finished ← v.collect v.related (fun r => project select <$> v.expandAll r nested) target
        (stages.andFilter (.binary .eq (.property .root q) (.literal (e.get c.property))))
      return e.attach n.name finished := by
  have tied : v.relation target n e
      = .ok (some (.binary .eq (.property .root q) (.literal (e.get c.property)))) := by
    simp only [relation, only, there, inTarget, remote, Bool.false_eq_true, if_false]
  rw [expand, tied, settled_ok_bind]

end Service

namespace Service

variable {v : Service Id} {source s : EntitySet} {target set name : String} {n : Navigation}
  {entities : List Entity}

/-- An expansion attaches to each entity its related entities after the stages of the request.

The stages select, sort, skip and take among the entities that are related to this entity alone,
and those that come out are expanded further and reduced to the selected properties, in their
order. That is so whenever the expansion has a result, and it has one where the filter fails on
no entity and nothing fails further on. Nothing is attached to an entity that is related by a
null. -/
theorem expansions_page_related_entities {d : Draft} (built : d.build = .ok v.model)
    (present : v.model.set? set = some source) (leads : source.type.navigation? name = some n)
    (bound : v.model.target? set name = some target) (inTarget : v.model.set? target = some s)
    (inMemory : s.backing = .memory) (queries : s.capabilities.contains .query = true)
    (kept : (v.collection s).entities = entities.map .ok) (e : Entity) (stages : Stages)
    (count : Bool) (select : Option (List String)) (nested : List Expansion) :
    ∃ all : List Entity, v.related target n e = pure all ∧
      (∀ result, v.expand e (.mk n target stages count select nested) = pure result →
        ∃ shown finished : List Entity,
          (∀ patience, stages.run patience v.related v.model.config.caseSensitive pure
            (all.map .ok) = pure (shown.map .ok)) ∧
          (shown.mapM fun r => project select <$> v.expandAll r nested) = pure finished ∧
          result = e.attach n.name finished) ∧
      ((∀ filter ∈ stages.filter, ∀ r ∈ entities,
          ∃ value, filter.eval v.related (.ofEntity r) = pure value) →
        ∃ shown : List Entity,
          (∀ patience, stages.run patience v.related v.model.config.caseSensitive pure
            (all.map .ok) = pure (shown.map .ok)) ∧
          v.expand e (.mk n target stages count select nested) = do
            let finished ← shown.mapM fun r => project select <$> v.expandAll r nested
            return e.attach n.name finished) ∧
      ∀ c, n.constraint? = some c → (e.get c.property).isNull = true →
        v.expand e (.mk n target stages count select nested) = pure (e.attach n.name []) := by
  obtain ⟨c, p, q, only, -, remote⟩ := Model.navigation_joins built present leads bound inTarget
  let tie (r : Entity) : Option Bool := SqlTerm.compared .eq (r.get q.name) (e.get c.property)
  let all := entities.filter fun r => tie r = some true
  have related : v.related target n e = pure all :=
    related_eq inTarget inMemory queries only remote kept e
  cases there : (e.get c.property).isNull with
  | true =>
    -- No entity is equal to a null, so the stages run over nothing and nothing is attached.
    have alone : all = [] :=
      List.filter_eq_nil_iff.mpr fun r _ => by simp [tie, SqlTerm.compared, there]
    have nothing : v.expand e (.mk n target stages count select nested)
        = pure (e.attach n.name []) :=
      expand_null only there count select nested
    have ran (patience : Patience) : stages.run patience v.related v.model.config.caseSensitive
        pure (all.map .ok) = pure (([] : List Entity).map .ok) := by
      rw [alone, List.map_nil, Stages.run_nil]
    refine ⟨all, related, fun result expanded => ?_, fun _ => ⟨[], ran, ?_⟩, fun _ _ _ => nothing⟩
    · cases nothing.symm.trans expanded
      exact ⟨[], [], ran, rfl, rfl⟩
    · rw [nothing, List.mapM_nil]
      rfl
  | false =>
    have condition (r : Entity) (_ : r ∈ entities) : (Expression.binary .eq (.property .root q)
        (.literal (e.get c.property))).eval v.related (.ofEntity r) = pure (.ofTruth (tie r)) :=
      Expression.eval_tie there r
    -- Which entities are related is a condition that stands behind the filter of the request.
    refine ⟨all, related, fun result expanded => ?_, fun unfailing => ?_, fun _ only' missing =>
      expand_null only' missing count select nested⟩
    · -- What has been collected came from a run with the condition added.
      rw [expand_some only inTarget remote there] at expanded
      obtain ⟨finished, collected, attached⟩ := bind_eq_pure expanded
      cases attached
      rw [collect_eq_run _ inTarget inMemory queries, kept] at collected
      obtain ⟨shown, ran, ended⟩ := Stages.of_run_andFilter _ condition collected
      exact ⟨shown, finished, ran, ended, rfl⟩
    · -- The values of the filter decide what is left, before anything is finished.
      obtain ⟨value, known⟩ := Stages.evaluates_of_unfailing unfailing
      have among : stages.Evaluates v.related (fun r => .ok (value r)) (all.map .ok) := by
        intro filter filtered r mem
        obtain ⟨_, mem, ⟨⟩⟩ := List.mem_map.mp mem
        exact known filter filtered r (List.mem_map_of_mem (List.mem_filter.mp mem).1)
      refine ⟨stages.leave v.model.config.caseSensitive value all, fun patience =>
        Stages.run_leave patience _ among, ?_⟩
      rw [expand_some only inTarget remote there, collect_eq _ inTarget inMemory queries kept
        (Stages.evaluates_andFilter known condition), Stages.leave_andFilter]

/-- Tracks are related by the code of their album. -/
def tracksOfAlbum : Navigation :=
  ⟨"tracks", "Track", true, [⟨"code", "album"⟩]⟩

/-- Albums have a code besides their key. -/
def albumType : EntityType :=
  ⟨"Album", some "id",
    [plainProperty "id" (.integer .int32), plainProperty "code" (.integer .int32)], [tracksOfAlbum]⟩

/-- Tracks have the code of their album and a length. -/
def trackType : EntityType :=
  ⟨"Track", none,
    [plainProperty "album" (.integer .int32), plainProperty "length" (.integer .int32)], []⟩

/-- A draft in which the tracks of albums are in a set of their own. -/
def discographyDraft : Draft :=
  ⟨.default, [], [], [⟨"albums", albumType, .all, .memory⟩, ⟨"tracks", trackType, .all, .memory⟩],
    [⟨"albums", "tracks", "tracks"⟩]⟩

/-- Five tracks of two albums, in no order. -/
def discography : Service Id where
  model := ⟨.default, [], [albumType, trackType], discographyDraft.sets, discographyDraft.bindings⟩
  collections := [
    ⟨"tracks", trackType, [
      ⟨none, [("album", .ofInt 1), ("length", .ofInt 3)]⟩,
      ⟨none, [("album", .ofInt 2), ("length", .ofInt 9)]⟩,
      ⟨none, [("album", .ofInt 1), ("length", .ofInt 7)]⟩,
      ⟨none, [("album", .ofInt 1), ("length", .ofInt 5)]⟩,
      ⟨none, [("album", .ofInt 2), ("length", .ofInt 4)]⟩]⟩]
  databases := .none

/-- An album with a code. -/
def album (code : Value) : Entity :=
  .mk albumType (some (.integer 1)) [("id", .integer 1), ("code", code)] []

/-- A track with the code of its album and a length. -/
def track (code length : Int64) : Entity :=
  .mk trackType none [("album", .integer code), ("length", .integer length)] []

/-- The second longest of the tracks that are longer than three. -/
def secondLongest : Stages where
  filter := some (.binary .gt (.property .root (plainProperty "length" (.integer .int32)))
    (.literal (.integer 3)))
  search := none
  orderby := [⟨plainProperty "length" (.integer .int32), true⟩]
  skip := some 1
  top := some 1

/-- The expansion of albums by the length of that track. -/
def secondLongestLength : Expansion :=
  .mk tracksOfAlbum "tracks" secondLongest false (some ["length"]) []

/-- Each album has the length of its own second longest track, and one without a code has none. -/
theorem expansions_page_related_entities_of_albums :
    (∀ patience, secondLongest.run patience discography.related
      discography.model.config.caseSensitive pure ([track 1 3, track 1 7, track 1 5].map .ok)
        = pure ([track 1 5].map .ok)) ∧
      discography.expand (album (.integer 1)) secondLongestLength
        = pure ((album (.integer 1)).attach "tracks" [(track 1 5).retain ["length"]]) ∧
      discography.expand (album (.integer 2)) secondLongestLength
        = pure ((album (.integer 2)).attach "tracks" [(track 2 4).retain ["length"]]) ∧
      discography.expand (album .null) secondLongestLength
        = pure ((album .null).attach "tracks" []) := by
  have built : discographyDraft.build = .ok discography.model := by cbv
  have kept : (discography.collection ⟨"tracks", trackType, .all, .memory⟩).entities
      = [track 1 3, track 2 9, track 1 7, track 1 5, track 2 4].map .ok := by cbv
  have present : discography.model.set? "albums" = some ⟨"albums", albumType, .all, .memory⟩ := rfl
  have leads : albumType.navigation? "tracks" = some tracksOfAlbum := rfl
  have attached (e : Entity) := expansions_page_related_entities built present leads rfl rfl rfl rfl
    kept e secondLongest false (some ["length"]) []
  have unfailing (filter : Expression) (among : filter ∈ secondLongest.filter) (r : Entity)
      (mem : r ∈ [track 1 3, track 2 9, track 1 7, track 1 5, track 2 4]) :
      ∃ value, filter.eval discography.related (.ofEntity r) = pure value := by
    cases among
    simp only [List.mem_cons, List.not_mem_nil, or_false] at mem
    rcases mem with rfl | rfl | rfl | rfl | rfl <;> exact ⟨_, rfl⟩
  -- The first album has a result, which is the one of a run over its own tracks.
  obtain ⟨all, related, has, -, -⟩ := attached (album (.integer 1))
  have own : discography.related "tracks" tracksOfAlbum (album (.integer 1))
      = pure [track 1 3, track 1 7, track 1 5] := by cbv
  cases own.symm.trans related
  have first : discography.expand (album (.integer 1)) secondLongestLength
      = pure ((album (.integer 1)).attach "tracks" [(track 1 5).retain ["length"]]) := by cbv
  obtain ⟨shown, finished, ran, -, -⟩ := has _ first
  have middle : secondLongest.run .upToFault discography.related
      discography.model.config.caseSensitive pure ([track 1 3, track 1 7, track 1 5].map .ok)
        = pure ([track 1 5].map .ok) := by cbv
  have injective : Function.Injective (List.map (Except.ok (ε := RequestError) (α := Entity))) :=
    List.map_injective_iff.mpr fun _ _ => Except.ok.inj
  have only : [track 1 5] = shown := injective (Except.ok.inj (middle.symm.trans (ran _)))
  subst only
  -- The filter fails on no track, so the second album has a result as well.
  obtain ⟨all, related, -, has, -⟩ := attached (album (.integer 2))
  have others : discography.related "tracks" tracksOfAlbum (album (.integer 2))
      = pure [track 2 9, track 2 4] := by cbv
  cases others.symm.trans related
  obtain ⟨shown, ran', second⟩ := has unfailing
  have last : secondLongest.run .upToFault discography.related
      discography.model.config.caseSensitive pure ([track 2 9, track 2 4].map .ok)
        = pure ([track 2 4].map .ok) := by cbv
  have only : [track 2 4] = shown := injective (Except.ok.inj (last.symm.trans (ran' _)))
  subst only
  -- The last album is related by a null.
  obtain ⟨_, -, -, -, nothing⟩ := attached (album .null)
  exact ⟨ran, first, second.trans (by cbv), nothing _ rfl rfl⟩

end Service

end EdmQuery
