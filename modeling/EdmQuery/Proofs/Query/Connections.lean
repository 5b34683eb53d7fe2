import Mathlib
import EdmQuery.Proofs.Query.Effects
import EdmQuery.Proofs.Query.Pushdown
import EdmQuery.Proofs.Query.Requests
import EdmQuery.Proofs.Sql.Fallback
import EdmQuery.Store.Script

/-! A request to a set in a table is rejected without a connection, or it uses exactly one. -/

namespace EdmQuery

/-- A filter or an order has no SQL form, for some reason; a search always has one. -/
inductive Untranslatable (ctx : SqlContext) (s : Stages) (reason : String) : Prop where
  | filter {filter : Expression} {after : Builder} (given : s.filter = some filter)
      (refused : (compileFilter ctx filter).run .empty = (.error (.unsupported reason), after))
  | orderby (refused : compileOrder ctx.table.type s.orderby = .error (.unsupported reason))

section

variable {config : Config} {ctx : SqlContext} {s : Stages} {filter : Expression} {reason : String}
  {after : Builder}

/-- What remains of the filter of some stages is a filter without an SQL form. -/
def Stages.LeftOf (ctx : SqlContext) (s remaining : Stages) : Prop :=
  ∀ filter ∈ remaining.filter, s.filter = some filter ∧
    ∃ reason after, (compileFilter ctx filter).run .empty = (.error (.unsupported reason), after)

/-- A filter that is refused is a fault where nothing may be left to memory. -/
theorem pushDown_of_forbidden (given : s.filter = some filter)
    (refused : (compileFilter ctx filter).run .empty = (.error (.unsupported reason), after))
    (forbidden : config.fallback = false) :
    pushDown config ctx s = .error (.notImplemented reason) := by
  have fault : tryStage config s.filter (compileFilter ctx) .empty
      = .error (.notImplemented reason) := by
    simp only [given, tryStage, tryCondition, attempt, ExceptT.run_mk, refused, fallBack, forbidden]
    rfl
  rw [pushDown, fault]
  rfl

/-- Nothing is left of the filter and the search where the filter becomes SQL. -/
theorem pushDown_of_translated (config : Config)
    (translated : ∀ filter ∈ s.filter, ∃ condition after,
      (compileFilter ctx filter).run .empty = (.ok condition, after)) :
    ∃ conditions b,
      pushDown config ctx s = .ok (⟨conditions, { s with filter := none, search := none }⟩, b) := by
  obtain ⟨filter, between, filtered, whole⟩ := tryStage_pushed config translated
  obtain ⟨search, b, searched, found⟩ := trySearch_pushed config ctx s between
  refine ⟨filter.toList ++ search.toList, b, ?_⟩
  simp only [pushDown, filtered, searched, search_left whole, search_left found, Bind.bind,
    Except.bind]
  rfl

/-- Filters that fail to become SQL only for want of a form become SQL or are refused. -/
theorem translated_or_refused
    (only : ∀ filter ∈ s.filter, OnlyUnsupported (compileFilter ctx filter)) :
    (∃ filter reason after, s.filter = some filter ∧
      (compileFilter ctx filter).run .empty = (.error (.unsupported reason), after)) ∨
    ∀ filter ∈ s.filter, ∃ condition after,
      (compileFilter ctx filter).run .empty = (.ok condition, after) := by
  cases given : s.filter with
  | none => exact .inr fun _ mem => by cases mem
  | some filter =>
    rcases done : (compileFilter ctx filter).run .empty with ⟨fault | condition, after⟩
    · obtain ⟨reason, rfl⟩ := only filter given _ _ _ done
      exact .inl ⟨filter, reason, after, rfl, done⟩
    · refine .inr ?_
      rintro _ ⟨⟩
      exact ⟨condition, after, done⟩

/-- Filter and search are pushed, or the filter is left to memory, or that is forbidden. -/
theorem pushDown_cases
    (only : ∀ filter ∈ s.filter, OnlyUnsupported (compileFilter ctx filter)) :
    (∃ reason, config.fallback = false ∧ Untranslatable ctx s.unpaged reason ∧
      pushDown config ctx s = .error (.notImplemented reason)) ∨
    ∃ pushed b, pushDown config ctx s = .ok (pushed, b) ∧ s.LeftOf ctx pushed.remaining ∧
      (config.fallback = false →
        pushed.isComplete = true ∧ ∀ reason, ¬ Untranslatable ctx s.unpaged reason) := by
  rcases translated_or_refused only with ⟨filter, reason, after, given, refused⟩ | translated
  · cases allowed : config.fallback with
    | false =>
      exact .inl ⟨reason, rfl, .filter given refused, pushDown_of_forbidden given refused allowed⟩
    | true =>
      obtain ⟨conditions, b, pushed⟩ := pushDown_of_refused given refused allowed
      refine .inr ⟨_, b, pushed, fun other mem => ?_, fun forbidden => by cases forbidden⟩
      cases given.symm.trans mem
      exact ⟨given, reason, after, refused⟩
  · obtain ⟨conditions, b, pushed⟩ := pushDown_of_translated config translated
    refine .inr ⟨_, b, pushed, (fun _ mem => by cases mem), fun _ => ⟨rfl, fun reason => ?_⟩⟩
    -- The filter becomes SQL, and stages without an order have none that could be refused.
    rintro (⟨given, refused⟩ | refused)
    · obtain ⟨condition, after, done⟩ := translated _ given
      cases done.symm.trans refused
    · cases refused

/-- Counts are not planned for a filter without an SQL form that may not be left to memory. -/
theorem planCount_cases
    (only : ∀ filter ∈ s.filter, OnlyUnsupported (compileFilter ctx filter)) :
    (∃ reason, config.fallback = false ∧ Untranslatable ctx s.unpaged reason ∧
      planCount config ctx s = .error (.notImplemented reason)) ∨
    (config.fallback = false → ∀ reason, ¬ Untranslatable ctx s.unpaged reason) ∧
      ∃ plan whole, planCount config ctx s = .ok (plan, whole) ∧ s.LeftOf ctx plan.remaining := by
  rcases pushDown_cases only with
    ⟨reason, forbidden, refused, failed⟩ | ⟨pushed, b, done, left, whole⟩
  · exact .inl ⟨reason, forbidden, refused, by rw [planCount, failed]; rfl⟩
  · refine .inr ⟨fun forbidden => (whole forbidden).2, ?_⟩
    rw [planCount, done]
    exact ⟨_, _, rfl, left⟩

/-- Rows are not planned for an option without an SQL form that may not be left to memory. -/
theorem planRows_cases
    (only : ∀ filter ∈ s.filter, OnlyUnsupported (compileFilter ctx filter)) :
    (∃ reason, config.fallback = false ∧ Untranslatable ctx s reason ∧
      planRows config ctx s = .error (.notImplemented reason)) ∨
    (config.fallback = false → ∀ reason, ¬ Untranslatable ctx s reason) ∧
      ∃ plan, planRows config ctx s = .ok plan ∧ s.LeftOf ctx plan.remaining := by
  rcases pushDown_cases only with
    ⟨reason, forbidden, refused, failed⟩ | ⟨pushed, b, done, left, whole⟩
  · have refused : Untranslatable ctx s reason := by
      obtain ⟨given, refused⟩ | refused := refused
      · exact .filter given refused
      · cases refused
    exact .inl ⟨reason, forbidden, refused, by rw [planRows, failed]; rfl⟩
  cases complete : pushed.isComplete with
  | false =>
    refine .inr ⟨fun forbidden => ?_, ?_⟩
    · rw [(whole forbidden).1] at complete
      cases complete
    · simp only [planRows, done, Bind.bind, Except.bind, complete, Bool.false_eq_true, if_false]
      exact ⟨_, rfl, left⟩
  | true =>
    -- Nothing is left of filter and search, so only the order may be in the way.
    cases ordered : compileOrder ctx.table.type s.orderby with
    | ok terms =>
      refine .inr ⟨fun forbidden reason => ?_, ?_⟩
      · rintro (⟨given, refused⟩ | refused)
        · exact (whole forbidden).2 reason (.filter given refused)
        · cases ordered.symm.trans refused
      · simp only [planRows, done, Bind.bind, Except.bind, complete, if_true, pushOrder, ordered]
        exact ⟨_, rfl, left⟩
    | error fault =>
      obtain ⟨reason, rfl⟩ := compileOrder_fault ordered
      cases allowed : config.fallback with
      | false =>
        refine .inl ⟨reason, rfl, .orderby ordered, ?_⟩
        simp only [planRows, done, Bind.bind, Except.bind, complete, if_true, pushOrder, ordered,
          fallBack, allowed]
        rfl
      | true =>
        refine .inr ⟨(fun forbidden => by cases forbidden), ?_⟩
        simp only [planRows, done, Bind.bind, Except.bind, complete, if_true, pushOrder, ordered,
          fallBack, allowed]
        exact ⟨_, rfl, left⟩

end

/-- Whether an event is that a connection was asked for. -/
def Event.asks : Event → Bool
  | .acquired | .refused => true
  | _ => false

/-- An event is that a statement was sent to a database. -/
def Sent (provider : Nat) (e : Nat × Event) : Prop :=
  ∃ statement, e = (provider, .queried statement) ∨ e = (provider, .executed statement)

/--
Events, latest first, are those of one connection to a database.

It is refused, or it is acquired, used for statements and given back.
-/
def Session (provider : Nat) (events : List (Nat × Event)) : Prop :=
  events = [(provider, .refused)] ∨ ∃ sent : List (Nat × Event), (∀ e ∈ sent, Sent provider e) ∧
    events = (provider, .released) :: (sent ++ [(provider, .acquired)])

/-- One connection is asked for once. -/
theorem Session.asked_once {provider : Nat} {events : List (Nat × Event)}
    (session : Session provider events) : events.countP (·.2.asks) = 1 := by
  rcases session with rfl | ⟨sent, statements, rfl⟩
  · rfl
  · have silent : sent.countP (·.2.asks) = 0 := by
      refine List.countP_eq_zero.mpr fun e mem => ?_
      obtain ⟨statement, rfl | rfl⟩ := statements e mem <;> exact Bool.false_ne_true
    rw [List.countP_cons, List.countP_append, silent]
    rfl

/-- A computation notes events of some kind, whatever the scripts are. -/
def Notes {α : Type} (kind : List (Nat × Event) → Prop)
    (step : ExceptT RequestError (StateM Stage) α) : Prop :=
  ∀ stage : Stage, ∃ events, kind events ∧ ((step.run).run stage).2.log = events ++ stage.log

/-- A computation sends statements to a database and asks for no connection. -/
abbrev Sends {α : Type} (provider : Nat) (step : ExceptT RequestError (StateM Stage) α) : Prop :=
  Notes (fun events => ∀ e ∈ events, Sent provider e) step

section

variable {α β : Type} {kind : List (Nat × Event) → Prop} {provider : Nat}
  {step : ExceptT RequestError (StateM Stage) α}
  {next : α → ExceptT RequestError (StateM Stage) β}

/-- A computation before another one hands on its value and its stage, or its fault ends both. -/
theorem run_run_bind (step : ExceptT RequestError (StateM Stage) α)
    (next : α → ExceptT RequestError (StateM Stage) β) (stage : Stage) :
    ((step >>= next).run).run stage =
      match (step.run).run stage with
      | (.ok a, after) => ((next a).run).run after
      | (.error fault, after) => (.error fault, after) := by
  simp only [ExceptT.run, StateT.run, Bind.bind, ExceptT.bind, ExceptT.mk, StateT.bind]
  rcases step stage with ⟨_ | _, after⟩ <;> rfl

/-- Two computations note what the second one does behind what the first one does. -/
theorem Notes.bind {first second whole : List (Nat × Event) → Prop} (notes : Notes first step)
    (more : ∀ a, Notes second (next a)) (stopped : ∀ events, first events → whole events)
    (joined : ∀ events later, first events → second later → whole (later ++ events)) :
    Notes whole (step >>= next) := by
  intro stage
  obtain ⟨events, ofFirst, noted⟩ := notes stage
  rw [run_run_bind]
  rcases done : (step.run).run stage with ⟨fault | a, after⟩
  · -- A fault ends both, so nothing is noted behind it.
    rw [done] at noted
    exact ⟨events, stopped events ofFirst, noted⟩
  · rw [done] at noted
    obtain ⟨later, ofSecond, notedLater⟩ := more a after
    refine ⟨later ++ events, joined events later ofFirst ofSecond, ?_⟩
    rw [List.append_assoc, ← noted]
    exact notedLater

/-- What has no effects notes nothing. -/
theorem Notes.of_settles (known : Settles step) : Notes (· = []) step := by
  obtain ⟨r, rfl⟩ := known
  exact fun stage => ⟨[], rfl, rfl⟩

/-- What has no effects behind a computation adds no events. -/
theorem Notes.bind_settles (notes : Notes kind step) (known : ∀ a, Settles (next a)) :
    Notes kind (step >>= next) :=
  .bind notes (fun a => .of_settles (known a)) (fun _ same => same)
    fun events later ofKind none_ => by rwa [none_, List.nil_append]

/-- What has no effects sends no statements. -/
theorem Sends.of_settles (known : Settles step) : Sends provider step := by
  obtain ⟨r, rfl⟩ := known
  exact fun stage => ⟨[], List.forall_mem_nil _, rfl⟩

/-- Two computations that only send statements do so together. -/
theorem Sends.bind (first : Sends provider step) (second : ∀ a, Sends provider (next a)) :
    Sends provider (step >>= next) :=
  Notes.bind first second (fun _ same => same)
    fun _ _ sent sentLater => List.forall_mem_append.mpr ⟨sentLater, sent⟩

variable {dialects : List Dialect}

/-- A reply notes what it answers. -/
theorem log_reply (provider : Nat) (e : Event) (stage : Stage) :
    ((Stage.reply provider e).run stage).2.log = (provider, e) :: stage.log := by
  simp only [Stage.reply, StateT.run]
  split <;> rfl

/-- Asking for rows sends one statement. -/
theorem rows_sends (statement : Statement) :
    Sends provider ((Stage.databases_ dialects).rows provider statement) := by
  intro stage
  refine ⟨[(provider, .queried statement)], ?_, ?_⟩
  · exact List.forall_mem_singleton.mpr ⟨statement, .inl rfl⟩
  · have noted := log_reply provider (.queried statement) stage
    rcases replied : (Stage.reply provider (.queried statement)).run stage with ⟨reply, after⟩
    rw [replied] at noted
    simp only [Databases.rows, Stage.databases_, ExceptT.run_mk, bind_assoc, StateT.run_bind,
      replied]
    cases reply <;> exact noted

/-- Asking for what a statement without rows reports sends it. -/
theorem run_sends (fault : SqlError → RequestError) (statement : Statement) :
    Sends provider ((Stage.databases_ dialects).run provider fault statement) := by
  intro stage
  refine ⟨[(provider, .executed statement)], ?_, ?_⟩
  · exact List.forall_mem_singleton.mpr ⟨statement, .inr rfl⟩
  · have noted := log_reply provider (.executed statement) stage
    rcases replied : (Stage.reply provider (.executed statement)).run stage with ⟨reply, after⟩
    rw [replied] at noted
    simp only [Databases.run, Stage.databases_, ExceptT.run_mk, bind_assoc, StateT.run_bind,
      replied]
    cases reply <;> exact noted

/-- A use of a connection that only sends statements is one session, also where it is refused. -/
theorem withConnection_session (use : Sends provider step) :
    Notes (Session provider) ((Stage.databases_ dialects).withConnection provider step) := by
  intro stage
  simp only [Databases.withConnection, Stage.databases_, ExceptT.run_mk, StateT.run_bind]
  rcases asked : (Stage.acquire provider).run stage with ⟨answer, after⟩
  simp only [Stage.acquire, StateT.run] at asked
  split at asked
  · -- A refusal is noted, and nothing is used or given back.
    cases asked
    exact ⟨[(provider, .refused)], .inl rfl, rfl⟩
  · -- What is used is given back whatever came of it, so its outcome does not matter here.
    cases asked
    obtain ⟨sent, statements, noted⟩ := use (stage.note provider .acquired)
    refine ⟨_, .inr ⟨sent, statements, rfl⟩, ?_⟩
    show (provider, Event.released) :: ((step.run).run (stage.note provider .acquired)).2.log = _
    rw [noted, Stage.note]
    simp

end

/-- A request to an entity set. -/
inductive SetRequest where
  | count (o : QueryOptions)
  | query (o : QueryOptions)
  | read (o : QueryOptions) (key : Value)
  | create (body : Option Record)
  | update (key : Value) (body : Option Record)
  | delete (key : Value)

namespace SetRequest

/-- The capability that a request needs. -/
def capability : SetRequest → Capability
  | count _ => .count
  | query _ => .query
  | read _ _ => .read
  | create _ => .create
  | update _ _ => .update
  | delete _ => .delete

/-- The stages that a request has for the database, of which a count leaves out order and page. -/
def stages? : SetRequest → Option Stages
  | count o => some o.stages.unpaged
  | query o => some o.stages
  | _ => none

/-- The expansions that a request asks for. -/
def expansions : SetRequest → List Expansion
  | count o | query o | read o _ => o.expand
  | _ => []

/-- The key that a request names. -/
def key? : SetRequest → Option Value
  | read _ key | update key _ | delete key => some key
  | _ => none

/-- The body of a request that needs one, if it is there, and what the body is for. -/
def body? : SetRequest → Option (Option Record × BodyMode)
  | create body => some (body, .create)
  | update _ body => some (body, .update)
  | _ => none

end SetRequest

namespace Service

/-- The reasons for which a request is rejected before a connection is asked for, and its fault. -/
inductive Rejects {m : Type → Type} (v : Service m) (s : EntitySet) (ctx : SqlContext)
    (r : SetRequest) : RequestError → Prop where
  | capability (missing : s.capabilities.contains r.capability = false) :
      Rejects v s ctx r (.notAllowed r.capability.name s.name)
  | body {body : Option Record} {mode : BodyMode} {fault : RequestError}
      (needed : r.body? = some (body, mode)) (invalid : checkBody s body mode = .error fault) :
      Rejects v s ctx r fault
  | values {body : Option Record} {mode : BodyMode} {record : Record} {fault : ModelError}
      (needed : r.body? = some (body, mode)) (valid : checkBody s body mode = .ok record)
      (invalid : Assignment.ofRecord record s.type.properties = .error fault) :
      Rejects v s ctx r (.invalidBody fault)
  | key {key : Value} {fault : RequestError} (named : r.key? = some key)
      (uncoercible : normalizeKey s.name s.type key = .error fault) : Rejects v s ctx r fault
  | keyless {body : Option Record} (creates : r = .create body)
      (keyless : s.type.keyProperty? = none) : Rejects v s ctx r (.keylessSet s.name)
  | option {stages : Stages} {reason : String} (asked : r.stages? = some stages)
      (refused : Untranslatable ctx stages reason)
      (forbidden : v.model.config.fallback = false) : Rejects v s ctx r (.notImplemented reason)

/--
A request asks for no expansions, and its filter leads to other sets only if it becomes SQL.

The filter is one that a text writes over the model.
-/
structure Plain {m : Type → Type} (v : Service m) (s : EntitySet) (ctx : SqlContext)
    (r : SetRequest) : Prop where
  unexpanded : r.expansions = []
  read : ∀ stages filter, r.stages? = some stages → stages.filter = some filter →
    ∃ input, parseFilter v.model s.name input = .ok filter
  local_ : ∀ stages filter, r.stages? = some stages → stages.filter = some filter →
    filter.targets = [] ∨
      ∃ condition after, (compileFilter ctx filter).run .empty = (.ok condition, after)

/-- What is done for a request, whatever it answers. -/
def serveSet {m : Type → Type} [Monad m] (v : Service m) (s : EntitySet) :
    SetRequest → ExceptT RequestError m Unit
  | .count o => do let _ ← v.count s o
  | .query o => do let _ ← v.query s o
  | .read o key => do let _ ← v.read s o key
  | .create body => do let _ ← v.create s body
  | .update key body => do let _ ← v.update s key body
  | .delete key => do let _ ← v.delete s key

/-- A computation does nothing but fail for one of some reasons, or has one session for none. -/
def Guarded {α : Type} (reasons : RequestError → Prop) (provider : Nat)
    (step : ExceptT RequestError (StateM Stage) α) : Prop :=
  (∃ fault, reasons fault ∧ step = settled (.error fault)) ∨
    (∀ fault, ¬ reasons fault) ∧ Notes (Session provider) step

namespace Guarded

variable {α β : Type} {reasons : RequestError → Prop} {provider : Nat}
  {step : ExceptT RequestError (StateM Stage) α}

/-- A check before a computation is guarded where every fault of it is a reason. -/
theorem check {r : Except RequestError β} {next : β → ExceptT RequestError (StateM Stage) α}
    (bad : ∀ fault, r = .error fault → reasons fault)
    (good : ∀ b, r = .ok b → Guarded reasons provider (next b)) :
    Guarded reasons provider (settled r >>= next) := by
  cases r with
  | error fault => exact .inl ⟨fault, bad fault rfl, settled_error_bind _ _⟩
  | ok b =>
    rw [settled_ok_bind]
    exact good b rfl

/-- What is done with the answer does not matter. -/
theorem discard (guarded : Guarded reasons provider step) :
    Guarded reasons provider (do let _ ← step) := by
  rcases guarded with ⟨fault, reason, rfl⟩ | ⟨none_, notes⟩
  · exact .inl ⟨fault, reason, settled_error_bind _ _⟩
  · exact .inr ⟨none_, notes.bind_settles fun _ => .pure _⟩

end Guarded

section

variable {m : Type → Type} {v : Service m} {s : EntitySet} {ctx : SqlContext} {r : SetRequest}

/-- A request that passes each check is not rejected. -/
theorem not_rejects (able : s.capabilities.contains r.capability = true)
    (bodies : ∀ body mode, r.body? = some (body, mode) → ∃ record assignments,
      checkBody s body mode = .ok record ∧
        Assignment.ofRecord record s.type.properties = .ok assignments)
    (keys : ∀ key, r.key? = some key → ∃ normal, normalizeKey s.name s.type key = .ok normal)
    (keyed : ∀ body, r = .create body → s.type.keyProperty? ≠ none)
    (options : ∀ stages, r.stages? = some stages → v.model.config.fallback = false →
      ∀ reason, ¬ Untranslatable ctx stages reason) (fault : RequestError) :
    ¬ Rejects v s ctx r fault := by
  intro rejects
  cases rejects with
  | capability missing => exact Bool.false_ne_true (missing.symm.trans able)
  | body needed invalid =>
    obtain ⟨record, assignments, valid, -⟩ := bodies _ _ needed
    cases valid.symm.trans invalid
  | values needed valid invalid =>
    obtain ⟨record, assignments, valid', valued⟩ := bodies _ _ needed
    cases valid.symm.trans valid'
    cases valued.symm.trans invalid
  | key named uncoercible =>
    obtain ⟨normal, coerced⟩ := keys _ named
    cases coerced.symm.trans uncoercible
  | keyless creates keyless => exact keyed _ creates keyless
  | option asked refused forbidden => exact options _ asked forbidden _ refused

/-- A set that does not allow a request does not have the capability for it. -/
theorem Rejects.of_allowed {c : Capability} {fault : RequestError} (needs : r.capability = c)
    (refused : allowed s c = .error fault) : Rejects v s ctx r fault := by
  subst needs
  rw [allowed] at refused
  split at refused
  · cases refused
  · rename_i missing
    cases refused
    exact .capability (Bool.eq_false_iff.mpr missing)

/-- A body with a value that is not one of its property is rejected. -/
theorem Rejects.of_values {body : Option Record} {mode : BodyMode} {record : Record}
    {fault : RequestError} (needed : r.body? = some (body, mode))
    (valid : checkBody s body mode = .ok record)
    (failed : (Assignment.ofRecord record s.type.properties).mapError .invalidBody
      = .error fault) : Rejects v s ctx r fault := by
  cases invalid : Assignment.ofRecord record s.type.properties with
  | ok assignments =>
    rw [invalid] at failed
    cases failed
  | error bad =>
    rw [invalid] at failed
    cases failed
    exact .values needed valid invalid

/-- A set that allows an operation has the capability for it. -/
theorem able_of_allowed {c : Capability} {u : Unit} (passed : allowed s c = .ok u) :
    s.capabilities.contains c = true := by
  rw [allowed] at passed
  split at passed
  · assumption
  · cases passed

/-- A key that is not one of the set is uncoercible. -/
theorem of_keyOf_error {key : Value} {fault : RequestError} (failed : keyOf s key = .error fault) :
    normalizeKey s.name s.type key = .error fault := by
  rw [keyOf] at failed
  cases coerced : normalizeKey s.name s.type key with
  | error other =>
    rw [coerced] at failed
    cases failed
    rfl
  | ok normal =>
    rw [coerced] at failed
    -- Only to the type of a key property could the key be coerced.
    cases keyed : s.type.keyProperty? with
    | none =>
      rw [normalizeKey, keyed] at coerced
      cases coerced
    | some property =>
      rw [keyed] at failed
      cases failed

/-- A key of the set is coerced. -/
theorem of_keyOf_ok {key : Value} {a : Assignment} (named : keyOf s key = .ok a) :
    ∃ normal, normalizeKey s.name s.type key = .ok normal := by
  obtain ⟨normal, coerced, -⟩ := bind_ok named
  exact ⟨normal, coerced⟩

end

section

variable {v : Service (StateM Stage)} {dialects : List Dialect} {s : EntitySet} {table : String}
  {provider : Nat}

/-- An entity without expansions is finished without effects. -/
theorem finish_settles {o : QueryOptions} (unexpanded : o.expand = []) (e : Entity) :
    Settles (v.finish o e) := by
  rw [finish, unexpanded, expandAll]
  exact .bind (.pure _) fun _ => .pure _

/-- Whether a row is there is known. -/
theorem orNotFound_settles (key : Value) (found : Option Entity) :
    Settles (orNotFound s key found : ExceptT RequestError (StateM Stage) Entity) := by
  cases found with
  | none => exact .throw _
  | some e => exact .pure _

/-- A filter that a text writes over a built model fails to become SQL only for want of a form. -/
theorem Plain.onlyUnsupported {d : Draft} {stages : Stages} {r : SetRequest}
    (built : d.build = .ok v.model) (present : v.model.set? s.name = some s)
    (plain : v.Plain s (v.sqlContext s table provider) r) (asked : r.stages? = some stages) :
    ∀ filter ∈ stages.filter,
      OnlyUnsupported (compileFilter (v.sqlContext s table provider) filter) := by
  intro filter mem
  obtain ⟨text, read⟩ := plain.read stages filter asked mem
  obtain ⟨s', tokens, present', -, readFrom, -⟩ := parseFilter_sound read
  cases present.symm.trans present'
  exact onlyUnsupported_compileFilter built (v.resolver_own provider) ⟨s, present, rfl⟩ rfl readFrom

/-- A filter that is left to memory leads to no other sets, so that it looks nothing up. -/
theorem Plain.left_settles {stages remaining : Stages} {r : SetRequest}
    (plain : v.Plain s (v.sqlContext s table provider) r) (asked : r.stages? = some stages)
    (left : stages.LeftOf (v.sqlContext s table provider) remaining) :
    ∀ filter ∈ remaining.filter, ∀ standpoint, Settles (filter.eval v.related standpoint) := by
  intro filter mem standpoint
  obtain ⟨given, reason, after, refused⟩ := left filter mem
  obtain nowhere | ⟨condition, after', done⟩ := plain.local_ stages filter asked given
  · refine filter.eval_settles standpoint fun target among => ?_
    rw [nowhere] at among
    cases among
  · cases done.symm.trans refused

variable (hosted : v.databases = Stage.databases_ dialects)
include hosted

/-- Looking for the row under a key sends one statement. -/
theorem rowUnder_sends (key : Assignment) :
    Sends provider (v.rowUnder s table provider key) := by
  rw [rowUnder, hosted]
  exact (rows_sends _).bind fun _ => .of_settles (.bind (.of _) fun _ => .pure _)

variable (backed : s.backing = .table table provider)
include backed

/-- A read is guarded. -/
theorem read_guarded {o : QueryOptions} (unexpanded : o.expand = []) (key : Value) :
    Guarded (v.Rejects s (v.sqlContext s table provider) (.read o key)) provider
      (v.read s o key) := by
  simp only [read, ensure_eq, backed, hosted]
  refine .check (fun _ => .of_allowed rfl) fun _ able => ?_
  refine .check (fun _ failed => .key rfl (of_keyOf_error failed)) fun a named => ?_
  refine .inr ⟨not_rejects (able_of_allowed able) (fun _ _ => by rintro ⟨⟩) ?_
    (fun _ => by rintro ⟨⟩) (fun _ => by rintro ⟨⟩), ?_⟩
  · rintro _ ⟨⟩
    exact of_keyOf_ok named
  · refine (withConnection_session ?_).bind_settles fun e => finish_settles unexpanded e
    exact (rowUnder_sends hosted a).bind fun found => .of_settles (orNotFound_settles _ found)

/-- A deletion is guarded. -/
theorem delete_guarded (key : Value) :
    Guarded (v.Rejects s (v.sqlContext s table provider) (.delete key)) provider
      (v.delete s key) := by
  simp only [delete, ensure_eq, backed, deleteRow, bind_assoc, hosted]
  refine .check (fun _ => .of_allowed rfl) fun _ able => ?_
  refine .check (fun _ failed => .key rfl (of_keyOf_error failed)) fun a named => ?_
  refine .inr ⟨not_rejects (able_of_allowed able) (fun _ _ => by rintro ⟨⟩) ?_
    (fun _ => by rintro ⟨⟩) (fun _ => by rintro ⟨⟩), ?_⟩
  · rintro _ ⟨⟩
    exact of_keyOf_ok named
  · -- A row that was not there is a fault behind the session.
    refine (withConnection_session (run_sends _ _)).bind_settles fun outcome => ?_
    refine .bind ?_ fun _ => .pure _
    split
    · exact .throw _
    · exact .pure _

/-- A creation is guarded. -/
theorem create_guarded (body : Option Record) :
    Guarded (v.Rejects s (v.sqlContext s table provider) (.create body)) provider
      (v.create s body) := by
  simp only [create, ensure_eq, backed, createRow, hosted]
  refine .check (fun _ => .of_allowed rfl) fun _ able => ?_
  refine .check (fun _ failed => .body rfl failed) fun record valid => ?_
  cases keyed : s.type.keyProperty? with
  | none => exact .inl ⟨_, .keyless rfl keyed, settled_error_bind _ _⟩
  | some key =>
    dsimp only
    rw [bind_assoc]
    refine .check (fun _ failed => .of_values rfl valid failed) fun assignments valued => ?_
    refine .inr ⟨not_rejects (able_of_allowed able) ?_ (fun _ => by rintro ⟨⟩) ?_
      (fun _ => by rintro ⟨⟩), ?_⟩
    · rintro _ _ ⟨⟩
      exact ⟨record, assignments, valid, mapError_ok valued⟩
    · rintro _ ⟨⟩ keyless
      cases keyed.symm.trans keyless
    · -- The key that was made is known, so that the new row is read over the same connection.
      refine Notes.bind_settles (withConnection_session ?_) fun e => .pure _
      refine (run_sends _ _).bind fun outcome => (Sends.of_settles (.of _)).bind fun id => ?_
      refine (rowUnder_sends hosted id).bind fun found => .of_settles ?_
      cases found with
      | none => exact .throw _
      | some e => exact .pure _

/-- An update is guarded. -/
theorem update_guarded (key : Value) (body : Option Record) :
    Guarded (v.Rejects s (v.sqlContext s table provider) (.update key body)) provider
      (v.update s key body) := by
  simp only [update, ensure_eq, backed, updateRow, bind_assoc, hosted]
  refine .check (fun _ => .of_allowed rfl) fun _ able => ?_
  refine .check (fun _ failed => .body rfl failed) fun changes valid => ?_
  refine .check (fun _ failed => .key rfl (of_keyOf_error failed)) fun a named => ?_
  refine .check (fun _ failed => .of_values rfl valid failed) fun assignments valued => ?_
  refine .inr ⟨not_rejects (able_of_allowed able) ?_ ?_ (fun _ => by rintro ⟨⟩)
    (fun _ => by rintro ⟨⟩), ?_⟩
  · rintro _ _ ⟨⟩
    exact ⟨changes, assignments, valid, mapError_ok valued⟩
  · rintro _ ⟨⟩
    exact of_keyOf_ok named
  · refine (withConnection_session ?_).bind_settles fun e => .pure _
    -- Whatever is sent before it, the row is read last, over the same connection.
    have shown : Sends provider (v.rowUnder s table provider a >>= orNotFound s a.value) :=
      (rowUnder_sends hosted a).bind fun found => .of_settles (orNotFound_settles _ found)
    split
    · refine (run_sends _ _).bind fun outcome => ?_
      split
      · exact (Sends.of_settles (.throw _)).bind fun _ => shown
      · exact shown
    · exact shown

/-- A query is guarded. -/
theorem query_guarded {d : Draft} (built : d.build = .ok v.model)
    (present : v.model.set? s.name = some s) {o : QueryOptions}
    (plain : v.Plain s (v.sqlContext s table provider) (.query o)) :
    Guarded (v.Rejects s (v.sqlContext s table provider) (.query o)) provider (v.query s o) := by
  simp only [query, stream, ensure_eq, fetch, backed, bind_assoc, hosted]
  refine .check (fun _ => .of_allowed rfl) fun _ able => ?_
  rcases planRows_cases (plain.onlyUnsupported built present rfl) with
    ⟨reason, forbidden, refused, failed⟩ | ⟨translated, plan, planned, left⟩
  · refine .inl ⟨_, .option rfl refused forbidden, ?_⟩
    rw [failed, settled_error_bind]
  · rw [planned, settled_ok_bind]
    refine .inr ⟨not_rejects (able_of_allowed able) (fun _ _ => by rintro ⟨⟩)
      (fun _ => by rintro ⟨⟩) (fun _ => by rintro ⟨⟩) ?_, ?_⟩
    · rintro _ ⟨⟩
      exact translated
    · -- Behind the session the rows are only worked on in memory, and nothing is looked up.
      refine (withConnection_session (rows_sends _)).bind_settles fun rows => ?_
      refine .bind (.of _) fun entities => ?_
      rw [pure_bind]
      exact Stages.run_settles _ _ _ (plain.left_settles rfl left)
        fun e => finish_settles plain.unexpanded e

/-- A count is guarded. -/
theorem count_guarded {d : Draft} (built : d.build = .ok v.model)
    (present : v.model.set? s.name = some s) {o : QueryOptions}
    (plain : v.Plain s (v.sqlContext s table provider) (.count o)) :
    Guarded (v.Rejects s (v.sqlContext s table provider) (.count o)) provider (v.count s o) := by
  simp only [count, ensure_eq, backed, hosted]
  refine .check (fun _ => .of_allowed rfl) fun _ able => ?_
  -- A count has the filter of its options, and it has no order.
  have asked : (SetRequest.count o).stages? = some o.stages.unpaged := rfl
  have only : ∀ filter ∈ o.stages.filter,
      OnlyUnsupported (compileFilter (v.sqlContext s table provider) filter) := fun filter mem =>
    plain.onlyUnsupported built present asked filter mem
  rcases planCount_cases only with
    ⟨reason, forbidden, refused, failed⟩ | ⟨translated, plan, whole, planned, left⟩
  · refine .inl ⟨_, .option rfl refused forbidden, ?_⟩
    rw [failed, settled_error_bind]
  · rw [planned, settled_ok_bind]
    refine .inr ⟨not_rejects (able_of_allowed able) (fun _ _ => by rintro ⟨⟩)
      (fun _ => by rintro ⟨⟩) (fun _ => by rintro ⟨⟩) ?_, ?_⟩
    · rintro _ ⟨⟩
      exact translated
    · dsimp only
      split
      -- Either the database counts, or its rows are counted in memory.
      · exact (withConnection_session (rows_sends _)).bind_settles fun rows => .of _
      · refine (withConnection_session (rows_sends _)).bind_settles fun rows => ?_
        refine .bind (.of _) fun entities => ?_
        exact Stages.count_settles _ _ (plain.left_settles asked left)

end

/-- The numbers in a database with a script. -/
def scriptedNumbers : Service (StateM Stage) :=
  ⟨numbersService.model, [], Stage.databases_ [.sqlite]⟩

/-- A database that refuses the first connection and fails the first statement of the next one. -/
def failingStage : Stage :=
  ⟨[⟨.sqlite, [.refusal (.connection "busy"), .statement (.fault .execution)]⟩], []⟩

/-- The numbers above one, from the greatest on, except the first. -/
def numbersQuery : SetRequest :=
  .query ⟨numberStages, false, none, []⟩

end Service

end EdmQuery
