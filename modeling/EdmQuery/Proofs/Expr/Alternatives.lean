import Mathlib
import EdmQuery.Proofs.Expr.Settled
import EdmQuery.Query.Service

/-! A list of alternatives has the value of the equalities with each of them, joined by `or`. -/

namespace EdmQuery

open Std.Do

section

variable {m : Type → Type} {ps : PostShape} [Monad m] [WPMonad m ps] {α β : Type}

/--
From states with a property, a computation gives a value and ends in such a state again.

The property may say that databases keep answering as they do, however often they are asked.
-/
def SettlesOn (stable : Assertion ps) (step : ExceptT RequestError m α) (a : α) : Prop :=
  ⦃stable⦄ step ⦃⇓ r => spred(⌜r = a⌝ ∧ stable)⦄

/-- Over a state, that says what becomes of each run. -/
theorem settlesOn_iff_run {σ : Type} {stable : σ → Prop} {step : ExceptT RequestError (StateM σ) α}
    {a : α} : SettlesOn (fun s => ⌜stable s⌝) step a ↔
      ∀ s, stable s → ∃ after, step.run s = (.ok a, after) ∧ stable after := by
  refine forall₂_congr fun s _ => ?_
  simp only [WP.wp, PredTrans.apply_pushExcept, PredTrans.apply_pushArg,
    PredTrans.apply_Pure_pure]
  show _ ↔ ∃ after, (StateT.run step.run s).run = (.ok a, after) ∧ stable after
  rcases (StateT.run step.run s).run with ⟨_ | r, after⟩
  · exact ⟨False.elim, nofun⟩
  · refine ⟨fun ⟨same, kept⟩ => ⟨after, congrArg (Except.ok ·, after) same, kept⟩, ?_⟩
    rintro ⟨_, same, kept⟩
    cases same
    exact ⟨rfl, kept⟩

namespace SettlesOn

variable {stable : Assertion ps} {step : ExceptT RequestError m α} {a : α} {b : β}

/-- What is returned is given in any state. -/
protected theorem pure (a : α) : SettlesOn stable (pure a : ExceptT RequestError m α) a :=
  Triple.pure a (SPred.and_intro (SPred.pure_intro rfl) .rfl)

/-- What follows a value starts from a state of the same kind. -/
theorem bind {next : α → ExceptT RequestError m β} (first : SettlesOn stable step a)
    (second : SettlesOn stable (next a) b) : SettlesOn stable (step >>= next) b := by
  refine Triple.bind step next first fun r => SPred.pure_elim_l ?_
  rintro rfl
  exact second

end SettlesOn

end

/-- The truth of one value being equal to another, which nobody knows of a null. -/
def Value.equality (a b : Value) : Option Bool :=
  if a.isNull || b.isNull then none else some (a.compare b == some .eq)

/-- The truth of a value being equal to one of several others. -/
def Value.equalityAmong (a : Value) (others : List Value) : Option Bool :=
  (others.map a.equality).foldl either (some false)

/-- Two values are compared for equality by that truth. -/
theorem apply_eq_equality (a b : Value) : BinaryOp.eq.apply a b = .ofTruth (a.equality b) := by
  rw [Value.equality]
  unfold BinaryOp.apply
  split
  · rfl
  · rcases a.compare b with _ | _ | _ | _ <;> rfl

/-- What is unknown stays so in a disjunction of what is unknown. -/
theorem foldl_either_none {truths : List (Option Bool)} (unknown : ∀ t ∈ truths, t = none) :
    truths.foldl either none = none := by
  induction truths with
  | nil => rfl
  | cons t rest ih =>
    obtain ⟨rfl, others⟩ := List.forall_mem_cons.mp unknown
    exact ih others

/-- What is true stays so in a disjunction. -/
theorem foldl_either_true (truths : List (Option Bool)) :
    truths.foldl either (some true) = some true := by
  induction truths with
  | nil => rfl
  | cons t rest ih => exact ih

/-- Nobody knows whether a null is equal to one of some values. -/
theorem equalityAmong_null {a : Value} (null : a.isNull = true) {others : List Value}
    (nonempty : others ≠ []) : a.equalityAmong others = none := by
  have unknown (b : Value) : a.equality b = none := by rw [Value.equality, null]; rfl
  cases others with
  | nil => exact absurd rfl nonempty
  | cons b rest =>
    rw [Value.equalityAmong, List.map_cons, List.foldl_cons, unknown]
    refine foldl_either_none fun t mem => ?_
    obtain ⟨c, -, rfl⟩ := List.mem_map.mp mem
    exact unknown c

namespace Expression

/-- The equalities of an expression with others, joined by `or` from left to right. -/
def equalities (x : Expression) : List Expression → Expression
  | [] => .literal (.boolean false)
  | y :: rest => rest.foldl (fun found z => .binary .or found (.binary .eq x z)) (.binary .eq x y)

section

variable {m : Type → Type} {ps : PostShape} [Monad m] [WPMonad m ps] {lookup : Lookup m}
  {s : Standpoint} {stable : Assertion ps} {x y : Expression} {a b : Value}

/-- An equality without a null literal compares the values of its operands. -/
theorem settlesOn_eq (there : x.isNullLiteral = false) (there' : y.isNullLiteral = false)
    (left : SettlesOn stable (x.eval lookup s) a) (right : SettlesOn stable (y.eval lookup s) b) :
    SettlesOn stable ((binary .eq x y).eval lookup s) (.ofTruth (a.equality b)) := by
  rw [eval.eq_def]
  simp only [there, there', ← apply_eq_equality]
  exact left.bind (right.bind (.pure _))

/-- A disjunction has the truth of its operands, of which the second is left alone if need be. -/
theorem settlesOn_or {t u : Option Bool} (left : SettlesOn stable (x.eval lookup s) (.ofTruth t))
    (right : SettlesOn stable (y.eval lookup s) (.ofTruth u)) :
    SettlesOn stable ((binary .or x y).eval lookup s) (.ofTruth (either t u)) := by
  have truth (t : Option Bool) : (Value.ofTruth t).truth? = t := by rcases t with _ | _ <;> rfl
  rw [eval]
  refine left.bind ?_
  rw [truth]
  rcases t with _ | _ | _
  · refine right.bind ?_
    rw [truth]
    exact .pure _
  · refine right.bind ?_
    rw [truth]
    exact .pure _
  · exact .pure _

/-- Equalities that follow a truth are joined with it one after the other. -/
theorem settlesOn_foldl_or {items : List Expression} {values : List Value} {found : Expression}
    {t : Option Bool} (there : x.isNullLiteral = false)
    (others : ∀ y ∈ items, y.isNullLiteral = false) (operand : SettlesOn stable (x.eval lookup s) a)
    (each : List.Forall₂ (fun y b => SettlesOn stable (y.eval lookup s) b) items values)
    (before : SettlesOn stable (found.eval lookup s) (.ofTruth t)) :
    SettlesOn stable
      ((items.foldl (fun found z => binary .or found (binary .eq x z)) found).eval lookup s)
      (.ofTruth ((values.map a.equality).foldl either t)) := by
  induction each generalizing found t with
  | nil => exact before
  | cons first _ ih =>
    obtain ⟨there', others⟩ := List.forall_mem_cons.mp others
    exact ih others (settlesOn_or before (settlesOn_eq there there' operand first))

/-- The search for a value goes on with what the alternatives before have told. -/
theorem settlesOn_evalAmong {items : List Expression} {values : List Value}
    (each : List.Forall₂ (fun y b => SettlesOn stable (y.eval lookup s) b) items values)
    (there : a.isNull = false) (sawNull : Bool) :
    SettlesOn stable (evalAmong lookup s a sawNull items)
      (.ofTruth ((values.map a.equality).foldl either (if sawNull then none else some false))) := by
  -- The flag is the truth so far: unknown once a null was seen, and false before.
  induction each generalizing sawNull with
  | nil =>
    rw [evalAmong]
    cases sawNull <;> exact .pure _
  | @cons y b items values first _ ih =>
    rw [evalAmong, List.map_cons, List.foldl_cons, Value.equality, there]
    refine first.bind ?_
    cases missing : b.isNull with
    | true =>
      have unknown : either (if sawNull then none else some false) none = none := by
        cases sawNull <;> rfl
      simp only [Bool.or_true, if_true, unknown]
      exact ih true
    | false =>
      simp only [Bool.or_false, Bool.false_eq_true, if_false]
      cases equal : a.compare b == some .eq with
      | true =>
        -- The search stops here, and no alternative behind could change what is true.
        have found : either (if sawNull then none else some false) (some true) = some true := by
          cases sawNull <;> rfl
        rw [found, foldl_either_true]
        exact .pure _
      | false =>
        have same : either (if sawNull then none else some false) (some false)
            = if sawNull then none else some false := by
          cases sawNull <;> rfl
        rw [same]
        exact ih sawNull

end

/--
A list of alternatives has the value of the equalities with each of them.

Operands may look into databases, as long as these keep answering alike: the operand in front is
evaluated once for the list, but once for each equality that is looked at.
-/
theorem alternatives_agree_with_equalities {m : Type → Type} {ps : PostShape} [Monad m]
    [WPMonad m ps] {lookup : Lookup m} {s : Standpoint} {stable : Assertion ps} {x : Expression}
    {items : List Expression} (there : x.isNullLiteral = false) (nonempty : items ≠ [])
    (others : ∀ y ∈ items, y.isNullLiteral = false) {a : Value} {values : List Value}
    (operand : SettlesOn stable (x.eval lookup s) a)
    (each : List.Forall₂ (fun y b => SettlesOn stable (y.eval lookup s) b) items values) :
    SettlesOn stable ((oneOf x items).eval lookup s) (.ofTruth (a.equalityAmong values)) ∧
      SettlesOn stable ((x.equalities items).eval lookup s)
        (.ofTruth (a.equalityAmong values)) := by
  constructor
  · rw [eval]
    refine operand.bind ?_
    cases missing : a.isNull with
    | true =>
      -- A null is not compared at all, which agrees with the equalities as there is one of them.
      have several : values ≠ [] := by
        rintro rfl
        cases each
        exact nonempty rfl
      rw [equalityAmong_null missing several]
      exact .pure _
    | false =>
      simp only [Bool.false_eq_true, if_false]
      exact settlesOn_evalAmong each missing false
  · cases each with
    | nil => exact absurd rfl nonempty
    | @cons y b items values first rest =>
      obtain ⟨there', others⟩ := List.forall_mem_cons.mp others
      have start : either (some false) (a.equality b) = a.equality b := by
        rcases a.equality b with _ | _ | _ <;> rfl
      rw [Value.equalityAmong, List.map_cons, List.foldl_cons, start]
      exact settlesOn_foldl_or there others operand rest (settlesOn_eq there there' operand first)

end Expression

namespace Service

/-- Gears have a number, which leads to their twins. -/
def gearType : EntityType :=
  ⟨"Gear", none, [⟨"number", .primitive (.integer .int32), true, false, none⟩],
    [⟨"twin", "Gear", false, [⟨"number", "number"⟩]⟩]⟩

/-- Gears are kept in a table. -/
def gearSet : EntitySet :=
  ⟨"gears", gearType, .all, .table "gears" 0⟩

/-- A service with a database that answers with the first gear and counts what it is asked. -/
def gearService : Service (StateM Nat) where
  model := ⟨.default, [], [gearType], [gearSet], [⟨"gears", "twin", "gears"⟩]⟩
  collections := []
  databases := {
    Databases.none with
    acquire _ := pure (.ok ())
    query _ _ := fun asked => (.ok [[("number", .ofInt 1)]], asked + 1) }

/-- The number of the twin of a gear. -/
def twinNumber : Expression :=
  .hop .root ⟨"twin", "Gear", false, [⟨"number", "number"⟩]⟩ "gears"
    (.property .current ⟨"number", .primitive (.integer .int32), true, false, none⟩)

/-- Two and one, as literals. -/
def twoAndOne : List Expression :=
  [.literal (.integer 2), .literal (.integer 1)]

/-- What the first gear has for an expression. -/
def ofFirstGear (x : Expression) : ExceptT RequestError (StateM Nat) Value :=
  x.eval gearService.related (.ofEntity (.mk gearType none [("number", .integer 1)] []))

/-- However often the database has been asked. -/
def anyTime : Assertion (.arg Nat .pure) :=
  fun _ => ⌜True⌝

/-- The twin is found by two or by one in both forms, though equalities ask for it again. -/
theorem alternatives_agree_with_equalities_of_gears :
    parseFilter gearService.model "gears" "twin/number in (2, 1)"
        = .ok (.oneOf twinNumber twoAndOne) ∧
      parseFilter gearService.model "gears" "twin/number eq 2 or twin/number eq 1"
        = .ok (twinNumber.equalities twoAndOne) ∧
      SettlesOn anyTime (ofFirstGear (.oneOf twinNumber twoAndOne)) (.boolean true) ∧
      SettlesOn anyTime (ofFirstGear (twinNumber.equalities twoAndOne)) (.boolean true) ∧
      ((ofFirstGear (.oneOf twinNumber twoAndOne)).run 0).2 = 1 ∧
      ((ofFirstGear (twinNumber.equalities twoAndOne)).run 0).2 = 2 := by
  have operand : SettlesOn anyTime (ofFirstGear twinNumber) (.integer 1) :=
    settlesOn_iff_run.mpr fun asked _ => ⟨asked + 1, rfl, trivial⟩
  have each : List.Forall₂ (fun y b => SettlesOn anyTime (ofFirstGear y) b) twoAndOne
      [.integer 2, .integer 1] :=
    .cons (.pure _) (.cons (.pure _) .nil)
  have nonempty : twoAndOne ≠ [] := List.cons_ne_nil _ _
  have others : ∀ y ∈ twoAndOne, y.isNullLiteral = false := by
    simp [twoAndOne, Expression.isNullLiteral]
  obtain ⟨list, equalities⟩ :=
    Expression.alternatives_agree_with_equalities rfl nonempty others operand each
  exact ⟨by cbv, by cbv, list, equalities, rfl, rfl⟩

end Service

end EdmQuery
