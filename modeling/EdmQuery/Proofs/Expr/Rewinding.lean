import Mathlib
import EdmQuery.Expr.Matcher
import EdmQuery.Proofs.Expr.Scanner

/-! Readers that move their own offset: a refused one has moved it back to where it started. -/

namespace EdmQuery

open Text

/-- The next token ends behind the place where it was looked for, also when there is none. -/
theorem Cursor.nextToken_reaches {c next : Cursor} {found : Option Token}
    (read : c.nextToken = .ok (found, next)) : ∃ front, c.Reaches front next := by
  cases found with
  | some t =>
    obtain ⟨gap, -, -, -, reaches⟩ := nextToken_some read
    exact ⟨_, reaches⟩
  | none =>
    rw [nextToken] at read
    cases at_ : c.skipBlanks.peek with
    | none =>
      simp only [at_] at read
      cases read
      exact ⟨_, c.reaches_skipBlanks⟩
    | some first =>
      simp only [at_] at read
      obtain ⟨found, -, same⟩ := map_ok read
      cases same

namespace Scanner

variable {s next : Scanner} {α β : Type}

/-- A place in the same text that is not before another one and not inside a character. -/
structure Onward (s next : Scanner) : Prop where
  text : next.text = s.text
  offset : s.offset ≤ next.offset
  aligned : next.IsAligned

namespace Onward

variable {last : Scanner} {reader : Reader α}

/-- A place goes on from itself. -/
theorem refl (aligned : s.IsAligned) : s.Onward s :=
  ⟨rfl, Nat.le_refl _, aligned⟩

/-- What goes on behind one place goes on from the place before it. -/
theorem trans (one : s.Onward next) (two : next.Onward last) : s.Onward last :=
  ⟨two.text.trans one.text, one.offset.trans two.offset, two.aligned⟩

/-- A move over any of the next characters goes on. -/
theorem advance (aligned : s.IsAligned) (n : Nat) : s.Onward (s.advance n) :=
  ⟨rfl, Nat.le_add_right _ _, aligned.advance n⟩

/-- Two steps go on if the first does, and the second from wherever the first finds something. -/
theorem bind {behind : α → Reader β} (one : s.Onward (reader.outcome s).2)
    (two : ∀ a next, s.Onward next → next.Onward ((behind a).outcome next).2) :
    s.Onward ((reader >>= behind).outcome s).2 := by
  -- A refusal of the first step ends both where it stopped.
  match outcome : reader.outcome s with
  | (.error e, next) =>
    rw [outcome] at one
    rw [outcome_bind_error outcome]
    exact one
  | (.ok a, next) =>
    rw [outcome] at one
    rw [outcome_bind_ok outcome]
    exact one.trans (two a next one)

/-- A token goes on from the blanks before it, also where it is refused. -/
theorem nextToken (aligned : s.IsAligned) : s.Onward (nextToken.outcome s).2 := by
  refine bind (advance aligned _ : s.Onward (skipBlanks.outcome s).2) fun _ start blanks => ?_
  -- The token is looked for behind the blanks.
  rw [outcome_get_bind]
  cases read : start.cursor.nextToken with
  | error e => exact .refl blanks.aligned
  | ok found =>
    obtain ⟨token, place⟩ := found
    obtain ⟨front, reaches⟩ := Cursor.nextToken_reaches read
    exact ⟨rfl, (Nat.le_add_right _ _).trans_eq reaches.2.symm, blanks.aligned.reached reaches⟩

end Onward

end Scanner

namespace Matcher

variable {s : Scanner} {α : Type} {reader : Scanner.Reader α} {read : Read α}

/-- Whether an outcome of a reader is a refusal; an attempt tells it by finding nothing. -/
def isRefused : Matcher → Except ExpressionError Found → Bool
  | _, .error _ => true
  | attempt _, .ok .nothing => true
  | _, _ => false

/-- A refused reader leaves its place as it was, and any other goes on from it. -/
structure Settles (m : Matcher) (s : Scanner) : Prop where
  refused (refused : m.isRefused (m.apply.outcome s).1 = true) : (m.apply.outcome s).2 = s
  found (found : m.isRefused (m.apply.outcome s).1 = false) : s.Onward (m.apply.outcome s).2

namespace Settles

variable {m : Matcher} {next : Scanner} {found : Found} {e : ExpressionError}

/-- A reader with an error has to be where it started. -/
theorem error (outcome : m.apply.outcome s = (.error e, s)) : m.Settles s := by
  constructor
  · intro _
    rw [outcome]
  · intro found
    rw [outcome, isRefused] at found
    cases found

/-- A reader that found something has to have gone on. -/
theorem ok (outcome : m.apply.outcome s = (.ok found, next))
    (accepts : m.isRefused (.ok found) = false) (onward : s.Onward next) : m.Settles s := by
  constructor
  · intro refused
    rw [outcome, accepts] at refused
    cases refused
  · intro _
    rw [outcome]
    exact onward

/-- A reader settles where its step follows a reading and what was read is always something. -/
theorem follows (aligned : s.IsAligned) (follows : s.Follows reader read) {found : α → Found}
    (step : m.apply = found <$> reader) (accepts : ∀ a, m.isRefused (.ok (found a)) = false) :
    m.Settles s := by
  obtain ⟨e, -, refused⟩ | ⟨a, n, -, read⟩ := follows
  · have outcome : m.apply.outcome s = (.error e, s) := by
      rw [step, Scanner.outcome_map, refused]
      rfl
    exact error outcome
  · have outcome : m.apply.outcome s = (.ok (found a), s.advance n) := by
      rw [step, Scanner.outcome_map, read]
      rfl
    exact ok outcome (accepts a) (.advance aligned n)

/-- An attempt settles where the steps in it, refused or not, go on. -/
theorem attempt {steps : List Matcher} (onward : s.Onward ((applyAll steps).outcome s).2) :
    (Matcher.attempt steps).Settles s := by
  -- The attempt finds nothing exactly where one of the steps is refused.
  match inside : (applyAll steps).outcome s with
  | (.error e, next) =>
    have outcome : (Matcher.attempt steps).apply.outcome s = (.ok .nothing, s) := by
      rw [apply, Scanner.outcome_map, Scanner.outcome_attempt_error inside]
      rfl
    constructor
    · intro _
      rw [outcome]
    · intro found
      rw [outcome, isRefused] at found
      cases found
  | (.ok found, next) =>
    have outcome : (Matcher.attempt steps).apply.outcome s = (.ok (.several found), next) := by
      rw [apply, Scanner.outcome_map, Scanner.outcome_attempt_ok inside]
      rfl
    rw [inside] at onward
    exact ok outcome rfl onward

end Settles

/-- A reader settles if the steps in it go on, where it is an attempt. -/
theorem settles_of_inside {m : Matcher} (other : m ≠ .token) (aligned : s.IsAligned)
    (inside : ∀ steps, m = .attempt steps → s.Onward ((applyAll steps).outcome s).2) :
    m.Settles s := by
  cases m with
  | blanks => exact .ok rfl rfl (.advance aligned _)
  | remaining => exact .ok rfl rfl (.refl aligned)
  | isFinished => exact .ok rfl rfl (.advance aligned _)
  | peek => exact .ok rfl (by cases s.peek <;> rfl) (.refl aligned)
  | char expected => exact .follows aligned (.recognize aligned _ _) rfl fun _ => rfl
  | keyword word => exact .follows aligned (.bounded aligned _ _) rfl fun _ => rfl
  | identifier => exact .follows aligned (.recognize aligned _ _) rfl fun _ => rfl
  | qualifiedIdentifier => exact .follows aligned (.recognize aligned _ _) rfl fun _ => rfl
  | quotedString => exact .follows aligned (.quotedString aligned) rfl fun _ => rfl
  | doubleQuotedString => exact .follows aligned (.doubleQuotedString aligned) rfl fun _ => rfl
  | number => exact .follows aligned (.number aligned) rfl fun _ => rfl
  | date => exact .follows aligned (.bounded aligned _ _) rfl fun _ => rfl
  | dateTimeOffset => exact .follows aligned (.bounded aligned _ _) rfl fun _ => rfl
  | timeOfDay => exact .follows aligned (.bounded aligned _ _) rfl fun _ => rfl
  | guid => exact .follows aligned (.bounded aligned _ _) rfl fun _ => rfl
  | duration => exact .follows aligned (.duration aligned) rfl fun _ => rfl
  | enumLiteral => exact .follows aligned (.enumLiteral aligned) rfl fun _ => rfl
  | matchingParenthesis => exact .follows aligned (.matchingParenthesis aligned) rfl fun _ => rfl
  | searchWord => exact .follows aligned (.recognize aligned _ _) rfl fun _ => rfl
  | token => exact absurd rfl other
  | attempt steps => exact .attempt (inside steps rfl)

/-- A settled reader goes on from where it started, if only to the same place. -/
theorem Settles.onward {m : Matcher} (settles : m.Settles s) (aligned : s.IsAligned) :
    s.Onward (m.apply.outcome s).2 := by
  cases refused : m.isRefused (m.apply.outcome s).1 with
  | true =>
    rw [settles.refused refused]
    exact .refl aligned
  | false => exact settles.found refused

mutual

/-- No reader goes back or stops inside a character, not even a refused token. -/
theorem onward_apply (m : Matcher) {s : Scanner} (aligned : s.IsAligned) :
    s.Onward (m.apply.outcome s).2 := by
  -- A token is the one reader that a refusal leaves further on, behind the blanks before it.
  by_cases token : m = .token
  · rw [token, apply, Scanner.outcome_map]
    exact .nextToken aligned
  · refine (settles_of_inside token aligned fun steps attempt => ?_).onward aligned
    exact onward_applyAll steps aligned
termination_by sizeOf m
decreasing_by rw [attempt, Matcher.attempt.sizeOf_spec]; omega

/-- Readers in a row go on, also where one of them is refused. -/
theorem onward_applyAll (steps : List Matcher) {s : Scanner} (aligned : s.IsAligned) :
    s.Onward ((applyAll steps).outcome s).2 := by
  -- Wherever one of them stops is on from where it started, which is on from the first place.
  match steps with
  | [] => exact .refl aligned
  | step :: rest =>
    rw [applyAll]
    refine .bind (onward_apply step aligned) fun found next one => ?_
    exact .bind (onward_applyAll rest one.aligned) fun more last two => .refl two.aligned
termination_by sizeOf steps

end

/-- A reader that is refused has moved its offset back to where it was, whatever it had read before
it was refused; any other has not gone back and stands between two characters of the text. -/
theorem rewinds_or_goes_on (m : Matcher) (other : m ≠ .token) {s : Scanner}
    (aligned : s.IsAligned) :
    (m.isRefused (m.apply.outcome s).1 = true → (m.apply.outcome s).2 = s) ∧
      (m.isRefused (m.apply.outcome s).1 = false → s.Onward (m.apply.outcome s).2) := by
  -- The steps inside an attempt go on in any case, and the attempt goes back over all of them.
  have inside (steps : List Matcher) (_ : m = .attempt steps) :
      s.Onward ((applyAll steps).outcome s).2 := onward_applyAll steps aligned
  have settles := settles_of_inside other aligned inside
  exact ⟨settles.refused, settles.found⟩

/-- An attempt that has read an opening parenthesis, a quoted text and a token gives them back. -/
theorem rewinds_after_token :
    (Scanner.mk "ä('b' or" 2).IsAligned ∧
      ((apply (.attempt [.char '(', .quotedString, .token, .keyword "eq"])).outcome
        ⟨"ä('b' or", 2⟩).2 = ⟨"ä('b' or", 2⟩ := by
  have aligned : (Scanner.mk "ä('b' or" 2).IsAligned :=
    Scanner.isAligned_iff.mpr ⟨['ä'], by decide +kernel, by decide⟩
  exact ⟨aligned, (rewinds_or_goes_on (.attempt _) nofun aligned).1 (by decide +kernel)⟩

/-- The places of a run over a text go on from its start, each from the one before it. -/
theorem onward_run (text : String) (steps : List Matcher) :
    List.IsChain Scanner.Onward
      (Scanner.start text :: (run (.start text) steps).map Prod.snd) := by
  have aligned := Scanner.isAligned_start text
  -- Each reader starts where the one before it left off, wherever that is.
  generalize Scanner.start text = s at aligned ⊢
  induction steps generalizing s with
  | nil => exact .singleton s
  | cons step rest ih =>
    have one := onward_apply step aligned
    exact .cons_cons one (ih _ one.aligned)

end Matcher

end EdmQuery
