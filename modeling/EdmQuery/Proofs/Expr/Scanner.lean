import Mathlib
import EdmQuery.Expr.Scanner
import EdmQuery.Proofs.Expr.Padding
import EdmQuery.Proofs.Expr.Spans

/-! Steps over a text and its byte offset, which read what is read at the place in the text. -/

namespace EdmQuery

open Text

namespace Text

/-- The bytes of a text are those of its characters. -/
theorem utf8ByteSize_eq_byteLength (text : String) :
    text.utf8ByteSize = byteLength text.toList := by
  -- The library adds up the same character sizes in the other order.
  have same (chars : List Char) : String.utf8Len chars = byteLength chars := by
    induction chars with
    | nil => rfl
    | cons c chars ih => rw [String.utf8Len_cons, byteLength, ih, Nat.add_comm]
  rw [← same, ← String.utf8ByteSize_ofList, String.ofList_toList]

/-- Behind the bytes of its front stands the rest of a text. -/
theorem charsFrom_append (front rest : List Char) :
    ExpressionError.charsFrom (front ++ rest) (byteLength front) = rest := by
  -- Each character of the front is passed with all its bytes, so none is ever cut.
  induction front with
  | nil => cases rest <;> rfl
  | cons c front ih =>
    have inside : ¬ c.utf8Size + byteLength front < c.utf8Size := by omega
    have behind : c.utf8Size + byteLength front = 0 → False := by
      have positive := c.utf8Size_pos
      omega
    rw [List.cons_append, byteLength, ExpressionError.charsFrom.eq_3 _ _ _ behind, if_neg inside,
      Nat.add_sub_cancel_left, ih]

end Text

namespace Cursor

/-- Two moves go as far as one over the characters of both. -/
theorem advance_advance (c : Cursor) (n m : Nat) :
    (c.advance n).advance m = c.advance (n + m) := by
  rw [advance, advance, advance, List.drop_drop, List.take_add, byteLength_append, Nat.add_assoc]

/-- A text in single quotes is as long wherever its characters are counted from. -/
theorem singleQuoted_succ (chars found : List Char) (n : Nat) :
    singleQuoted chars found (n + 1)
      = (singleQuoted chars found n).map fun (found, m) => (found, m + 1) := by
  -- The count is handed on and nothing is decided by it.
  fun_induction singleQuoted chars found n with
  | case1 => rfl
  | case2 rest found n ih => exact ih
  | case3 c rest found n apart quote =>
    rw [singleQuoted.eq_3 _ _ _ _ apart, if_pos quote]
    rfl
  | case4 c rest found n apart other ih => rw [singleQuoted.eq_3 _ _ _ _ apart, if_neg other, ih]

/-- A phrase in double quotes is as long wherever its characters are counted from. -/
theorem doubleQuoted_succ (chars found : List Char) (n : Nat) :
    doubleQuoted chars found (n + 1)
      = (doubleQuoted chars found n).map fun (found, m) => (found, m + 1) := by
  -- Here as well the count is only handed on.
  fun_induction doubleQuoted chars found n with
  | case1 => rfl
  | case2 c rest found n ih => exact ih
  | case3 c rest found n apart stray =>
    rw [doubleQuoted.eq_3 _ _ _ _ apart, if_pos stray]
    rfl
  | case4 c rest found n apart plain quote =>
    rw [doubleQuoted.eq_3 _ _ _ _ apart, if_neg plain, if_pos quote]
    rfl
  | case5 c rest found n apart plain other ih =>
    rw [doubleQuoted.eq_3 _ _ _ _ apart, if_neg plain, if_neg other, ih]

end Cursor

namespace Scanner

variable {s next : Scanner} {α β : Type}

/-- The offset lies in the text and not inside one of its characters. -/
def IsAligned (s : Scanner) : Prop :=
  (⟨s.offset⟩ : String.Pos.Raw).IsValid s.text

/-- Between two characters stand as many bytes as the characters before it take. -/
theorem isAligned_iff :
    s.IsAligned ↔ ∃ front, s.text.toList = front ++ s.rest ∧ s.offset = byteLength front := by
  constructor
  · -- A valid position splits the text, and its bytes are those of the first part.
    intro aligned
    obtain ⟨front, back, whole, offset⟩ := String.Pos.Raw.isValid_iff_exists_append.mp aligned
    have bytes : s.offset = byteLength front.toList := by
      rw [← utf8ByteSize_eq_byteLength]
      exact congrArg String.Pos.Raw.byteIdx offset
    refine ⟨front.toList, ?_, bytes⟩
    rw [rest, bytes, whole, String.toList_append, charsFrom_append]
  · rintro ⟨front, whole, offset⟩
    refine String.Pos.Raw.isValid_iff_exists_append.mpr
      ⟨String.ofList front, String.ofList s.rest, ?_, ?_⟩
    · rw [← String.ofList_append, ← whole, String.ofList_toList]
    · rw [String.rawEndPos, utf8ByteSize_eq_byteLength, String.toList_ofList, offset]

/-- The start of a text is not inside a character. -/
theorem isAligned_start (text : String) : (start text).IsAligned :=
  isAligned_iff.mpr ⟨[], (charsFrom_append [] text.toList).symm, rfl⟩

section

variable {front : List Char} {place : Cursor} {n : Nat}

/-- The offset behind characters that stand at it lies between characters as well. -/
theorem IsAligned.reached (aligned : s.IsAligned) (reaches : s.cursor.Reaches front place) :
    IsAligned ⟨s.text, place.offset⟩ := by
  -- What stood before the first offset and what was passed stand before the second.
  obtain ⟨before, whole, offset⟩ := isAligned_iff.mp aligned
  obtain ⟨ahead, behind⟩ := reaches
  refine String.Pos.Raw.isValid_iff_exists_append.mpr
    ⟨String.ofList (before ++ front), String.ofList place.rest, ?_, ?_⟩
  · rw [← String.ofList_append, List.append_assoc, ← ahead]
    exact String.ofList_toList.symm.trans (congrArg String.ofList whole)
  · rw [String.rawEndPos, utf8ByteSize_eq_byteLength, String.toList_ofList, byteLength_append,
      ← offset, behind]
    rfl

/-- So does the offset behind any number of the next characters. -/
theorem IsAligned.advance (aligned : s.IsAligned) (n : Nat) : (s.advance n).IsAligned :=
  aligned.reached (s.cursor.reaches_advance n)

/-- Behind so many characters the others are left. -/
theorem cursor_advance (aligned : s.IsAligned) (n : Nat) :
    (s.advance n).cursor = s.cursor.advance n := by
  obtain ⟨front, whole, offset⟩ := isAligned_iff.mp aligned
  refine congrArg (Cursor.mk _) ?_
  -- The text is what stands before the offset, what is passed over and what is left.
  rw [← List.take_append_drop n s.rest, ← List.append_assoc] at whole
  rw [rest, advance, offset, ← byteLength_append, whole, charsFrom_append]
  rfl

/-- Two moves go as far as one over the characters of both. -/
theorem advance_advance (aligned : s.IsAligned) (n m : Nat) :
    (s.advance n).advance m = s.advance (n + m) := by
  -- The offset is that of the place, for which this is known.
  show Scanner.mk s.text ((s.advance n).cursor.advance m).offset = _
  rw [cursor_advance aligned, Cursor.advance_advance]
  rfl

end

section

variable {reader : Reader α} {a : α} {e : ExpressionError}

/-- A step may look at where it stands. -/
theorem outcome_get_bind (behind : Scanner → Reader β) (s : Scanner) :
    (get >>= behind).outcome s = (behind s).outcome s :=
  rfl

/-- What follows a move starts where it went. -/
theorem outcome_set_bind (next : Scanner) (behind : Reader β) (s : Scanner) :
    (set next >>= fun _ => behind).outcome s = behind.outcome next :=
  rfl

/-- What is known already is found anywhere. -/
theorem outcome_pure (a : α) (s : Scanner) : (pure a : Reader α).outcome s = (.ok a, s) :=
  rfl

/-- What was found is handed on. -/
theorem outcome_bind_ok (found : reader.outcome s = (.ok a, next)) (behind : α → Reader β) :
    (reader >>= behind).outcome s = (behind a).outcome next := by
  unfold Reader.outcome at *
  rw [ExceptT.run_bind, StateT.run_bind, found]
  rfl

/-- A refusal ends what was to follow. -/
theorem outcome_bind_error (refused : reader.outcome s = (.error e, next))
    (behind : α → Reader β) : (reader >>= behind).outcome s = (.error e, next) := by
  unfold Reader.outcome at *
  rw [ExceptT.run_bind, StateT.run_bind, refused]
  rfl

/-- What was found needs no other step. -/
theorem outcome_tryCatch_ok (found : reader.outcome s = (.ok a, next))
    (other : ExpressionError → Reader α) : (tryCatch reader other).outcome s = (.ok a, next) := by
  unfold Reader.outcome at *
  rw [ExceptT.run_tryCatch, StateT.run_bind, found]
  rfl

/-- The other step starts where the refusal stopped. -/
theorem outcome_tryCatch_error (refused : reader.outcome s = (.error e, next))
    (other : ExpressionError → Reader α) :
    (tryCatch reader other).outcome s = (other e).outcome next := by
  unfold Reader.outcome at *
  rw [ExceptT.run_tryCatch, StateT.run_bind, refused]
  rfl

/-- What was found is changed, and not where it was found. -/
theorem outcome_map (change : α → β) (reader : Reader α) (s : Scanner) :
    (change <$> reader).outcome s = ((reader.outcome s).1.map change, (reader.outcome s).2) := by
  unfold Reader.outcome
  rw [ExceptT.run_map, StateT.run_map]
  rfl

/-- Between characters a refusal is that at the place in the text. -/
theorem outcome_refuse (aligned : s.IsAligned) (message : String) :
    (refuse message : Reader α).outcome s = (.error (s.cursor.error message), s) := by
  obtain ⟨front, whole, offset⟩ := isAligned_iff.mp aligned
  -- The offset is not behind the end of the text, to which a fault would be moved back.
  have within : s.offset ≤ byteLength s.text.toList := by
    rw [whole, byteLength_append, offset]
    exact Nat.le_add_right _ _
  show (Except.error (ExpressionError.before (min s.offset _) _ _), s) = _
  rw [Nat.min_eq_left within]
  rfl

/-- What is refused in an attempt moves nothing. -/
theorem outcome_attempt_error (refused : reader.outcome s = (.error e, next)) :
    (attempt reader).outcome s = (.ok none, s) := by
  -- The first offset was kept and is set again, wherever the refusal stopped.
  have none_ : (some <$> reader).outcome s = (.error e, next) := by rw [outcome_map, refused]; rfl
  rw [attempt, outcome_get_bind, outcome_tryCatch_error none_, outcome_set_bind, outcome_pure]

/-- What is found in an attempt is found where it is. -/
theorem outcome_attempt_ok (found : reader.outcome s = (.ok a, next)) :
    (attempt reader).outcome s = (.ok (some a), next) := by
  have some_ : (some <$> reader).outcome s = (.ok (some a), next) := by rw [outcome_map, found]; rfl
  rw [attempt, outcome_get_bind, outcome_tryCatch_ok some_]

/-- What is found is found in front of the earlier offset as well. -/
theorem outcome_orReturnTo_ok (start : Scanner) (found : reader.outcome s = (.ok a, next)) :
    (orReturnTo start reader).outcome s = (.ok a, next) :=
  outcome_tryCatch_ok found _

/-- A refusal goes back to the earlier offset. -/
theorem outcome_orReturnTo_error (start : Scanner) (refused : reader.outcome s = (.error e, next)) :
    (orReturnTo start reader).outcome s = (.error e, start) := by
  rw [orReturnTo, outcome_tryCatch_error refused, outcome_set_bind]
  rfl

end

/-- A step at the next place finds what a reading finds and leaves off where that does; where the
reading is refused so is the step, for the same reason, and the place is the first one again. -/
def FollowsFrom (s next : Scanner) (reader : Reader α) (read : Read α) : Prop :=
  (∃ e, read = .error e ∧ reader.outcome next = (.error e, s)) ∨
    ∃ a n, read = .ok (a, s.cursor.advance n) ∧ reader.outcome next = (.ok a, s.advance n)

/-- A step finds what a reading of the parser finds here, and moves nothing where it is refused. -/
abbrev Follows (s : Scanner) (reader : Reader α) (read : Read α) : Prop :=
  s.FollowsFrom s reader read

section

variable {reader : Reader α} {read : Read α} {whole : Read β} {n : Nat}

/-- A step that goes back before it is refused follows a refusal at the first place. -/
theorem followsFrom_refuse (aligned : s.IsAligned) (next : Scanner) (message : String) :
    s.FollowsFrom next (do set s; refuse message : Reader α)
      (.error (s.cursor.error message)) := by
  -- The place of the fault is the one that is set and not the one that was reached.
  refine .inl ⟨s.cursor.error message, rfl, ?_⟩
  rw [outcome_set_bind, outcome_refuse aligned]

/-- A step that moves behind some characters follows a reading that does. -/
theorem followsFrom_advance (aligned : s.IsAligned) (n m : Nat) (a : α) :
    s.FollowsFrom (s.advance n) (do set ((s.advance n).advance m); return a)
      (.ok (a, s.cursor.advance (n + m))) := by
  -- The second move counts from where the first one ends.
  refine .inr ⟨a, n + m, rfl, ?_⟩
  rw [outcome_set_bind, advance_advance aligned, outcome_pure]

/-- A step that only says what was found leaves the place where it was reached. -/
theorem followsFrom_pure (n : Nat) (a : α) :
    s.FollowsFrom (s.advance n) (pure a) (.ok (a, s.cursor.advance n)) :=
  .inr ⟨a, n, rfl, rfl⟩

/-- A step that looks at the place it has reached follows what it follows there. -/
theorem followsFrom_get {behind : Scanner → Reader α}
    (follows : s.FollowsFrom next (behind next) read) :
    s.FollowsFrom next (do let reached ← get; behind reached) read := by
  rwa [FollowsFrom, outcome_get_bind]

/-- Two steps follow a reading that is refused with the first and goes on like the second. -/
theorem Follows.andThen (one : s.Follows reader read) {more : Scanner → α → Reader β}
    (refused : ∀ e, read = .error e → whole = .error e)
    (behind : ∀ a n, read = .ok (a, s.cursor.advance n) →
      s.FollowsFrom (s.advance n) (more s a) whole) :
    s.Follows (do let start ← get; let a ← reader; more start a) whole := by
  rw [Follows, FollowsFrom, outcome_get_bind]
  obtain ⟨e, fault, outcome⟩ | ⟨a, n, found, outcome⟩ := one
  · -- The first step has moved nothing, and the second is not taken.
    exact .inl ⟨e, refused e fault, outcome_bind_error outcome _⟩
  · rw [outcome_bind_ok outcome]
    exact behind a n found

/-- A step with a way back follows, behind another, a reading that it follows where it starts. -/
theorem followsFrom_orReturnTo (aligned : s.IsAligned)
    (follows : (s.advance n).Follows reader read) : s.FollowsFrom (s.advance n)
      (orReturnTo s reader) read := by
  obtain ⟨e, fault, refused⟩ | ⟨a, m, reads, found⟩ := follows
  · exact .inl ⟨e, fault, outcome_orReturnTo_error s refused⟩
  · -- What was passed before the step and what it takes are counted together.
    rw [cursor_advance aligned, Cursor.advance_advance] at reads
    rw [advance_advance aligned] at found
    exact .inr ⟨a, n + m, reads, outcome_orReturnTo_ok s found⟩

/-- A step of which something is made follows a reading of which the same is made. -/
theorem FollowsFrom.map (follows : s.FollowsFrom next reader read) (change : α → β) :
    s.FollowsFrom next (do let a ← reader; return change a)
      (read.map fun (a, behind) => (change a, behind)) := by
  obtain ⟨e, rfl, refused⟩ | ⟨a, n, rfl, found⟩ := follows
  · exact .inl ⟨e, rfl, outcome_bind_error refused _⟩
  · exact .inr ⟨change a, n, rfl, outcome_bind_ok found _⟩

end

namespace Follows

/-- Behind a move the next character is that of the place. -/
theorem peek_advance (aligned : s.IsAligned) (n : Nat) :
    (s.advance n).peek = (s.cursor.advance n).peek := by
  rw [← cursor_advance aligned]
  rfl

/-- A recognizer moves behind what it matches. -/
theorem recognize (aligned : s.IsAligned) (class_ : Recognizer) (expected : String) :
    s.Follows (recognize class_ expected) (s.cursor.recognize class_ expected) := by
  -- Both match the same characters, those from the offset on.
  rw [Scanner.recognize, Cursor.recognize]
  cases match_ : class_ s.rest with
  | none =>
    refine .inl ⟨s.cursor.error s!"expected {expected}", ?_, ?_⟩
    · rw [show class_ s.cursor.rest = none from match_]
    · rw [outcome_get_bind, match_]
      exact outcome_refuse aligned _
  | some n =>
    refine .inr ⟨s.cursor.ahead n, n, ?_, ?_⟩
    · rw [show class_ s.cursor.rest = some n from match_]
    · rw [outcome_get_bind, match_]
      rfl

/-- What runs into a name is given back. -/
theorem bounded (aligned : s.IsAligned) (class_ : Recognizer) (expected : String) :
    s.Follows (bounded class_ expected) (s.cursor.bounded class_ expected) := by
  rw [Scanner.bounded, Cursor.bounded]
  refine andThen (recognize aligned class_ expected) (fun e fault => ?_) fun text n found => ?_
  · rw [fault]
  refine followsFrom_get ?_
  rw [found]
  dsimp only
  -- Whether a name goes on is seen behind the match, which is given back if it does.
  rw [← peek_advance aligned]
  by_cases goesOn : (s.advance n).peek.any Recognizer.isNameChar
  · rw [if_pos goesOn, if_pos goesOn]
    exact followsFrom_refuse aligned _ _
  · rw [if_neg goesOn, if_neg goesOn]
    exact followsFrom_pure n text

/-- A character that was read is the only one that was passed. -/
theorem char_advance {expected : Char} {text : String} {n : Nat}
    (found : s.cursor.char expected = .ok (text, s.cursor.advance n)) :
    s.cursor.advance n = s.cursor.advance 1 ∧ s.advance n = s.advance 1 := by
  obtain ⟨k, match_, -, same⟩ := Cursor.recognize_ok found
  obtain ⟨rfl, -⟩ := Recognizer.one_some match_
  exact ⟨same, congrArg (Scanner.mk s.text) (congrArg Cursor.offset same)⟩

/-- A text in quotes ends behind its closing quote, and is given back where it has none. -/
theorem delimited (aligned : s.IsAligned) (quote : Char)
    {content : List Char → List Char → Nat → Option (List Char × Nat)}
    (counts : ∀ chars,
      content chars [] 1 = (content chars [] 0).map fun (found, n) => (found, n + 1)) :
    s.Follows (delimited quote content) (s.cursor.delimited quote content) := by
  rw [Scanner.delimited, Cursor.delimited]
  -- The opening quote is one character, and the content is looked for behind it.
  refine andThen (recognize aligned _ _) (fun e fault => ?_) fun text n found => ?_
  · rw [Cursor.char, fault]
  refine followsFrom_get ?_
  obtain ⟨-, moved⟩ := char_advance found
  have inner : s.cursor.rest.drop 1 = (s.advance 1).rest :=
    congrArg Cursor.rest (cursor_advance aligned 1).symm
  rw [Cursor.char, found, moved, inner]
  dsimp only
  -- The parser counts the opening quote, which the step has passed already.
  rw [counts]
  cases content (s.advance 1).rest [] 0 with
  | none => exact followsFrom_refuse aligned _ _
  | some taken =>
    obtain ⟨found, m⟩ := taken
    rw [Option.map_some]
    dsimp only
    rw [Nat.add_comm m 1]
    exact followsFrom_advance aligned 1 m _

/-- A text in single quotes is read as by the parser. -/
theorem quotedString (aligned : s.IsAligned) : s.Follows quotedString s.cursor.quotedString :=
  delimited aligned '\'' fun chars => Cursor.singleQuoted_succ chars [] 0

/-- A phrase in double quotes is read as by the parser. -/
theorem doubleQuotedString (aligned : s.IsAligned) :
    s.Follows doubleQuotedString s.cursor.doubleQuotedString :=
  delimited aligned '"' fun chars => Cursor.doubleQuoted_succ chars [] 0

/-- A number that runs into a name is given back, in digits or as one of those with names. -/
theorem number (aligned : s.IsAligned) : s.Follows number s.cursor.number := by
  rw [Scanner.number, Cursor.number, Follows, FollowsFrom]
  -- The attempt at a name moves nothing where it is refused, so that digits are read at the start.
  obtain ⟨e, fault, refused⟩ | ⟨text, n, read, found⟩ :=
    bounded aligned Recognizer.specialDouble "a number"
  · rw [fault, outcome_bind_ok (outcome_attempt_error refused)]
    exact (bounded aligned Recognizer.number "a number").map fun text =>
      (Cursor.numberKind text.toList, text)
  · rw [read]
    exact .inr ⟨(.double, text), n, rfl, outcome_bind_ok (outcome_attempt_ok found) _⟩

/-- A duration without quotes gives its keyword back. -/
theorem duration (aligned : s.IsAligned) : s.Follows duration s.cursor.duration := by
  rw [Scanner.duration, Cursor.duration]
  -- The quotes are looked for behind the keyword, and refused ones give it back.
  refine andThen (recognize aligned _ _) (fun e fault => ?_) fun word n found => ?_
  · rw [fault]
  · rw [found]
    dsimp only
    rw [← cursor_advance aligned]
    exact followsFrom_orReturnTo aligned (quotedString (aligned.advance n))

/-- An enumeration value gives its name back where no quotes follow it or they do not end. -/
theorem enumLiteral (aligned : s.IsAligned) : s.Follows enumLiteral s.cursor.enumLiteral := by
  rw [Scanner.enumLiteral, Cursor.enumLiteral]
  refine andThen (recognize aligned _ _) (fun e fault => ?_) fun name n found => ?_
  · rw [Cursor.qualifiedIdentifier, fault]
  refine followsFrom_get ?_
  rw [Cursor.qualifiedIdentifier, found]
  dsimp only
  -- Without a quote the name is given back at once, and else where the quotes do not end.
  rw [← peek_advance aligned]
  by_cases quote : (s.advance n).peek == some '\''
  · rw [if_pos quote, if_pos quote, ← cursor_advance aligned]
    have members := followsFrom_orReturnTo aligned (quotedString (aligned.advance n))
    exact members.map fun members => (name, members)
  · rw [if_neg quote, if_neg quote]
    exact followsFrom_refuse aligned _ _

/-- Parentheses that are not closed are given back. -/
theorem matchingParenthesis (aligned : s.IsAligned) :
    s.Follows matchingParenthesis s.cursor.matchingParenthesis := by
  rw [Scanner.matchingParenthesis, Cursor.matchingParenthesis]
  -- Both scan the characters behind the opening parenthesis.
  refine andThen (recognize aligned _ _) (fun e fault => ?_) fun text n found => ?_
  · rw [Cursor.char, fault]
  refine followsFrom_get ?_
  obtain ⟨place, moved⟩ := char_advance found
  have inner : (s.cursor.advance 1).rest = (s.advance 1).rest :=
    congrArg Cursor.rest (cursor_advance aligned 1).symm
  rw [Cursor.char, found, moved, place]
  dsimp only
  rw [inner]
  cases Cursor.closing (s.advance 1).rest 0 false 0 with
  | none => exact followsFrom_refuse aligned _ _
  | some n =>
    dsimp only
    rw [Cursor.advance_advance, Cursor.ahead, inner]
    exact followsFrom_advance aligned 1 (n + 1) _

end Follows

end Scanner

end EdmQuery
