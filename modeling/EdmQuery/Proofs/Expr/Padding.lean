import Mathlib
import EdmQuery.Proofs.Expr.Glyphs
import EdmQuery.Proofs.Text.Span

/-! Places that blanks stand behind, and readings there that go on as they would without them. -/

namespace EdmQuery

open Text Recognizer

namespace Cursor

/-- A place has the text of another one, and blanks behind it. -/
def Pads (c d : Cursor) : Prop :=
  ∃ tail, (∀ b ∈ tail, isBlank b = true) ∧ c.rest = d.rest ++ tail

/-- Readings at two places fail both, or find the same in front of less than so many characters. -/
inductive Paired {α : Type} (n : Nat) : Read α → Read α → Prop where
  | ok {a : α} {next behind : Cursor} (pads : next.Pads behind) (less : behind.rest.length < n) :
      Paired n (.ok (a, next)) (.ok (a, behind))
  | error (e e' : ExpressionError) : Paired n (.error e) (.error e')

section

variable {c d : Cursor} {p : Char → Bool} {r : Recognizer} {n : Nat}

/-- Blanks in front are skipped at both places. -/
theorem Pads.skipBlanks (pads : c.Pads d) : c.skipBlanks.Pads d.skipBlanks := by
  obtain ⟨tail, blank, whole⟩ := pads
  rw [Pads, rest_skipBlanks, rest_skipBlanks, whole, List.dropWhile_append]
  split
  · rename_i none_
    rw [List.isEmpty_iff] at none_
    refine ⟨[], nofun, ?_⟩
    rw [none_, List.dropWhile_eq_nil_iff.mpr blank]
    rfl
  · exact ⟨tail, blank, rfl⟩

/-- Some characters are taken at both places. -/
theorem Pads.advance (pads : c.Pads d) (within : n ≤ d.rest.length) :
    (c.advance n).Pads (d.advance n) := by
  obtain ⟨tail, blank, whole⟩ := pads
  refine ⟨tail, blank, ?_⟩
  rw [Cursor.advance, Cursor.advance, whole, List.drop_append_of_le_length within]

/-- Where no blank comes next, the next character is the same. -/
theorem Pads.peek (pads : c.Pads d) (visible : Stops isBlank c.rest) : c.peek = d.peek := by
  obtain ⟨tail, blank, whole⟩ := pads
  rw [whole] at visible
  rw [Cursor.peek, Cursor.peek, whole]
  -- At the end of the one text a blank of the other would be what comes next.
  cases at_ : d.rest with
  | nil =>
    cases tail with
    | nil => rfl
    | cons b tail =>
      rw [at_, List.nil_append] at visible
      cases (visible b (rfl)).symm.trans (blank b List.mem_cons_self)
  | cons e rest => rfl

/-- Behind blanks the next character is the same. -/
theorem Pads.peek_skipBlanks (pads : c.skipBlanks.Pads d.skipBlanks) :
    c.skipBlanks.peek = d.skipBlanks.peek := by
  refine pads.peek ?_
  rw [rest_skipBlanks]
  exact .dropWhile isBlank _

/-- A character that is no blank comes next at both places. -/
theorem Pads.peek_eq (pads : c.Pads d) {m : Char} (visible : isBlank m = false) :
    (c.peek == some m) = (d.peek == some m) := by
  obtain ⟨tail, blank, whole⟩ := pads
  rw [Cursor.peek, Cursor.peek, whole]
  cases d.rest with
  | nil =>
    cases tail with
    | nil => rfl
    | cons b tail =>
      have other : b ≠ m := by
        rintro same
        cases visible.symm.trans (same ▸ blank b List.mem_cons_self)
      simp [other]
  | cons e rest => rfl

/-- Both places are at the end, or neither is. -/
theorem Pads.isFinished (pads : c.skipBlanks.Pads d.skipBlanks) : c.isFinished = d.isFinished := by
  have same := pads.peek_skipBlanks
  rw [Cursor.peek, Cursor.peek] at same
  rw [Cursor.isFinished, Cursor.isFinished]
  cases at_ : c.skipBlanks.rest <;> cases at_' : d.skipBlanks.rest <;> simp_all

/-- A recognizer that keeps to a class without blanks finds the same at both places. -/
theorem Pads.found (pads : c.Pads d) (keeps : Keeps p r)
    (dark : ∀ b, isBlank b = true → p b = false) : r c.rest = r d.rest := by
  obtain ⟨tail, blank, whole⟩ := pads
  rw [whole]
  exact keeps.blind (fun b next => dark b (blank b (List.mem_of_head? next))) _

/-- What a recognizer matches is read at both places. -/
theorem Pads.paired (pads : c.Pads d) (keeps : Keeps p r) (advances : Advances r)
    (dark : ∀ b, isBlank b = true → p b = false) (expected : String) :
    Paired d.rest.length (c.recognize r expected) (d.recognize r expected) := by
  rw [recognize, recognize, pads.found keeps dark]
  cases found : r d.rest with
  | none => exact .error _ _
  | some n =>
    -- The match is in front of the blanks at both places.
    obtain ⟨within, -⟩ := keeps.inside found
    have some_ := advances found
    have same : c.ahead n = d.ahead n := by
      obtain ⟨tail, blank, whole⟩ := pads
      rw [ahead, ahead, whole, keeps.take_append found]
    simp only [same]
    refine .ok (pads.advance within) ?_
    rw [Cursor.advance, List.length_drop]
    omega

/-- A bounded reading is that of a bounded match. -/
theorem bounded_eq_recognize (c : Cursor) (r : Recognizer) (expected : String) :
    c.bounded r expected = c.recognize r.bounded expected :=
  bounded_eq r expected

/-- A name is read at both places. -/
theorem Pads.identifier (pads : c.Pads d) : Paired d.rest.length c.identifier d.identifier :=
  pads.paired keeps_identifier advances_identifier isGlyph_of_isBlank _

/-- A word is read at both places. -/
theorem Pads.keyword (pads : c.Pads d) (word : String) (glyphs : word.toList.all isNameChar = true)
    (some_ : word.toList ≠ []) : Paired d.rest.length (c.keyword word) (d.keyword word) := by
  have letters : ∀ c ∈ word.toList, isGlyph c = true :=
    fun c mem => isGlyph_of_isNameChar (List.all_eq_true.mp glyphs c mem)
  rw [Cursor.keyword, Cursor.keyword, bounded_eq_recognize, bounded_eq_recognize]
  -- The look at the character behind the word is part of the recognizer.
  exact pads.paired ((Keeps.tag letters).bounded fun _ => isGlyph_of_isNameChar)
    (Advances.tag some_).bounded isGlyph_of_isBlank _

/-- A character that is no blank is read at both places. -/
theorem Pads.char (pads : c.Pads d) {m : Char} (visible : isBlank m = false) :
    Paired d.rest.length (c.char m) (d.char m) := by
  -- The class is that of all characters but blanks.
  refine pads.paired (p := fun b => !isBlank b) (.mark ?_) (.one _) ?_ _
  · rw [visible]
    rfl
  · intro b blank
    rw [blank]
    rfl

/-- A bare word of a search is read at both places. -/
theorem Pads.searchWord (pads : c.Pads d) : Paired d.rest.length c.searchWord d.searchWord := by
  refine pads.paired (p := fun b => !isBlank b) (.run ?_) (.run _) ?_ _
  · intro b word
    simp only [Bool.and_eq_true] at word
    exact word.1.1.1
  · intro b blank
    rw [blank]
    rfl

end

section

variable {chars tail found content : List Char} {n m : Nat}

/-- A phrase in double quotes has some of the characters behind its first quote. -/
theorem doubleQuoted_within (read : doubleQuoted chars found n = some (content, m)) :
    n < m ∧ m ≤ n + chars.length := by
  fun_induction doubleQuoted chars found n with
  | case1 => cases read
  | case2 c rest found n ih =>
    have := ih read
    simp only [List.length_cons]
    omega
  | case3 => cases read
  | case4 =>
    cases read
    simp only [List.length_cons]
    omega
  | case5 c rest found n apart backslash other ih =>
    have := ih read
    simp only [List.length_cons]
    omega

/-- Without a quote there is no phrase in quotes. -/
theorem doubleQuoted_none (plain : '"' ∉ tail) (found : List Char) (n : Nat) :
    doubleQuoted tail found n = none := by
  fun_induction doubleQuoted tail found n with
  | case1 => rfl
  | case2 c rest found n ih => exact ih fun mem => plain (by simp [mem])
  | case3 => rfl
  | case4 c rest found n apart backslash quote => exact absurd (by simp [eq_of_beq quote]) plain
  | case5 c rest found n apart backslash other ih => exact ih fun mem => plain (by simp [mem])

/-- A phrase ends where it does, whatever without quotes stands behind it. -/
theorem doubleQuoted_append (plain : '"' ∉ tail) (chars found : List Char) (n : Nat) :
    doubleQuoted (chars ++ tail) found n = doubleQuoted chars found n := by
  fun_induction doubleQuoted chars found n with
  | case1 found n => exact doubleQuoted_none plain found n
  | case2 c rest found n ih => exact ih
  | case3 c rest found n apart backslash =>
    -- A backslash at the end keeps a blank as it is, but no quote follows.
    rw [beq_iff_eq] at backslash
    subst backslash
    cases rest with
    | nil =>
      cases tail with
      | nil => rfl
      | cons b tail => exact doubleQuoted_none (fun mem => plain (List.mem_cons_of_mem b mem)) _ _
    | cons e rest => exact (apart e rest rfl rfl).elim
  | case4 c rest found n apart backslash quote =>
    rw [List.cons_append, doubleQuoted.eq_3 _ _ _ _ ?_, if_neg backslash, if_pos quote]
    rintro e behind rfl
    exact absurd rfl backslash
  | case5 c rest found n apart backslash other ih =>
    rw [List.cons_append, doubleQuoted.eq_3 _ _ _ _ ?_, if_neg backslash, if_neg other, ih]
    rintro e behind rfl
    exact absurd rfl backslash

/-- A closing parenthesis is found where it is, whatever blanks stand behind it. -/
theorem closing_append (blank : ∀ c ∈ tail, isBlank c = true) (chars : List Char) (depth : Nat)
    (inString : Bool) (n : Nat) :
    closing (chars ++ tail) depth inString n = closing chars depth inString n := by
  -- Blanks are only reached when the parenthesis has not been found, and are none themselves.
  have inert : ∀ c ∈ tail, Scan.isInert c = true :=
    fun c mem => Scan.isInert_of_isBlank (blank c mem)
  fun_induction closing chars depth inString n with
  | case1 depth inString n =>
    have none_ := closing_through (Scan.through_inert inert ⟨depth, inString⟩) [] n
    rwa [List.append_nil] at none_
  | case2 c rest depth inString n quote ih =>
    simp only [List.cons_append, closing.eq_def (c :: _), if_pos quote]
    exact ih
  | case3 c rest depth inString n quote opening ih =>
    simp only [List.cons_append, closing.eq_def (c :: _), if_neg quote, if_pos opening]
    exact ih
  | case4 c rest inString n quote opening closes =>
    simp only [List.cons_append, closing.eq_def (c :: _), if_neg quote, if_neg opening,
      if_pos closes]
  | case5 c rest inString n quote opening closes depth ih =>
    simp only [List.cons_append, closing.eq_def (c :: _), if_neg quote, if_neg opening,
      if_pos closes]
    exact ih
  | case6 c rest depth inString n quote opening closes ih =>
    simp only [List.cons_append, closing.eq_def (c :: _), if_neg quote, if_neg opening,
      if_neg closes]
    exact ih

end

section

variable {c d : Cursor}

/-- A character that was read stands in front of what is behind it. -/
theorem char_ok {c next : Cursor} {m : Char} {text : String} (read : c.char m = .ok (text, next)) :
    c.rest = m :: next.rest := by
  obtain ⟨n, found, -, rfl⟩ := recognize_ok read
  obtain ⟨rfl, e, rest, at_, same⟩ := one_some found
  rw [advance, at_, eq_of_beq same]
  rfl

/-- A phrase in double quotes is read at both places. -/
theorem Pads.doubleQuotedString (pads : c.Pads d) :
    Paired d.rest.length c.doubleQuotedString d.doubleQuotedString := by
  -- The opening quote is there at both places or at neither.
  have opened := pads.char (m := '"') rfl
  rw [Cursor.doubleQuotedString, Cursor.doubleQuotedString, delimited, delimited]
  cases first : c.char '"' with
  | error e =>
    rw [first] at opened
    generalize d.char '"' = second at opened ⊢
    cases opened
    exact .error _ _
  | ok found =>
    obtain ⟨text, next⟩ := found
    cases second : d.char '"' with
    | error e =>
      rw [first, second] at opened
      cases opened
    | ok found =>
      obtain ⟨text', behind⟩ := found
      rw [first, second] at opened
      cases opened with
      | ok pads' less =>
        -- No quote is among the blanks, and so the phrase ends in front of them or not at all.
        obtain ⟨tail, blank, whole⟩ := pads'
        have plain : '"' ∉ tail := fun mem => absurd (blank _ mem) (by decide)
        simp only [char_ok first, char_ok second, List.drop_one, List.tail_cons, whole,
          doubleQuoted_append plain]
        cases quoted : doubleQuoted behind.rest [] 1 with
        | none => exact .error _ _
        | some found =>
          obtain ⟨content, n⟩ := found
          obtain ⟨positive, within⟩ := doubleQuoted_within quoted
          have length : d.rest.length = behind.rest.length + 1 := by
            rw [char_ok second, List.length_cons]
          refine .ok (pads.advance (by omega)) ?_
          rw [Cursor.advance, List.length_drop, List.length_cons]
          omega

/-- A text in parentheses is read at both places. -/
theorem Pads.matchingParenthesis (pads : c.Pads d) :
    Paired d.rest.length c.matchingParenthesis d.matchingParenthesis := by
  -- The opening parenthesis is there at both places or at neither.
  have opened := pads.char (m := '(') rfl
  rw [Cursor.matchingParenthesis, Cursor.matchingParenthesis]
  generalize c.char '(' = first at opened ⊢
  generalize d.char '(' = second at opened ⊢
  cases opened with
  | error => exact .error _ _
  | @ok a next behind pads less =>
    obtain ⟨tail, blank, whole⟩ := id pads
    simp only [whole, closing_append blank]
    cases closed : closing behind.rest 0 false 0 with
    | none => exact .error _ _
    | some n =>
      -- The parenthesis itself is one of the characters in front of the blanks.
      obtain ⟨front, rest, at_, same, -⟩ := closing_some closed
      have within : n + 1 ≤ behind.rest.length := by
        rw [at_, List.length_append, List.length_cons]
        omega
      have text : next.ahead n = behind.ahead n := by
        rw [ahead, ahead, whole, List.take_append_of_le_length (by omega)]
      simp only [text]
      refine .ok (pads.advance within) ?_
      rw [Cursor.advance, List.length_drop]
      omega

end

end Cursor

end EdmQuery
