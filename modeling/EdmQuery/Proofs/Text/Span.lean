import Mathlib
import EdmQuery.Text.Span

/-! Texts without the blanks at their ends, as parts of the texts that they were cut from. -/

namespace EdmQuery.Text

variable {c : Char} {chars front back : List Char}

/-- A blank is no visible character. -/
theorem ne_of_isBlank {mark : Char} (blank : isBlank c = true) (visible : isBlank mark = false) :
    c ≠ mark := by
  rintro rfl
  cases visible.symm.trans blank

/-- What is cut off the end of a text are blanks. -/
theorem eq_trimEnd_append (chars : List Char) :
    ∃ tail, chars = trimEnd chars ++ tail ∧ ∀ c ∈ tail, isBlank c = true := by
  refine ⟨(chars.reverse.takeWhile isBlank).reverse, ?_, fun c mem => ?_⟩
  · rw [trimEnd, ← List.reverse_append, List.takeWhile_append_dropWhile, List.reverse_reverse]
  · exact List.mem_takeWhile_imp (List.mem_reverse.mp mem)

/-- What is cut off both ends of a text are blanks. -/
theorem dropWhile_eq_trimChars_append (chars : List Char) :
    ∃ tail, chars.dropWhile isBlank = trimChars chars ++ tail ∧ ∀ c ∈ tail, isBlank c = true :=
  eq_trimEnd_append (trimStart chars)

/-- A text without the blanks at its ends is no longer. -/
theorem length_trimChars_le (chars : List Char) : (trimChars chars).length ≤ chars.length := by
  obtain ⟨tail, whole, -⟩ := dropWhile_eq_trimChars_append chars
  have shorter := (List.dropWhile_suffix isBlank (l := chars)).length_le
  rw [whole, List.length_append] at shorter
  omega

/-- Blanks at the end of a text are cut off behind a character that is none. -/
theorem trimEnd_append_cons (visible : isBlank c = false) (front back : List Char) :
    trimEnd (front ++ c :: back) = front ++ c :: trimEnd back := by
  rw [trimEnd, trimEnd, List.reverse_append, List.reverse_cons, List.append_assoc,
    List.singleton_append, List.dropWhile_append]
  -- From the back, the cut ends at the character at the latest.
  split
  · rename_i none_
    rw [List.isEmpty_iff] at none_
    rw [none_, List.dropWhile_cons_of_neg (by simp [visible])]
    simp
  · simp

/-- A text whose end is cut is cut no further. -/
theorem trimEnd_trimEnd (chars : List Char) : trimEnd (trimEnd chars) = trimEnd chars := by
  rw [trimEnd, trimEnd, List.reverse_reverse, List.dropWhile_idempotent]

/-- A blank at the start is cut off the end too where nothing else is left. -/
theorem trimEnd_cons (blank : isBlank c = true) (chars : List Char) :
    trimEnd (c :: chars) = if trimEnd chars = [] then [] else c :: trimEnd chars := by
  rw [trimEnd, trimEnd, List.reverse_cons, List.dropWhile_append]
  split
  · rename_i none_
    rw [List.isEmpty_iff] at none_
    rw [none_, List.dropWhile_cons_of_pos blank]
    rfl
  · rename_i some_
    rw [List.isEmpty_iff, ← List.reverse_eq_nil_iff] at some_
    rw [if_neg some_, List.reverse_append]
    rfl

/-- A blank at the start is cut off. -/
theorem trimChars_cons (blank : isBlank c = true) (chars : List Char) :
    trimChars (c :: chars) = trimChars chars := by
  rw [trimChars, trimStart, List.dropWhile_cons_of_pos blank]
  rfl

/-- It is the same which end of a text is cut first. -/
theorem trimChars_trimEnd (chars : List Char) : trimChars (trimEnd chars) = trimChars chars := by
  -- Blanks at the start are gone on both sides; the first other character ends both cuts.
  induction chars with
  | nil => rfl
  | cons c rest ih =>
    by_cases blank : isBlank c = true
    · rw [trimEnd_cons blank, trimChars_cons blank, ← ih]
      split
      · rename_i none_
        rw [none_]
      · exact trimChars_cons blank _
    · have stay (chars : List Char) : trimChars (c :: chars) = c :: trimEnd chars := by
        rw [trimChars, trimStart, List.dropWhile_cons_of_neg blank]
        exact trimEnd_append_cons (Bool.not_eq_true _ ▸ blank) [] chars
      have kept : trimEnd (c :: rest) = c :: trimEnd rest :=
        trimEnd_append_cons (Bool.not_eq_true _ ▸ blank) [] rest
      rw [kept, stay, stay, trimEnd_trimEnd]

/-- A text without blanks at its ends has none to cut off. -/
theorem trimChars_trimChars (chars : List Char) :
    trimChars (trimChars chars) = trimChars chars := by
  conv_lhs => rw [trimChars.eq_def chars, trimChars_trimEnd]
  rw [trimChars, trimStart, trimStart, List.dropWhile_idempotent, trimChars, trimStart]

/-- A text without blanks is cut nowhere. -/
theorem trimChars_eq_self (visible : ∀ c ∈ chars, isBlank c = false) : trimChars chars = chars := by
  have kept {chars : List Char} (visible : ∀ c ∈ chars, isBlank c = false) :
      chars.dropWhile isBlank = chars :=
    List.dropWhile_eq_self_iff.mpr fun some_ => by simp [visible _ (List.getElem_mem some_)]
  rw [trimChars, trimStart, kept visible, trimEnd, kept, List.reverse_reverse]
  exact fun c mem => visible c (List.mem_reverse.mp mem)

/-- Cutting off blanks leaves every character that is none. -/
theorem mem_trimChars (mem : c ∈ chars) (visible : isBlank c = false) : c ∈ trimChars chars := by
  obtain ⟨tail, whole, blank⟩ := dropWhile_eq_trimChars_append chars
  rw [← List.takeWhile_append_dropWhile (p := isBlank) (l := chars), whole, List.mem_append,
    List.mem_append] at mem
  rcases mem with front | kept | back
  · cases visible.symm.trans (List.mem_takeWhile_imp front)
  · exact kept
  · cases visible.symm.trans (blank c back)

section

variable {separator : Char}

/-- A text has a piece, however short. -/
theorem splitChars_ne_nil (separator : Char) (chars : List Char) :
    splitChars separator chars ≠ [] := by
  cases chars with
  | nil => exact nofun
  | cons c rest =>
    rw [splitChars]
    split
    · exact nofun
    · split <;> exact nofun

/-- Pieces are the same without the blanks behind them where those of the rest are. -/
theorem splitChars_cons_trimEnd {rest : List Char}
    (same : (splitChars separator chars).map trimEnd = (splitChars separator rest).map trimEnd)
    (c : Char) : (splitChars separator (c :: chars)).map trimEnd
      = (splitChars separator (c :: rest)).map trimEnd := by
  rw [splitChars, splitChars]
  split
  · rw [List.map_cons, List.map_cons, same]
  -- The character is put in front of the first piece on both sides.
  obtain ⟨piece, pieces, some_⟩ := List.exists_cons_of_ne_nil (splitChars_ne_nil separator chars)
  obtain ⟨piece', pieces', some_'⟩ := List.exists_cons_of_ne_nil (splitChars_ne_nil separator rest)
  rw [some_, some_', List.map_cons, List.map_cons, List.cons.injEq] at same
  rw [some_, some_', List.map_cons, List.map_cons, same.2]
  congr 1
  by_cases blank : isBlank c = true
  · rw [trimEnd_cons blank, trimEnd_cons blank, same.1]
  · have kept (chars : List Char) : trimEnd (c :: chars) = c :: trimEnd chars :=
      trimEnd_append_cons (Bool.not_eq_true _ ▸ blank) [] chars
    rw [kept, kept, same.1]

/-- Pieces without the blanks behind them are those of a text without the blanks behind it. -/
theorem splitChars_trimEnd (visible : isBlank separator = false) (chars : List Char) :
    (splitChars separator (trimEnd chars)).map trimEnd
      = (splitChars separator chars).map trimEnd := by
  induction chars with
  | nil => rfl
  | cons c rest ih =>
    rw [← splitChars_cons_trimEnd ih]
    by_cases blank : isBlank c = true
    · have other : (c == separator) = false :=
        beq_eq_false_iff_ne.mpr (ne_of_isBlank blank visible)
      rw [trimEnd_cons blank]
      split
      · -- Blanks are one piece, of which nothing is left.
        rename_i none_
        have gone : trimEnd [c] = [] := by rw [trimEnd_cons blank]; rfl
        have single : splitChars separator [c] = [[c]] := by rw [splitChars, other]; rfl
        rw [none_, single, List.map_singleton, gone]
        rfl
      · rfl
    · rw [show trimEnd (c :: rest) = c :: trimEnd rest from
        trimEnd_append_cons (Bool.not_eq_true _ ▸ blank) [] rest]

/-- Pieces without the blanks around them are those of a text without the blanks around it. -/
theorem splitChars_trimChars (visible : isBlank separator = false) (chars : List Char) :
    (splitChars separator (trimChars chars)).map trimChars
      = (splitChars separator chars).map trimChars := by
  have twice (pieces : List (List Char)) :
      pieces.map trimChars = (pieces.map trimEnd).map trimChars := by
    rw [List.map_map]
    exact List.map_congr_left fun piece _ => (trimChars_trimEnd piece).symm
  rw [trimChars.eq_def chars, twice, splitChars_trimEnd visible, ← twice, trimStart]
  -- What is left are the blanks in front, which belong to the first piece.
  induction chars with
  | nil => rfl
  | cons c rest ih =>
    by_cases blank : isBlank c = true
    · have other : (c == separator) = false :=
        beq_eq_false_iff_ne.mpr (ne_of_isBlank blank visible)
      obtain ⟨piece, pieces, some_⟩ :=
        List.exists_cons_of_ne_nil (splitChars_ne_nil separator rest)
      rw [List.dropWhile_cons_of_pos blank, ih, splitChars, other, some_]
      simp only [Bool.false_eq_true, if_false, List.map_cons, trimChars_cons blank]
    · rw [List.dropWhile_cons_of_neg blank]

end

end EdmQuery.Text
