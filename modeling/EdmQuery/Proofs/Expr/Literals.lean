import Mathlib
import EdmQuery.Expr.Literal
import EdmQuery.Proofs.Calendar.Duration
import EdmQuery.Proofs.Expr.Numerals
import EdmQuery.Proofs.Expr.Timestamps

/-! The literals of values are read as tokens that write the values. -/

namespace EdmQuery

open Text Number Calendar Recognizer

section

variable {word rest : List Char}

/-- Letters that are no word before a quote are no duration. -/
theorem ne_duration_of_run {run : List Char} (letters : (word ++ rest).takeWhile isNameChar = run)
    (other : run ≠ ['d', 'u', 'r', 'a', 't', 'i', 'o', 'n']) (more : List Char) :
    word ++ rest ≠ "duration".toList ++ '\'' :: more := by
  intro same
  have quote : Stops isNameChar ('\'' :: more) := .cons rfl
  have all : "duration".toList.all isNameChar = true := by decide
  rw [same, quote.takeWhile_append (List.all_eq_true.mp all)] at letters
  exact other letters.symm

/-- The words for truth values and null, with the kinds of their tokens. -/
def keywords : List (List Char × TokenKind) :=
  [(['t', 'r', 'u', 'e'], .boolean), (['f', 'a', 'l', 's', 'e'], .boolean),
    (['n', 'u', 'l', 'l'], .null)]

/-- The words for truth values and null are read as such. -/
theorem Lexes.keyword {kind : TokenKind} (listed : (word, kind) ∈ keywords)
    (ends : Follows afterOperand rest) : Lexes word (kind, String.ofList word) rest := by
  have name : Stops isNameChar rest := ends.stops (by decide)
  have facts : ∀ entry ∈ keywords, entry.1.all isNameChar = true ∧ entry.1.head?.any startsName = true ∧
      '-' ∉ entry.1 ∧ entry.1 ≠ ['I', 'N', 'F'] ∧ entry.1 ≠ ['N', 'a', 'N'] ∧
        entry.1 ≠ ['d', 'u', 'r', 'a', 't', 'i', 'o', 'n'] := by
    simp only [keywords, List.forall_mem_cons]
    decide
  obtain ⟨letters, starts, plain, noInf, noNan, noDuration⟩ := facts (word, kind) listed
  have run := name.takeWhile_append (List.all_eq_true.mp letters)
  have other {tagged : List Char} (all : tagged.all isNameChar = true) (apart : word ≠ tagged) :
      (tag tagged).bounded (word ++ rest) = none :=
    bounded_tag_eq_none (List.all_eq_true.mp all) (run.symm ▸ apart)
  have found := (Takes.tag word rest).bounded name
  rw [Takes] at found
  obtain ⟨first, more, rfl⟩ : ∃ first more, word = first :: more := by
    cases word with
    | nil => cases starts
    | cons first more => exact ⟨first, more, rfl⟩
  have letter : startsName first = true := starts
  refine of_class letter (isBlank_of_startsName letter) (by decide) fun offset =>
      ⟨offset, offset + byteLength (first :: more), ?_⟩
  rw [← List.cons_append, Cursor.wordToken_letters offset rfl letter plain (ends.stops (by decide))
      (ends.head_ne (by decide)) (run.symm ▸ noInf) (run.symm ▸ noNan),
    Cursor.duration_eq_none offset (ne_duration_of_run run noDuration)]
  simp only [keywords, List.mem_cons, List.not_mem_nil, or_false, Prod.mk.injEq] at listed
  generalize first :: more = word at *
  have own : Cursor.taken ⟨offset, word ++ rest⟩ kind word.length
      = (⟨kind, String.ofList word, offset⟩, ⟨offset + byteLength word, rest⟩) := by
    rw [Cursor.taken, Cursor.ahead, Cursor.advance, List.take_left, List.drop_left]
  -- The words are tried one after the other, and only the right one is found.
  rcases listed with ⟨rfl, rfl⟩ | ⟨rfl, rfl⟩ | ⟨rfl, rfl⟩
  · simp only [found, Option.map_some, Option.none_or, Option.some_or, own]
  · simp only [found, other (by decide : ['t', 'r', 'u', 'e'].all isNameChar = true) (by decide),
      Option.map_none, Option.map_some, Option.none_or, Option.some_or, own]
  · simp only [found, other (by decide : ['t', 'r', 'u', 'e'].all isNameChar = true) (by decide),
      other (by decide : ['f', 'a', 'l', 's', 'e'].all isNameChar = true) (by decide),
      Option.map_none, Option.map_some, Option.none_or, Option.some_or, own]

/-- A quote in a text is the only thing that doubling changes. -/
theorem doubled_eq {chars : List Char} (plain : '\'' ∉ chars) : doubled '\'' chars = chars := by
  induction chars with
  | nil => rfl
  | cons c rest ih =>
    rw [List.mem_cons, not_or] at plain
    rw [doubled, if_neg (by simpa using Ne.symm plain.1), ih plain.2]

/-- A text in quotes without others inside is read up to its closing quote. -/
theorem Cursor.quotedString_plain {content : String} (plain : '\'' ∉ content.toList)
    (single : rest.head? ≠ some '\'') (offset : Nat) : ∃ behind,
      (⟨offset, '\'' :: (content.toList ++ '\'' :: rest)⟩ : Cursor).quotedString
        = .ok (content, ⟨behind, rest⟩) := by
  obtain ⟨behind, read⟩ := Cursor.quotedString_doubled content.toList single offset
  rw [doubled_eq plain, String.ofList_toList] at read
  exact ⟨behind, read⟩

/-- A duration is read from its quotes. -/
theorem Lexes.duration (d : Duration) (ends : Follows afterOperand rest) :
    Lexes ("duration'" ++ d.toText ++ "'").toList (.duration, d.toText) rest := by
  have single : rest.head? ≠ some '\'' := ends.head_ne (by decide)
  have quote {p : Char → Bool} (outside : p '\'' = false) (chars : List Char) :
      Stops p ('\'' :: chars) := .cons outside
  have text : ("duration'" ++ d.toText ++ "'").toList
      = ['d', 'u', 'r', 'a', 't', 'i', 'o', 'n'] ++ '\'' :: (d.toText.toList ++ ['\'']) := by
    have opening : "duration'".toList = ['d', 'u', 'r', 'a', 't', 'i', 'o', 'n', '\''] := rfl
    have closing : "'".toList = ['\''] := rfl
    simp [opening, closing]
  have letters : ['d', 'u', 'r', 'a', 't', 'i', 'o', 'n'].all isNameChar = true := by decide
  have run (chars : List Char) :=
    (quote (p := isNameChar) rfl chars).takeWhile_append (List.all_eq_true.mp letters)
  rw [text, List.cons_append]
  refine of_class (p := startsName) rfl rfl (by decide) fun offset => ?_
  have shape : 'd' :: (['u', 'r', 'a', 't', 'i', 'o', 'n'] ++ '\'' :: (d.toText.toList ++ ['\'']) ++ rest)
      = ['d', 'u', 'r', 'a', 't', 'i', 'o', 'n'] ++ '\'' :: (d.toText.toList ++ '\'' :: rest) := by
    simp
  obtain ⟨behind, read⟩ := Cursor.quotedString_plain (d.not_mem_toText rfl (by decide)) single
    (offset + 8)
  have found : (⟨offset, ['d', 'u', 'r', 'a', 't', 'i', 'o', 'n'] ++
        '\'' :: (d.toText.toList ++ '\'' :: rest)⟩ : Cursor).duration
      = .ok (d.toText, ⟨behind, rest⟩) :=
    read
  refine ⟨offset, behind, ?_⟩
  rw [shape, Cursor.wordToken_letters offset rfl rfl (by decide) (quote rfl _) (by simp)
    (by rw [run]; decide) (by rw [run]; decide), found]
  rfl

/-- The name of an enumeration and its quoted members are read as one token. -/
theorem Lexes.enum {name : List Char} {members : String} (legible : Word name)
    (apart : name ≠ "duration".toList) (plain : '\'' ∉ members.toList)
    (ends : Follows afterOperand rest) :
    Lexes (name ++ '\'' :: (members.toList ++ ['\'']))
      (.enum, String.ofList (name ++ '\'' :: (members.toList ++ ['\'']))) rest := by
  have single : rest.head? ≠ some '\'' := ends.head_ne (by decide)
  have quote : Stops isNameChar ('\'' :: (members.toList ++ '\'' :: rest)) := .cons rfl
  have found := legible.1.takes quote (by simp)
  have shape : name ++ '\'' :: (members.toList ++ '\'' :: rest)
      = name ++ '\'' :: (members.toList ++ ['\'']) ++ rest := by
    simp
  -- The text of the token is all that was read, up to the closing quote.
  have spelling (offset : Nat) : ∃ behind, (⟨offset, name ++ '\'' :: (members.toList ++ ['\'']) ++ rest⟩ :
        Cursor).enumSpelling
      = .ok (String.ofList (name ++ '\'' :: (members.toList ++ ['\''])), ⟨behind, rest⟩) := by
    obtain ⟨behind, read⟩ := Cursor.quotedString_plain plain single (offset + byteLength name)
    refine ⟨behind, ?_⟩
    have length : (name ++ '\'' :: (members.toList ++ ['\'']) ++ rest).length - rest.length
        = (name ++ '\'' :: (members.toList ++ ['\''])).length := by
      rw [List.length_append, Nat.add_sub_cancel]
    rw [← shape, Cursor.enumSpelling, Cursor.enumLiteral, Cursor.qualifiedIdentifier, Cursor.recognize,
      found]
    simp only [Cursor.advance, List.take_left, List.drop_left, Cursor.peek, List.head?_cons,
      beq_self_eq_true, if_true, read, Except.map]
    rw [shape, length, List.take_left]
  obtain ⟨first, more, rfl, letter⟩ := legible.1.head
  rw [List.cons_append]
  refine of_class letter (isBlank_of_startsName letter) (by decide) fun offset => ?_
  obtain ⟨behind, spelled⟩ := spelling offset
  refine ⟨offset, behind, ?_⟩
  rw [← List.cons_append, ← List.cons_append]
  have word := Cursor.wordToken_word offset legible rfl quote (by simp) (by simp)
    fun same => absurd same apart
  rw [shape, spelled] at word
  exact word

end

end EdmQuery
