import Mathlib
import EdmQuery.Proofs.Expr.Lexing

/-! Texts put together from pieces that are read as one token each. -/

namespace EdmQuery

open Text

namespace Cursor

/-- Characters with their quotes doubled are read up to the quote behind them. -/
theorem singleQuoted_doubled (content : List Char) {rest : List Char}
    (single : rest.head? ≠ some '\'') (found : List Char) (n : Nat) :
    singleQuoted (doubled '\'' content ++ '\'' :: rest) found n
      = some (found.reverse ++ content, n + (doubled '\'' content).length + 1) := by
  induction content generalizing found n with
  | nil =>
    rw [doubled, List.nil_append, singleQuoted.eq_3, if_pos (beq_self_eq_true _), List.append_nil, List.length_nil]
    rintro more - rfl
    exact single rfl
  | cons c content ih =>
    rw [doubled]
    split
    · rename_i quote
      rw [eq_of_beq quote, List.cons_append, List.cons_append, singleQuoted, ih, List.reverse_cons,
        List.append_assoc, List.singleton_append, List.length_cons, List.length_cons]
      congr 2
      omega
    · rename_i other
      rw [List.cons_append, singleQuoted.eq_3, if_neg other, ih, List.reverse_cons,
        List.append_assoc, List.singleton_append, List.length_cons]
      · congr 2
        omega
      · rintro more rfl
        exact absurd rfl other

/-- A text between quotes is read with its quotes single again. -/
theorem quotedString_doubled (content : List Char) {rest : List Char}
    (single : rest.head? ≠ some '\'') (offset : Nat) : ∃ behind,
      (⟨offset, '\'' :: (doubled '\'' content ++ '\'' :: rest)⟩ : Cursor).quotedString
        = .ok (String.ofList content, ⟨behind, rest⟩) := by
  have opened : Recognizer.mark '\'' ('\'' :: (doubled '\'' content ++ '\'' :: rest)) = some 1 :=
    rfl
  have read := singleQuoted_doubled content single [] 1
  have behind : ('\'' :: (doubled '\'' content ++ '\'' :: rest)).drop
      (1 + (doubled '\'' content).length + 1) = rest := by
    rw [List.drop_succ_cons, Nat.add_comm 1, List.drop_length_add_append]
    rfl
  rw [quotedString, delimited, char, recognize]
  simp only [opened, List.drop_one, List.tail_cons, read, advance, behind]
  exact ⟨_, rfl⟩

end Cursor

/-- What a token says, wherever it stands. -/
abbrev Lexeme := TokenKind × String

/-- What a token says. -/
def Token.lexeme (t : Token) : Lexeme :=
  (t.kind, t.text)

/-- Whether a text starts with one of some characters, or is at its end. -/
def Follows (marks rest : List Char) : Prop :=
  ∀ c ∈ rest.head?, c ∈ marks

/-- What may follow a name. -/
def afterName : List Char :=
  [' ', ')', ',', '(', '/', ':']

/-- What may follow an expression. -/
def afterOperand : List Char :=
  [' ', ')', ',']

namespace Follows

variable {marks more rest : List Char}

/-- Nothing follows the last piece of a text. -/
theorem nil : Follows marks [] :=
  nofun

/-- A mark follows. -/
theorem cons {c : Char} (mem : c ∈ marks) : Follows marks (c :: rest) := by
  rintro d ⟨⟩
  exact mem

/-- More may follow where fewer do. -/
theorem mono (follows : Follows marks rest) (subset : marks ⊆ more) : Follows more rest :=
  fun c mem => subset (follows c mem)

/-- Marks outside a class stop it. -/
theorem stops (follows : Follows marks rest) {p : Char → Bool} (outside : marks.all (!p ·) = true) :
    Stops p rest := by
  intro c mem
  simpa using List.all_eq_true.mp outside c (follows c mem)

/-- Another character does not follow. -/
theorem head_ne (follows : Follows marks rest) {c : Char} (other : c ∉ marks) :
    rest.head? ≠ some c :=
  fun mem => other (follows c mem)

end Follows

/-- A piece of text is read as a token that says something, in front of what follows. -/
def Lexes (piece : List Char) (l : Lexeme) (rest : List Char) : Prop :=
  ∀ offset, ∃ position behind, (⟨offset, piece ++ rest⟩ : Cursor).nextToken
    = .ok (some ⟨l.1, l.2, position⟩, ⟨behind, rest⟩)

namespace Lexes

section

variable {piece rest : List Char} {l : Lexeme}

/-- A token may stand behind a blank. -/
theorem blank (read : Lexes piece l rest) : Lexes (' ' :: piece) l rest := by
  intro offset
  obtain ⟨position, behind, read⟩ := read (offset + 1)
  refine ⟨position, behind, ?_⟩
  have skip : (⟨offset, ' ' :: (piece ++ rest)⟩ : Cursor).skipBlanks
      = (⟨offset + 1, piece ++ rest⟩ : Cursor).skipBlanks := by
    have size : ' '.utf8Size = 1 := rfl
    have blank : isBlank ' ' = true := rfl
    simp only [Cursor.skipBlanks, Cursor.advance, List.takeWhile_cons_of_pos blank,
      List.length_cons, List.take_succ_cons, List.drop_succ_cons, byteLength, size]
    rw [Nat.add_assoc]
  rw [Cursor.nextToken] at read
  rw [List.cons_append, Cursor.nextToken, skip]
  exact read

/-- A token starts at its first character, where that is no blank. -/
theorem of_tokenFrom {first : Char} {more : List Char} (visible : isBlank first = false)
    (read : ∀ offset, ∃ position behind,
      (⟨offset, first :: (more ++ rest)⟩ : Cursor).tokenFrom first
        = .ok (⟨l.1, l.2, position⟩, ⟨behind, rest⟩)) : Lexes (first :: more) l rest := by
  intro offset
  obtain ⟨position, behind, read⟩ := read offset
  refine ⟨position, behind, ?_⟩
  have stay : (⟨offset, first :: more ++ rest⟩ : Cursor).skipBlanks
      = ⟨offset, first :: (more ++ rest)⟩ := by
    have none : isBlank first ≠ true := by simp [visible]
    simp [Cursor.skipBlanks, Cursor.advance, List.takeWhile_cons_of_neg none, byteLength]
  rw [Cursor.nextToken, stay, Cursor.peek, List.head?_cons]
  simp only [read, Except.map]

/-- Punctuation is read character by character. -/
theorem punctuation {c : Char} {kind : TokenKind} (known : TokenKind.punctuation? c = some kind)
    (visible : isBlank c = false) (rest : List Char) : Lexes [c] (kind, c.toString) rest := by
  refine of_tokenFrom visible fun offset => ⟨offset, offset + byteLength [c], ?_⟩
  rw [Cursor.tokenFrom, known]
  rfl

/-- A token that is neither punctuation nor text is a word. -/
theorem of_wordToken {first : Char} {more : List Char} (visible : isBlank first = false)
    (plain : TokenKind.punctuation? first = none) (unquoted : first ≠ '\'')
    (read : ∀ offset, ∃ position behind,
      (⟨offset, first :: (more ++ rest)⟩ : Cursor).wordToken first
        = some (⟨l.1, l.2, position⟩, ⟨behind, rest⟩)) : Lexes (first :: more) l rest := by
  refine of_tokenFrom visible fun offset => ?_
  obtain ⟨position, behind, read⟩ := read offset
  refine ⟨position, behind, ?_⟩
  rw [Cursor.tokenFrom, plain]
  simp only [beq_iff_eq, if_neg unquoted, read]

/-- What starts with a visible character of a class without punctuation is a word. -/
theorem of_class {p : Char → Bool} {first : Char} {more : List Char} (mem : p first = true)
    (visible : isBlank first = false)
    (outside : ['(', ')', ',', '/', ':', '\''].all (!p ·) = true)
    (read : ∀ offset, ∃ position behind,
      (⟨offset, first :: (more ++ rest)⟩ : Cursor).wordToken first
        = some (⟨l.1, l.2, position⟩, ⟨behind, rest⟩)) : Lexes (first :: more) l rest := by
  have other {mark : Char} (listed : mark ∈ ['(', ')', ',', '/', ':', '\'']) : first ≠ mark := by
    rintro rfl
    have none := List.all_eq_true.mp outside first listed
    rw [mem] at none
    cases none
  have plain : TokenKind.punctuation? first = none := by
    have opening : first ≠ '(' := other (by simp)
    have closing : first ≠ ')' := other (by simp)
    have comma : first ≠ ',' := other (by simp)
    have slash : first ≠ '/' := other (by simp)
    have colon : first ≠ ':' := other (by simp)
    simp [TokenKind.punctuation?, opening, closing, comma, slash, colon]
  exact of_wordToken visible plain (other (by simp)) read

/-- A word is read as a name in front of what may follow one. -/
theorem word (name : Recognizer.Word piece) (follows : Follows afterName rest) :
    Lexes piece (.identifier, String.ofList piece) rest := by
  have stops : Stops Recognizer.isNameChar rest := follows.stops (by decide)
  have last : rest.head? ≠ some '.' := follows.head_ne (by decide)
  have unquoted : rest.head? ≠ some '\'' := follows.head_ne (by decide)
  have hyphen : rest.head? ≠ some '-' := follows.head_ne (by decide)
  obtain ⟨first, more, rfl, letter⟩ := name.1.head
  refine of_class letter (isBlank_of_startsName letter) (by decide) fun offset =>
    ⟨offset, offset + byteLength (first :: more), ?_⟩
  rw [← List.cons_append, Cursor.wordToken_word offset name rfl stops last hyphen fun _ => unquoted,
    Cursor.enumSpelling_eq_none offset name.1 stops last unquoted, Option.none_or, Cursor.taken,
    Cursor.ahead, Cursor.advance, List.take_left, List.drop_left]

/-- A minus in front of a parenthesis is an operator. -/
theorem minus (rest : List Char) : Lexes ['-'] (.minus, "-") ('(' :: rest) := by
  refine of_wordToken rfl rfl (by decide) fun offset => ⟨offset, offset + 1, ?_⟩
  rfl

/-- A text is read from its quotes. -/
theorem string (content : String) (single : rest.head? ≠ some '\'') :
    Lexes (quoted '\'' content).toList (.string, content) rest := by
  have text : (quoted '\'' content).toList = '\'' :: (doubled '\'' content.toList ++ ['\'']) :=
    String.toList_ofList
  rw [text]
  refine of_tokenFrom rfl fun offset => ?_
  obtain ⟨behind, read⟩ := Cursor.quotedString_doubled content.toList single offset
  refine ⟨offset, behind, ?_⟩
  have plain : TokenKind.punctuation? '\'' = none := rfl
  rw [Cursor.tokenFrom, plain]
  simp only [beq_self_eq_true, if_true, List.append_assoc, List.singleton_append, read, Except.map,
    String.ofList_toList]

end

end Lexes

/-- A text is read as tokens that say something, one after another, in front of what follows. -/
inductive Reads : List Char → List Lexeme → List Char → Prop where
  | nil (rest : List Char) : Reads [] [] rest
  | cons {piece front rest : List Char} {l : Lexeme} {others : List Lexeme} (some_ : piece ≠ [])
      (first : Lexes piece l (front ++ rest)) (behind : Reads front others rest) :
      Reads (piece ++ front) (l :: others) rest

namespace Reads

variable {front back rest piece : List Char} {l : Lexeme} {ls others : List Lexeme}

/-- A text of one token. -/
theorem one (some_ : piece ≠ []) (read : Lexes piece l rest) : Reads piece [l] rest := by
  have reads : Reads (piece ++ []) [l] rest := .cons some_ read (.nil rest)
  rwa [List.append_nil] at reads

/-- Texts are read one after the other. -/
theorem append (first : Reads front ls (back ++ rest)) (second : Reads back others rest) :
    Reads (front ++ back) (ls ++ others) rest := by
  generalize after : back ++ rest = behind at first
  induction first with
  | nil => exact second
  | cons some_ read _ ih =>
    subst after
    rw [List.append_assoc, List.cons_append]
    refine .cons some_ ?_ (ih rfl)
    rwa [List.append_assoc]

/-- A text of tokens is read as those tokens. -/
theorem tokensUpTo {chars : List Char} (reads : Reads chars ls []) {fuel : Nat}
    (enough : chars.length < fuel) (offset : Nat) :
    ∃ tokens, (⟨offset, chars⟩ : Cursor).tokensUpTo fuel = .ok tokens ∧
      tokens.map Token.lexeme = ls := by
  generalize after : ([] : List Char) = rest at reads
  induction reads generalizing fuel offset with
  | nil rest =>
    obtain ⟨fuel, rfl⟩ : ∃ k, fuel = k + 1 := ⟨fuel - 1, by omega⟩
    exact ⟨[], rfl, rfl⟩
  | @cons piece front _ l others some_ read _ ih =>
    subst after
    obtain ⟨fuel, rfl⟩ : ∃ k, fuel = k + 1 := ⟨fuel - 1, by omega⟩
    obtain ⟨position, behind, read⟩ := read offset
    rw [List.append_nil] at read
    -- A token takes a character at least, and so what is left needs less fuel.
    have shorter := List.length_pos_of_ne_nil some_
    rw [List.length_append] at enough
    have left : front.length < fuel := by omega
    obtain ⟨tokens, found, same⟩ := ih left behind rfl
    refine ⟨⟨l.1, l.2, position⟩ :: tokens, ?_, by rw [List.map_cons, same]; rfl⟩
    rw [Cursor.tokensUpTo, read]
    simp only [found, Except.map]

/-- A text that is read as tokens consists of them. -/
theorem tokenize {text : String} (reads : Reads text.toList ls []) :
    ∃ tokens, EdmQuery.tokenize text = .ok tokens ∧ tokens.map Token.lexeme = ls := by
  refine reads.tokensUpTo ?_ 0
  rw [String.length_toList]
  exact Nat.lt_succ_self _

end Reads

end EdmQuery
