import Mathlib
import EdmQuery.Proofs.Expr.Glyphs
import EdmQuery.Proofs.Expr.Lexemes

/-! Tokens as functions of the characters alone: what they say, and how many characters they take. -/

namespace EdmQuery

open Text Recognizer

/-- What a token at the front of some characters says, and the number of characters that it takes. -/
abbrev Lexer := List Char → Option (Lexeme × Nat)

namespace Lexer

/-- What a recognizer matches, as a token of a kind. -/
def spelled (kind : TokenKind) (r : Recognizer) : Lexer :=
  fun chars => (r chars).map fun n => ((kind, String.ofList (chars.take n)), n)

/-- A numeral of the kind that its spelling tells. -/
def numeral : Lexer :=
  fun chars => (Recognizer.number.bounded chars).map fun n =>
    (((Cursor.numberKind (chars.take n)).token, String.ofList (chars.take n)), n)

/-- The content of a text in single quotes, and the number of characters that it takes. -/
def quotation : List Char → Option (List Char × Nat)
  | '\'' :: rest => Cursor.singleQuoted rest [] 1
  | _ => none

/-- A text in single quotes behind a match, which says something by its spelling and content. -/
def quoted (r : Recognizer) (say : List Char → List Char → Lexeme) : Lexer :=
  fun chars => (r chars).bind fun k =>
    (quotation (chars.drop k)).map fun (content, n) => (say (chars.take (k + n)) content, k + n)

/-- A text in single quotes. -/
def text : Lexer :=
  quoted (sequence []) fun _ content => (.string, String.ofList content)

/-- A duration, quoted behind its keyword. -/
def duration : Lexer :=
  quoted (tag "duration".toList) fun _ content => (.duration, String.ofList content)

/-- An enumeration value, with its members quoted behind its name. -/
def enum : Lexer :=
  quoted Recognizer.qualifiedIdentifier fun spelling _ => (.enum, String.ofList spelling)

/-- The first of two tokens. -/
def orElse (a b : Lexer) : Lexer :=
  fun chars => (a chars).or (b chars)

/-- A token that is neither punctuation nor text. -/
def word : Lexer :=
  (spelled .guid guid.bounded).orElse <|
  (spelled .dateTimeOffset dateTimeOffset.bounded).orElse <|
  (spelled .date date.bounded).orElse <|
  (spelled .timeOfDay timeOfDay.bounded).orElse <|
  (spelled .double specialDouble.bounded).orElse <|
  numeral.orElse <|
  (spelled .minus (mark '-')).orElse <|
  duration.orElse <|
  (spelled .boolean (tag "true".toList).bounded).orElse <|
  (spelled .boolean (tag "false".toList).bounded).orElse <|
  (spelled .null (tag "null".toList).bounded).orElse <|
  enum.orElse (spelled .identifier Recognizer.qualifiedIdentifier)

/-- The token at the front of characters that do not start with a blank. -/
def token : Lexer
  | [] => none
  | first :: rest =>
    match TokenKind.punctuation? first with
    | some kind => some ((kind, first.toString), 1)
    | none => if first == '\'' then text (first :: rest) else word (first :: rest)

end Lexer

/-- What the tokens of a text say, at most so many of them, if all of it consists of tokens. -/
def lexemes : Nat → List Char → Option (List Lexeme)
  | 0, _ => some []
  | fuel + 1, chars =>
    match chars.dropWhile isBlank with
    | [] => some []
    | first :: rest =>
      (Lexer.token (first :: rest)).bind fun (l, n) =>
        (lexemes fuel ((first :: rest).drop n)).map (l :: ·)

section

variable {chars tail found content : List Char} {n m : Nat}

/-- A text in quotes closes its quote and opens nothing else. -/
theorem Cursor.singleQuoted_through (read : singleQuoted chars found n = some (content, m)) :
    ∃ front rest, chars = front ++ rest ∧ m = n + front.length ∧
      ∀ d, (⟨d, true⟩ : Scan).through front = some ⟨d, false⟩ := by
  fun_induction singleQuoted chars found n with
  | case1 => cases read
  | case2 rest found n ih =>
    -- A doubled quote closes the text and opens it again.
    obtain ⟨front, behind, rfl, rfl, closed⟩ := ih read
    refine ⟨'\'' :: '\'' :: front, behind, rfl, by simp only [List.length_cons]; omega, fun d => ?_⟩
    exact closed d
  | case3 c rest found n apart quote =>
    cases read
    rw [beq_iff_eq] at quote
    subst quote
    exact ⟨['\''], rest, rfl, rfl, fun d => rfl⟩
  | case4 c rest found n apart other ih =>
    obtain ⟨front, behind, rfl, rfl, closed⟩ := ih read
    refine ⟨c :: front, behind, rfl, by rw [List.length_cons]; omega, fun d => ?_⟩
    rw [Scan.through_cons, Scan.step, if_neg other]
    exact closed d

/-- Without a quote there is no text in quotes. -/
theorem Cursor.singleQuoted_none (plain : '\'' ∉ tail) (found : List Char) (n : Nat) :
    singleQuoted tail found n = none := by
  -- Every character is kept, and none of them closes the text.
  induction tail generalizing found n with
  | nil => rfl
  | cons c tail ih =>
    rw [List.mem_cons, not_or] at plain
    have other : ¬ (c == '\'') = true := fun quote => plain.1 (eq_of_beq quote).symm
    rw [singleQuoted.eq_3 _ _ _ _ (by rintro rest rfl; exact absurd rfl plain.1), if_neg other,
      ih plain.2]

/-- A text in quotes ends where it does, whatever without quotes stands behind it. -/
theorem Cursor.singleQuoted_append (plain : '\'' ∉ tail) (chars found : List Char) (n : Nat) :
    singleQuoted (chars ++ tail) found n = singleQuoted chars found n := by
  fun_induction singleQuoted chars found n with
  | case1 found n => exact singleQuoted_none plain found n
  | case2 rest found n ih => exact ih
  | case3 c rest found n apart quote =>
    -- The closing quote is not doubled, since no quote stands behind the characters.
    rw [List.cons_append, singleQuoted.eq_3 _ _ _ _ ?_, if_pos quote]
    rintro behind rfl same
    cases rest with
    | nil => exact plain (by rw [← List.nil_append tail, same]; exact List.mem_cons_self)
    | cons d rest =>
      cases same
      exact apart rest rfl rfl
  | case4 c rest found n apart other ih =>
    rw [List.cons_append, singleQuoted.eq_3 _ _ _ _ ?_, if_neg other, ih]
    rintro behind rfl
    exact absurd rfl other

/-- Blanks are no quotes. -/
theorem quote_not_mem_of_blank (blank : ∀ c ∈ tail, isBlank c = true) : '\'' ∉ tail :=
  fun mem => absurd (blank _ mem) (by decide)

namespace Lexer

/-- A text in quotes that was found opens nothing. -/
theorem quotation_some (read : quotation chars = some (content, n)) : 0 < n ∧ n ≤ chars.length ∧
    ∀ d, (⟨d, false⟩ : Scan).through (chars.take n) = some ⟨d, false⟩ := by
  unfold quotation at read
  split at read
  · obtain ⟨front, rest, rfl, rfl, closed⟩ := Cursor.singleQuoted_through read
    rw [Nat.add_comm, List.take_succ_cons, List.take_left, List.length_cons, List.length_append]
    exact ⟨Nat.succ_pos _, by omega, fun d => closed d⟩
  · cases read

/-- Blanks behind a text in quotes make no difference. -/
theorem quotation_append (blank : ∀ c ∈ tail, isBlank c = true) (chars : List Char) :
    quotation (chars ++ tail) = quotation chars := by
  have plain := quote_not_mem_of_blank blank
  cases chars with
  | nil =>
    rw [List.nil_append, quotation.eq_2 _ ?_]
    · rfl
    · rintro rest rfl
      exact plain List.mem_cons_self
  | cons c rest =>
    by_cases quote : c = '\''
    · subst quote
      exact Cursor.singleQuoted_append plain rest [] 1
    · have other (rest : List Char) : quotation (c :: rest) = none := by
        rw [quotation.eq_2]
        rintro rest ⟨rfl, -⟩
        exact quote rfl
      rw [List.cons_append, other, other]

end Lexer

end

/-- How many parentheses are open behind a token, if it does not close one too many. -/
def TokenKind.turn : TokenKind → Nat → Option Nat
  | .openParen, d => some (d + 1)
  | .closeParen, 0 => none
  | .closeParen, d + 1 => some d
  | _, d => some d

/-- How many parentheses are open behind tokens, if they do not close one too many. -/
def turns (d : Nat) (ls : List Lexeme) : Option Nat :=
  ls.foldlM (fun d l => l.1.turn d) d

namespace Lexer

/-- A token takes some characters, opens what its kind says, and does not see blanks behind it. -/
structure Fits (L : Lexer) : Prop where
  inside {chars : List Char} {l : Lexeme} {n : Nat} (found : L chars = some (l, n)) :
    (0 < n ∧ n ≤ chars.length) ∧ ∀ d,
      (⟨d, false⟩ : Scan).through (chars.take n) = (l.1.turn d).map (⟨·, false⟩)
  blind {tail : List Char} (blank : ∀ c ∈ tail, isBlank c = true) (chars : List Char) :
    L (chars ++ tail) = L chars

section

variable {kind : TokenKind} {r : Recognizer} {a b : Lexer}

/-- Other tokens than parentheses open nothing. -/
theorem turn_of_ne (opening : kind ≠ .openParen) (closing : kind ≠ .closeParen) (d : Nat) :
    kind.turn d = some d := by
  cases kind <;> first | rfl | contradiction

/-- A match of glyphs is a token. -/
theorem Fits.spelled (keeps : Keeps isGlyph r) (advances : Advances r)
    (opening : kind ≠ .openParen) (closing : kind ≠ .closeParen) : Fits (spelled kind r) where
  inside {chars l n} found := by
    obtain ⟨k, match_, same⟩ := Option.map_eq_some_iff.mp found
    cases same
    obtain ⟨short, glyphs⟩ := keeps.inside match_
    refine ⟨⟨advances match_, short⟩, fun d => ?_⟩
    rw [through_glyphs glyphs, turn_of_ne opening closing, Option.map_some]
  blind {tail} blank chars := by
    rw [Lexer.spelled, Lexer.spelled, keeps.blind (stops_isGlyph blank)]
    cases found : r chars with
    | none => rfl
    | some n => rw [Option.map_some, Option.map_some, keeps.take_append found]

/-- A numeral is a token. -/
theorem Fits.numeral : Fits numeral where
  inside {chars l n} found := by
    obtain ⟨k, match_, same⟩ := Option.map_eq_some_iff.mp found
    cases same
    obtain ⟨short, glyphs⟩ := keeps_number.inside (Option.filter_eq_some_iff.mp match_).1
    refine ⟨⟨?_, short⟩, fun d => ?_⟩
    · exact (advances_number.bounded) match_
    · rw [through_glyphs glyphs]
      cases Cursor.numberKind (chars.take n) <;> rfl
  blind {tail} blank chars := by
    have keeps := keeps_number.bounded fun _ => isGlyph_of_isNameChar
    rw [Lexer.numeral, Lexer.numeral, keeps.blind (stops_isGlyph blank)]
    cases found : Recognizer.number.bounded chars with
    | none => rfl
    | some n => rw [Option.map_some, Option.map_some, keeps.take_append found]

/-- A text in quotes behind a match of glyphs is a token. -/
theorem Fits.quoted (keeps : Keeps isGlyph r) {say : List Char → List Char → Lexeme}
    (quiet : ∀ spelling content d, (say spelling content).1.turn d = some d) :
    Fits (quoted r say) where
  inside {chars l n} found := by
    obtain ⟨k, match_, found⟩ := Option.bind_eq_some_iff.mp found
    obtain ⟨⟨content, m⟩, read, same⟩ := Option.map_eq_some_iff.mp found
    cases same
    -- The glyphs in front open nothing, and the quotes are closed behind them.
    obtain ⟨short, glyphs⟩ := keeps.inside match_
    obtain ⟨some_, within, closed⟩ := quotation_some read
    rw [List.length_drop] at within
    refine ⟨⟨by omega, by omega⟩, fun d => ?_⟩
    rw [List.take_add, Scan.through_append_of_eq (through_glyphs glyphs _), closed, quiet,
      Option.map_some]
  blind {tail} blank chars := by
    rw [Lexer.quoted, Lexer.quoted, keeps.blind (stops_isGlyph blank)]
    -- The quotes are looked for behind the match, with the same blanks at the end.
    cases match_ : r chars with
    | none => rfl
    | some k =>
      rw [Option.bind_some, Option.bind_some, keeps.drop_append match_, quotation_append blank]
      cases read : quotation (chars.drop k) with
      | none => rfl
      | some found =>
        obtain ⟨content, n⟩ := found
        have within := (quotation_some read).2.1
        rw [List.length_drop] at within
        have short := (keeps.inside match_).1
        have spelling : (chars ++ tail).take (k + n) = chars.take (k + n) :=
          List.take_append_of_le_length (by omega)
        simp only [Option.map_some, spelling]

/-- The first of two tokens is a token. -/
theorem Fits.orElse (first : Fits a) (second : Fits b) : Fits (a.orElse b) where
  inside found := by
    rcases Option.or_eq_some_iff.mp found with one | ⟨-, two⟩
    · exact first.inside one
    · exact second.inside two
  blind blank chars := by
    rw [Lexer.orElse, Lexer.orElse, first.blind blank, second.blind blank]

/-- There is no token without characters. -/
theorem Fits.nil (fits : Fits a) : a [] = none := by
  rw [Option.eq_none_iff_forall_not_mem]
  intro found mem
  have := (fits.inside mem).1
  rw [List.length_nil] at this
  omega

/-- A match that no name goes on behind is a token. -/
theorem Fits.bounded (keeps : Keeps isGlyph r) (advances : Advances r)
    (opening : kind ≠ .openParen) (closing : kind ≠ .closeParen) : Fits (Lexer.spelled kind r.bounded) :=
  .spelled (keeps.bounded fun _ => isGlyph_of_isNameChar) advances.bounded opening closing

/-- A keyword is a token. -/
theorem Fits.keyword {word : List Char} (glyphs : word.all isGlyph = true) (some_ : word ≠ [])
    (opening : kind ≠ .openParen) (closing : kind ≠ .closeParen) :
    Fits (Lexer.spelled kind (tag word).bounded) :=
  .bounded (.tag (List.all_eq_true.mp glyphs)) (.tag some_) opening closing

/-- A word is a token. -/
theorem fits_word : Fits word := by
  -- The order is that in which the kinds of words are tried.
  refine .orElse (.bounded keeps_guid advances_guid nofun nofun) ?_
  refine .orElse (.bounded keeps_dateTimeOffset advances_dateTimeOffset nofun nofun) ?_
  refine .orElse (.bounded keeps_date advances_date nofun nofun) ?_
  refine .orElse (.bounded keeps_timeOfDay advances_timeOfDay nofun nofun) ?_
  refine .orElse (.bounded keeps_specialDouble advances_specialDouble nofun nofun) ?_
  refine .orElse .numeral ?_
  refine .orElse (.spelled (.mark (by decide)) (.one _) nofun nofun) ?_
  refine .orElse (.quoted (.tag (List.all_eq_true.mp (by decide))) fun _ _ _ => rfl) ?_
  refine .orElse (.keyword (by decide) nofun nofun nofun) ?_
  refine .orElse (.keyword (by decide) nofun nofun nofun) ?_
  refine .orElse (.keyword (by decide) nofun nofun nofun) ?_
  refine .orElse (.quoted keeps_qualifiedIdentifier fun _ _ _ => rfl) ?_
  exact .spelled keeps_qualifiedIdentifier advances_qualifiedIdentifier nofun nofun

/-- A text in quotes is a token. -/
theorem fits_text : Fits text :=
  .quoted .nothing fun _ _ _ => rfl

/-- Punctuation opens and closes what it says. -/
theorem step_punctuation {c : Char} (known : TokenKind.punctuation? c = some kind) (d : Nat) :
    (⟨d, false⟩ : Scan).step c = (kind.turn d).map (⟨·, false⟩) := by
  unfold TokenKind.punctuation? at known
  split at known
  · rename_i opening
    cases known
    rw [eq_of_beq opening]
    rfl
  split at known
  · rename_i closing
    cases known
    rw [eq_of_beq closing]
    cases d <;> rfl
  repeat' split at known
  all_goals cases known
  all_goals
    rename_i mark
    rw [eq_of_beq mark]
    rfl

/-- What is at the front of a text is a token. -/
theorem fits_token : Fits token where
  inside {chars l n} found := by
    cases chars with
    | nil => cases found
    | cons first rest =>
      rw [token] at found
      split at found
      · rename_i kind known
        cases found
        refine ⟨⟨Nat.one_pos, Nat.le_add_left _ _⟩, fun d => ?_⟩
        rw [List.take_succ_cons, List.take_zero, Scan.through_cons, step_punctuation known]
        cases kind.turn d <;> rfl
      split at found
      · exact fits_text.inside found
      · exact fits_word.inside found
  blind {tail} blank chars := by
    cases chars with
    | nil =>
      cases tail with
      | nil => rfl
      | cons first rest =>
        -- A blank is neither punctuation nor a quote, and no word starts with it.
        have other (mark : Char) (visible : isBlank mark = false) : first ≠ mark :=
          ne_of_isBlank (blank first List.mem_cons_self) visible
        have plain : TokenKind.punctuation? first = none := by
          simp [TokenKind.punctuation?, other '(' rfl, other ')' rfl, other ',' rfl, other '/' rfl,
            other ':' rfl]
        have nothing := fits_word.blind blank []
        rw [List.nil_append, fits_word.nil] at nothing
        rw [List.nil_append, token.eq_2, plain, nothing]
        simp [other '\'' rfl, token]
    | cons first rest =>
      rw [List.cons_append, token, token, ← List.cons_append, fits_text.blind blank,
        fits_word.blind blank]

end

end Lexer

section

variable {chars tail : List Char} {ls : List Lexeme} {fuel more : Nat}

/-- Blanks in front of a text say nothing. -/
theorem lexemes_trimStart (fuel : Nat) (chars : List Char) :
    lexemes fuel (chars.dropWhile isBlank) = lexemes fuel chars := by
  cases fuel with
  | zero => rfl
  | succ fuel => rw [lexemes, lexemes, List.dropWhile_idempotent]

/-- Blanks behind a text say nothing, and neither does more fuel than there are characters. -/
theorem lexemes_append (blank : ∀ c ∈ tail, isBlank c = true) (enough : chars.length < fuel)
    (enough' : chars.length < more) : lexemes fuel (chars ++ tail) = lexemes more chars := by
  -- Every token takes a character of the text and one of either fuel.
  induction fuel generalizing more chars with
  | zero => exact absurd enough (Nat.not_lt_zero _)
  | succ fuel ih =>
    obtain ⟨more, rfl⟩ : ∃ k, more = k + 1 := ⟨more - 1, by omega⟩
    have shorter := (List.dropWhile_suffix isBlank (l := chars)).length_le
    rw [lexemes, lexemes, List.dropWhile_append]
    cases visible : chars.dropWhile isBlank with
    | nil =>
      have none_ : tail.dropWhile isBlank = [] := List.dropWhile_eq_nil_iff.mpr blank
      rw [none_]
      rfl
    | cons first rest =>
      rw [visible, List.length_cons] at shorter
      simp only [List.isEmpty_cons, Bool.false_eq_true, if_false, List.cons_append]
      rw [← List.cons_append, Lexer.fits_token.blind blank]
      cases found : Lexer.token (first :: rest) with
      | none => rfl
      | some taken =>
        obtain ⟨l, n⟩ := taken
        obtain ⟨some_, within⟩ := (Lexer.fits_token.inside found).1
        have left : ((first :: rest).drop n).length + n = rest.length + 1 := by
          rw [List.length_drop, List.length_cons] at *
          omega
        rw [Option.bind_some, Option.bind_some]
        simp only
        have fewer : ((first :: rest).drop n).length < fuel := by omega
        have fewer' : ((first :: rest).drop n).length < more := by omega
        rw [List.drop_append_of_le_length within, ih fewer fewer']

/-- A text opens and closes what its tokens do. -/
theorem through_of_lexemes (read : lexemes fuel chars = some ls) (enough : chars.length < fuel)
    (d : Nat) : (⟨d, false⟩ : Scan).through chars = (turns d ls).map (⟨·, false⟩) := by
  -- Between tokens there are blanks only, which open nothing.
  induction fuel generalizing chars ls d with
  | zero => exact absurd enough (Nat.not_lt_zero _)
  | succ fuel ih =>
    have whole := List.takeWhile_append_dropWhile (p := isBlank) (l := chars)
    have blanks : (⟨d, false⟩ : Scan).through (chars.takeWhile isBlank) = some ⟨d, false⟩ :=
      Scan.through_inert (fun _ mem => Scan.isInert_of_isBlank (List.mem_takeWhile_imp mem)) _
    rw [lexemes] at read
    rw [← whole, Scan.through_append_of_eq blanks]
    have shorter := (List.dropWhile_suffix isBlank (l := chars)).length_le
    cases visible : chars.dropWhile isBlank with
    | nil =>
      rw [visible] at read
      cases read
      rfl
    | cons first rest =>
      rw [visible] at read shorter
      obtain ⟨⟨l, n⟩, found, read⟩ := Option.bind_eq_some_iff.mp read
      obtain ⟨others, behind, rfl⟩ := Option.map_eq_some_iff.mp read
      obtain ⟨⟨some_, within⟩, turn⟩ := Lexer.fits_token.inside found
      have left : ((first :: rest).drop n).length < fuel := by
        rw [List.length_drop]
        omega
      rw [← List.take_append_drop n (first :: rest), Scan.through_append, turn d, turns,
        List.foldlM_cons]
      cases l.1.turn d with
      | none => rfl
      | some e => exact ih behind left e

end

namespace Cursor

/-- What a token says, and the characters behind it. -/
def said (found : Token × Cursor) : Lexeme × List Char :=
  (found.1.lexeme, found.2.rest)

/-- What a lexer finds, and the characters behind it. -/
def shown (L : Lexer) (chars : List Char) : Option (Lexeme × List Char) :=
  (L chars).map fun (l, n) => (l, chars.drop n)

section

variable {c next : Cursor} {first : Char} {a b : Lexer}

/-- The first of two tokens is shown. -/
theorem shown_orElse (a b : Lexer) (chars : List Char) :
    shown (a.orElse b) chars = (shown a chars).or (shown b chars) := by
  rw [shown, Lexer.orElse, Option.map_or]
  rfl

/-- A match is shown as the token that it is. -/
theorem said_taken (kind : TokenKind) (r : Recognizer) :
    ((r c.rest).map (c.taken kind)).map said = shown (.spelled kind r) c.rest := by
  rw [shown, Lexer.spelled, Option.map_map, Option.map_map]
  rfl

/-- A numeral is shown as the token that it is. -/
theorem said_numberToken : c.numberToken.map said
    = (shown (.spelled .double specialDouble.bounded) c.rest).or (shown .numeral c.rest) := by
  rw [numberToken, Option.map_or, said_taken]
  congr 1
  rw [shown, Lexer.numeral, Option.map_map, Option.map_map]
  rfl

/-- A text in quotes is read where there is one. -/
theorem quotedString_eq : c.quotedString.toOption
    = (Lexer.quotation c.rest).map fun (found, n) => (String.ofList found, c.advance n) := by
  rw [quotedString, delimited, char, recognize]
  cases at_ : c.rest with
  | nil => rfl
  | cons d rest =>
    by_cases quote : d = '\''
    · subst quote
      have opened : mark '\'' ('\'' :: rest) = some 1 := rfl
      simp only [opened, List.drop_one, List.tail_cons, Lexer.quotation]
      cases singleQuoted rest [] 1 <;> rfl
    · have missed : mark '\'' (d :: rest) = none := by simp [mark, one, quote]
      have none_ : Lexer.quotation (d :: rest) = none := by
        rw [Lexer.quotation]
        rintro rest ⟨rfl, -⟩
        exact quote rfl
      simp only [missed, none_]
      rfl

/-- A token of a reading is what was read, if something was. -/
theorem tokenOf_eq (kind : TokenKind) (read : Read String) : c.tokenOf kind read
    = read.toOption.map fun (text, next) => (⟨kind, text, c.offset⟩, next) := by
  cases read <;> rfl

/-- Two steps on are one. -/
theorem rest_advance_advance (c : Cursor) (k n : Nat) :
    ((c.advance k).advance n).rest = c.rest.drop (k + n) := by
  rw [advance, advance, List.drop_drop]

/-- A duration is shown as the token that it is. -/
theorem said_duration : (c.tokenOf .duration c.duration).map said = shown .duration c.rest := by
  rw [tokenOf_eq, duration, recognize, shown, Lexer.duration, Lexer.quoted]
  cases tag "duration".toList c.rest with
  | none => rfl
  | some k =>
    have behind : (c.advance k).rest = c.rest.drop k := rfl
    simp only [Option.bind_some]
    rw [quotedString_eq, behind]
    cases Lexer.quotation (c.rest.drop k) with
    | none => rfl
    | some found =>
      simp only [Option.map_some, said, Token.lexeme, rest_advance_advance]

/-- An enumeration value is shown as the token that it is. -/
theorem said_enum : (c.tokenOf .enum c.enumSpelling).map said = shown .enum c.rest := by
  rw [tokenOf_eq, enumSpelling, enumLiteral, Cursor.qualifiedIdentifier, recognize, shown, Lexer.enum,
    Lexer.quoted]
  cases name : Recognizer.qualifiedIdentifier c.rest with
  | none => rfl
  | some k =>
    have behind : (c.advance k).rest = c.rest.drop k := rfl
    have read := quotedString_eq (c := c.advance k)
    rw [behind] at read
    simp only [Option.bind_some]
    split
    · cases quoted : Lexer.quotation (c.rest.drop k) with
      | none =>
        rw [quoted] at read
        cases literal : (c.advance k).quotedString with
        | error e => rfl
        | ok found =>
          rw [literal] at read
          cases read
      | some found =>
        obtain ⟨content, n⟩ := found
        -- The spelling goes up to the place behind the quotes.
        have within := (Lexer.quotation_some quoted).2.1
        rw [List.length_drop] at within
        have taken : c.rest.length - (c.rest.drop (k + n)).length = k + n := by
          rw [List.length_drop]
          have := (keeps_qualifiedIdentifier.inside name).1
          omega
        rw [quoted] at read
        cases literal : (c.advance k).quotedString with
        | error e =>
          rw [literal] at read
          cases read
        | ok found =>
          rw [literal] at read
          cases read
          simp only [Except.map, Except.toOption, Option.map_some, said, Token.lexeme,
            rest_advance_advance, taken]
    · rename_i unquoted
      have none_ : Lexer.quotation (c.rest.drop k) = none := by
        rw [Lexer.quotation.eq_2]
        intro rest at_
        rw [peek, behind, at_] at unquoted
        exact unquoted rfl
      rw [none_]
      rfl

/-- A minus on its own is shown as the token that it is. -/
theorem said_minus (starts : c.rest.head? = some first)
    (others : Option (Token × Cursor)) :
    (if first == '-' then some ((⟨.minus, "-", c.offset⟩ : Token), c.advance 1) else others).map said
      = (shown (.spelled .minus (mark '-')) c.rest).or (others.map said) := by
  cases at_ : c.rest with
  | nil => rw [at_] at starts; cases starts
  | cons d rest =>
    rw [at_] at starts
    cases starts
    by_cases minus : first = '-'
    · subst minus
      have behind : (c.advance 1).rest = rest := by rw [advance, at_]; rfl
      simp only [beq_self_eq_true, if_true, Option.map_some, said, behind]
      rfl
    · have missed : mark '-' (first :: rest) = none := by simp [mark, one, minus]
      rw [if_neg (by simpa using minus), shown, Lexer.spelled, missed]
      rfl

/-- A word is shown as the token that it is. -/
theorem said_wordToken (starts : c.rest.head? = some first) :
    (c.wordToken first).map said = shown .word c.rest := by
  -- Both try the same kinds of words one after the other.
  rw [wordToken_eq]
  simp only [Lexer.word, Option.map_or, said_minus starts, shown_orElse, said_taken,
    said_numberToken, said_duration, said_enum, Option.or_assoc]

/-- A token is shown as what it is. -/
theorem said_tokenFrom {rest : List Char} (at_ : c.rest = first :: rest) :
    (c.tokenFrom first).toOption.map said = shown .token c.rest := by
  rw [at_, shown, tokenFrom, Lexer.token]
  cases known : TokenKind.punctuation? first with
  | some kind =>
    have behind : (c.advance 1).rest = rest := by rw [advance, at_]; rfl
    simp only [Except.toOption, Option.map_some, said, behind]
    rfl
  | none =>
    simp only
    split
    · have mapped {α β : Type} (f : α → β) (read : Except ExpressionError α) :
          (read.map f).toOption = read.toOption.map f := by cases read <;> rfl
      have whole : Lexer.text (first :: rest) = (Lexer.quotation (first :: rest)).map
          fun (content, n) => ((.string, String.ofList content), n) := by
        simp only [Lexer.text, Lexer.quoted, Recognizer.sequence, Option.bind_some, List.drop_zero,
          Nat.zero_add]
      rw [whole, mapped, quotedString_eq, at_, Option.map_map, Option.map_map, Option.map_map,
        ← at_]
      rfl
    · rw [← at_, ← shown, ← said_wordToken (by rw [at_]; rfl)]
      cases c.wordToken first <;> rfl

end

/-- The tokens of a text say what its lexemes are. -/
theorem lexemes_tokensUpTo (fuel : Nat) (c : Cursor) :
    (c.tokensUpTo fuel).toOption.map (·.map Token.lexeme) = lexemes fuel c.rest := by
  -- Both skip blanks and take a token, which is where they agree one by one.
  induction fuel generalizing c with
  | zero => rfl
  | succ fuel ih =>
    rw [tokensUpTo, nextToken, lexemes, ← rest_skipBlanks]
    cases at_ : c.skipBlanks.rest with
    | nil =>
      have none_ : c.skipBlanks.peek = none := by rw [peek, at_]; rfl
      simp only [none_]
      rfl
    | cons first rest =>
      have some_ : c.skipBlanks.peek = some first := by rw [peek, at_]; rfl
      have found := said_tokenFrom at_
      rw [at_] at found
      simp only [some_]
      cases read : c.skipBlanks.tokenFrom first with
      | error e =>
        rw [read] at found
        rw [Option.map_eq_none_iff.mp found.symm]
        rfl
      | ok behind =>
        rw [read] at found
        obtain ⟨⟨l, n⟩, taken, same⟩ := Option.map_eq_some_iff.mp found.symm
        obtain ⟨t, next⟩ := behind
        obtain ⟨rfl, left⟩ := Prod.mk.inj same
        simp only [taken, Except.map, Option.bind_some]
        rw [left, ← ih next]
        cases next.tokensUpTo fuel <;> rfl

end Cursor

section

variable {text : String} {tokens : List Token}

/-- The tokens of a text say what its lexemes are. -/
theorem lexemes_of_tokenize (read : tokenize text = .ok tokens) :
    lexemes (text.length + 1) text.toList = some (tokens.map Token.lexeme) := by
  have said := Cursor.lexemes_tokensUpTo (text.length + 1) (.start text)
  rw [tokenize] at read
  rw [read] at said
  exact said.symm

/-- A text opens and closes what its tokens do. -/
theorem through_of_tokenize (read : tokenize text = .ok tokens) (d : Nat) :
    (⟨d, false⟩ : Scan).through text.toList
      = (turns d (tokens.map Token.lexeme)).map (⟨·, false⟩) := by
  refine through_of_lexemes (lexemes_of_tokenize read) ?_ d
  rw [String.length_toList]
  exact Nat.lt_succ_self _

/-- A text without the blanks around it has tokens that say the same. -/
theorem tokenize_trim (read : tokenize text = .ok tokens) :
    ∃ others, tokenize (trim text) = .ok others ∧
      others.map Token.lexeme = tokens.map Token.lexeme := by
  obtain ⟨tail, whole, blank⟩ := dropWhile_eq_trimChars_append text.toList
  have said := Cursor.lexemes_tokensUpTo ((trim text).length + 1) (.start (trim text))
  have chars : (Cursor.start (trim text)).rest = trimChars text.toList := String.toList_ofList
  have shorter : (trimChars text.toList).length ≤ text.length := by
    have := (List.dropWhile_suffix isBlank (l := text.toList)).length_le
    rw [whole, List.length_append, String.length_toList] at this
    omega
  have trimmed : (trim text).length = (trimChars text.toList).length := String.length_ofList
  -- The lexemes of the text are those of the text between the blanks.
  have read := lexemes_of_tokenize read
  rw [← lexemes_trimStart, whole, lexemes_append blank (Nat.lt_succ_of_le shorter)
    (Nat.lt_succ_self _)] at read
  rw [chars, trimmed, read, ← trimmed, ← tokenize] at said
  cases found : tokenize (trim text) with
  | error e =>
    rw [found] at said
    cases said
  | ok others =>
    rw [found] at said
    exact ⟨others, rfl, Option.some.inj said⟩

end

end EdmQuery
