import Mathlib
import EdmQuery.Proofs.Expr.Lexers

/-! The places of the tokens of a text: each takes its own spelling, and only blanks lie between. -/

namespace EdmQuery

open Text Recognizer

/-- The characters that stand for a token, by its kind and its text. -/
def TokenKind.spelling : TokenKind → String → List Char
  | .string, text => (quoted '\'' text).toList
  | .duration, text => "duration".toList ++ (quoted '\'' text).toList
  | _, text => text.toList

/-- The text that all tokens of a kind have, if they do. -/
def TokenKind.mark? : TokenKind → Option String
  | .openParen => some "("
  | .closeParen => some ")"
  | .comma => some ","
  | .slash => some "/"
  | .colon => some ":"
  | .minus => some "-"
  | _ => none

/-- A duration is written behind its keyword. -/
theorem TokenKind.spelling_duration (text : String) :
    TokenKind.duration.spelling text = "duration".toList ++ (quoted '\'' text).toList :=
  rfl

namespace Token

/-- The characters that stand for a token. -/
def spelling (t : Token) : List Char :=
  t.kind.spelling t.text

/-- The byte behind the last one of a token. -/
def stop (t : Token) : Nat :=
  t.position + byteLength t.spelling

end Token

namespace Text

/-- The characters of two texts take the bytes of both. -/
theorem byteLength_append (front rest : List Char) :
    byteLength (front ++ rest) = byteLength front + byteLength rest := by
  -- The bytes of one character after the other are counted.
  induction front with
  | nil => rw [List.nil_append, byteLength, Nat.zero_add]
  | cons c front ih => rw [List.cons_append, byteLength, byteLength, ih, Nat.add_assoc]

/-- A text between quotes has its content with the quotes doubled between them. -/
theorem toList_quoted (quote : Char) (content : List Char) :
    (quoted quote (String.ofList content)).toList = quote :: (doubled quote content ++ [quote]) := by
  rw [quoted, String.toList_ofList, String.toList_ofList]

end Text

section

variable {chars found content lead : List Char} {k n m : Nat} {kind : TokenKind} {r : Recognizer}
  {l : Lexeme} {a b : Lexer} {say : List Char → List Char → Lexeme}

/-- A given text takes its own characters. -/
theorem Recognizer.tag_some (match_ : tag lead chars = some n) : chars.take n = lead := by
  -- One character of the text after the other is compared.
  induction lead generalizing chars n with
  | nil =>
    cases match_
    rfl
  | cons first lead ih =>
    cases chars with
    | nil => cases match_
    | cons c rest =>
      rw [tag] at match_
      split at match_
      · rename_i same
        obtain ⟨k, behind, rfl⟩ := Option.map_eq_some_iff.mp match_
        rw [List.take_succ_cons, ih behind, eq_of_beq same]
      · cases match_

/-- The content that is read up to a closing quote stands there with its quotes doubled. -/
theorem Cursor.singleQuoted_eq_doubled (read : singleQuoted chars found n = some (content, m)) :
    ∃ body rest, content = found.reverse ++ body ∧ chars = doubled '\'' body ++ '\'' :: rest ∧
      m = n + (doubled '\'' body).length + 1 := by
  -- A character is kept as it is, unless it is a quote and a second one follows.
  fun_induction singleQuoted chars found n with
  | case1 => cases read
  | case2 rest found n ih =>
    obtain ⟨body, behind, rfl, rfl, rfl⟩ := ih read
    refine ⟨'\'' :: body, behind, ?_, rfl, ?_⟩
    · rw [List.reverse_cons, List.append_assoc, List.singleton_append]
    · rw [doubled, if_pos (beq_self_eq_true _), List.length_cons, List.length_cons]
      omega
  | case3 c rest found n apart quote =>
    cases read
    rw [eq_of_beq quote]
    exact ⟨[], rest, (List.append_nil _).symm, rfl, rfl⟩
  | case4 c rest found n apart other ih =>
    obtain ⟨body, behind, rfl, rfl, rfl⟩ := ih read
    refine ⟨c :: body, behind, ?_, ?_, ?_⟩
    · rw [List.reverse_cons, List.append_assoc, List.singleton_append]
    · rw [doubled, if_neg other, List.cons_append]
    · rw [doubled, if_neg other, List.length_cons]
      omega

namespace Lexer

/-- A text in quotes takes the spelling of its content. -/
theorem quotation_spelling (read : quotation chars = some (content, n)) :
    chars.take n = (Text.quoted '\'' (String.ofList content)).toList := by
  unfold quotation at read
  split at read
  · obtain ⟨-, rest, rfl, rfl, rfl⟩ := Cursor.singleQuoted_eq_doubled read
    -- The quote in front counts as well, and what stands behind the closing one does not.
    rw [toList_quoted, List.take_succ_cons, List.append_cons]
    refine congrArg (_ :: ·) (List.take_left' ?_)
    rw [List.length_append, List.length_singleton, Nat.add_comm 1]
  · cases read

/-- A text in single quotes behind a match takes both. -/
theorem quoted_some (read : quoted r say chars = some (l, m)) : ∃ k n content,
    r chars = some k ∧ l = say (chars.take m) content ∧ m = k + n ∧
      chars.take m = chars.take k ++ (Text.quoted '\'' (String.ofList content)).toList := by
  obtain ⟨k, match_, read⟩ := Option.bind_eq_some_iff.mp read
  obtain ⟨⟨content, n⟩, behind, same⟩ := Option.map_eq_some_iff.mp read
  cases same
  refine ⟨k, n, content, match_, rfl, rfl, ?_⟩
  rw [List.take_add, quotation_spelling behind]

/-- A token takes the characters that stand for it, and has the text that its kind tells. -/
structure Spells (L : Lexer) : Prop where
  taken {chars : List Char} {l : Lexeme} {n : Nat} (found : L chars = some (l, n)) :
    chars.take n = l.1.spelling l.2
  marked {chars : List Char} {l : Lexeme} {n : Nat} (found : L chars = some (l, n)) :
    l.1.mark?.getD l.2 = l.2

namespace Spells

/-- Other tokens than strings and durations are written as their text. -/
theorem spelling_ofList (kind : TokenKind) (string : kind ≠ .string) (duration : kind ≠ .duration)
    (chars : List Char) : kind.spelling (String.ofList chars) = chars := by
  unfold TokenKind.spelling
  split
  · exact absurd rfl string
  · exact absurd rfl duration
  · exact String.toList_ofList

/-- A match takes the characters that it has as its text. -/
theorem spelled (string : kind ≠ .string) (duration : kind ≠ .duration)
    (plain : kind.mark? = none) : Spells (spelled kind r) where
  taken found := by
    obtain ⟨k, match_, same⟩ := Option.map_eq_some_iff.mp found
    cases same
    exact (spelling_ofList _ string duration _).symm
  marked found := by
    obtain ⟨k, match_, same⟩ := Option.map_eq_some_iff.mp found
    cases same
    rw [plain]
    rfl

/-- A minus takes its own character. -/
theorem minus : Spells (Lexer.spelled .minus (mark '-')) where
  taken found := by
    obtain ⟨k, match_, same⟩ := Option.map_eq_some_iff.mp found
    cases same
    exact (spelling_ofList .minus nofun nofun _).symm
  marked found := by
    obtain ⟨k, match_, same⟩ := Option.map_eq_some_iff.mp found
    cases same
    obtain ⟨rfl, c, rest, rfl, dash⟩ := one_some match_
    rw [eq_of_beq dash]
    rfl

/-- A numeral takes the characters that it has as its text. -/
theorem numeral : Spells numeral where
  taken found := by
    obtain ⟨k, match_, same⟩ := Option.map_eq_some_iff.mp found
    cases same
    -- Numerals are of three kinds, none of which has quotes.
    have plain (number : NumberKind) : number.token ≠ .string ∧ number.token ≠ .duration := by
      cases number <;> exact ⟨nofun, nofun⟩
    exact (spelling_ofList _ (plain _).1 (plain _).2 _).symm
  marked {chars l n} found := by
    obtain ⟨k, match_, same⟩ := Option.map_eq_some_iff.mp found
    cases same
    cases Cursor.numberKind (chars.take n) <;> rfl

/-- A text in quotes has any text where it says something that is told by its text alone. -/
theorem marked_quoted (plain : ∀ spelling content, (say spelling content).1.mark? = none)
    (found : Lexer.quoted r say chars = some (l, n)) : l.1.mark?.getD l.2 = l.2 := by
  obtain ⟨k, m, content, match_, rfl, -, -⟩ := quoted_some found
  rw [plain]
  rfl

/-- A text takes its content between quotes. -/
theorem text : Spells text where
  taken found := by
    obtain ⟨k, n, content, match_, rfl, rfl, whole⟩ := quoted_some found
    -- Nothing stands in front of the quotes.
    cases match_
    rw [whole, List.take_zero, List.nil_append]
    rfl
  marked := marked_quoted fun _ _ => rfl

/-- A duration takes its keyword and its content between quotes. -/
theorem duration : Spells duration where
  taken found := by
    obtain ⟨k, n, content, match_, rfl, rfl, whole⟩ := quoted_some found
    rw [whole, tag_some match_, TokenKind.spelling_duration]
  marked := marked_quoted fun _ _ => rfl

/-- An enumeration value takes the characters that it has as its text. -/
theorem enum : Spells enum where
  taken found := by
    obtain ⟨k, n, content, match_, rfl, rfl, whole⟩ := quoted_some found
    exact (spelling_ofList .enum nofun nofun _).symm
  marked := marked_quoted fun _ _ => rfl

/-- The first of two tokens takes the characters that stand for it. -/
theorem orElse (first : Spells a) (second : Spells b) : Spells (a.orElse b) where
  taken found := by
    obtain one | ⟨-, two⟩ := Option.or_eq_some_iff.mp found
    · exact first.taken one
    · exact second.taken two
  marked found := by
    obtain one | ⟨-, two⟩ := Option.or_eq_some_iff.mp found
    · exact first.marked one
    · exact second.marked two

/-- A word takes the characters that stand for it. -/
theorem word : Spells word := by
  -- The order is that in which the kinds of words are tried.
  refine .orElse (.spelled nofun nofun rfl) ?_
  refine .orElse (.spelled nofun nofun rfl) ?_
  refine .orElse (.spelled nofun nofun rfl) ?_
  refine .orElse (.spelled nofun nofun rfl) ?_
  refine .orElse (.spelled nofun nofun rfl) ?_
  refine .orElse .numeral ?_
  refine .orElse .minus ?_
  refine .orElse .duration ?_
  refine .orElse (.spelled nofun nofun rfl) ?_
  refine .orElse (.spelled nofun nofun rfl) ?_
  refine .orElse (.spelled nofun nofun rfl) ?_
  exact .orElse .enum (.spelled nofun nofun rfl)

/-- Punctuation takes its character, which is its text. -/
theorem punctuation {c : Char} (known : TokenKind.punctuation? c = some kind) :
    kind.spelling c.toString = [c] ∧ kind.mark? = some c.toString := by
  -- The character is one of those that are known to be punctuation.
  have plain : (kind ≠ .string ∧ kind ≠ .duration) ∧ kind.mark? = some c.toString := by
    unfold TokenKind.punctuation? at known
    repeat' split at known
    all_goals cases known
    all_goals
      rename_i same
      rw [eq_of_beq same]
      exact ⟨⟨nofun, nofun⟩, rfl⟩
  exact ⟨spelling_ofList _ plain.1.1 plain.1.2 [c], plain.2⟩

/-- What is at the front of a text takes the characters that stand for it. -/
theorem token : Spells token where
  taken {chars l n} found := by
    cases chars with
    | nil => cases found
    | cons first rest =>
      rw [Lexer.token] at found
      split at found
      · rename_i kind known
        cases found
        exact (punctuation known).1.symm
      split at found
      · exact text.taken found
      · exact word.taken found
  marked {chars l n} found := by
    cases chars with
    | nil => cases found
    | cons first rest =>
      rw [Lexer.token] at found
      split at found
      · rename_i kind known
        cases found
        rw [(punctuation known).2]
        rfl
      split at found
      · exact text.marked found
      · exact word.marked found

end Spells

end Lexer

/-- The tokens of a text have the texts that their kinds tell. -/
theorem lexemes_marked {fuel : Nat} {ls : List Lexeme} (read : lexemes fuel chars = some ls) :
    ∀ l ∈ ls, l.1.mark?.getD l.2 = l.2 := by
  -- The first token has such a text, and the others are those of the characters behind it.
  induction fuel generalizing chars ls with
  | zero =>
    cases read
    exact List.forall_mem_nil _
  | succ fuel ih =>
    rw [lexemes] at read
    split at read
    · cases read
      exact List.forall_mem_nil _
    · obtain ⟨⟨l, n⟩, found, read⟩ := Option.bind_eq_some_iff.mp read
      obtain ⟨others, behind, rfl⟩ := Option.map_eq_some_iff.mp read
      exact List.forall_mem_cons.mpr ⟨Lexer.Spells.token.marked found, ih behind⟩

end

namespace Cursor

/-- A place is behind some characters that stand at another. -/
def Reaches (c : Cursor) (front : List Char) (next : Cursor) : Prop :=
  c.rest = front ++ next.rest ∧ next.offset = c.offset + byteLength front

/-- Whether a token that was found is where it was looked for, with the next place behind it. -/
def Places (c : Cursor) (found : Option (Token × Cursor)) : Prop :=
  ∀ t next, found = some (t, next) → t.position = c.offset ∧ ∃ front, c.Reaches front next

section

variable {c d next : Cursor} {front between rest : List Char} {t : Token} {first : Char}
  {kind : TokenKind} {reading : Read String} {one two : Option (Token × Cursor)}

/-- A step goes behind the characters that it takes. -/
theorem reaches_advance (c : Cursor) (n : Nat) : c.Reaches (c.rest.take n) (c.advance n) :=
  ⟨(List.take_append_drop n c.rest).symm, rfl⟩

/-- Blanks are skipped up to the first character that is none. -/
theorem reaches_skipBlanks (c : Cursor) : c.Reaches (c.rest.takeWhile isBlank) c.skipBlanks := by
  -- As many characters are taken as there are blanks in front.
  have taken : c.rest.take (c.rest.takeWhile isBlank).length = c.rest.takeWhile isBlank :=
    List.prefix_iff_eq_take.mp (List.takeWhile_prefix isBlank) |>.symm
  have reaches := c.reaches_advance (c.rest.takeWhile isBlank).length
  rw [taken] at reaches
  exact reaches

/-- A place behind another is behind the characters of both steps. -/
theorem Reaches.trans (one : c.Reaches front d) (two : d.Reaches between next) :
    c.Reaches (front ++ between) next := by
  obtain ⟨rest, offset⟩ := one
  obtain ⟨rest', offset'⟩ := two
  refine ⟨?_, ?_⟩
  · rw [rest, rest', List.append_assoc]
  · rw [offset', offset, byteLength_append, Nat.add_assoc]

namespace Places

/-- The first of two tokens is where it was looked for. -/
theorem or (first : c.Places one) (second : c.Places two) : c.Places (one.or two) := by
  intro t next found
  obtain one | ⟨-, two⟩ := Option.or_eq_some_iff.mp found
  · exact first t next one
  · exact second t next two

/-- A match is where it was looked for, of whatever kind it is. -/
theorem match_ (match_ : Option Nat) (kind : Nat → TokenKind) :
    c.Places (match_.map fun n => c.taken (kind n) n) := by
  intro t next found
  obtain ⟨n, -, same⟩ := Option.map_eq_some_iff.mp found
  cases same
  exact ⟨rfl, _, c.reaches_advance n⟩

/-- What was read is where it was looked for, if its reading ends behind it. -/
theorem read (behind : ∀ text next, reading = .ok (text, next) → ∃ front, c.Reaches front next) :
    c.Places (c.tokenOf kind reading) := by
  intro t next found
  obtain ⟨text, read, rfl⟩ := tokenOf_some found
  exact ⟨rfl, behind text next read⟩

end Places

/-- A text in quotes is read up to a place behind it. -/
theorem quotedString_reaches {text : String} (read : c.quotedString = .ok (text, next)) :
    ∃ front, c.Reaches front next := by
  obtain ⟨n, -, rfl⟩ := quotedString_ok read
  exact ⟨_, c.reaches_advance n⟩

/-- A duration is where it was looked for. -/
theorem places_duration : c.Places (c.tokenOf .duration c.duration) := by
  refine .read fun text next read => ?_
  rw [duration] at read
  split at read
  · cases read
  · rename_i word behind keyword
    -- The quotes are looked for behind the keyword.
    obtain ⟨n, -, -, rfl⟩ := recognize_ok keyword
    obtain ⟨front, reaches⟩ := quotedString_reaches read
    exact ⟨_, (c.reaches_advance n).trans reaches⟩

/-- An enumeration value is where it was looked for. -/
theorem places_enum : c.Places (c.tokenOf .enum c.enumSpelling) := by
  refine .read fun text next read => ?_
  obtain ⟨⟨parts, last⟩, literal, same⟩ := map_ok read
  cases same
  rw [enumLiteral] at literal
  split at literal
  · cases literal
  rename_i name behind qualified
  split at literal
  · -- The members are looked for behind the name.
    obtain ⟨⟨members, last⟩, quoted, same⟩ := map_ok literal
    cases same
    obtain ⟨n, -, -, rfl⟩ := recognize_ok qualified
    obtain ⟨front, reaches⟩ := quotedString_reaches quoted
    exact ⟨_, (c.reaches_advance n).trans reaches⟩
  · cases literal

/-- A word is where it was looked for. -/
theorem places_wordToken (first : Char) : c.Places (c.wordToken first) := by
  have taken (match_ : Option Nat) (kind : TokenKind) : c.Places (match_.map (c.taken kind)) :=
    .match_ match_ fun _ => kind
  -- The order is that in which the kinds of words are tried.
  rw [wordToken_eq, numberToken]
  refine .or (taken _ _) (.or (taken _ _) (.or (taken _ _) (.or (taken _ _) (.or ?_ ?_))))
  · exact .or (taken _ _) (.match_ _ _)
  split
  · intro t next found
    cases found
    exact ⟨rfl, _, c.reaches_advance 1⟩
  · refine places_duration.or (.or (taken _ _) (.or (taken _ _) (.or (taken _ _) ?_)))
    exact places_enum.or (taken _ _)

/-- A token is where it was looked for. -/
theorem places_tokenFrom (first : Char) : c.Places (c.tokenFrom first).toOption := by
  rw [tokenFrom]
  split
  · intro t next found
    cases found
    exact ⟨rfl, _, c.reaches_advance 1⟩
  split
  · intro t next found
    cases read : c.quotedString with
    | error e =>
      rw [read] at found
      cases found
    | ok behind =>
      rw [read] at found
      cases found
      exact ⟨rfl, quotedString_reaches read⟩
  · have word := places_wordToken (c := c) first
    cases found : c.wordToken first with
    | none =>
      intro t next none_
      cases none_
    | some found' =>
      rw [found] at word
      exact word

/-- A token that was found goes from where it was looked for up to the next place. -/
theorem tokenFrom_reaches (at_ : c.rest = first :: rest)
    (read : c.tokenFrom first = .ok (t, next)) :
    t.position = c.offset ∧ t.spelling ≠ [] ∧ c.Reaches t.spelling next := by
  have said := said_tokenFrom at_
  have places := places_tokenFrom (c := c) first
  rw [read] at said places
  obtain ⟨⟨l, n⟩, found, same⟩ := Option.map_eq_some_iff.mp said.symm
  obtain ⟨rfl, left⟩ := Prod.mk.inj same
  obtain ⟨starts, front, whole, offset⟩ := places t next rfl
  -- The place is behind as many characters as stand for the token, which are these.
  have spelling : c.rest.take n = t.spelling := Lexer.Spells.token.taken found
  have cut := List.take_append_drop n c.rest
  obtain ⟨some_, within⟩ := (Lexer.fits_token.inside found).1
  have same : front = t.spelling := by
    apply List.append_cancel_right
    show front ++ next.rest = t.spelling ++ next.rest
    rw [← whole, ← spelling, ← left, cut]
  subst same
  refine ⟨starts, ?_, whole, offset⟩
  intro none_
  have long := congrArg List.length spelling
  rw [none_, List.length_take, List.length_nil] at long
  omega

/-- The next token stands behind blanks only, and takes some characters. -/
theorem nextToken_some (read : c.nextToken = .ok (some t, next)) :
    ∃ gap, (∀ x ∈ gap, isBlank x = true) ∧ t.spelling ≠ [] ∧
      t.position = c.offset + byteLength gap ∧ c.Reaches (gap ++ t.spelling) next := by
  have skipped := c.reaches_skipBlanks
  rw [nextToken] at read
  cases at_ : c.skipBlanks.rest with
  | nil =>
    have none_ : c.skipBlanks.peek = none := by rw [peek, at_]; rfl
    simp only [none_] at read
    cases read
  | cons first rest =>
    have some_ : c.skipBlanks.peek = some first := by rw [peek, at_]; rfl
    simp only [some_] at read
    obtain ⟨⟨u, behind⟩, found, same⟩ := map_ok read
    cases same
    obtain ⟨starts, taken, reaches⟩ := tokenFrom_reaches at_ found
    refine ⟨c.rest.takeWhile isBlank, fun x => List.mem_takeWhile_imp, taken, ?_, ?_⟩
    · rw [starts, skipped.2]
    · exact skipped.trans reaches

/-- Where there is no next token, only blanks are left. -/
theorem nextToken_none (read : c.nextToken = .ok (none, next)) :
    ∀ x ∈ c.rest, isBlank x = true := by
  rw [nextToken] at read
  cases at_ : c.skipBlanks.rest with
  | nil =>
    rw [rest_skipBlanks, List.dropWhile_eq_nil_iff] at at_
    exact at_
  | cons first rest =>
    have some_ : c.skipBlanks.peek = some first := by rw [peek, at_]; rfl
    simp only [some_] at read
    obtain ⟨found, -, same⟩ := map_ok read
    cases same

/-- Behind the next token there are fewer characters. -/
theorem nextToken_shorter (read : c.nextToken = .ok (some t, next)) :
    next.rest.length < c.rest.length := by
  obtain ⟨gap, -, some_, -, whole, -⟩ := nextToken_some read
  have taken := List.length_pos_iff.mpr some_
  rw [whole, List.length_append, List.length_append]
  omega

end

end Cursor

/-- Tokens stand for all characters of a text behind an offset but for blanks between them. -/
inductive Spread : Nat → List Char → List Token → Prop
  | done {offset : Nat} {gap : List Char} (blank : ∀ x ∈ gap, isBlank x = true) :
    Spread offset gap []
  | token {offset : Nat} {gap rest : List Char} {t : Token} {tokens : List Token}
    (blank : ∀ x ∈ gap, isBlank x = true) (some_ : t.spelling ≠ [])
    (starts : t.position = offset + byteLength gap) (behind : Spread t.stop rest tokens) :
    Spread offset (gap ++ t.spelling ++ rest) (t :: tokens)

namespace Spread

section

variable {offset : Nat} {chars before after : List Char} {tokens : List Token} {c : Char}

/-- Tokens are behind the offset where their text starts. -/
theorem behind (spread : Spread offset chars tokens) : ∀ t ∈ tokens, offset ≤ t.position := by
  induction spread with
  | done blank => exact List.forall_mem_nil _
  | @token offset gap rest t tokens blank some_ starts behind ih =>
    intro u mem
    cases mem with
    | head => omega
    | tail _ mem =>
      -- A later token is behind the stop of this one.
      have later := ih u mem
      have : t.position ≤ t.stop := Nat.le_add_right _ _
      omega

/-- A token starts behind the stops of those in front of it. -/
theorem ordered (spread : Spread offset chars tokens) :
    tokens.Pairwise fun t u => t.stop ≤ u.position := by
  induction spread with
  | done blank => exact .nil
  | token blank some_ starts behind ih => exact .cons behind.behind ih

/-- A token takes some characters, and starts behind the bytes of those in front of it. -/
theorem located (spread : Spread offset chars tokens) :
    ∀ t ∈ tokens, t.spelling ≠ [] ∧ ∃ before after, chars = before ++ t.spelling ++ after ∧
      t.position = offset + byteLength before := by
  induction spread with
  | done blank => exact List.forall_mem_nil _
  | @token offset gap rest t tokens blank some_ starts behind ih =>
    intro u mem
    cases mem with
    | head => exact ⟨some_, gap, rest, rfl, starts⟩
    | tail _ mem =>
      obtain ⟨taken, before, after, rfl, place⟩ := ih u mem
      refine ⟨taken, gap ++ t.spelling ++ before, after, ?_, ?_⟩
      · simp only [List.append_assoc]
      · rw [place, Token.stop, starts, byteLength_append, byteLength_append]
        omega

/-- A character of two texts is in the first or in the second. -/
theorem mem_either {front rest : List Char} (whole : front ++ rest = before ++ c :: after) :
    (∃ more, front = before ++ c :: more) ∨
      ∃ more, before = front ++ more ∧ rest = more ++ c :: after := by
  obtain ⟨more, rfl, same⟩ | ⟨more, rfl, same⟩ := List.append_eq_append_iff.mp whole
  · exact .inr ⟨more, rfl, same⟩
  cases more with
  | nil => exact .inr ⟨[], by rw [List.append_nil, List.append_nil], same.symm⟩
  | cons d more =>
    obtain ⟨rfl, -⟩ := List.cons.inj same
    exact .inl ⟨more, rfl⟩

/-- A character is a blank, or it is one of those that some token takes. -/
theorem covered (spread : Spread offset chars tokens) (whole : chars = before ++ c :: after) :
    isBlank c = true ∨ ∃ t ∈ tokens, t.position ≤ offset + byteLength before ∧
      offset + byteLength before < t.stop := by
  induction spread generalizing before with
  | done blank =>
    subst whole
    exact .inl (blank c (List.mem_append_right _ List.mem_cons_self))
  | @token offset gap rest t tokens blank some_ starts behind ih =>
    rw [List.append_assoc] at whole
    have visible : 0 < c.utf8Size := c.utf8Size_pos
    -- The character is in the blanks, in the token or behind it.
    obtain ⟨more, rfl⟩ | ⟨inner, rfl, whole'⟩ := mem_either whole
    · exact .inl (blank c (List.mem_append_right _ List.mem_cons_self))
    obtain ⟨more, spelling⟩ | ⟨outer, rfl, rfl⟩ := mem_either whole'
    · refine .inr ⟨t, List.mem_cons_self, ?_, ?_⟩
      · rw [starts, byteLength_append]
        omega
      · rw [Token.stop, starts, spelling, byteLength_append, byteLength_append, byteLength]
        omega
    · have place : t.stop + byteLength outer
          = offset + byteLength (gap ++ (t.spelling ++ outer)) := by
        rw [Token.stop, starts, byteLength_append, byteLength_append]
        omega
      obtain blank | ⟨u, mem, inside⟩ := ih rfl
      · exact .inl blank
      · rw [place] at inside
        exact .inr ⟨u, List.mem_cons_of_mem t mem, inside⟩

end

end Spread

namespace Cursor

section

variable {c : Cursor} {fuel more : Nat} {tokens : List Token}

/-- Tokens that are read with enough fuel stand for all characters but for blanks between them. -/
theorem spread_tokensUpTo (read : c.tokensUpTo fuel = .ok tokens)
    (enough : c.rest.length < fuel) : Spread c.offset c.rest tokens := by
  -- A token takes some characters and one unit of fuel, so that enough fuel is left.
  induction fuel generalizing c tokens with
  | zero => exact absurd enough (Nat.not_lt_zero _)
  | succ fuel ih =>
    rw [tokensUpTo] at read
    split at read
    · cases read
    · rename_i next none_
      cases read
      exact .done (nextToken_none none_)
    · rename_i t next found
      obtain ⟨others, behind, rfl⟩ := map_ok read
      have shorter := nextToken_shorter found
      obtain ⟨gap, blank, some_, starts, whole, offset⟩ := nextToken_some found
      have spread := ih behind (by omega)
      have stop : next.offset = t.stop := by
        rw [offset, Token.stop, starts, byteLength_append, Nat.add_assoc]
      rw [stop] at spread
      rw [whole]
      exact .token blank some_ starts spread

/-- All amounts of fuel that exceed the number of characters give the same tokens. -/
theorem tokensUpTo_eq (enough : c.rest.length < fuel) (enough' : c.rest.length < more) :
    c.tokensUpTo fuel = c.tokensUpTo more := by
  -- Both read the same next token, and have enough fuel left for those behind it.
  induction fuel generalizing c more with
  | zero => exact absurd enough (Nat.not_lt_zero _)
  | succ fuel ih =>
    obtain ⟨more, rfl⟩ : ∃ k, more = k + 1 := ⟨more - 1, by omega⟩
    rw [tokensUpTo, tokensUpTo]
    cases found : c.nextToken with
    | error e => rfl
    | ok found' =>
      obtain ⟨next?, next⟩ := found'
      cases next? with
      | none => rfl
      | some t =>
        have shorter := nextToken_shorter found
        have same : next.tokensUpTo fuel = next.tokensUpTo more := ih (by omega) (by omega)
        simp only [same]

end

end Cursor

/-- Reading the tokens of a text ends by itself, and they stand for its characters in their order:
each takes its spelling from its position on, and the characters outside of all are blanks. -/
theorem tokens_span_text (text : String) :
    (∀ fuel, text.length < fuel → (Cursor.start text).tokensUpTo fuel = tokenize text) ∧
      ∀ tokens, tokenize text = .ok tokens →
        (tokens.Pairwise fun t u => t.stop ≤ u.position) ∧
        (∀ t ∈ tokens, t.spelling ≠ [] ∧ ∃ before after,
          text.toList = before ++ t.spelling ++ after ∧ t.position = byteLength before) ∧
        ∀ before c after, text.toList = before ++ c :: after →
          isBlank c = true ∨
            ∃ t ∈ tokens, t.position ≤ byteLength before ∧ byteLength before < t.stop := by
  have long : (Cursor.start text).rest.length = text.length := String.length_toList
  refine ⟨fun fuel enough => ?_, fun tokens read => ?_⟩
  · exact Cursor.tokensUpTo_eq (long ▸ enough) (long ▸ Nat.lt_succ_self _)
  -- The start of the text is at no offset, and the fuel exceeds the number of its characters.
  have spread : Spread 0 text.toList tokens :=
    Cursor.spread_tokensUpTo read (long ▸ Nat.lt_succ_self _)
  refine ⟨spread.ordered, fun t mem => ?_, fun before c after whole => ?_⟩
  · obtain ⟨some_, before, after, split, starts⟩ := spread.located t mem
    exact ⟨some_, before, after, split, by rw [starts, Nat.zero_add]⟩
  · have inside := spread.covered whole
    rw [Nat.zero_add] at inside
    exact inside

/-- A doubled quote and a letter of two bytes are inside the token that they are part of. -/
theorem tokens_span_quoted_text :
    tokenize "'ü''s' ne duration'P1D'" = .ok
      [⟨.string, "ü's", 0⟩, ⟨.identifier, "ne", 8⟩, ⟨.duration, "P1D", 11⟩] ∧
    ([⟨.string, "ü's", 0⟩, ⟨.identifier, "ne", 8⟩, ⟨.duration, "P1D", 11⟩] : List Token).Pairwise
      fun t u => t.stop ≤ u.position := by
  have read : tokenize "'ü''s' ne duration'P1D'" = .ok
      [⟨.string, "ü's", 0⟩, ⟨.identifier, "ne", 8⟩, ⟨.duration, "P1D", 11⟩] := by cbv
  exact ⟨read, ((tokens_span_text "'ü''s' ne duration'P1D'").2 _ read).1⟩

end EdmQuery
