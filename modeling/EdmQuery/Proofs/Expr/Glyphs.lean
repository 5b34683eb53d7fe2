import Mathlib
import EdmQuery.Proofs.Expr.Lexing
import EdmQuery.Proofs.Expr.Scanning

/-! What recognizers find in a text, wherever it ends and whatever blanks stand behind it. -/

namespace EdmQuery

open Text

namespace Recognizer

/-- A recognizer takes characters of a class, and looks no further than to the first other one. -/
structure Keeps (p : Char → Bool) (r : Recognizer) : Prop where
  inside {chars : List Char} {n : Nat} (found : r chars = some n) :
    n ≤ chars.length ∧ ∀ c ∈ chars.take n, p c = true
  blind {tail : List Char} (stops : Stops p tail) (chars : List Char) : r (chars ++ tail) = r chars

/-- A recognizer takes some characters where it takes any. -/
def Advances (r : Recognizer) : Prop :=
  ∀ ⦃chars n⦄, r chars = some n → 0 < n

section

variable {p q : Char → Bool} {a b r : Recognizer} {chars tail : List Char} {n : Nat}

/-- What a match leaves behind it does not depend on what stops it. -/
theorem Keeps.drop_append (keeps : Keeps p r) (found : r chars = some n) (tail : List Char) :
    (chars ++ tail).drop n = chars.drop n ++ tail :=
  List.drop_append_of_le_length (keeps.inside found).1

/-- What a match takes does not depend on what stops it. -/
theorem Keeps.take_append (keeps : Keeps p r) (found : r chars = some n) (tail : List Char) :
    (chars ++ tail).take n = chars.take n :=
  List.take_append_of_le_length (keeps.inside found).1

/-- Nothing is taken from no characters. -/
theorem Keeps.nothing : Keeps p fun _ => some 0 where
  inside found := by
    cases found
    exact ⟨Nat.zero_le _, by simp⟩
  blind _ _ := rfl

/-- One character of a smaller class. -/
theorem Keeps.one (part : ∀ c, q c = true → p c = true) : Keeps p (one q) where
  inside {chars n} found := by
    obtain ⟨rfl, c, rest, rfl, mem⟩ := one_some found
    refine ⟨Nat.le_add_left 1 rest.length, fun d taken => ?_⟩
    rw [List.take_succ_cons, List.take_zero, List.mem_singleton] at taken
    exact part d (taken ▸ mem)
  blind {tail} stops chars := by
    cases chars with
    | nil =>
      rw [List.nil_append]
      exact one_eq_none fun c next => (stops.of_imp part) c next
    | cons c rest => rfl

/-- A given character of a class. -/
theorem Keeps.mark {c : Char} (mem : p c = true) : Keeps p (mark c) :=
  .one fun _ same => eq_of_beq same ▸ mem

/-- A run of characters of a smaller class. -/
theorem Keeps.run (part : ∀ c, q c = true → p c = true) : Keeps p (run q) where
  inside {chars n} found := by
    rw [Recognizer.run] at found
    split at found
    · cases found
    · cases found
      rw [← List.prefix_iff_eq_take.mp (List.takeWhile_prefix q)]
      exact ⟨(List.takeWhile_prefix q).length_le, fun c taken => part c (List.mem_takeWhile_imp taken)⟩
  blind stops chars := by
    rw [Recognizer.run, Recognizer.run, Cursor.takeWhile_stopped (stops.of_imp part)]

/-- A given word of characters of a class. -/
theorem Keeps.tag {word : List Char} (letters : ∀ c ∈ word, p c = true) : Keeps p (tag word) where
  inside {chars n} found := by
    by_cases front : word <+: chars
    · obtain ⟨rest, rfl⟩ := front
      rw [Takes.tag word rest, Option.some.injEq] at found
      rw [← found, List.take_left, List.length_append]
      exact ⟨Nat.le_add_right _ _, letters⟩
    · rw [tag_eq_none front] at found
      cases found
  blind {tail} stops chars := by
    -- Where the characters end inside the word, what stops the class is not its next letter.
    induction word generalizing chars with
    | nil => rfl
    | cons l lead ih =>
      rw [List.forall_mem_cons] at letters
      cases chars with
      | nil =>
        cases tail with
        | nil => rfl
        | cons t rest =>
          have other : (l == t) = false := by
            rw [beq_eq_false_iff_ne]
            rintro rfl
            cases (stops l rfl).symm.trans letters.1
          rw [List.nil_append, Recognizer.tag, other]
          rfl
      | cons c rest => rw [List.cons_append, Recognizer.tag, Recognizer.tag, ih letters.2]

/-- Exactly so many characters of a smaller class. -/
theorem Keeps.exactly (part : ∀ c, q c = true → p c = true) (k : Nat) : Keeps p (exactly q k) where
  inside {chars n} found := by
    obtain ⟨rfl, front, rest, rfl, length, all⟩ := exactly_some found
    rw [← length, List.take_left, List.length_append]
    exact ⟨Nat.le_add_right _ _, fun c mem => part c (all c mem)⟩
  blind {tail} stops chars := by
    induction k generalizing chars with
    | zero => rfl
    | succ k ih =>
      cases chars with
      | nil =>
        cases tail with
        | nil => rfl
        | cons t rest =>
          rw [List.nil_append, Recognizer.exactly, (stops.of_imp part) t rfl]
          rfl
      | cons c rest => rw [List.cons_append, Recognizer.exactly, Recognizer.exactly, ih]

/-- One match after another. -/
theorem Keeps.andThen (first : Keeps p a) (second : Keeps p b) : Keeps p (andThen a b) where
  inside {chars n} found := by
    -- What both take is the one part in front of the other.
    obtain ⟨i, j, one, two, rfl⟩ := andThen_some found
    obtain ⟨short, all⟩ := first.inside one
    obtain ⟨short', all'⟩ := second.inside two
    rw [List.length_drop] at short'
    refine ⟨by omega, fun c mem => ?_⟩
    rw [List.take_add, List.mem_append] at mem
    exact mem.elim (all c) (all' c)
  blind {tail} stops chars := by
    rw [Recognizer.andThen, Recognizer.andThen, first.blind stops]
    -- The second recognizer sees what the first one leaves, with the same tail.
    cases found : a chars with
    | none => rfl
    | some n => rw [Option.bind_some, Option.bind_some, first.drop_append found, second.blind stops]

/-- A match or nothing. -/
theorem Keeps.optional (keeps : Keeps p a) : Keeps p (optional a) where
  inside {chars n} found := by
    rcases optional_some found with found | ⟨-, rfl⟩
    · exact keeps.inside found
    · exact ⟨Nat.zero_le _, by simp⟩
  blind stops chars := by rw [Recognizer.optional, Recognizer.optional, keeps.blind stops]

/-- The first of two matches. -/
theorem Keeps.orElse (first : Keeps p a) (second : Keeps p b) : Keeps p (orElse a b) where
  inside {chars n} found := by
    rcases Option.or_eq_some_iff.mp found with one | ⟨-, two⟩
    · exact first.inside one
    · exact second.inside two
  blind stops chars := by
    rw [Recognizer.orElse, Recognizer.orElse, first.blind stops, second.blind stops]

/-- All matches, one after the other. -/
theorem Keeps.sequence {each : List Recognizer} (keeps : each.Forall (Keeps p)) :
    Keeps p (sequence each) := by
  -- A sequence is its first recognizer and then the sequence of the others.
  induction each with
  | nil => exact .nothing
  | cons r others ih =>
    rw [List.forall_cons] at keeps
    exact keeps.1.andThen (ih keeps.2)

/-- At most so many matches in a row. -/
theorem Keeps.manyUpTo (keeps : Keeps p a) (fuel : Nat) : Keeps p (manyUpTo a fuel) := by
  induction fuel with
  | zero => exact .nothing
  | succ fuel ih => exact (keeps.andThen ih).optional

/-- Where there are no characters, there is no match in a row. -/
theorem manyUpTo_nil (keeps : Keeps p a) (advances : Advances a) (fuel : Nat) :
    manyUpTo a fuel [] = some 0 := by
  -- A match would take some of no characters.
  have none_ : a [] = none := by
    rw [Option.eq_none_iff_forall_not_mem]
    intro n found
    exact absurd (advances found) (Nat.not_lt.mpr (keeps.inside found).1)
  cases fuel with
  | zero => rfl
  | succ fuel => rw [Recognizer.manyUpTo, Recognizer.optional, Recognizer.andThen, none_]; rfl

/-- More matches in a row than there are characters make no difference. -/
theorem manyUpTo_enough (keeps : Keeps p a) (advances : Advances a) {fuel more : Nat}
    (enough : chars.length ≤ fuel) (enough' : chars.length ≤ more) :
    manyUpTo a fuel chars = manyUpTo a more chars := by
  -- Every match takes a character and one of either count.
  induction fuel generalizing more chars with
  | zero =>
    rw [List.length_eq_zero_iff.mp (Nat.le_zero.mp enough), manyUpTo_nil keeps advances,
      manyUpTo_nil keeps advances]
  | succ fuel ih =>
    cases more with
    | zero =>
      rw [List.length_eq_zero_iff.mp (Nat.le_zero.mp enough'), manyUpTo_nil keeps advances,
        manyUpTo_nil keeps advances]
    | succ more =>
      rw [Recognizer.manyUpTo, Recognizer.manyUpTo, Recognizer.optional, Recognizer.optional,
        Recognizer.andThen, Recognizer.andThen]
      cases found : a chars with
      | none => rfl
      | some n =>
        have := advances found
        have fewer : (chars.drop n).length ≤ fuel := by rw [List.length_drop]; omega
        have fewer' : (chars.drop n).length ≤ more := by rw [List.length_drop]; omega
        rw [Option.bind_some, Option.bind_some, ih fewer fewer']

/-- As many matches in a row as there are. -/
theorem Keeps.many (keeps : Keeps p a) (advances : Advances a) : Keeps p (many a) where
  inside found := (keeps.manyUpTo _).inside found
  blind {tail} stops chars := by
    -- The longer text allows more matches, which are not needed.
    rw [Recognizer.many, Recognizer.many, (keeps.manyUpTo _).blind stops]
    refine manyUpTo_enough keeps advances ?_ le_rfl
    rw [List.length_append]
    exact Nat.le_add_right _ _

/-- A match that no name goes on behind. -/
theorem Keeps.bounded (keeps : Keeps p r) (names : ∀ c, isNameChar c = true → p c = true) :
    Keeps p r.bounded where
  inside found := keeps.inside (Option.filter_eq_some_iff.mp found).1
  blind {tail} stops chars := by
    rw [Recognizer.bounded, Recognizer.bounded, keeps.blind stops]
    cases found : r chars with
    | none => rfl
    | some n =>
      -- The character behind the match is the same, or it is what stops the class.
      rw [Option.filter_some, Option.filter_some, keeps.drop_append found]
      cases chars.drop n with
      | nil =>
        cases tail with
        | nil => rfl
        | cons t rest =>
          rw [List.nil_append, List.head?_cons, Option.any_some, (stops.of_imp names) t rfl]
          rfl
      | cons c rest => rfl

/-- A match that advances does so in front of others. -/
theorem Advances.andThen_left (advances : Advances a) (b : Recognizer) : Advances (andThen a b) := by
  intro chars n found
  obtain ⟨i, j, first, -, rfl⟩ := andThen_some found
  have := advances first
  omega

/-- A match that advances does so behind others. -/
theorem Advances.andThen_right (a : Recognizer) (advances : Advances b) :
    Advances (andThen a b) := by
  intro chars n found
  obtain ⟨i, j, -, second, rfl⟩ := andThen_some found
  have := advances second
  omega

/-- A character is one step. -/
theorem Advances.one (q : Char → Bool) : Advances (one q) := by
  intro chars n found
  rw [(one_some found).1]
  exact Nat.one_pos

/-- A run is some steps. -/
theorem Advances.run (q : Char → Bool) : Advances (run q) := by
  intro chars n found
  rw [Recognizer.run] at found
  split at found
  · cases found
  · rename_i some_
    cases found
    rw [beq_iff_eq] at some_
    exact Nat.pos_of_ne_zero some_

/-- Exactly so many characters are as many steps. -/
theorem Advances.exactly (q : Char → Bool) (k : Nat) : Advances (exactly q (k + 1)) := by
  intro chars n found
  rw [(exactly_some found).1]
  exact Nat.succ_pos k

/-- A word is as many steps as it has characters. -/
theorem Advances.tag {word : List Char} (some_ : word ≠ []) : Advances (tag word) := by
  intro chars n found
  by_cases front : word <+: chars
  · obtain ⟨rest, rfl⟩ := front
    rw [Takes.tag word rest, Option.some.injEq] at found
    rw [← found]
    exact List.length_pos_iff.mpr some_
  · rw [tag_eq_none front] at found
    cases found

/-- Either of two matches advances. -/
theorem Advances.orElse (first : Advances a) (second : Advances b) : Advances (orElse a b) := by
  intro chars n found
  rcases Option.or_eq_some_iff.mp found with one | ⟨-, two⟩
  · exact first one
  · exact second two

/-- A bounded match is a match. -/
theorem Advances.bounded (advances : Advances r) : Advances r.bounded := by
  intro chars n found
  exact advances (Option.filter_eq_some_iff.mp found).1

end

/-- Whether a character is no blank, and opens, closes and ends nothing. -/
def isGlyph (c : Char) : Bool :=
  !isBlank c && Scan.isInert c

/-- What goes on with a name is a glyph. -/
theorem isGlyph_of_isNameChar {c : Char} (name : isNameChar c = true) : isGlyph c = true := by
  have quote : c ≠ '\'' := ne_of_isNameChar name (by decide)
  have opening : c ≠ '(' := ne_of_isNameChar name (by decide)
  have closing : c ≠ ')' := ne_of_isNameChar name (by decide)
  have semicolon : c ≠ ';' := ne_of_isNameChar name (by decide)
  simp [isGlyph, Scan.isInert, isBlank_of_isNameChar name, quote, opening, closing, semicolon]

/-- Blanks are no glyphs. -/
theorem isGlyph_of_isBlank (c : Char) (blank : isBlank c = true) : isGlyph c = false := by
  rw [isGlyph, blank]
  rfl

/-- Blanks stop what consists of glyphs. -/
theorem stops_isGlyph {tail : List Char} (blank : ∀ c ∈ tail, isBlank c = true) :
    Stops isGlyph tail :=
  fun c next => isGlyph_of_isBlank c (blank c (List.mem_of_head? next))

/-- Glyphs open nothing. -/
theorem through_glyphs {chars : List Char} (glyphs : ∀ c ∈ chars, isGlyph c = true) (s : Scan) :
    s.through chars = some s :=
  Scan.through_inert (fun c mem => (Bool.and_eq_true _ _ ▸ glyphs c mem).2) s

/-- Digits are glyphs. -/
theorem isGlyph_of_isDigit {c : Char} (digit : isDigit c = true) : isGlyph c = true :=
  isGlyph_of_isNameChar (isNameChar_of_isDigit digit)

/-- A class of one or two characters is as its members are. -/
theorem isGlyph_of_or {x y : Char} (first : isGlyph x = true) (second : isGlyph y = true) (c : Char)
    (mem : (c == x || c == y) = true) : isGlyph c = true := by
  rw [Bool.or_eq_true, beq_iff_eq, beq_iff_eq] at mem
  rcases mem with rfl | rfl
  · exact first
  · exact second

/-- A name consists of glyphs. -/
theorem keeps_identifier : Keeps isGlyph identifier := by
  refine .sequence ⟨(Keeps.mark (by decide)).optional, .one fun c letter => ?_,
    (Keeps.run fun c => isGlyph_of_isNameChar).optional⟩
  rw [Bool.or_eq_true] at letter
  rcases letter with letter | line
  · exact isGlyph_of_isNameChar (isNameChar_of_isAlphabetic letter)
  · rw [eq_of_beq line]
    decide

/-- A name has some characters. -/
theorem advances_identifier : Advances identifier :=
  Advances.andThen_right (optional (mark '$'))
    ((Advances.one fun c => isAlphabetic c || c == '_').andThen_left _)

/-- Names with points between them consist of glyphs. -/
theorem keeps_qualifiedIdentifier : Keeps isGlyph qualifiedIdentifier :=
  keeps_identifier.andThen
    (((Keeps.mark (by decide)).andThen keeps_identifier).many (.andThen_left (.one _) _))

/-- Names with points between them have some characters. -/
theorem advances_qualifiedIdentifier : Advances qualifiedIdentifier :=
  .andThen_left advances_identifier _

/-- Digits consist of glyphs. -/
theorem keeps_digits (n : Nat) : Keeps isGlyph (digits n) :=
  .exactly (fun _ => isGlyph_of_isDigit) n

/-- Hexadecimal digits consist of glyphs. -/
theorem keeps_hexDigits (n : Nat) : Keeps isGlyph (hexDigits n) :=
  .exactly (fun _ digit => isGlyph_of_isNameChar (isNameChar_of_isHexDigit digit)) n

/-- A date consists of glyphs. -/
theorem keeps_date : Keeps isGlyph date :=
  .sequence
    ⟨keeps_digits 4, .mark (by decide), keeps_digits 2, .mark (by decide), keeps_digits 2⟩

/-- A date has some characters. -/
theorem advances_date : Advances date :=
  Advances.andThen_left (.exactly isDigit 3) _

/-- A fraction consists of glyphs. -/
theorem keeps_fraction : Keeps isGlyph fraction :=
  (Keeps.mark (by decide)).andThen (.run fun _ => isGlyph_of_isDigit)

/-- A time of day consists of glyphs. -/
theorem keeps_timeOfDay : Keeps isGlyph timeOfDay := by
  have seconds : Keeps isGlyph (sequence [mark ':', digits 2, optional fraction]) :=
    .sequence ⟨.mark (by decide), keeps_digits 2, keeps_fraction.optional⟩
  exact .sequence ⟨keeps_digits 2, .mark (by decide), keeps_digits 2, seconds.optional⟩

/-- A time of day has some characters. -/
theorem advances_timeOfDay : Advances timeOfDay :=
  Advances.andThen_left (.exactly isDigit 1) _

/-- A sign is a glyph. -/
theorem keeps_plusOrMinus : Keeps isGlyph plusOrMinus :=
  .one (isGlyph_of_or (by decide) (by decide))

/-- An offset consists of glyphs. -/
theorem keeps_offset : Keeps isGlyph Recognizer.offset :=
  Keeps.orElse (.one (isGlyph_of_or (by decide) (by decide)))
    (.sequence ⟨keeps_plusOrMinus, keeps_digits 2, .mark (by decide), keeps_digits 2⟩)

/-- A point in time consists of glyphs. -/
theorem keeps_dateTimeOffset : Keeps isGlyph dateTimeOffset :=
  .sequence
    ⟨keeps_date, .one (isGlyph_of_or (by decide) (by decide)), keeps_timeOfDay, keeps_offset⟩

/-- A point in time has some characters. -/
theorem advances_dateTimeOffset : Advances dateTimeOffset :=
  Advances.andThen_left advances_date _

/-- Hexadecimal groups consist of glyphs. -/
theorem keeps_guid : Keeps isGlyph guid := by
  have hyphen : Keeps isGlyph (mark '-') := .mark (by decide)
  exact .sequence ⟨keeps_hexDigits 8, hyphen, keeps_hexDigits 4, hyphen, keeps_hexDigits 4, hyphen,
    keeps_hexDigits 4, hyphen, keeps_hexDigits 12⟩

/-- Hexadecimal groups have some characters. -/
theorem advances_guid : Advances guid :=
  Advances.andThen_left (.exactly isHexDigit 7) _

/-- A number consists of glyphs. -/
theorem keeps_number : Keeps isGlyph number := by
  have whole : Keeps isGlyph (run isDigit) := .run fun _ => isGlyph_of_isDigit
  have exponent : Keeps isGlyph (sequence [one fun c => c == 'e' || c == 'E', optional plusOrMinus,
      run isDigit]) :=
    .sequence ⟨.one (isGlyph_of_or (by decide) (by decide)), keeps_plusOrMinus.optional, whole⟩
  exact .sequence ⟨(Keeps.mark (by decide)).optional, whole, keeps_fraction.optional, exponent.optional⟩

/-- A number has some characters. -/
theorem advances_number : Advances number :=
  Advances.andThen_right (optional (mark '-')) ((Advances.run isDigit).andThen_left _)

/-- The names of doubles consist of glyphs. -/
theorem keeps_specialDouble : Keeps isGlyph specialDouble := by
  have word {word : List Char} (glyphs : word.all isGlyph = true) : Keeps isGlyph (tag word) :=
    .tag (List.all_eq_true.mp glyphs)
  exact (word (by decide)).orElse ((word (by decide)).orElse (word (by decide)))

/-- The names of doubles have some characters. -/
theorem advances_specialDouble : Advances specialDouble :=
  Advances.orElse (.tag (by decide)) (.orElse (.tag (by decide)) (.tag (by decide)))

end Recognizer

namespace Cursor

/-- Behind blanks is the text without them. -/
theorem rest_skipBlanks (c : Cursor) : c.skipBlanks.rest = c.rest.dropWhile isBlank := by
  have whole := List.takeWhile_append_dropWhile (p := isBlank) (l := c.rest)
  conv_lhs => rw [skipBlanks, advance]
  calc c.rest.drop (c.rest.takeWhile isBlank).length
    _ = (c.rest.takeWhile isBlank ++ c.rest.dropWhile isBlank).drop
          (c.rest.takeWhile isBlank).length := by rw [whole]
    _ = c.rest.dropWhile isBlank := List.drop_left

variable {c : Cursor} {rest : List Char}

/-- Where no blank comes next, there are none to skip. -/
theorem rest_skipBlanks_of_stops (at_ : c.rest = rest) (stops : Stops isBlank rest) :
    c.skipBlanks.rest = rest := by
  rw [rest_skipBlanks, at_]
  exact @Stops.dropWhile_append _ [] _ nofun stops

/-- A single blank is skipped. -/
theorem rest_skipBlanks_cons (at_ : c.rest = ' ' :: rest) (stops : Stops isBlank rest) :
    c.skipBlanks.rest = rest := by
  rw [rest_skipBlanks, at_, List.dropWhile_cons_of_pos (by decide)]
  exact @Stops.dropWhile_append _ [] _ nofun stops

/-- A recognizer finds the text in front that it takes. -/
theorem recognize_takes {r : Recognizer} {front : List Char} (takes : Recognizer.Takes r front rest)
    (at_ : c.rest = front ++ rest) (expected : String) :
    ∃ next, c.recognize r expected = .ok (String.ofList front, next) ∧ next.rest = rest := by
  have found : r c.rest = some front.length := by rw [at_]; exact takes
  refine ⟨c.advance front.length, ?_, ?_⟩
  · rw [recognize, found]
    simp [ahead, at_]
  · simp [advance, at_]

end Cursor

end EdmQuery
