import Mathlib
import EdmQuery.Expr.Token
import EdmQuery.Proofs.Expr.Recognizing
import EdmQuery.Proofs.Expr.Settled

/-! Pieces of text that are read as one token each, and texts put together from them. -/

namespace EdmQuery

open Text

namespace Recognizer

/-- A match that no name goes on behind. -/
def bounded (r : Recognizer) : Recognizer :=
  fun chars => (r chars).filter fun n => !(chars.drop n).head?.any isNameChar

section

variable {r s : Recognizer} {front rest chars : List Char}

/-- Nothing is a bounded match where nothing is a match. -/
theorem bounded_eq_none (missed : r chars = none) : r.bounded chars = none := by
  rw [bounded, missed]
  rfl

/-- A match is bounded where no name goes on. -/
theorem Takes.bounded (found : Takes r front rest) (stops : Stops isNameChar rest) :
    Takes r.bounded front rest := by
  have ends : rest.head?.any isNameChar = false := by
    cases next : rest.head? with
    | none => rfl
    | some c => rw [Option.any_some, stops c next]
  rw [Takes, Recognizer.bounded, found, Option.filter_some, List.drop_left, ends]
  rfl

/-- One of two matches is bounded only where the first or the second is. -/
theorem bounded_orElse_eq_none (first : r.bounded chars = none) (second : s.bounded chars = none) :
    (orElse r s).bounded chars = none := by
  rw [bounded, orElse]
  cases found : r chars with
  | none => rwa [Option.none_or]
  | some n =>
    rw [Option.some_or]
    rwa [bounded, found] at first

/-- A word is a bounded match only where it is the run of a name. -/
theorem bounded_tag_eq_none {word : List Char} (letters : ∀ c ∈ word, isNameChar c = true)
    (other : chars.takeWhile isNameChar ≠ word) : (tag word).bounded chars = none := by
  by_cases front : word <+: chars
  · obtain ⟨rest, rfl⟩ := front
    have goes : rest.head?.any isNameChar = true := by
      by_contra ends
      refine other (Stops.takeWhile_append letters fun c mem => ?_)
      rw [mem, Option.any_some, Bool.not_eq_true] at ends
      exact ends
    rw [bounded, Takes.tag word rest, Option.filter_some, List.drop_left, goes]
    rfl
  · exact bounded_eq_none (tag_eq_none front)

/-- Where a word that matches is no bounded match, it is not the run of a name. -/
theorem takeWhile_ne_of_bounded {word : List Char} (matches_ : ∀ rest, Takes r word rest)
    (missed : r.bounded chars = none) : chars.takeWhile isNameChar ≠ word := by
  rintro rfl
  have stops : Stops isNameChar (chars.dropWhile isNameChar) := by
    intro c mem
    have outside := List.head?_dropWhile_not isNameChar chars
    rw [mem] at outside
    simpa using outside
  have found := (matches_ _).bounded stops
  rw [Takes, List.takeWhile_append_dropWhile, missed] at found
  cases found

/-- Infinity has a name. -/
theorem specialDouble_INF (rest : List Char) : Takes specialDouble "INF".toList rest :=
  rfl

/-- What is no number has a name. -/
theorem specialDouble_NaN (rest : List Char) : Takes specialDouble "NaN".toList rest :=
  rfl

end

/-- The words that are tokens of their own. -/
def reserved : List (List Char) :=
  [['I', 'N', 'F'], ['N', 'a', 'N'], ['t', 'r', 'u', 'e'], ['f', 'a', 'l', 's', 'e'],
    ['n', 'u', 'l', 'l']]

/-- Names with points between them that do not start with a word of its own. -/
def Word (chars : List Char) : Prop :=
  Qualified chars ∧ chars.takeWhile isNameChar ∉ reserved

end Recognizer

namespace Cursor

open Recognizer

/-- The token of a kind that the next characters are, and the place behind them. -/
def taken (c : Cursor) (kind : TokenKind) (n : Nat) : Token × Cursor :=
  (⟨kind, c.ahead n, c.offset⟩, c.advance n)

section

variable {c : Cursor}

/-- A bounded reading is a bounded match. -/
theorem bounded_eq (r : Recognizer) (expected : String) :
    c.bounded r expected = match r.bounded c.rest with
      | some n => .ok (c.ahead n, c.advance n)
      | none => .error (c.error s!"expected {expected}") := by
  rw [Cursor.bounded, recognize, Recognizer.bounded]
  cases r c.rest with
  | none => rfl
  | some n =>
    by_cases goes : (c.rest.drop n).head?.any isNameChar = true
    · simp only [Option.filter_some, peek, advance, goes]
      rfl
    · rw [Bool.not_eq_true] at goes
      simp only [Option.filter_some, peek, advance, goes]
      rfl

/-- A token of a bounded reading is a bounded match. -/
theorem tokenOf_bounded (kind : TokenKind) (r : Recognizer) (expected : String) :
    c.tokenOf kind (c.bounded r expected) = (r.bounded c.rest).map (c.taken kind) := by
  rw [bounded_eq]
  cases r.bounded c.rest <;> rfl

/-- A token of a reading is a match. -/
theorem tokenOf_recognize (kind : TokenKind) (r : Recognizer) (expected : String) :
    c.tokenOf kind (c.recognize r expected) = (r c.rest).map (c.taken kind) := by
  rw [recognize]
  cases r c.rest <;> rfl

/-- The kind that the spelling of a number tells, as that of a token. -/
def numeralKind (c : Cursor) (n : Nat) : TokenKind :=
  (numberKind (c.rest.take n)).token

/-- A number is one of the doubles that have names, or else a numeral. -/
def numberToken (c : Cursor) : Option (Token × Cursor) :=
  ((specialDouble.bounded c.rest).map (c.taken .double)).or
    ((Recognizer.number.bounded c.rest).map fun n => c.taken (c.numeralKind n) n)

/-- A token that is neither punctuation nor text is of the first kind that matches. -/
theorem wordToken_eq (first : Char) : c.wordToken first =
    (((Recognizer.guid.bounded c.rest).map (c.taken .guid)).or
    (((Recognizer.dateTimeOffset.bounded c.rest).map (c.taken .dateTimeOffset)).or
    (((Recognizer.date.bounded c.rest).map (c.taken .date)).or
    (((Recognizer.timeOfDay.bounded c.rest).map (c.taken .timeOfDay)).or
    (c.numberToken.or
    (if first == '-' then some (⟨.minus, "-", c.offset⟩, c.advance 1) else
    ((c.tokenOf .duration c.duration).or
    ((((tag "true".toList).bounded c.rest).map (c.taken .boolean)).or
    ((((tag "false".toList).bounded c.rest).map (c.taken .boolean)).or
    ((((tag "null".toList).bounded c.rest).map (c.taken .null)).or
    ((c.tokenOf .enum c.enumSpelling).or
    ((Recognizer.qualifiedIdentifier c.rest).map (c.taken .identifier))))))))))))) := by
  have numeral : c.numberToken
      = c.number.toOption.map fun r => ((⟨r.1.1.token, r.1.2, c.offset⟩ : Token), r.2) := by
    rw [number, bounded_eq, numberToken]
    cases specialDouble.bounded c.rest with
    | some n => rfl
    | none =>
      simp only
      rw [bounded_eq]
      cases Recognizer.number.bounded c.rest with
      | none => rfl
      | some n =>
        simp only [Except.map, Except.toOption, taken, numeralKind, ahead, String.toList_ofList,
          Option.map_some, Option.map_none, Option.none_or]
  rw [wordToken, numeral]
  cases c.number <;> simp only [Option.orElse_eq_or, Cursor.guid, Cursor.dateTimeOffset, Cursor.date,
    Cursor.timeOfDay, Cursor.keyword, Cursor.qualifiedIdentifier, tokenOf_bounded,
    tokenOf_recognize, Except.toOption, Option.map_some, Option.map_none]

variable {t : Token} {next : Cursor} {first : Char}

/-- A number is no name. -/
theorem numberToken_kind (found : c.numberToken = some (t, next)) :
    t.kind = .integer ∨ t.kind = .decimal ∨ t.kind = .double := by
  rcases Option.or_eq_some_iff.mp found with special | ⟨-, numeral⟩
  · obtain ⟨n, -, same⟩ := Option.map_eq_some_iff.mp special
    cases same
    exact .inr (.inr rfl)
  · obtain ⟨n, -, same⟩ := Option.map_eq_some_iff.mp numeral
    cases same
    rw [numeralKind]
    cases numberKind (c.rest.take n)
    · exact .inl rfl
    · exact .inr (.inl rfl)
    · exact .inr (.inr rfl)

/-- A match gives a token of its kind. -/
theorem kind_taken {kind : TokenKind} {r : Recognizer} {u : Token} {d : Cursor}
    (found : (r c.rest).map (c.taken kind) = some (u, d)) : u.kind = kind := by
  obtain ⟨n, -, same⟩ := Option.map_eq_some_iff.mp found
  cases same
  rfl

/-- A token that was read has the text that was read. -/
theorem tokenOf_some {kind : TokenKind} {read : Read String}
    (found : c.tokenOf kind read = some (t, next)) :
    ∃ text, read = .ok (text, next) ∧ t = ⟨kind, text, c.offset⟩ := by
  unfold tokenOf at found
  split at found
  · rename_i text d
    cases found
    exact ⟨text, rfl, rfl⟩
  · cases found

/-- An integer or a decimal is written as a number of its kind. -/
theorem wordToken_number (found : c.wordToken first = some (t, next))
    (kind : t.kind = .integer ∨ t.kind = .decimal) :
    ∃ n, t.text = c.ahead n ∧ t.kind = c.numeralKind n := by
  have other {kind' : TokenKind} {r : Recognizer}
      (given : (r.bounded c.rest).map (c.taken kind') = some (t, next))
      (apart : kind' ≠ .integer ∧ kind' ≠ .decimal) : False := by
    rw [kind_taken given] at kind
    exact kind.elim apart.1 apart.2
  rw [wordToken_eq] at found
  rcases Option.or_eq_some_iff.mp found with guid | ⟨-, found⟩
  · exact (other guid (by decide)).elim
  rcases Option.or_eq_some_iff.mp found with timed | ⟨-, found⟩
  · exact (other timed (by decide)).elim
  rcases Option.or_eq_some_iff.mp found with date | ⟨-, found⟩
  · exact (other date (by decide)).elim
  rcases Option.or_eq_some_iff.mp found with time | ⟨-, found⟩
  · exact (other time (by decide)).elim
  rcases Option.or_eq_some_iff.mp found with number | ⟨-, found⟩
  · rcases Option.or_eq_some_iff.mp number with special | ⟨-, numeral⟩
    · exact (other special (by decide)).elim
    · obtain ⟨n, -, same⟩ := Option.map_eq_some_iff.mp numeral
      cases same
      exact ⟨n, rfl, rfl⟩
  split at found
  · cases found
    simp at kind
  rcases Option.or_eq_some_iff.mp found with duration | ⟨-, found⟩
  · obtain ⟨text, -, rfl⟩ := tokenOf_some duration
    simp at kind
  rcases Option.or_eq_some_iff.mp found with yes | ⟨-, found⟩
  · exact (other yes (by decide)).elim
  rcases Option.or_eq_some_iff.mp found with no | ⟨-, found⟩
  · exact (other no (by decide)).elim
  rcases Option.or_eq_some_iff.mp found with null | ⟨-, found⟩
  · exact (other null (by decide)).elim
  rcases Option.or_eq_some_iff.mp found with enum | identifier
  · obtain ⟨text, -, rfl⟩ := tokenOf_some enum
    simp at kind
  · rw [kind_taken identifier.2] at kind
    simp at kind

/-- A word is a date, or it is a name where none of the reserved words is, or something else. -/
theorem wordToken_cases (found : c.wordToken first = some (t, next)) :
    (t.kind ∈ [.date, .dateTimeOffset] ∧ ∃ r ∈ [Recognizer.dateTimeOffset, Recognizer.date],
      ∃ n, r c.rest = some n ∧ t.text = c.ahead n) ∨
    (c.rest.takeWhile isNameChar ∉ reserved ∧ (c.tokenOf .enum c.enumSpelling = some (t, next) ∨
      (Recognizer.qualifiedIdentifier c.rest).map (c.taken .identifier) = some (t, next))) ∨
    t.kind ∉ [.date, .dateTimeOffset, .enum, .identifier] := by
  have match_ {kind : TokenKind} {r : Recognizer}
      (given : (r.bounded c.rest).map (c.taken kind) = some (t, next)) :
      ∃ n, r c.rest = some n ∧ t.text = c.ahead n := by
    obtain ⟨n, bounded, same⟩ := Option.map_eq_some_iff.mp given
    cases same
    exact ⟨n, (Option.filter_eq_some_iff.mp bounded).1, rfl⟩
  rw [wordToken_eq] at found
  rcases Option.or_eq_some_iff.mp found with guid | ⟨-, found⟩
  · exact .inr (.inr (kind_taken guid ▸ by decide))
  rcases Option.or_eq_some_iff.mp found with timed | ⟨-, found⟩
  · exact .inl ⟨by simp [kind_taken timed], _, List.mem_cons_self, match_ timed⟩
  rcases Option.or_eq_some_iff.mp found with date | ⟨-, found⟩
  · exact .inl ⟨by simp [kind_taken date], _, List.mem_cons_of_mem _ List.mem_cons_self,
      match_ date⟩
  rcases Option.or_eq_some_iff.mp found with time | ⟨-, found⟩
  · exact .inr (.inr (kind_taken time ▸ by decide))
  rcases Option.or_eq_some_iff.mp found with number | ⟨number, found⟩
  · rcases numberToken_kind number with same | same | same <;>
      exact .inr (.inr (same ▸ by decide))
  split at found
  · cases found
    exact .inr (.inr (by simp))
  rcases Option.or_eq_some_iff.mp found with duration | ⟨-, found⟩
  · obtain ⟨text, -, rfl⟩ := tokenOf_some duration
    exact .inr (.inr (by simp))
  rcases Option.or_eq_some_iff.mp found with yes | ⟨yes, found⟩
  · exact .inr (.inr (kind_taken yes ▸ by decide))
  rcases Option.or_eq_some_iff.mp found with no | ⟨no, found⟩
  · exact .inr (.inr (kind_taken no ▸ by decide))
  rcases Option.or_eq_some_iff.mp found with null | ⟨null, found⟩
  · exact .inr (.inr (kind_taken null ▸ by decide))
  have special := Option.map_eq_none_iff.mp (Option.or_eq_none_iff.mp number).1
  refine .inr (.inl ⟨fun mem => ?_, (Option.or_eq_some_iff.mp found).imp_right And.right⟩)
  simp only [reserved, List.mem_cons, List.not_mem_nil, or_false] at mem
  rcases mem with same | same | same | same | same
  · exact takeWhile_ne_of_bounded specialDouble_INF special same
  · exact takeWhile_ne_of_bounded specialDouble_NaN special same
  · exact takeWhile_ne_of_bounded (Takes.tag _) (Option.map_eq_none_iff.mp yes) same
  · exact takeWhile_ne_of_bounded (Takes.tag _) (Option.map_eq_none_iff.mp no) same
  · exact takeWhile_ne_of_bounded (Takes.tag _) (Option.map_eq_none_iff.mp null) same

/-- A run of a name that is stopped does not depend on what stops it. -/
theorem takeWhile_stopped {p : Char → Bool} {front rest : List Char} (stops : Stops p rest) :
    (front ++ rest).takeWhile p = front.takeWhile p := by
  rw [List.takeWhile_append, stops.takeWhile_eq, List.append_nil]
  split
  · rename_i all
    exact ((List.takeWhile_prefix p).eq_of_length all).symm
  · rfl

/-- A name is a word, whatever stands around it. -/
theorem word_of_identifier (found : c.wordToken first = some (t, next))
    (named : t.kind = .identifier) : Word t.text.toList := by
  obtain ⟨date, -⟩ | ⟨run, enum | identifier⟩ | other := wordToken_cases found
  · simp [named] at date
  · obtain ⟨text, -, rfl⟩ := tokenOf_some enum
    cases named
  · obtain ⟨n, qualified, same⟩ := Option.map_eq_some_iff.mp identifier
    obtain ⟨front, rest, split, rfl, name, stops⟩ := qualifiedIdentifier_some qualified
    cases same
    simp only [ahead, String.toList_ofList, split, List.take_left]
    rw [split, takeWhile_stopped stops] at run
    exact ⟨name, run⟩
  · simp [named] at other

/-- Behind the text in quotes there is a place further on. -/
theorem singleQuoted_some {chars found content : List Char} {n m : Nat}
    (read : singleQuoted chars found n = some (content, m)) : n < m := by
  fun_induction singleQuoted chars found n with
  | case1 => cases read
  | case2 rest found n ih =>
    have := ih read
    omega
  | case3 =>
    cases read
    omega
  | case4 c rest found n apart other ih =>
    have := ih read
    omega

/-- A reading is a match. -/
theorem recognize_ok {r : Recognizer} {expected text : String}
    (read : c.recognize r expected = .ok (text, next)) :
    ∃ n, r c.rest = some n ∧ text = c.ahead n ∧ next = c.advance n := by
  rw [recognize] at read
  split at read
  · rename_i n found
    cases read
    exact ⟨n, found, rfl, rfl⟩
  · cases read

/-- A text in quotes takes a character more than its first quote. -/
theorem quotedString_ok {text : String} (read : c.quotedString = .ok (text, next)) :
    ∃ n, 1 < n ∧ next = c.advance n := by
  rw [quotedString, delimited] at read
  split at read
  · cases read
  split at read
  · rename_i content n found
    cases read
    exact ⟨n, singleQuoted_some found, rfl⟩
  · cases read

/-- The text of an enumeration value starts with a word in front of a quote. -/
theorem word_of_enum (found : c.wordToken first = some (t, next)) (enum : t.kind = .enum) :
    ∃ name members, t.text.toList = name ++ '\'' :: members ∧ Word name := by
  obtain ⟨date, -⟩ | ⟨run, value | identifier⟩ | other := wordToken_cases found
  · simp [enum] at date
  · obtain ⟨text, spelling, rfl⟩ := tokenOf_some value
    obtain ⟨⟨parts, last⟩, literal, same⟩ := map_ok spelling
    cases same
    rw [enumLiteral] at literal
    split at literal
    · cases literal
    rename_i word behind qualified
    split at literal
    · rename_i quote
      obtain ⟨⟨members, end_⟩, quoted, same⟩ := map_ok literal
      cases same
      obtain ⟨n, matched, rfl, rfl⟩ := recognize_ok qualified
      obtain ⟨m, long, rfl⟩ := quotedString_ok quoted
      obtain ⟨front, rest, split, rfl, name, stops⟩ := qualifiedIdentifier_some matched
      simp only [peek, advance, split, List.drop_left, beq_iff_eq] at quote
      obtain ⟨more, rfl⟩ : ∃ more, rest = '\'' :: more := by
        cases rest with
        | nil => cases quote
        | cons d more =>
          cases quote
          exact ⟨more, rfl⟩
      rw [split, takeWhile_stopped stops] at run
      have count : ∃ j, c.rest.length - ((c.advance front.length).advance m).rest.length
          = front.length + (j + 1) := by
        refine ⟨min (m - 1) more.length, ?_⟩
        simp only [advance, split, List.drop_left, List.length_append, List.length_drop,
          List.length_cons]
        omega
      obtain ⟨j, count⟩ := count
      refine ⟨front, more.take j, ?_, name, run⟩
      rw [count, String.toList_ofList, split, List.take_length_add_append, List.take_succ_cons]
    · cases literal
  · rw [kind_taken identifier] at enum
    cases enum
  · simp [enum] at other

/-- A date, with a time or without, starts with a digit. -/
theorem digit_of_date (found : c.wordToken first = some (t, next))
    (date : t.kind ∈ [.date, .dateTimeOffset]) :
    ∃ d more, t.text.toList = d :: more ∧ isDigit d = true := by
  obtain ⟨-, r, mem, n, matched, text⟩ | ⟨-, enum | identifier⟩ | other := wordToken_cases found
  · -- Either reading starts with four digits of a year.
    have starts : ∃ i j, Recognizer.date c.rest = some i ∧ n = i + j := by
      simp only [List.mem_cons, List.not_mem_nil, or_false] at mem
      rcases mem with rfl | rfl
      · obtain ⟨i, j, found, -, rfl⟩ := andThen_some matched
        exact ⟨i, j, found, rfl⟩
      · exact ⟨n, 0, matched, rfl⟩
    obtain ⟨i, j, found, rfl⟩ := starts
    obtain ⟨k, l, digits, -, rfl⟩ := andThen_some found
    obtain ⟨rfl, front, rest, split, length, all⟩ := exactly_some digits
    cases front with
    | nil => cases length
    | cons d more =>
      refine ⟨d, (more ++ rest).take (3 + l + j), ?_, all d List.mem_cons_self⟩
      have count : 4 + l + j = 3 + l + j + 1 := by omega
      rw [text, ahead, split, count, List.cons_append, List.take_succ_cons, String.toList_ofList]
  · obtain ⟨text, -, rfl⟩ := tokenOf_some enum
    simp at date
  · rw [kind_taken identifier] at date
    simp at date
  · simp_all

end

end Cursor

namespace Recognizer

section

variable {front rest chars : List Char}

/-- The characters of a name. -/
theorem Identifier.mem (name : Identifier front) {c : Char} (mem : c ∈ front) :
    isNameChar c = true ∨ c = '$' := by
  obtain ⟨lead, first, more, rfl, dollar, letter, all⟩ := name
  rw [List.mem_append, List.mem_cons] at mem
  rcases mem with sign | rfl | more
  · rcases dollar with rfl | rfl
    · cases sign
    · exact .inr (List.mem_singleton.mp sign)
  · left
    rw [Bool.or_eq_true] at letter
    rcases letter with letter | line
    · exact isNameChar_of_isAlphabetic letter
    · rw [isNameChar, line, Bool.or_true]
  · exact .inl (all c more)

/-- A name starts as one. -/
theorem Identifier.head (name : Identifier front) :
    ∃ first more, front = first :: more ∧ startsName first = true := by
  obtain ⟨lead, first, more, rfl, rfl | rfl, letter, -⟩ := name
  · exact ⟨first, more, rfl, by rw [startsName, letter, Bool.true_or]⟩
  · exact ⟨'$', first :: more, rfl, rfl⟩

/-- The characters of names with points between them. -/
theorem Qualified.mem (name : Qualified front) {c : Char} (mem : c ∈ front) :
    isNameChar c = true ∨ c = '$' ∨ c = '.' := by
  obtain ⟨first, others, rfl, start, names⟩ := name
  rw [List.mem_append, List.mem_flatMap] at mem
  rcases mem with mem | ⟨other, among, mem⟩
  · exact (start.mem mem).imp_right .inl
  · rcases List.mem_cons.mp mem with rfl | mem
    · exact .inr (.inr rfl)
    · exact ((names other among).mem mem).imp_right .inl

/-- Names with points between them start as one. -/
theorem Qualified.head (name : Qualified front) :
    ∃ first more, front = first :: more ∧ startsName first = true := by
  obtain ⟨first, others, rfl, start, -⟩ := name
  obtain ⟨c, more, rfl, starts⟩ := start.head
  exact ⟨c, more ++ others.flatMap ('.' :: ·), rfl, starts⟩

/-- The first character outside a class is in front, or else the first of what stops it. -/
theorem head_dropWhile {p : Char → Bool} (stops : Stops p rest) {c : Char}
    (mem : ((front ++ rest).dropWhile p).head? = some c) : c ∈ front ∨ rest.head? = some c := by
  induction front with
  | nil =>
    cases rest with
    | nil => cases mem
    | cons d more =>
      rw [List.nil_append, List.dropWhile_cons_of_neg (by simp [stops d rfl])] at mem
      exact .inr mem
  | cons d more ih =>
    by_cases inside : p d = true
    · rw [List.cons_append, List.dropWhile_cons_of_pos inside] at mem
      exact (ih mem).imp_left (List.mem_cons_of_mem d)
    · rw [List.cons_append, List.dropWhile_cons_of_neg inside] at mem
      cases mem
      exact .inl List.mem_cons_self

/-- Hexadecimal groups are missed where no hyphen follows the first digits. -/
theorem guid_eq_none (other : (chars.takeWhile isHexDigit).length = 8 →
    (chars.dropWhile isHexDigit).head? ≠ some '-') : guid chars = none :=
  exactly_mark_eq_none rfl other

/-- A date is missed where no hyphen follows the first digits. -/
theorem date_eq_none (other : (chars.takeWhile isDigit).length = 4 →
    (chars.dropWhile isDigit).head? ≠ some '-') : date chars = none :=
  exactly_mark_eq_none rfl other

/-- A time is missed where no colon follows the first digits. -/
theorem timeOfDay_eq_none (other : (chars.takeWhile isDigit).length = 2 →
    (chars.dropWhile isDigit).head? ≠ some ':') : timeOfDay chars = none :=
  exactly_mark_eq_none rfl other

/-- A point in time is missed where a date is. -/
theorem dateTimeOffset_eq_none (missed : date chars = none) : dateTimeOffset chars = none :=
  sequence_eq_none missed

/-- A reserved word is missed in front of other names. -/
theorem reserved_eq_none (run : chars.takeWhile isNameChar ∉ reserved) {word : List Char}
    (mem : word ∈ reserved) : (tag word).bounded chars = none := by
  have letters : reserved.all (·.all isNameChar) = true := by decide
  have letters := List.all_eq_true.mp (List.all_eq_true.mp letters word mem)
  exact bounded_tag_eq_none letters fun same => run (same ▸ mem)

/-- The names of doubles are missed in front of other names. -/
theorem specialDouble_eq_none (plain : chars.head? ≠ some '-')
    (noInf : chars.takeWhile isNameChar ≠ ['I', 'N', 'F'])
    (noNan : chars.takeWhile isNameChar ≠ ['N', 'a', 'N']) :
    specialDouble.bounded chars = none := by
  have minus : tag "-INF".toList chars = none := by
    refine tag_eq_none fun front => plain ?_
    obtain ⟨rest, rfl⟩ := front
    rfl
  have letters {word : List Char} (all : word.all isNameChar = true)
      (other : chars.takeWhile isNameChar ≠ word) : (tag word).bounded chars = none :=
    bounded_tag_eq_none (List.all_eq_true.mp all) other
  exact bounded_orElse_eq_none (bounded_eq_none minus)
    (bounded_orElse_eq_none (letters (by decide) noInf) (letters (by decide) noNan))

/-- A number is missed where neither a digit nor a minus is in front. -/
theorem number_eq_none (stops : Stops isDigit chars) (plain : chars.head? ≠ some '-') :
    number chars = none := by
  have minus : mark '-' chars = none :=
    one_eq_none fun c mem => beq_eq_false_iff_ne.mpr fun same => plain (same ▸ mem)
  rw [number, sequence, andThen, optional, minus, Option.bind_some, Option.getD_none,
    List.drop_zero, sequence_eq_none (run_eq_none stops)]
  rfl

end

end Recognizer

namespace Cursor

open Recognizer

section

variable {front rest : List Char} {offset : Nat} {first : Char}

/-- Nothing is quoted where no quote is in front. -/
theorem quotedString_error {c : Cursor} (other : c.rest.head? ≠ some '\'') :
    ∃ e, c.quotedString = .error e := by
  have missed : mark '\'' c.rest = none :=
    one_eq_none fun d mem => beq_eq_false_iff_ne.mpr fun same => other (same ▸ mem)
  rw [quotedString, delimited, char, recognize, missed]
  exact ⟨_, rfl⟩

/-- A duration is missed where no quote follows its keyword. -/
theorem duration_eq_none (offset : Nat) (other : ∀ more, rest ≠ "duration".toList ++ '\'' :: more) :
    (⟨offset, rest⟩ : Cursor).tokenOf .duration (duration ⟨offset, rest⟩) = none := by
  by_cases front : "duration".toList <+: rest
  · obtain ⟨more, rfl⟩ := front
    have keyword : tag "duration".toList ("duration".toList ++ more) = some 8 := Takes.tag _ more
    obtain ⟨e, missed⟩ := quotedString_error
      (c := (⟨offset, "duration".toList ++ more⟩ : Cursor).advance 8) (fun quote => by
        cases more with
        | nil => cases quote
        | cons d more =>
          cases quote
          exact other more rfl)
    rw [duration, recognize]
    simp only [keyword, missed, tokenOf]
  · have missed := tag_eq_none front
    rw [duration, recognize]
    simp only [missed, tokenOf]

/-- An enumeration value is missed where no quote follows its name. -/
theorem enumSpelling_eq_none (offset : Nat) (name : Qualified front) (stops : Stops isNameChar rest)
    (last : rest.head? ≠ some '.') (other : rest.head? ≠ some '\'') :
    (⟨offset, front ++ rest⟩ : Cursor).tokenOf .enum (enumSpelling ⟨offset, front ++ rest⟩)
      = none := by
  have found := name.takes stops last
  have next : ((⟨offset, front ++ rest⟩ : Cursor).advance front.length).peek ≠ some '\'' := by
    rwa [peek, advance, List.drop_left]
  rw [enumSpelling, enumLiteral, qualifiedIdentifier, recognize, found]
  simp only
  rw [if_neg (by simpa using next)]
  rfl

/-- A word is no number, and no date, where a letter is in front and no hyphen follows. -/
theorem wordToken_letters (offset : Nat) (starts : front.head? = some first) (letter : startsName first = true)
    (plain : '-' ∉ front) (stops : Stops isHexDigit rest) (hyphen : rest.head? ≠ some '-')
    (noInf : (front ++ rest).takeWhile isNameChar ≠ ['I', 'N', 'F'])
    (noNan : (front ++ rest).takeWhile isNameChar ≠ ['N', 'a', 'N']) :
    (⟨offset, front ++ rest⟩ : Cursor).wordToken first =
      (((⟨offset, front ++ rest⟩ : Cursor).tokenOf .duration (duration ⟨offset, front ++ rest⟩)).or
      ((((tag ['t', 'r', 'u', 'e']).bounded (front ++ rest)).map
        ((⟨offset, front ++ rest⟩ : Cursor).taken .boolean)).or
      ((((tag ['f', 'a', 'l', 's', 'e']).bounded (front ++ rest)).map
        ((⟨offset, front ++ rest⟩ : Cursor).taken .boolean)).or
      ((((tag ['n', 'u', 'l', 'l']).bounded (front ++ rest)).map
        ((⟨offset, front ++ rest⟩ : Cursor).taken .null)).or
      (((⟨offset, front ++ rest⟩ : Cursor).tokenOf .enum (enumSpelling ⟨offset, front ++ rest⟩)).or
      ((Recognizer.qualifiedIdentifier (front ++ rest)).map
        ((⟨offset, front ++ rest⟩ : Cursor).taken .identifier))))))) := by
  cases front with
  | nil => cases starts
  | cons c more =>
    cases starts
    have digit : Stops isDigit (first :: more ++ rest) := .cons (isDigit_of_startsName letter)
    have noMinus : first ≠ '-' := by
      rintro rfl
      cases letter
    have noGuid : Recognizer.guid (first :: more ++ rest) = none := by
      refine guid_eq_none fun _ found => ?_
      rcases head_dropWhile stops found with mem | next
      · exact plain mem
      · exact hyphen next
    have noDate : Recognizer.date (first :: more ++ rest) = none :=
      date_eq_none fun length => by rw [digit.takeWhile_eq] at length; cases length
    have noTime : Recognizer.timeOfDay (first :: more ++ rest) = none :=
      timeOfDay_eq_none fun length => by rw [digit.takeWhile_eq] at length; cases length
    have noNumber : Recognizer.number (first :: more ++ rest) = none :=
      number_eq_none digit (by simpa using noMinus)
    have noSpecial := specialDouble_eq_none (by simpa using noMinus) noInf noNan
    rw [wordToken_eq, numberToken]
    simp only [bounded_eq_none noGuid, bounded_eq_none noDate, bounded_eq_none noTime,
      bounded_eq_none (dateTimeOffset_eq_none noDate), bounded_eq_none noNumber, noSpecial,
      Option.map_none, Option.none_or]
    rw [if_neg (by simpa using noMinus)]
    rfl

/-- A word in front of what does not go on with it is no keyword in front of a quote. -/
theorem ne_duration (name : Word front) (stops : Stops isNameChar rest)
    (unquoted : front = "duration".toList → rest.head? ≠ some '\'') (more : List Char) :
    front ++ rest ≠ "duration".toList ++ '\'' :: more := by
  intro same
  rcases List.append_eq_append_iff.mp same with ⟨back, keyword, behind⟩ | ⟨back, word, behind⟩
  · cases back with
    | nil => exact unquoted (by simpa using keyword.symm) (by rw [behind]; rfl)
    | cons c back =>
      -- The rest of the keyword would go on with the word.
      have letters : "duration".toList.all isNameChar = true := by decide
      have letter := List.all_eq_true.mp letters c (by simp [keyword])
      rw [stops c (by rw [behind]; rfl)] at letter
      cases letter
  · cases back with
    | nil => exact unquoted (by simpa using word) (by rw [← List.nil_append rest, ← behind]; rfl)
    | cons c back =>
      cases behind
      have foreign := name.1.mem (c := '\'') (by simp [word])
      exact absurd foreign (by decide)

/-- A word is the name of an enumeration value, or else a name. -/
theorem wordToken_word (offset : Nat) (name : Word front) (starts : front.head? = some first)
    (stops : Stops isNameChar rest) (last : rest.head? ≠ some '.') (hyphen : rest.head? ≠ some '-')
    (unquoted : front = "duration".toList → rest.head? ≠ some '\'') :
    (⟨offset, front ++ rest⟩ : Cursor).wordToken first
      = ((⟨offset, front ++ rest⟩ : Cursor).tokenOf .enum (enumSpelling ⟨offset, front ++ rest⟩)).or
          (some ((⟨offset, front ++ rest⟩ : Cursor).taken .identifier front.length)) := by
  have run : (front ++ rest).takeWhile isNameChar ∉ reserved := by
    rw [takeWhile_stopped stops]
    exact name.2
  have letter : startsName first = true := by
    obtain ⟨c, more, rfl, letter⟩ := name.1.head
    cases starts
    exact letter
  have plain : '-' ∉ front := fun mem => absurd (name.1.mem mem) (by decide)
  have found := name.1.takes stops last
  have hex : Stops isHexDigit rest := stops.of_imp fun c => isNameChar_of_isHexDigit
  rw [wordToken_letters offset starts letter plain hex hyphen
      (fun same => run (same ▸ by simp [reserved])) (fun same => run (same ▸ by simp [reserved])),
    duration_eq_none offset (ne_duration name stops unquoted), reserved_eq_none run (by simp [reserved]),
    reserved_eq_none run (by simp [reserved]), reserved_eq_none run (by simp [reserved]), found]
  rfl

end

end Cursor

namespace Cursor

variable {c next : Cursor} {t : Token} {first : Char}

/-- A date, a number or a name is read as a word. -/
theorem wordToken_of_tokenFrom (read : c.tokenFrom first = .ok (t, next))
    (kind : t.kind ∈ [.date, .dateTimeOffset, .integer, .decimal, .enum, .identifier]) :
    c.wordToken first = some (t, next) := by
  rw [tokenFrom] at read
  split at read
  · rename_i mark known
    cases read
    -- Punctuation is of other kinds.
    unfold TokenKind.punctuation? at known
    repeat' split at known
    all_goals cases known
    all_goals simp at kind
  split at read
  · obtain ⟨⟨text, last⟩, -, same⟩ := map_ok read
    cases same
    simp at kind
  split at read
  · rename_i found word
    cases read
    exact word
  · cases read

/-- Every token was read at some place. -/
theorem tokensUpTo_mem {fuel : Nat} {tokens : List Token} (read : c.tokensUpTo fuel = .ok tokens)
    (mem : t ∈ tokens) : ∃ (d next : Cursor) (first : Char), d.tokenFrom first = .ok (t, next) := by
  induction fuel generalizing c tokens with
  | zero =>
    cases read
    cases mem
  | succ fuel ih =>
    rw [tokensUpTo] at read
    split at read
    · cases read
    · cases read
      cases mem
    · rename_i token behind found
      obtain ⟨others, more, rfl⟩ := map_ok read
      rcases List.mem_cons.mp mem with rfl | mem
      · rw [nextToken] at found
        dsimp only at found
        split at found
        · cases found
        · rename_i first _
          obtain ⟨⟨u, last⟩, started, same⟩ := map_ok found
          cases same
          exact ⟨_, _, first, started⟩
      · exact ih more mem

end Cursor

section

variable {text : String} {tokens : List Token} {t : Token}

/-- A date, a number or a name among the tokens of a text was read as a word. -/
theorem tokenize_word (read : tokenize text = .ok tokens) (mem : t ∈ tokens)
    (kind : t.kind ∈ [.date, .dateTimeOffset, .integer, .decimal, .enum, .identifier]) :
    ∃ (c next : Cursor) (first : Char), c.wordToken first = some (t, next) := by
  obtain ⟨c, next, first, found⟩ := Cursor.tokensUpTo_mem read mem
  exact ⟨c, next, first, Cursor.wordToken_of_tokenFrom found kind⟩

/-- The names among the tokens of a text are words. -/
theorem tokenize_identifier (read : tokenize text = .ok tokens) (mem : t ∈ tokens)
    (named : t.kind = .identifier) : Recognizer.Word t.text.toList := by
  obtain ⟨c, next, first, found⟩ := tokenize_word read mem (by simp [named])
  exact Cursor.word_of_identifier found named

/-- The enumeration values among the tokens of a text are words in front of a quote. -/
theorem tokenize_enum (read : tokenize text = .ok tokens) (mem : t ∈ tokens)
    (enum : t.kind = .enum) :
    ∃ name members, t.text.toList = name ++ '\'' :: members ∧ Recognizer.Word name := by
  obtain ⟨c, next, first, found⟩ := tokenize_word read mem (by simp [enum])
  exact Cursor.word_of_enum found enum

/-- The dates among the tokens of a text start with a digit. -/
theorem tokenize_date (read : tokenize text = .ok tokens) (mem : t ∈ tokens)
    (date : t.kind ∈ [.date, .dateTimeOffset]) :
    ∃ d more, t.text.toList = d :: more ∧ isDigit d = true := by
  have kind : t.kind ∈ [.date, .dateTimeOffset, .integer, .decimal, .enum, .identifier] :=
    List.mem_append_left [TokenKind.integer, .decimal, .enum, .identifier] date
  obtain ⟨c, next, first, found⟩ := tokenize_word read mem kind
  exact Cursor.digit_of_date found date

/-- The integers and decimals among the tokens of a text have no exponent. -/
theorem tokenize_number (read : tokenize text = .ok tokens) (mem : t ∈ tokens)
    (kind : t.kind = .integer ∨ t.kind = .decimal) : 'e' ∉ t.text.toList ∧ 'E' ∉ t.text.toList := by
  have word : t.kind ∈ [.date, .dateTimeOffset, .integer, .decimal, .enum, .identifier] := by
    rcases kind with same | same <;> simp [same]
  obtain ⟨c, next, first, found⟩ := tokenize_word read mem word
  obtain ⟨n, same, numeral⟩ := Cursor.wordToken_number found kind
  rw [same, Cursor.ahead, String.toList_ofList]
  rw [numeral, Cursor.numeralKind, Cursor.numberKind] at kind
  -- With an exponent the number would be a double.
  by_contra mark
  have marked : ((c.rest.take n).contains 'e' || (c.rest.take n).contains 'E') = true := by
    simp only [Bool.or_eq_true, List.contains_iff_mem]
    by_contra none
    exact mark (not_or.mp none)
  rw [if_pos marked] at kind
  simp [NumberKind.token] at kind

end

end EdmQuery
