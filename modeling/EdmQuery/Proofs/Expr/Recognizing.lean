import Mathlib
import EdmQuery.Expr.Recognizer
import EdmQuery.Proofs.Text.Letters

/-! What the lexical classes take off the front of a text, and what keeps them from it. -/

namespace EdmQuery

open Text

namespace Recognizer

/-- Exactly the characters in front are matched, with the others behind them. -/
def Takes (r : Recognizer) (front rest : List Char) : Prop :=
  r (front ++ rest) = some front.length

section

variable {a b : Recognizer} {p : Char → Bool} {front back rest chars : List Char} {n : Nat}

/-- One match after another takes both fronts. -/
theorem Takes.andThen (first : Takes a front (back ++ rest)) (second : Takes b back rest) :
    Takes (andThen a b) (front ++ back) rest := by
  have found : a (front ++ back ++ rest) = some front.length := by
    rw [List.append_assoc]
    exact first
  have behind : (front ++ back ++ rest).drop front.length = back ++ rest := by
    rw [List.append_assoc, List.drop_left]
  rw [Takes, Recognizer.andThen, found, Option.bind_some, behind, second, Option.map_some,
    List.length_append]

/-- No matches take nothing. -/
theorem Takes.end_ (rest : List Char) : Takes (sequence []) [] rest :=
  rfl

/-- A sequence takes what its first match takes and then what the others do. -/
theorem Takes.cons {others : List Recognizer} (first : Takes a front (back ++ rest))
    (second : Takes (sequence others) back rest) :
    Takes (sequence (a :: others)) (front ++ back) rest :=
  first.andThen second

/-- A sequence may end with any match. -/
theorem Takes.last (found : Takes a front rest) : Takes (sequence [a]) front rest := by
  have both : Takes (sequence [a]) (front ++ []) rest := found.cons (.end_ rest)
  rwa [List.append_nil] at both

/-- A match may be one of a single character. -/
theorem Takes.andThen_char {c : Char} (first : Takes a [c] (back ++ rest))
    (second : Takes b back rest) : Takes (Recognizer.andThen a b) (c :: back) rest :=
  first.andThen second

/-- A sequence may start with a match of a single character. -/
theorem Takes.char {c : Char} {others : List Recognizer} (first : Takes a [c] (back ++ rest))
    (second : Takes (sequence others) back rest) :
    Takes (sequence (a :: others)) (c :: back) rest :=
  first.andThen second

/-- What may match does so where it can. -/
theorem Takes.optional (found : Takes a front rest) : Takes (optional a) front rest := by
  rw [Takes, Recognizer.optional, found, Option.getD_some]

/-- What may match takes nothing where it cannot. -/
theorem Takes.nothing (none : a rest = none) : Takes (Recognizer.optional a) [] rest := by
  rw [Takes, Recognizer.optional, List.nil_append, none]
  rfl

/-- One character of a class is taken. -/
theorem Takes.one {c : Char} (mem : p c = true) (rest : List Char) : Takes (one p) [c] rest := by
  rw [Takes, List.singleton_append, Recognizer.one, if_pos mem, List.length_singleton]

/-- A given character is taken. -/
theorem Takes.mark (c : Char) (rest : List Char) : Takes (mark c) [c] rest :=
  .one (beq_self_eq_true c) rest

/-- A given text is taken. -/
theorem Takes.tag (word rest : List Char) : Takes (tag word) word rest := by
  induction word with
  | nil => rfl
  | cons c more ih =>
    rw [Takes, List.cons_append, Recognizer.tag, if_pos (beq_self_eq_true c), ih, Option.map_some,
      List.length_cons]

/-- A run is taken up to what stops it. -/
theorem Takes.run (all : ∀ c ∈ front, p c = true) (some_ : front ≠ []) (stops : Stops p rest) :
    Takes (run p) front rest := by
  have nonempty : (front.length == 0) = false := by simpa using some_
  rw [Takes, Recognizer.run]
  simp only [stops.takeWhile_append all, nonempty, Bool.false_eq_true, if_false]

/-- So many characters of a class are taken, whatever follows. -/
theorem Takes.exactly (all : ∀ c ∈ front, p c = true) (length : front.length = n)
    (rest : List Char) : Takes (exactly p n) front rest := by
  subst length
  induction front with
  | nil => rfl
  | cons c more ih =>
    obtain ⟨first, all⟩ := List.forall_mem_cons.mp all
    rw [Takes, List.cons_append, List.length_cons, Recognizer.exactly, if_pos first, ih all,
      Option.map_some]

/-- A text of another first character has no mark in front. -/
theorem one_eq_none (other : ∀ c ∈ chars.head?, p c = false) : one p chars = none := by
  cases chars with
  | nil => rfl
  | cons c rest => rw [one, other c rfl, if_neg Bool.false_ne_true]

/-- A sequence fails where its first match does. -/
theorem sequence_eq_none {others : List Recognizer} (missed : a chars = none) :
    sequence (a :: others) chars = none := by
  rw [sequence, andThen, missed]
  rfl

/-- A sequence fails where its first match is followed by what the others miss. -/
theorem Takes.sequence_eq_none {others : List Recognizer} (found : Takes a front rest)
    (missed : sequence others rest = none) : sequence (a :: others) (front ++ rest) = none := by
  rw [sequence, Recognizer.andThen, found, Option.bind_some, List.drop_left, missed]
  rfl

/-- A run fails where its class is stopped at once. -/
theorem run_eq_none (stops : Stops p chars) : run p chars = none := by
  rw [run, stops.takeWhile_eq]
  rfl

/-- A text is missed where the characters differ. -/
theorem tag_eq_none {word : List Char} (other : ¬ word <+: chars) : tag word chars = none := by
  induction word generalizing chars with
  | nil => exact absurd List.nil_prefix other
  | cons l lead ih =>
    cases chars with
    | nil => rfl
    | cons c rest =>
      rw [tag]
      split
      · rename_i same
        rw [ih fun front => other (eq_of_beq same ▸ List.cons_prefix_cons.mpr ⟨rfl, front⟩)]
        rfl
      · rfl

/-- So many characters of a class were found in front. -/
theorem exactly_some {k : Nat} (found : exactly p n chars = some k) :
    k = n ∧ ∃ front rest, chars = front ++ rest ∧ front.length = n ∧ ∀ c ∈ front, p c = true := by
  induction n generalizing chars k with
  | zero => exact ⟨(Option.some.inj found).symm, [], chars, rfl, rfl, by simp⟩
  | succ n ih =>
    cases chars with
    | nil => cases found
    | cons c more =>
      rw [exactly] at found
      split at found
      · rename_i first
        obtain ⟨j, others, rfl⟩ := Option.map_eq_some_iff.mp found
        obtain ⟨same, front, rest, rfl, length, all⟩ := ih others
        exact ⟨by rw [same], c :: front, rest, rfl, by rw [List.length_cons, length],
          List.forall_mem_cons.mpr ⟨first, all⟩⟩
      · cases found

/-- Digits of a fixed count with a mark behind them are missed where the run is another one. -/
theorem exactly_mark_eq_none {m : Char} {others : List Recognizer} (outside : p m = false)
    (other : (chars.takeWhile p).length = n → (chars.dropWhile p).head? ≠ some m) :
    sequence (exactly p n :: mark m :: others) chars = none := by
  rw [sequence, andThen]
  cases found : exactly p n chars with
  | none => rfl
  | some k =>
    obtain ⟨rfl, front, rest, rfl, length, all⟩ := exactly_some found
    rw [Option.bind_some, List.drop_left' length, sequence_eq_none, Option.map_none]
    refine one_eq_none fun c next => beq_eq_false_iff_ne.mpr ?_
    rintro rfl
    -- The mark ends the run, which then has just the count.
    have stops : Stops p rest := by
      intro d mem
      cases mem.symm.trans next
      exact outside
    rw [stops.takeWhile_append all, stops.dropWhile_append all] at other
    exact other length next

end

/-! Names. -/

/-- A name: a letter or an underscore, perhaps behind a dollar sign, then letters and digits. -/
def Identifier (chars : List Char) : Prop :=
  ∃ lead first more, chars = lead ++ first :: more ∧ (lead = [] ∨ lead = ['$']) ∧
    (isAlphabetic first || first == '_') = true ∧ ∀ c ∈ more, isNameChar c = true

/-- Names with points between them. -/
def Qualified (chars : List Char) : Prop :=
  ∃ (first : List Char) (others : List (List Char)),
    chars = first ++ others.flatMap ('.' :: ·) ∧ Identifier first ∧
      ∀ name ∈ others, Identifier name

section

variable {front rest chars : List Char} {n : Nat}

/-- A name is taken up to what could not go on with it. -/
theorem Identifier.takes (name : Identifier front) (stops : Stops isNameChar rest) :
    Takes identifier front rest := by
  obtain ⟨lead, first, more, rfl, dollar, letter, all⟩ := name
  have letters : Takes (sequence [one fun c => isAlphabetic c || c == '_',
      optional (run isNameChar)]) (first :: more) rest := by
    refine .char (.one letter _) (.last ?_)
    by_cases empty : more = []
    · rw [empty]
      exact .nothing (run_eq_none stops)
    · exact .optional (.run all empty stops)
  refine .cons ?_ letters
  rcases dollar with rfl | rfl
  · -- A letter is no dollar sign.
    refine .nothing (one_eq_none fun c mem => beq_eq_false_iff_ne.mpr ?_)
    rintro rfl
    cases mem
    exact absurd letter (by decide)
  · exact .optional (.mark '$' _)

/-- Some more names behind a first one are taken up to what could not go on with them. -/
theorem manyUpTo_names {others : List (List Char)} (names : ∀ name ∈ others, Identifier name)
    {fuel : Nat} (enough : others.length ≤ fuel) (stops : Stops isNameChar rest)
    (last : rest.head? ≠ some '.') :
    Takes (manyUpTo (andThen (mark '.') identifier) fuel) (others.flatMap ('.' :: ·)) rest := by
  induction others generalizing fuel with
  | nil =>
    cases fuel with
    | zero => rfl
    | succ fuel =>
      have missed : mark '.' rest = none :=
        one_eq_none fun c mem => beq_eq_false_iff_ne.mpr fun same => last (same ▸ mem)
      refine .nothing ?_
      rw [andThen, andThen, missed]
      rfl
  | cons name more ih =>
    obtain ⟨first, names⟩ := List.forall_mem_cons.mp names
    obtain ⟨fuel, rfl⟩ : ∃ k, fuel = k + 1 := ⟨fuel - 1, by simp at enough; omega⟩
    have others := ih names (by simpa using enough)
    refine .optional ?_
    rw [List.flatMap_cons]
    refine .andThen (.andThen_char (.mark '.' _) (first.takes ?_)) others
    cases more with
    | nil => exact stops
    | cons next more => exact .cons rfl

/-- Names with points between them are taken up to what could not go on with them. -/
theorem Qualified.takes (name : Qualified front) (stops : Stops isNameChar rest)
    (last : rest.head? ≠ some '.') : Takes qualifiedIdentifier front rest := by
  obtain ⟨first, others, rfl, start, names⟩ := name
  refine .andThen (start.takes ?_) (manyUpTo_names names ?_ stops last)
  · cases others with
    | nil => exact stops
    | cons next more => exact .cons rfl
  · -- Each name behind a point takes a character at least.
    have short (others : List (List Char)) :
        others.length ≤ (others.flatMap ('.' :: ·)).length := by
      induction others with
      | nil => rfl
      | cons name more ih =>
        rw [List.flatMap_cons, List.length_append, List.length_cons, List.length_cons]
        omega
    have := short others
    rw [List.length_append]
    omega

/-- Two matches after one another are found where the first is and behind it the second. -/
theorem andThen_some {a b : Recognizer} (found : andThen a b chars = some n) :
    ∃ i j, a chars = some i ∧ b (chars.drop i) = some j ∧ n = i + j := by
  obtain ⟨i, first, found⟩ := Option.bind_eq_some_iff.mp found
  obtain ⟨j, second, same⟩ := Option.map_eq_some_iff.mp found
  exact ⟨i, j, first, second, same.symm⟩

/-- What may match was found, or there is none and it takes nothing. -/
theorem optional_some {a : Recognizer} (found : optional a chars = some n) :
    a chars = some n ∨ a chars = none ∧ n = 0 := by
  have same := Option.some.inj found
  cases missed : a chars with
  | none =>
    rw [missed] at same
    exact .inr ⟨rfl, same.symm⟩
  | some k =>
    rw [missed] at same
    exact .inl (congrArg some same)

/-- A character that was found is in front. -/
theorem one_some {p : Char → Bool} (found : one p chars = some n) :
    n = 1 ∧ ∃ c rest, chars = c :: rest ∧ p c = true := by
  cases chars with
  | nil => cases found
  | cons c rest =>
    rw [one] at found
    split at found
    · rename_i mem
      exact ⟨(Option.some.inj found).symm, c, rest, rfl, mem⟩
    · cases found

/-- A run that may be missing is as long as it can be. -/
theorem optional_run {p : Char → Bool} (found : optional (run p) chars = some n) :
    n = (chars.takeWhile p).length := by
  have same := Option.some.inj found
  rw [← same, run]
  cases empty : (chars.takeWhile p).length == 0 with
  | true => rw [if_pos rfl, eq_of_beq empty, Option.getD_none]
  | false => rw [if_neg Bool.false_ne_true, Option.getD_some]

/-- The letters of a name that was found are in front of what does not go on with it. -/
theorem letters_some (found : sequence [one fun c => isAlphabetic c || c == '_',
      optional (run isNameChar)] chars = some n) :
    ∃ first more rest, chars = first :: more ++ rest ∧ (first :: more).length = n ∧
      (isAlphabetic first || first == '_') = true ∧ (∀ c ∈ more, isNameChar c = true) ∧
      Stops isNameChar rest := by
  obtain ⟨i, j, start, later, rfl⟩ := andThen_some found
  obtain ⟨rfl, first, others, rfl, letter⟩ := one_some start
  obtain ⟨k, l, run, last, rfl⟩ := andThen_some later
  cases last
  rw [optional_run run, List.drop_one, List.tail_cons]
  refine ⟨first, others.takeWhile isNameChar, others.dropWhile isNameChar, ?_, ?_, letter, ?_, ?_⟩
  · rw [List.cons_append, List.takeWhile_append_dropWhile]
  · rw [List.length_cons]
    omega
  · exact fun c mem => (List.mem_takeWhile_imp mem)
  · intro c mem
    have := List.head?_dropWhile_not isNameChar others
    rw [mem] at this
    simpa using this

/-- A name that was found is in front of what does not go on with it. -/
theorem identifier_some (found : identifier chars = some n) :
    ∃ front rest, chars = front ++ rest ∧ front.length = n ∧ Identifier front ∧
      Stops isNameChar rest := by
  rw [identifier, sequence] at found
  obtain ⟨i, j, dollar, later, rfl⟩ := andThen_some found
  obtain ⟨first, more, rest, letters, rfl, letter, all, stops⟩ := letters_some later
  rcases optional_some dollar with sign | ⟨-, rfl⟩
  · obtain ⟨rfl, c, others, rfl, mark⟩ := one_some sign
    rw [List.drop_one, List.tail_cons] at letters
    rw [eq_of_beq mark, letters]
    refine ⟨'$' :: first :: more, rest, rfl, ?_, ⟨['$'], first, more, rfl, .inr rfl, letter, all⟩,
      stops⟩
    simp only [List.length_cons]
    omega
  · rw [List.drop_zero] at letters
    rw [letters, Nat.zero_add]
    exact ⟨first :: more, rest, rfl, rfl, ⟨[], first, more, rfl, .inl rfl, letter, all⟩, stops⟩

/-- More names that were found behind a first one are in front of what does not go on with them. -/
theorem manyUpTo_some {fuel : Nat} (stops : Stops isNameChar chars)
    (found : manyUpTo (andThen (mark '.') identifier) fuel chars = some n) :
    ∃ (others : List (List Char)) (rest : List Char), chars = others.flatMap ('.' :: ·) ++ rest ∧
      (others.flatMap ('.' :: ·)).length = n ∧ (∀ name ∈ others, Identifier name) ∧
      Stops isNameChar rest := by
  induction fuel generalizing chars n with
  | zero =>
    cases found
    exact ⟨[], chars, rfl, rfl, by simp, stops⟩
  | succ fuel ih =>
    rcases optional_some found with match_ | ⟨-, rfl⟩
    · obtain ⟨i, j, first, later, rfl⟩ := andThen_some match_
      obtain ⟨k, l, point, name, rfl⟩ := andThen_some first
      obtain ⟨rfl, c, behind, rfl, mark⟩ := one_some point
      rw [List.drop_one, List.tail_cons] at name
      obtain ⟨front, rest, rfl, rfl, word, stops⟩ := identifier_some name
      rw [Nat.add_comm 1, List.drop_succ_cons, List.drop_left] at later
      rw [eq_of_beq mark]
      obtain ⟨others, rest, rfl, rfl, names, stops⟩ := ih stops later
      refine ⟨front :: others, rest, ?_, ?_, List.forall_mem_cons.mpr ⟨word, names⟩, stops⟩
      · simp
      · simp only [List.flatMap_cons, List.length_append, List.length_cons]
        omega
    · exact ⟨[], chars, rfl, rfl, by simp, stops⟩

/-- Names with points between them that were found are in front of what does not go on. -/
theorem qualifiedIdentifier_some (found : qualifiedIdentifier chars = some n) :
    ∃ front rest, chars = front ++ rest ∧ front.length = n ∧ Qualified front ∧
      Stops isNameChar rest := by
  rw [qualifiedIdentifier] at found
  obtain ⟨i, j, start, later, rfl⟩ := andThen_some found
  obtain ⟨first, rest, rfl, rfl, name, stops⟩ := identifier_some start
  rw [List.drop_left] at later
  obtain ⟨others, rest, rfl, rfl, names, stops⟩ := manyUpTo_some stops later
  exact ⟨first ++ others.flatMap ('.' :: ·), rest, by rw [List.append_assoc], List.length_append,
    ⟨first, others, rfl, name, names⟩, stops⟩

end

/-! Numbers. -/

/-- Whether a character goes on with a name or a number in front of it. -/
def goesOn (c : Char) : Bool :=
  isNameChar c || c == '.'

/-- Decimal digits, at least one. -/
def Digits (chars : List Char) : Prop :=
  chars ≠ [] ∧ ∀ c ∈ chars, isDigit c = true

/-- A minus or nothing. -/
def MaybeMinus (chars : List Char) : Prop :=
  chars = [] ∨ chars = ['-']

/-- The parts of a number that is written without a plus and with a small letter. -/
structure NumberParts (sign whole fraction exponent : List Char) : Prop where
  minus : MaybeMinus sign
  digits : Digits whole
  point : fraction = [] ∨ ∃ places, fraction = '.' :: places ∧ Digits places
  power : exponent = [] ∨
    ∃ minus places, exponent = 'e' :: (minus ++ places) ∧ MaybeMinus minus ∧ Digits places

section

variable {front rest chars : List Char}

/-- What goes on with nothing does not start with a digit. -/
theorem stops_digit (stops : Stops goesOn rest) : Stops isDigit rest :=
  stops.of_imp fun c digit => by rw [goesOn, isNameChar_of_isDigit digit, Bool.true_or]

/-- What goes on with nothing does not go on with a name. -/
theorem stops_name (stops : Stops goesOn rest) : Stops isNameChar rest :=
  stops.of_imp fun c letter => by rw [goesOn, letter, Bool.true_or]

/-- What goes on with nothing has no character in front that would. -/
theorem head_ne (stops : Stops goesOn rest) {m : Char} (mark : goesOn m = true) :
    rest.head? ≠ some m := by
  intro mem
  rw [stops m mem] at mark
  cases mark

/-- Digits stand in front of other characters. -/
theorem Digits.head (digits : Digits front) : ∀ c ∈ (front ++ rest).head?, isDigit c = true := by
  intro c mem
  rw [List.head?_append_of_ne_nil _ digits.1] at mem
  exact digits.2 c (List.mem_of_head? mem)

/-- A mark is not found in front of digits. -/
theorem Digits.mark_eq_none (digits : Digits front) {m : Char} (other : isDigit m = false) :
    mark m (front ++ rest) = none := by
  refine one_eq_none fun c mem => beq_eq_false_iff_ne.mpr ?_
  rintro rfl
  rw [digits.head c mem] at other
  cases other

/-- A minus in front of digits is taken where it is. -/
theorem MaybeMinus.takes {sign : List Char} (minus : MaybeMinus sign) {r : Recognizer}
    (found : Takes r ['-'] chars) (missed : r chars = none) : Takes (optional r) sign chars := by
  rcases minus with rfl | rfl
  · exact .nothing missed
  · exact .optional found

/-- A run of digits is taken up to what does not go on with it. -/
theorem Digits.takes (digits : Digits front) (stops : Stops isDigit rest) :
    Takes (run isDigit) front rest :=
  .run digits.2 digits.1 stops

/-- A number is taken up to what does not go on with it. -/
theorem NumberParts.takes {sign whole fraction exponent : List Char}
    (parts : NumberParts sign whole fraction exponent) (stops : Stops goesOn rest) :
    Takes number (sign ++ (whole ++ (fraction ++ exponent))) rest := by
  have afterPoint : Stops isDigit (exponent ++ rest) := by
    rcases parts.power with rfl | ⟨minus, places, rfl, -⟩
    · exact stops_digit stops
    · exact .cons rfl
  have afterWhole : Stops isDigit (fraction ++ (exponent ++ rest)) := by
    rcases parts.point with rfl | ⟨places, rfl, -⟩
    · exact afterPoint
    · exact .cons rfl
  have point : Takes (optional Recognizer.fraction) fraction (exponent ++ rest) := by
    rcases parts.point with rfl | ⟨places, rfl, digits⟩
    · have missed : mark '.' (exponent ++ rest) = none := by
        rcases parts.power with rfl | ⟨minus, places, rfl, -⟩
        · exact one_eq_none fun c mem => beq_eq_false_iff_ne.mpr fun same =>
            head_ne stops (m := '.') rfl (same ▸ mem)
        · rfl
      refine .nothing ?_
      rw [Recognizer.fraction, andThen, missed]
      rfl
    · exact .optional (.andThen_char (.mark '.' _) (digits.takes afterPoint))
  have power : Takes (optional (sequence [one fun c => c == 'e' || c == 'E', optional plusOrMinus,
      run isDigit])) exponent rest := by
    rcases parts.power with rfl | ⟨minus, places, rfl, sign, digits⟩
    · refine .nothing (sequence_eq_none (one_eq_none fun c mem => ?_))
      have small : c ≠ 'e' := by
        rintro rfl
        exact head_ne stops (m := 'e') (by decide) mem
      have capital : c ≠ 'E' := by
        rintro rfl
        exact head_ne stops (m := 'E') (by decide) mem
      simp [small, capital]
    · refine .optional (.char (.one rfl _) (.cons (sign.takes (.one rfl _) ?_)
        (.last (digits.takes (stops_digit stops)))))
      · refine one_eq_none fun c mem => ?_
        have digit := isDigit_iff.mp (digits.head c mem)
        simp only [Bool.or_eq_false_iff, beq_eq_false_iff_ne]
        constructor <;> rintro rfl <;> simp at digit
  refine .cons (parts.minus.takes (.mark '-' _) ?_) (.cons ?_ (.cons point (.last power)))
  · rw [List.append_assoc, List.append_assoc]
    exact parts.digits.mark_eq_none rfl
  · rw [List.append_assoc]
    exact parts.digits.takes afterWhole

end

end Recognizer

end EdmQuery
