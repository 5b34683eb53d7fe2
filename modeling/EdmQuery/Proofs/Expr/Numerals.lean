import Mathlib
import EdmQuery.Proofs.Calendar.DateTime
import EdmQuery.Proofs.Data.Guid
import EdmQuery.Proofs.Expr.Lexemes
import EdmQuery.Proofs.Number.Decimal
import EdmQuery.Proofs.Number.DoubleText

/-! The texts of numbers, dates and identifiers are read as tokens of their own kinds. -/

namespace EdmQuery

open Text Number Calendar Recognizer

namespace Recognizer.NumberParts

variable {sign whole fraction exponent rest : List Char}

/-- Behind the first digits of a number are a point, an exponent or what follows the number. -/
theorem follows (parts : NumberParts sign whole fraction exponent)
    (ends : Follows afterOperand rest) :
    Follows ('.' :: 'e' :: afterOperand) (fraction ++ (exponent ++ rest)) := by
  rcases parts.point with rfl | ⟨places, rfl, -⟩
  · rcases parts.power with rfl | ⟨minus, places, rfl, -⟩
    · exact ends.mono (by simp)
    · exact .cons (by simp)
  · exact .cons (by simp)

/-- Digits of a fixed count with a mark are missed where a number has no such mark. -/
theorem exactly_eq_none (parts : NumberParts sign whole fraction exponent)
    (ends : Follows afterOperand rest) {n : Nat} (some_ : n ≠ 0) {m : Char}
    (outside : isDigit m = false) (other : m ∉ '.' :: 'e' :: afterOperand)
    (others : List Recognizer) :
    sequence (exactly isDigit n :: mark m :: others)
      (sign ++ (whole ++ (fraction ++ exponent)) ++ rest) = none := by
  refine exactly_mark_eq_none outside fun length => ?_
  rcases parts.minus with rfl | rfl
  · have behind := parts.follows ends
    have stops : Stops isDigit (fraction ++ (exponent ++ rest)) := behind.stops (by decide)
    rw [List.nil_append, List.append_assoc, List.append_assoc,
      stops.dropWhile_append parts.digits.2]
    exact behind.head_ne other
  · -- A minus is no digit, so the run in front is empty.
    exact absurd length.symm some_

/-- A number is no identifier of hexadecimal groups. -/
theorem guid_eq_none (parts : NumberParts sign whole fraction exponent)
    (ends : Follows afterOperand rest)
    (short : whole.length = 1 ∨ fraction ≠ [] ∨ exponent = []) :
    guid (sign ++ (whole ++ (fraction ++ exponent)) ++ rest) = none := by
  refine Recognizer.guid_eq_none fun length => ?_
  have hex {digits : List Char} (all : Digits digits) : ∀ c ∈ digits, isHexDigit c = true :=
    fun c mem => by rw [isHexDigit, all.2 c mem, Bool.true_or, Bool.true_or]
  have last : Stops isHexDigit rest := ends.stops (by decide)
  have noHyphen : rest.head? ≠ some '-' := ends.head_ne (by decide)
  rcases parts.minus with rfl | rfl
  · rw [List.nil_append, List.append_assoc, List.append_assoc] at length ⊢
    rcases parts.point with rfl | ⟨places, rfl, -⟩
    · rcases parts.power with rfl | ⟨minus, places, rfl, minus', digits⟩
      · rw [List.nil_append, List.nil_append, last.dropWhile_append (hex parts.digits)]
        exact noHyphen
      · have single : whole.length = 1 := by simpa using short
        rcases minus' with rfl | rfl
        · -- The exponent is a run of hexadecimal digits too.
          have all : ∀ c ∈ whole ++ 'e' :: places, isHexDigit c = true :=
            List.forall_mem_append.mpr ⟨hex parts.digits,
              List.forall_mem_cons.mpr ⟨rfl, hex digits⟩⟩
          have run := last.dropWhile_append all
          rw [List.append_assoc] at run
          rw [List.nil_append, List.nil_append, run]
          exact noHyphen
        · have all : ∀ c ∈ whole ++ ['e'], isHexDigit c = true :=
            List.forall_mem_append.mpr ⟨hex parts.digits, by simp [isHexDigit]⟩
          have hyphen : Stops isHexDigit ('-' :: (places ++ rest)) := .cons rfl
          have run := hyphen.takeWhile_append all
          rw [List.append_assoc] at run
          rw [List.nil_append] at length
          have length : (whole ++ ['e']).length = 8 := run ▸ length
          rw [List.length_append, single] at length
          cases length
    · have point : Stops isHexDigit ('.' :: places ++ (exponent ++ rest)) := .cons rfl
      rw [point.dropWhile_append (hex parts.digits)]
      exact fun same => by cases same
  · cases length

/-- A number is none of the doubles that have names. -/
theorem specialDouble_eq_none (parts : NumberParts sign whole fraction exponent) :
    specialDouble (sign ++ (whole ++ (fraction ++ exponent)) ++ rest) = none := by
  obtain ⟨d, more, rfl⟩ := List.exists_cons_of_ne_nil parts.digits.1
  have digit := parts.digits.2 d List.mem_cons_self
  have other {m : Char} (outside : isDigit m = false) : m ≠ d := by
    rintro rfl
    rw [digit] at outside
    cases outside
  have minus : '-' ≠ d := other rfl
  have letter : 'I' ≠ d := other rfl
  have capital : 'N' ≠ d := other rfl
  have names : specialDouble = orElse (tag ['-', 'I', 'N', 'F'])
      (orElse (tag ['I', 'N', 'F']) (tag ['N', 'a', 'N'])) := rfl
  rw [names]
  rcases parts.minus with rfl | rfl <;> simp [orElse, tag, minus, letter, capital]

/-- The spelling of a number tells its kind. -/
theorem numberKind_eq (parts : NumberParts sign whole fraction exponent) :
    Cursor.numberKind (sign ++ (whole ++ (fraction ++ exponent))) =
      if exponent ≠ [] then .double else if fraction ≠ [] then .decimal else .integer := by
  have foreign {digits : List Char} (all : Digits digits) {m : Char} (outside : isDigit m = false) :
      m ∉ digits := by
    intro mem
    rw [all.2 m mem] at outside
    cases outside
  have unsigned {chars : List Char} (minus : MaybeMinus chars) {m : Char} (other : m ≠ '-') :
      m ∉ chars := by
    rcases minus with rfl | rfl
    · exact List.not_mem_nil
    · simpa using other
  -- No letter stands in front of the exponent, and no point in a number without a fraction.
  have front {m : Char} (outside : isDigit m = false) (other : m ≠ '-')
      (noPoint : m ≠ '.' ∨ fraction = []) : (sign ++ (whole ++ fraction)).contains m = false := by
    have places : m ∉ fraction := by
      rcases parts.point with rfl | ⟨places, rfl, digits⟩
      · exact List.not_mem_nil
      · have apart : m ≠ '.' := noPoint.resolve_right (List.cons_ne_nil _ _)
        simpa [apart] using foreign digits outside
    have none : m ∉ sign ++ (whole ++ fraction) := by
      simp [unsigned parts.minus other, foreign parts.digits outside, places]
    simpa using none
  rw [Cursor.numberKind, ← List.append_assoc whole, ← List.append_assoc sign]
  rcases parts.power with rfl | ⟨minus, places, rfl, -, -⟩
  · rw [List.append_nil, front (m := 'e') rfl (by decide) (.inl (by decide)),
      front (m := 'E') rfl (by decide) (.inl (by decide))]
    rcases parts.point with rfl | ⟨places, rfl, -⟩
    · rw [front (m := '.') rfl (by decide) (.inr rfl)]
      rfl
    · simp
  · simp

end Recognizer.NumberParts

/-- A number is read as a token of the kind that its spelling tells. -/
theorem Lexes.number {sign whole fraction exponent rest : List Char}
    (parts : NumberParts sign whole fraction exponent) (ends : Follows afterOperand rest)
    (short : whole.length = 1 ∨ fraction ≠ [] ∨ exponent = []) :
    Lexes (sign ++ (whole ++ (fraction ++ exponent)))
      ((if exponent ≠ [] then NumberKind.double else if fraction ≠ [] then .decimal
        else .integer).token, String.ofList (sign ++ (whole ++ (fraction ++ exponent)))) rest := by
  have goes : Stops goesOn rest := ends.stops (by decide)
  have found := (parts.takes goes).bounded (stops_name goes)
  have noDate : date (sign ++ (whole ++ (fraction ++ exponent)) ++ rest) = none :=
    parts.exactly_eq_none ends (by decide) rfl (by decide) _
  have noTime : timeOfDay (sign ++ (whole ++ (fraction ++ exponent)) ++ rest) = none :=
    parts.exactly_eq_none ends (by decide) rfl (by decide) _
  have noGuid := parts.guid_eq_none ends short
  have noSpecial : specialDouble (sign ++ (whole ++ (fraction ++ exponent)) ++ rest) = none :=
    parts.specialDouble_eq_none
  have kind := parts.numberKind_eq
  obtain ⟨first, more, text, start⟩ : ∃ first more,
      sign ++ (whole ++ (fraction ++ exponent)) = first :: more ∧
        (isDigit first || first == '-') = true := by
    rcases parts.minus with rfl | rfl
    · obtain ⟨d, more, rfl⟩ := List.exists_cons_of_ne_nil parts.digits.1
      exact ⟨d, more ++ (fraction ++ exponent), rfl,
        by rw [parts.digits.2 d List.mem_cons_self, Bool.true_or]⟩
    · exact ⟨'-', _, rfl, rfl⟩
  have visible : isBlank first = false := by
    rcases Bool.or_eq_true_iff.mp start with digit | minus
    · exact isBlank_of_isDigit digit
    · rw [eq_of_beq minus]
      rfl
  generalize sign ++ (whole ++ (fraction ++ exponent)) = chars at *
  subst text
  refine of_class (p := fun c => isDigit c || c == '-') start visible (by decide) fun offset =>
    ⟨offset, offset + byteLength (first :: more), ?_⟩
  rw [Takes] at found
  rw [← List.cons_append, Cursor.wordToken_eq, Cursor.numberToken]
  simp only [bounded_eq_none noGuid, bounded_eq_none (dateTimeOffset_eq_none noDate),
    bounded_eq_none noDate, bounded_eq_none noTime, bounded_eq_none noSpecial, found,
    Option.map_none, Option.none_or, Option.map_some, Option.some_or, Cursor.taken, Cursor.ahead,
    Cursor.advance, Cursor.numeralKind, List.take_left, List.drop_left, kind]

section

variable {rest : List Char}

/-- The sign of a number is a minus or nothing. -/
theorem Recognizer.MaybeMinus.sign (negative : Bool) : MaybeMinus (Number.sign negative).toList := by
  cases negative
  · exact .inl rfl
  · exact .inr rfl

/-- A natural number is written in digits. -/
theorem Recognizer.Digits.natText (n : Nat) : Digits (natText n).toList :=
  ⟨natText_ne_nil n, fun _ => isDigit_of_mem_natText⟩

/-- An integer is read as one. -/
theorem Lexes.integer (n : Int) (ends : Follows afterOperand rest) :
    Lexes (toString n).toList (.integer, toString n) rest := by
  have parts : NumberParts (Number.sign (n < 0)).toList (Number.natText n.natAbs).toList [] [] :=
    ⟨.sign _, .natText _, .inl rfl, .inl rfl⟩
  have read := Lexes.number parts ends (.inr (.inr rfl))
  rw [List.append_nil, List.append_nil, ← toList_toString, String.ofList_toList] at read
  exact read

/-- A decimal is written with a sign and digits around a point. -/
theorem Number.Decimal.toList_toLiteral (d : Decimal) : ∃ front back, Digits front ∧ Digits back ∧
    (Scalar.toLiteral (.decimal d)).toList
      = (Number.sign d.negative).toList ++ (front ++ '.' :: back) := by
  rw [Scalar.toLiteral]
  split
  · rename_i unscaled
    have filled : 0 + 1 - (Number.natText d.magnitude).length = 0 := by
      have some_ := List.length_pos_of_ne_nil (natText_ne_nil d.magnitude)
      rw [String.length_toList] at some_
      omega
    refine ⟨(Number.natText d.magnitude).toList, ['0'], .natText _, ⟨by simp, by simp [isDigit]⟩, ?_⟩
    simp [toText, magnitudeText, eq_of_beq unscaled, filled]
  · rename_i scaled
    have places : d.scale ≠ 0 := by simpa using scaled
    obtain ⟨front, back, text, digits, some_, length⟩ := toList_magnitudeText d.magnitude places
    have all : ∀ c ∈ front ++ back, isDigit c = true := by
      rw [digits]
      exact fun _ => isDigit_of_mem_padded
    have back_ : back ≠ [] := by
      rintro rfl
      exact places length.symm
    refine ⟨front, back, ⟨some_, fun c mem => all c (List.mem_append_left _ mem)⟩,
      ⟨back_, fun c mem => all c (List.mem_append_right _ mem)⟩, ?_⟩
    rw [toText, String.toList_append, text]

/-- A decimal is read as one. -/
theorem Lexes.decimal (d : Decimal) (ends : Follows afterOperand rest) :
    Lexes (Scalar.toLiteral (.decimal d)).toList (.decimal, Scalar.toLiteral (.decimal d)) rest := by
  obtain ⟨front, back, whole, places, text⟩ := d.toList_toLiteral
  have parts : NumberParts (Number.sign d.negative).toList front ('.' :: back) [] :=
    ⟨.sign _, whole, .inr ⟨back, rfl, places⟩, .inl rfl⟩
  have read := Lexes.number parts ends (.inr (.inr rfl))
  rw [List.append_nil, ← text, String.ofList_toList] at read
  exact read

/-- A finite double is written with one digit, perhaps others behind a point, and an exponent. -/
theorem Number.exponentForm_parts (b : Binary) : ∃ sign whole fraction exponent,
    NumberParts sign whole fraction exponent ∧ whole.length = 1 ∧ exponent ≠ [] ∧
      (exponentForm b).toList = sign ++ (whole ++ (fraction ++ exponent)) := by
  rw [exponentForm]
  split
  · refine ⟨(Number.sign b.negative).toList, ['0'], [], ['e', '0'], ⟨.sign _, ⟨by simp, by simp [isDigit]⟩,
      .inl rfl, .inr ⟨[], ['0'], rfl, .inl rfl, ⟨by simp, by simp [isDigit]⟩⟩⟩, rfl, by simp, ?_⟩
    rw [String.toList_append]
    rfl
  · obtain ⟨first, more, text⟩ :=
      List.exists_cons_of_ne_nil (natText_ne_nil (shortest .away b).digits)
    have digits := (Digits.natText (shortest .away b).digits).2
    rw [text] at digits
    obtain ⟨digit, others⟩ := List.forall_mem_cons.mp digits
    have whole : Digits [first] := ⟨by simp, by simpa using digit⟩
    have mark : "e".toList = ['e'] := rfl
    have power := toList_toString (shortest .away b).leading
    refine ⟨(Number.sign b.negative).toList, [first], if more = [] then [] else '.' :: more,
      'e' :: (toString (shortest .away b).leading).toList, ⟨.sign _, whole, ?_,
        .inr ⟨_, _, congrArg _ power, .sign _, .natText _⟩⟩, rfl, by simp, ?_⟩
    · split
      · exact .inl rfl
      · rename_i some_
        exact .inr ⟨more, rfl, some_, others⟩
    · simp only [String.toList_append, pointed, text, mark]
      cases more <;> simp

/-- A double that has a name is read by it. -/
theorem Lexes.named {c : Char} {more : List Char} (start : c ∈ ['N', 'I', '-'])
    (found : ∀ rest, Takes specialDouble (c :: more) rest) (ends : Follows afterOperand rest) :
    Lexes (c :: more) (.double, String.ofList (c :: more)) rest := by
  obtain ⟨hex, digit, visible, plain, unquoted⟩ : isHexDigit c = false ∧ isDigit c = false ∧
      isBlank c = false ∧ TokenKind.punctuation? c = none ∧ c ≠ '\'' := by
    simp only [List.mem_cons, List.not_mem_nil, or_false] at start
    rcases start with rfl | rfl | rfl <;> decide
  have noHex : Stops isHexDigit (c :: more ++ rest) := .cons hex
  have noDigit : Stops isDigit (c :: more ++ rest) := .cons digit
  have noGuid : guid (c :: more ++ rest) = none :=
    guid_eq_none fun length => by rw [noHex.takeWhile_eq] at length; cases length
  have noDate : date (c :: more ++ rest) = none :=
    date_eq_none fun length => by rw [noDigit.takeWhile_eq] at length; cases length
  have noTime : timeOfDay (c :: more ++ rest) = none :=
    timeOfDay_eq_none fun length => by rw [noDigit.takeWhile_eq] at length; cases length
  have name := (found rest).bounded (ends.stops (by decide))
  rw [Takes] at name
  refine of_wordToken visible plain unquoted fun offset =>
    ⟨offset, offset + byteLength (c :: more), ?_⟩
  rw [← List.cons_append, Cursor.wordToken_eq, Cursor.numberToken]
  simp only [bounded_eq_none noGuid, bounded_eq_none (dateTimeOffset_eq_none noDate),
    bounded_eq_none noDate, bounded_eq_none noTime, name, Option.map_none, Option.none_or,
    Option.map_some, Option.some_or, Cursor.taken, Cursor.ahead, Cursor.advance, List.take_left,
    List.drop_left]

/-- A double is read as one. -/
theorem Lexes.double (x : Float) (ends : Follows afterOperand rest) :
    Lexes (Scalar.doubleText x).toList (.double, Scalar.doubleText x) rest := by
  rw [Scalar.doubleText]
  split
  · exact .named (c := 'N') (by decide) (fun _ => rfl) ends
  · rename_i negative _
    cases negative
    · exact .named (c := 'I') (by decide) (fun _ => rfl) ends
    · exact .named (c := '-') (by decide) (fun _ => rfl) ends
  · rename_i b _
    obtain ⟨sign, whole, fraction, exponent, parts, short, power, text⟩ := exponentForm_parts b
    have read := Lexes.number parts ends (.inl short)
    rw [if_pos power, ← text, String.ofList_toList] at read
    exact read

end

end EdmQuery
