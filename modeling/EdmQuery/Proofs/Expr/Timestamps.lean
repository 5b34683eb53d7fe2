import Mathlib
import EdmQuery.Proofs.Calendar.DateTime
import EdmQuery.Proofs.Data.Guid
import EdmQuery.Proofs.Expr.Lexemes

/-! The texts of dates, times and identifiers are read as tokens of their own kinds. -/

namespace EdmQuery

open Text Calendar Recognizer

namespace Recognizer

variable {rest : List Char}

/-- A number of a fixed width is taken, whatever follows. -/
theorem takes_padded {width n : Nat} (positive : 0 < width) (fits : n < 10 ^ width)
    (rest : List Char) : Takes (digits width) (padded width n).toList rest :=
  .exactly (fun _ => isDigit_of_mem_padded) (length_padded positive fits) rest

/-- A date is taken, whatever follows. -/
theorem takes_date {d : Date} (plain : d.IsPlain) (rest : List Char) :
    Takes date d.toText.toList rest := by
  have bounds := d.bounds
  have low := plain.1
  have high := plain.2
  rw [Date.toList_toText plain]
  refine .cons (takes_padded (by decide) (by omega) _) (.char (.mark '-' _) ?_)
  refine .cons (takes_padded (by decide) (by omega) _) (.char (.mark '-' _) ?_)
  exact .last (takes_padded (by decide) (by omega) _)

/-- A fraction of a second is taken up to what could be part of it. -/
theorem takes_fraction {nano : Nat} (stops : Stops isDigit rest) (last : rest.head? ≠ some '.') :
    Takes (optional fraction) (fractionText nano).toList rest := by
  have point : ".".toList = ['.'] := rfl
  have places (width n : Nat) : Takes (optional fraction) ("." ++ padded width n).toList rest := by
    rw [String.toList_append, point]
    exact .optional (.andThen_char (.mark '.' _) (.run (fun _ => isDigit_of_mem_padded)
      (padded_ne_nil width n) stops))
  rw [fractionText]
  split
  · have missed : mark '.' rest = none :=
      one_eq_none fun c mem => beq_eq_false_iff_ne.mpr fun same => last (same ▸ mem)
    refine .nothing ?_
    rw [fraction, andThen, missed]
    rfl
  split
  · exact places 3 _
  split
  · exact places 6 _
  · exact places 9 _

/-- A time of day is taken up to what could be part of its seconds. -/
theorem takes_time (t : TimeOfDay) (stops : Stops isDigit rest) (last : rest.head? ≠ some '.') :
    Takes timeOfDay t.toText.toList rest := by
  have bounds := t.bounds
  rw [TimeOfDay.toList_toText]
  refine .cons (takes_padded (by decide) (by omega) _) (.char (.mark ':' _) ?_)
  refine .cons (takes_padded (by decide) (by omega) _) (.last (.optional (.char (.mark ':' _) ?_)))
  exact .cons (takes_padded (by decide) (by omega) _) (.last (takes_fraction stops last))

/-- An offset is taken, whatever follows. -/
theorem takes_offset {minutes : Int} (small : minutes.natAbs < 1440) (rest : List Char) :
    Takes offset (offsetText minutes).toList rest := by
  by_cases universal : minutes = 0
  · rw [universal]
    rfl
  · have sign : Takes plusOrMinus [if minutes < 0 then '-' else '+']
        ((padded 2 (minutes.natAbs / 60)).toList ++ ':' :: (padded 2 (minutes.natAbs % 60)).toList
          ++ rest) := by
      split <;> exact .one rfl _
    have signed : Takes (sequence [plusOrMinus, digits 2, mark ':', digits 2]) (zoneText minutes)
        rest := by
      refine .char sign (.cons (takes_padded (by decide) (by omega) _) (.char (.mark ':' _) ?_))
      exact .last (takes_padded (by decide) (by omega) _)
    have letter : (one fun c => c == 'Z' || c == 'z') (zoneText minutes ++ rest) = none := by
      rw [zoneText]
      split <;> rfl
    rw [toList_offsetText universal, Takes, offset, orElse, letter, Option.none_or]
    exact signed

/-- A point in time is taken, whatever follows. -/
theorem takes_dateTime {t : DateTime} (plain : t.IsPlain) (rest : List Char) :
    Takes dateTimeOffset t.toText.toList rest := by
  have zone : ∀ c ∈ ((offsetText t.offset).toList ++ rest).head?, c = 'Z' ∨ c = '-' ∨ c = '+' := by
    by_cases universal : t.offset = 0
    · rw [universal]
      rintro c ⟨⟩
      exact .inl rfl
    · rw [toList_offsetText universal, zoneText]
      rintro c ⟨⟩
      split <;> simp
  have stops : Stops isDigit ((offsetText t.offset).toList ++ rest) := by
    intro c mem
    rcases zone c mem with rfl | rfl | rfl <;> rfl
  have noPoint : ((offsetText t.offset).toList ++ rest).head? ≠ some '.' := by
    intro mem
    rcases zone '.' mem with same | same | same <;> cases same
  rw [DateTime.toList_toText]
  refine .cons (takes_date plain.1 _) (.char (.one rfl _) (.cons (takes_time t.time stops noPoint) ?_))
  exact .last (takes_offset (DateTime.offset_lt plain.2) rest)

/-- An identifier is taken, whatever follows. -/
theorem takes_guid (g : Guid) (rest : List Char) : Takes guid g.toText.toList rest := by
  have length := Guid.length_hexDigits 32 g.bits.toNat
  have all : ∀ c ∈ Guid.hexDigits 32 g.bits.toNat, isHexDigit c = true := by
    intro c mem
    obtain ⟨k, small, rfl⟩ := Guid.exists_of_mem_hexDigits mem
    exact (Guid.hexDigit_reads small).1
  rw [Guid.toText, String.toList_ofList, Guid.hyphenated]
  generalize Guid.hexDigits 32 g.bits.toNat = digits at *
  simp only [List.append_assoc, List.cons_append]
  have group (start count : Nat) (fits : start + count ≤ 32) (rest : List Char) :
      Takes (hexDigits count) ((digits.drop start).take count) rest := by
    refine .exactly (fun c mem => all c (List.mem_of_mem_drop (List.mem_of_mem_take mem))) ?_ rest
    rw [List.length_take, List.length_drop]
    omega
  refine .cons (group 0 8 (by decide) _) (.char (.mark '-' _) (.cons (group 8 4 (by decide) _) ?_))
  refine .char (.mark '-' _) (.cons (group 12 4 (by decide) _) (.char (.mark '-' _) ?_))
  refine .cons (group 16 4 (by decide) _) (.char (.mark '-' _) (.last ?_))
  have last := group 20 12 (by decide) rest
  rwa [List.take_of_length_le (by rw [List.length_drop]; omega)] at last

end Recognizer

namespace Lexes

variable {front rest : List Char}

/-- A text that is in digits at first starts with a digit. -/
theorem exists_digit (some_ : front ≠ []) (all : ∀ c ∈ front, isHexDigit c = true)
    (more : List Char) : ∃ first others, front ++ more = first :: others ∧
      isHexDigit first = true := by
  obtain ⟨first, others, rfl⟩ := List.exists_cons_of_ne_nil some_
  exact ⟨first, others ++ more, rfl, all first List.mem_cons_self⟩

/-- A text in digits is read as a token of the kind that its recognizer is tried for. -/
theorem of_recognizer {r : Recognizer} {kind : TokenKind} {text : String}
    (start : ∃ first more, text.toList = first :: more ∧ isHexDigit first = true)
    (found : Takes r text.toList rest) (ends : Follows afterOperand rest)
    (tried : ∀ (c : Cursor) (first : Char) (n : Nat), c.rest = text.toList ++ rest →
      r.bounded c.rest = some n → c.wordToken first = some (c.taken kind n)) :
    Lexes text.toList (kind, text) rest := by
  have whole := found.bounded (ends.stops (by decide))
  obtain ⟨first, more, split, digit⟩ := start
  rw [split]
  refine of_class digit (isBlank_of_isHexDigit digit) (by decide) fun offset =>
    ⟨offset, offset + byteLength text.toList, ?_⟩
  rw [← List.cons_append, ← split, tried ⟨offset, _⟩ first _ rfl whole, Cursor.taken, Cursor.ahead,
    Cursor.advance, List.take_left, List.drop_left, String.ofList_toList]

/-- An identifier is read as one. -/
theorem guid (g : Guid) (ends : Follows afterOperand rest) :
    Lexes g.toText.toList (.guid, g.toText) rest := by
  have digits : ∀ c ∈ (Guid.hexDigits 32 g.bits.toNat).take 8, isHexDigit c = true := by
    intro c mem
    obtain ⟨k, small, rfl⟩ := Guid.exists_of_mem_hexDigits (List.mem_of_mem_take mem)
    exact (Guid.hexDigit_reads small).1
  have some_ : (Guid.hexDigits 32 g.bits.toNat).take 8 ≠ [] := by
    have length := Guid.length_hexDigits 32 g.bits.toNat
    intro none
    rcases List.take_eq_nil_iff.mp none with zero | empty
    · cases zero
    · rw [empty] at length
      cases length
  refine of_recognizer ?_ (takes_guid g rest) ends fun c first n _ found => ?_
  · rw [Guid.toText, String.toList_ofList, Guid.hyphenated]
    simp only [List.append_assoc, List.cons_append]
    exact exists_digit some_ digits _
  · rw [Cursor.wordToken_eq, found]
    rfl

/-- Digits of a written number are hexadecimal digits too. -/
theorem isHexDigit_of_mem_padded {width n : Nat} {c : Char} (mem : c ∈ (padded width n).toList) :
    isHexDigit c = true := by
  rw [isHexDigit, isDigit_of_mem_padded mem, Bool.true_or, Bool.true_or]

/-- The first digits of a date are too few for an identifier. -/
theorem noGuid_date {d : Date} (plain : d.IsPlain) (rest : List Char) :
    Recognizer.guid (d.toText.toList ++ rest) = none := by
  refine guid_eq_none fun length => ?_
  have hyphen (chars : List Char) : Stops isHexDigit ('-' :: chars) := .cons rfl
  have low := plain.1
  have high := plain.2
  rw [Date.toList_toText plain, List.append_assoc, List.cons_append,
    (hyphen _).takeWhile_append fun _ => isHexDigit_of_mem_padded,
    length_padded (by decide) (by omega)] at length
  cases length

/-- A date is read as one. -/
theorem date {d : Date} (plain : d.IsPlain) (ends : Follows afterOperand rest) :
    Lexes d.toText.toList (.date, d.toText) rest := by
  have found := takes_date plain rest
  have noTime : dateTimeOffset (d.toText.toList ++ rest) = none :=
    found.sequence_eq_none (sequence_eq_none (one_eq_none (ends.stops (by decide))))
  refine of_recognizer ?_ found ends fun c first n same found => ?_
  · rw [Date.toList_toText plain]
    exact exists_digit (padded_ne_nil _ _) (fun _ => isHexDigit_of_mem_padded) _
  · rw [Cursor.wordToken_eq, found, same, bounded_eq_none (noGuid_date plain rest),
      bounded_eq_none noTime]
    rfl

/-- A point in time is read as one. -/
theorem dateTime {t : DateTime} (plain : t.IsPlain) (ends : Follows afterOperand rest) :
    Lexes t.toText.toList (.dateTimeOffset, t.toText) rest := by
  have noGuid : Recognizer.guid (t.toText.toList ++ rest) = none := by
    rw [DateTime.toList_toText, List.append_assoc]
    exact noGuid_date plain.1 _
  refine of_recognizer ?_ (takes_dateTime plain rest) ends fun c first n same found => ?_
  · rw [DateTime.toList_toText, Date.toList_toText plain.1, List.append_assoc]
    exact exists_digit (padded_ne_nil _ _) (fun _ => isHexDigit_of_mem_padded) _
  · rw [Cursor.wordToken_eq, found, same, bounded_eq_none noGuid]
    rfl

/-- A time of day is read as one. -/
theorem timeOfDay (t : TimeOfDay) (ends : Follows afterOperand rest) :
    Lexes t.toText.toList (.timeOfDay, t.toText) rest := by
  have bounds := t.bounds
  have found := takes_time t (ends.stops (by decide)) (ends.head_ne (by decide))
  have split := t.toList_toText
  have colon (p : Char → Bool) (outside : p ':' = false) (chars : List Char) :
      Stops p (':' :: chars) := .cons outside
  have noGuid : Recognizer.guid (t.toText.toList ++ rest) = none := by
    refine guid_eq_none fun _ => ?_
    rw [split, List.append_assoc, List.cons_append,
      (colon isHexDigit rfl _).dropWhile_append fun _ => isHexDigit_of_mem_padded]
    simp
  have noDate : Recognizer.date (t.toText.toList ++ rest) = none := by
    refine date_eq_none fun _ => ?_
    rw [split, List.append_assoc, List.cons_append,
      (colon isDigit rfl _).dropWhile_append fun _ => isDigit_of_mem_padded]
    simp
  refine of_recognizer ?_ found ends fun c first n same found => ?_
  · rw [split]
    exact exists_digit (padded_ne_nil _ _) (fun _ => isHexDigit_of_mem_padded) _
  · rw [Cursor.wordToken_eq, found, same, bounded_eq_none noGuid,
      bounded_eq_none (dateTimeOffset_eq_none noDate), bounded_eq_none noDate]
    rfl

end Lexes

end EdmQuery
