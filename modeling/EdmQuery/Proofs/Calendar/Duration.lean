import Mathlib
import EdmQuery.Calendar.Duration
import EdmQuery.Proofs.Text.Digits

/-! Spans of time are read back from their day-time notation. -/

namespace EdmQuery.Calendar.Duration

open EdmQuery.Text EdmQuery.Number

/-- An ASCII digit is a decimal digit. -/
theorem isDecimalDigit_of_isDigit {c : Char} (digit : isDigit c = true) :
    isDecimalDigit c = true := by
  have range := isDigit_iff.mp digit
  rw [isDecimalDigit, if_pos (by omega), digit]

/-- The digits of a written number are decimal digits. -/
theorem isDecimalDigit_of_mem_natText {n : Nat} {c : Char} (mem : c ∈ (natText n).toList) :
    isDecimalDigit c = true :=
  isDecimalDigit_of_isDigit (isDigit_of_mem_natText mem)

/-- No digits count as zero. -/
theorem count?_nil : count? [] = some 0 :=
  rfl

/-- The digits of a written number count it. -/
theorem count?_natText (n : Nat) : count? (natText n).toList = some n := by
  have all : (natText n).toList.all isDigit = true :=
    List.all_eq_true.mpr fun _ => isDigit_of_mem_natText
  rw [count?, if_pos all, natOfDigits_natText]

/-- A count in front of its unit is taken off. -/
theorem takePart_natText {unit : Char} (mark : isDecimalDigit unit = false) (n : Nat)
    (rest : List Char) :
    takePart unit ((natText n).toList ++ unit :: rest) = ((natText n).toList, rest) := by
  have stops : Stops isDecimalDigit (unit :: rest) := .cons mark
  have taken := stops.takeWhile_append fun c => isDecimalDigit_of_mem_natText (n := n) (c := c)
  have left := stops.dropWhile_append fun c => isDecimalDigit_of_mem_natText (n := n) (c := c)
  obtain ⟨first, more, digits⟩ := List.exists_cons_of_ne_nil (natText_ne_nil n)
  rw [takePart, taken, left, digits]
  exact if_pos (beq_self_eq_true unit)

/-- A count in front of another unit stays. -/
theorem takePart_other {unit other : Char} (mark : isDecimalDigit other = false)
    (differ : (other == unit) = false) (n : Nat) (rest : List Char) :
    takePart unit ((natText n).toList ++ other :: rest)
      = ([], (natText n).toList ++ other :: rest) := by
  have stops : Stops isDecimalDigit (other :: rest) := .cons mark
  have taken := stops.takeWhile_append fun c => isDecimalDigit_of_mem_natText (n := n) (c := c)
  have left := stops.dropWhile_append fun c => isDecimalDigit_of_mem_natText (n := n) (c := c)
  obtain ⟨first, more, digits⟩ := List.exists_cons_of_ne_nil (natText_ne_nil n)
  rw [takePart, taken, left, digits]
  exact if_neg (by simp [differ])

/-- A text that no digit starts has no part. -/
theorem takePart_stopped {unit : Char} {rest : List Char} (stops : Stops isDecimalDigit rest) :
    takePart unit rest = ([], rest) := by
  rw [takePart, stops.takeWhile_eq]

/-- A part that is written gives its count, and one that is left out counts zero. -/
theorem takePart_part (unit : Char) (mark : isDecimalDigit unit = false) (n : Nat)
    {rest : List Char} (lacks : takePart unit rest = ([], rest)) :
    ∃ digits, takePart unit ((part n (String.singleton unit)).toList ++ rest) = (digits, rest) ∧
      count? digits = some n := by
  rw [part]
  split
  · rename_i zero
    exact ⟨[], by rw [String.toList_empty, List.nil_append, lacks],
      by rw [count?_nil, eq_of_beq zero]⟩
  · refine ⟨(natText n).toList, ?_, count?_natText n⟩
    rw [String.toList_append, String.toList_singleton, List.append_assoc, List.singleton_append,
      takePart_natText mark]

/-- A part with another unit in front of a text without the unit has none either. -/
theorem takePart_part_other (unit other : Char) (mark : isDecimalDigit other = false)
    (differ : (other == unit) = false) (n : Nat) {rest : List Char}
    (lacks : takePart unit rest = ([], rest)) :
    takePart unit ((part n (String.singleton other)).toList ++ rest)
      = ([], (part n (String.singleton other)).toList ++ rest) := by
  rw [part]
  split
  · rw [String.toList_empty, List.nil_append, lacks]
  · rw [String.toList_append, String.toList_singleton, List.append_assoc, List.singleton_append,
      takePart_other mark differ]

/-- What is dropped from the end of a text up to the last other digit are zeros. -/
theorem exists_trailing_zeros (chars : List Char) :
    ∃ k, chars = (chars.reverse.dropWhile (· == '0')).reverse ++ List.replicate k '0' := by
  have zeros : ∀ c ∈ chars.reverse.takeWhile (· == '0'), c = '0' := by
    intro c mem
    have zero := List.mem_takeWhile_imp mem
    exact eq_of_beq zero
  refine ⟨(chars.reverse.takeWhile (· == '0')).length, ?_⟩
  calc chars
    _ = (chars.reverse.takeWhile (· == '0') ++ chars.reverse.dropWhile (· == '0')).reverse := by
      rw [List.takeWhile_append_dropWhile, List.reverse_reverse]
    _ = _ := by
      rw [List.reverse_append, List.eq_replicate_of_mem zeros, List.reverse_replicate,
        List.length_replicate]

/-- The digits of a fraction are those of its nine places without the zeros at the end. -/
theorem exists_padded_eq (nanos : Nat) :
    ∃ k, (padded 9 nanos).toList = (fractionText nanos).toList ++ List.replicate k '0' := by
  have text : (fractionText nanos).toList
      = ((padded 9 nanos).toList.reverse.dropWhile (· == '0')).reverse := by
    rw [fractionText, String.toList_ofList, toList_padded, String.length_toList]
  rw [text]
  exact exists_trailing_zeros (padded 9 nanos).toList

/-- The digits of a fraction, filled up to nine places, count its nanoseconds. -/
theorem count?_fractionText {nanos : Nat} (below : nanos < 10 ^ 9) :
    count? (((fractionText nanos).toList ++ List.replicate 9 '0').take 9) = some nanos := by
  have length : (padded 9 nanos).toList.length = 9 := length_padded (by decide) below
  obtain ⟨k, whole⟩ := exists_padded_eq nanos
  have count : (fractionText nanos).toList.length + k = 9 := by
    rw [← length, whole, List.length_append, List.length_replicate]
  have filled : ((fractionText nanos).toList ++ List.replicate 9 '0').take 9
      = (padded 9 nanos).toList := by
    have left : min (9 - (fractionText nanos).toList.length) 9 = k := by omega
    rw [List.take_append, List.take_of_length_le (by omega), List.take_replicate, left, whole]
  have all : (padded 9 nanos).toList.all isDigit = true :=
    List.all_eq_true.mpr fun _ => isDigit_of_mem_padded
  rw [filled, count?, if_pos all, natOfDigits_padded]

/-- A fraction that is written consists of digits, at least one. -/
theorem fractionText_digits {nanos : Nat} (some_ : nanos ≠ 0) :
    (fractionText nanos).toList ≠ [] ∧
      ∀ c ∈ (fractionText nanos).toList, isDecimalDigit c = true := by
  obtain ⟨k, whole⟩ := exists_padded_eq nanos
  constructor
  · intro none
    have zero : natOfDigits (padded 9 nanos).toList = natOfDigits (List.replicate k '0') := by
      rw [whole, none, List.nil_append]
    have zeros := natOfDigits_zeros k []
    rw [List.append_nil] at zeros
    rw [natOfDigits_padded, zeros] at zero
    exact some_ zero
  · intro c mem
    have place : c ∈ (padded 9 nanos).toList := whole ▸ List.mem_append_left _ mem
    exact isDecimalDigit_of_isDigit (isDigit_of_mem_padded place)

/-- The seconds of a span as they are written, with their fraction. -/
def secondsText (seconds nanos : Nat) : String :=
  if nanos == 0 then part seconds "S" else natText seconds ++ "." ++ fractionText nanos ++ "S"

/-- Seconds that are written are taken off with their fraction. -/
theorem takeSeconds_secondsText (seconds : Nat) {nanos : Nat} (below : nanos < 10 ^ 9) :
    ∃ digits fraction, takeSeconds (secondsText seconds nanos).toList = (digits, fraction, []) ∧
      count? digits = some seconds ∧
      count? ((fraction ++ List.replicate 9 '0').take 9) = some nanos := by
  have unit : "S".toList = ['S'] := rfl
  have point : ".".toList = ['.'] := rfl
  have digits (n : Nat) : ∀ c ∈ (natText n).toList, isDecimalDigit c = true :=
    fun c => isDecimalDigit_of_mem_natText
  obtain ⟨first, more, written⟩ := List.exists_cons_of_ne_nil (natText_ne_nil seconds)
  rw [secondsText]
  split
  · rename_i whole
    rw [part]
    split
    · rename_i zero
      rw [eq_of_beq zero, eq_of_beq whole]
      exact ⟨[], [], rfl, rfl, rfl⟩
    · have stops : Stops isDecimalDigit ['S'] := .cons rfl
      refine ⟨(natText seconds).toList, [], ?_, count?_natText seconds, ?_⟩
      · rw [String.toList_append, unit, takeSeconds, stops.takeWhile_append (digits seconds),
          stops.dropWhile_append (digits seconds), written]
        rfl
      · rw [eq_of_beq whole]
        rfl
  · rename_i parted
    have some_ : nanos ≠ 0 := fun zero => parted (beq_iff_eq.mpr zero)
    obtain ⟨filled, places⟩ := fractionText_digits some_
    obtain ⟨place, others, shown⟩ := List.exists_cons_of_ne_nil filled
    have stops : Stops isDecimalDigit ('.' :: ((fractionText nanos).toList ++ ['S'])) := .cons rfl
    have stopsUnit : Stops isDecimalDigit ['S'] := .cons rfl
    refine ⟨(natText seconds).toList, (fractionText nanos).toList, ?_, count?_natText seconds,
      count?_fractionText below⟩
    simp only [String.toList_append, unit, point, List.append_assoc, List.cons_append,
      List.nil_append]
    rw [takeSeconds, stops.takeWhile_append (digits seconds),
      stops.dropWhile_append (digits seconds), written]
    simp only [stopsUnit.takeWhile_append places, stopsUnit.dropWhile_append places]
    rw [shown]
    rfl

/-- Seconds are no part with another unit. -/
theorem takePart_secondsText (unit : Char) (second : ('S' == unit) = false)
    (point : ('.' == unit) = false) (seconds nanos : Nat) :
    takePart unit (secondsText seconds nanos).toList
      = ([], (secondsText seconds nanos).toList) := by
  have unitText : "S".toList = ['S'] := rfl
  have pointText : ".".toList = ['.'] := rfl
  rw [secondsText]
  split
  · rw [part]
    split
    · rfl
    · rw [String.toList_append, unitText, takePart_other rfl second]
  · simp only [String.toList_append, unitText, pointText, List.append_assoc, List.cons_append,
      List.nil_append]
    rw [takePart_other rfl point]

/-- The clock part of a span of so many seconds and nanoseconds. -/
def clockText (total nanos : Nat) : String :=
  part (total % 86400 / 3600) "H" ++ part (total % 3600 / 60) "M" ++ secondsText (total % 60) nanos

/-- The whole seconds of a span, whatever its sign. -/
def wholeSeconds (d : Duration) : Nat :=
  d.nanos.natAbs / 10 ^ 9

/-- The nanoseconds past the whole seconds, whatever the sign. -/
def restNanos (d : Duration) : Nat :=
  d.nanos.natAbs % 10 ^ 9

/-- The nanoseconds past the whole seconds make no second. -/
theorem restNanos_lt (d : Duration) : d.restNanos < 10 ^ 9 :=
  Nat.mod_lt _ (by decide)

/-- A span is written as its sign, its days and its clock part. -/
theorem toText_eq (d : Duration) :
    d.toText = (if decide (d.nanos < 0) = true then "-P" else "P") ++
      (part (d.wholeSeconds / 86400) "D" ++
        if clockText d.wholeSeconds d.restNanos != "" then
          "T" ++ clockText d.wholeSeconds d.restNanos
        else if part (d.wholeSeconds / 86400) "D" == "" then "T0S" else "") := by
  rw [← String.append_assoc]
  simp only [decide_eq_true_eq]
  rfl

/-- The span that the parts behind the mark write. -/
def parseParts (negative : Bool) (chars : List Char) : Option Duration :=
  let (days, afterDays) := takePart 'D' chars
  match afterDays with
  | [] => if chars.isEmpty then none else assemble negative days [] [] [] []
  | 'T' :: clock =>
    let (hours, afterHours) := takePart 'H' clock
    let (minutes, afterMinutes) := takePart 'M' afterHours
    let (seconds, fraction, remaining) := takeSeconds afterMinutes
    if clock.isEmpty || !remaining.isEmpty then none
    else assemble negative days hours minutes seconds fraction
  | _ => none

/-- A text with the mark is read as its sign and the parts behind the mark. -/
theorem parse_mark (negative : Bool) (rest : String) :
    parse ((if negative then "-P" else "P") ++ rest) = parseParts negative rest.toList := by
  cases negative with
  | true => rw [if_pos rfl, parse, String.toList_append]; rfl
  | false => rw [if_neg Bool.false_ne_true, parse, String.toList_append]; rfl

/-- The parts of a span make it up. -/
theorem assemble_parts (d : Duration) {days hours minutes seconds fraction : List Char}
    (hasDays : count? days = some (d.wholeSeconds / 86400))
    (hasHours : count? hours = some (d.wholeSeconds % 86400 / 3600))
    (hasMinutes : count? minutes = some (d.wholeSeconds % 3600 / 60))
    (hasSeconds : count? seconds = some (d.wholeSeconds % 60))
    (hasNanos : count? ((fraction ++ List.replicate 9 '0').take 9) = some d.restNanos) :
    assemble (d.nanos < 0) days hours minutes seconds fraction = some d := by
  have same : (if decide (d.nanos < 0) = true then -(d.nanos.natAbs : Int) else d.nanos.natAbs)
      = d.nanos := by
    simp only [decide_eq_true_eq]
    split <;> omega
  have total : (86400 * (d.wholeSeconds / 86400) + 3600 * (d.wholeSeconds % 86400 / 3600) +
      60 * (d.wholeSeconds % 3600 / 60) + d.wholeSeconds % 60) * 10 ^ 9 + d.restNanos
      = d.nanos.natAbs := by
    simp only [wholeSeconds, restNanos]
    omega
  have whole : of? d.nanos = some d := dif_pos d.nanos_le
  simp only [assemble, hasDays, hasHours, hasMinutes, hasSeconds, hasNanos, total, same, whole,
    Option.bind_eq_bind, Option.bind_some]

/-- A part is left out exactly when its count is zero. -/
theorem part_eq_empty {n : Nat} {unit : String} : part n unit = "" ↔ n = 0 := by
  rw [part]
  split
  · rename_i zero
    exact iff_of_true rfl (eq_of_beq zero)
  · rename_i other
    refine iff_of_false ?_ fun zero => other (beq_iff_eq.mpr zero)
    intro none
    have chars := congrArg String.toList none
    rw [String.toList_append] at chars
    exact natText_ne_nil n (List.append_eq_nil_iff.mp chars).1

/-- The clock part is left out exactly when the span has whole days only. -/
theorem clockText_eq_empty {total nanos : Nat} :
    clockText total nanos = "" ↔ total % 86400 = 0 ∧ nanos = 0 := by
  have seconds : secondsText (total % 60) nanos = "" ↔ total % 60 = 0 ∧ nanos = 0 := by
    rw [secondsText]
    split
    · rename_i whole
      rw [part_eq_empty, eq_of_beq whole, and_iff_left rfl]
    · rename_i parted
      refine iff_of_false ?_ fun zero => parted (beq_iff_eq.mpr zero.2)
      simp [String.append_eq_empty_iff]
  rw [clockText, String.append_eq_empty_iff, String.append_eq_empty_iff, part_eq_empty,
    part_eq_empty, seconds]
  omega

/-- The parts of a clock part are taken off one after the other. -/
theorem take_clockText (total : Nat) {nanos : Nat} (below : nanos < 10 ^ 9) :
    ∃ hours minutes seconds fraction afterHours afterMinutes,
      takePart 'H' (clockText total nanos).toList = (hours, afterHours) ∧
      takePart 'M' afterHours = (minutes, afterMinutes) ∧
      takeSeconds afterMinutes = (seconds, fraction, []) ∧
      count? hours = some (total % 86400 / 3600) ∧ count? minutes = some (total % 3600 / 60) ∧
      count? seconds = some (total % 60) ∧
      count? ((fraction ++ List.replicate 9 '0').take 9) = some nanos := by
  obtain ⟨seconds, fraction, takenSeconds, hasSeconds, hasNanos⟩ :=
    takeSeconds_secondsText (total % 60) below
  obtain ⟨minutes, takenMinutes, hasMinutes⟩ := takePart_part 'M' rfl (total % 3600 / 60)
    (takePart_secondsText 'M' rfl rfl (total % 60) nanos)
  -- Neither the minutes nor the seconds are hours.
  obtain ⟨hours, takenHours, hasHours⟩ := takePart_part 'H' rfl (total % 86400 / 3600)
    (takePart_part_other 'H' 'M' rfl rfl (total % 3600 / 60)
      (takePart_secondsText 'H' rfl rfl (total % 60) nanos))
  refine ⟨hours, minutes, seconds, fraction, _, _, ?_, takenMinutes, takenSeconds, hasHours,
    hasMinutes, hasSeconds, hasNanos⟩
  rw [clockText, String.toList_append, String.toList_append, List.append_assoc]
  exact takenHours

/-- The parts of a span with a clock part are read. -/
theorem parseParts_timed (d : Duration) (timed : clockText d.wholeSeconds d.restNanos ≠ "") :
    parseParts (d.nanos < 0) ((part (d.wholeSeconds / 86400) "D").toList ++
      'T' :: (clockText d.wholeSeconds d.restNanos).toList) = some d := by
  obtain ⟨hours, minutes, seconds, fraction, afterHours, afterMinutes, takenHours, takenMinutes,
    takenSeconds, hasHours, hasMinutes, hasSeconds, hasNanos⟩ :=
    take_clockText d.wholeSeconds d.restNanos_lt
  have mark : Stops isDecimalDigit ('T' :: (clockText d.wholeSeconds d.restNanos).toList) :=
    .cons rfl
  obtain ⟨days, takenDays, hasDays⟩ :
      ∃ days, takePart 'D' ((part (d.wholeSeconds / 86400) "D").toList ++
        'T' :: (clockText d.wholeSeconds d.restNanos).toList)
        = (days, 'T' :: (clockText d.wholeSeconds d.restNanos).toList) ∧
        count? days = some (d.wholeSeconds / 86400) :=
    takePart_part 'D' rfl (d.wholeSeconds / 86400) (takePart_stopped mark)
  have filled : (clockText d.wholeSeconds d.restNanos).toList.isEmpty = false := by
    rwa [List.isEmpty_eq_false_iff, ne_eq, String.toList_eq_nil_iff]
  rw [parseParts]
  simp only [takenDays, takenHours, takenMinutes, takenSeconds, filled, List.isEmpty_nil,
    Bool.not_true, Bool.or_self, Bool.false_eq_true, if_false]
  exact assemble_parts d hasDays hasHours hasMinutes hasSeconds hasNanos

/-- The days of a span without a clock part are read. -/
theorem parseParts_daily (d : Duration) (daily : clockText d.wholeSeconds d.restNanos = "")
    (dated : part (d.wholeSeconds / 86400) "D" ≠ "") :
    parseParts (d.nanos < 0) (part (d.wholeSeconds / 86400) "D").toList = some d := by
  obtain ⟨noClock, noNanos⟩ := clockText_eq_empty.mp daily
  obtain ⟨days, takenDays, hasDays⟩ :
      ∃ days, takePart 'D' ((part (d.wholeSeconds / 86400) "D").toList ++ []) = (days, []) ∧
        count? days = some (d.wholeSeconds / 86400) :=
    takePart_part 'D' rfl (d.wholeSeconds / 86400) (takePart_stopped .nil)
  rw [List.append_nil] at takenDays
  have filled : (part (d.wholeSeconds / 86400) "D").toList.isEmpty = false := by
    rwa [List.isEmpty_eq_false_iff, ne_eq, String.toList_eq_nil_iff]
  have hours : d.wholeSeconds % 86400 / 3600 = 0 := by omega
  have minutes : d.wholeSeconds % 3600 / 60 = 0 := by omega
  have seconds : d.wholeSeconds % 60 = 0 := by omega
  rw [parseParts]
  simp only [takenDays, filled, Bool.false_eq_true, if_false]
  exact assemble_parts d hasDays (hours ▸ rfl) (minutes ▸ rfl) (seconds ▸ rfl) (noNanos ▸ rfl)

/-- The zero seconds that stand for no parts at all are read. -/
theorem parseParts_zero (d : Duration) (daily : clockText d.wholeSeconds d.restNanos = "")
    (undated : part (d.wholeSeconds / 86400) "D" = "") :
    parseParts (d.nanos < 0) "T0S".toList = some d := by
  obtain ⟨noClock, noNanos⟩ := clockText_eq_empty.mp daily
  have days := part_eq_empty.mp undated
  have hours : d.wholeSeconds % 86400 / 3600 = 0 := by omega
  have minutes : d.wholeSeconds % 3600 / 60 = 0 := by omega
  have seconds : d.wholeSeconds % 60 = 0 := by omega
  have read : parseParts (d.nanos < 0) "T0S".toList = assemble (d.nanos < 0) [] [] [] ['0'] [] :=
    rfl
  rw [read]
  exact assemble_parts d (days ▸ rfl) (hours ▸ rfl) (minutes ▸ rfl) (seconds ▸ rfl) (noNanos ▸ rfl)

/-- A span is read back from its notation. -/
theorem parse_toText (d : Duration) : parse d.toText = some d := by
  rw [toText_eq, parse_mark, String.toList_append]
  split
  · rename_i timed
    rw [String.toList_append]
    exact parseParts_timed d (bne_iff_ne.mp timed)
  · rename_i untimed
    have daily : clockText d.wholeSeconds d.restNanos = "" := by simpa using untimed
    split
    · rename_i nothing
      rw [eq_of_beq nothing, String.toList_empty, List.nil_append]
      exact parseParts_zero d daily (eq_of_beq nothing)
    · rename_i dated
      rw [String.toList_empty, List.append_nil]
      exact parseParts_daily d daily fun none => dated (beq_iff_eq.mpr none)

/-- A character that is neither a digit nor in the unit is not in a count with its unit. -/
theorem not_mem_part {c : Char} (other : isDigit c = false) {unit : String} (apart : c ∉ unit.toList)
    (n : Nat) : c ∉ (part n unit).toList := by
  rw [part]
  split
  · simp
  · rw [String.toList_append, List.mem_append, not_or]
    refine ⟨fun mem => ?_, apart⟩
    rw [isDigit_of_mem_natText mem] at other
    cases other

/-- A character that is neither a digit nor one of the marks is not in written seconds. -/
theorem not_mem_secondsText {c : Char} (other : isDigit c = false) (apart : c ∉ ['.', 'S'])
    (seconds nanos : Nat) : c ∉ (secondsText seconds nanos).toList := by
  obtain ⟨noPoint, noUnit⟩ : c ≠ '.' ∧ c ≠ 'S' := by simpa using apart
  have point : c ∉ ".".toList := by simpa using noPoint
  have unit : c ∉ "S".toList := by simpa using noUnit
  have digit {chars : List Char} (all : ∀ d ∈ chars, isDigit d = true) : c ∉ chars := fun mem => by
    rw [all c mem] at other
    cases other
  obtain ⟨k, whole⟩ := exists_padded_eq nanos
  have places : c ∉ (fractionText nanos).toList := by
    refine digit fun d mem => ?_
    have place : d ∈ (padded 9 nanos).toList := by
      rw [whole]
      exact List.mem_append_left _ mem
    exact isDigit_of_mem_padded place
  have count : c ∉ (natText seconds).toList := digit fun d => isDigit_of_mem_natText
  rw [secondsText]
  split
  · exact not_mem_part other unit seconds
  · simp only [String.toList_append, List.mem_append, not_or]
    exact ⟨⟨⟨count, point⟩, places⟩, unit⟩

/-- A span is written in digits, with the marks of its parts. -/
theorem not_mem_toText {c : Char} (other : isDigit c = false)
    (apart : c ∉ ['-', 'P', 'D', 'T', 'H', 'M', 'S', '.', '0']) (d : Duration) :
    c ∉ d.toText.toList := by
  have clock (total nanos : Nat) : c ∉ (clockText total nanos).toList := by
    simp only [clockText, String.toList_append, List.mem_append, not_or]
    exact ⟨⟨not_mem_part other (by simp_all) _, not_mem_part other (by simp_all) _⟩,
      not_mem_secondsText other (by simp_all) _ _⟩
  have days (n : Nat) : c ∉ (part n "D").toList := not_mem_part other (by simp_all) n
  rw [toText_eq]
  simp only [String.toList_append, List.mem_append, not_or]
  refine ⟨?_, days _, ?_⟩
  · split <;> simp_all
  split
  · rw [String.toList_append, List.mem_append, not_or]
    exact ⟨by simp_all, clock _ _⟩
  · split <;> simp_all

/-- Spans compare equal only when they are the same span. -/
theorem compare_eq_iff {a b : Duration} : a.compare b = .eq ↔ a = b := by
  -- A span is its nanoseconds, and the bound on them is no data.
  rw [compare, Std.LawfulEqOrd.compare_eq_iff_eq, Duration.mk.injEq]

/--
A span is read back from its notation, so that notations are equal exactly when spans are.

Spans on either side of zero are covered, with fractions of a second and up to the longest one.
-/
theorem notations_tell_spans :
    (∀ d : Duration, parse d.toText = some d) ∧
      ∀ a b : Duration, a.toText = b.toText ↔ a.compare b = .eq := by
  refine ⟨parse_toText, fun a b => ?_⟩
  rw [compare_eq_iff]
  constructor
  · -- One text is read as one span only.
    intro same
    have read : some a = some b := by rw [← parse_toText a, same, parse_toText]
    exact Option.some.inj read
  · intro same
    rw [same]

/-- The longest span before zero has every part that a notation can have. -/
example : toText ⟨-limit, by decide⟩ = "-P106751991167DT7H12M55.807S" := by cbv

end EdmQuery.Calendar.Duration
