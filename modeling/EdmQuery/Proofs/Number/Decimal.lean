import Mathlib
import EdmQuery.Edm.Value
import EdmQuery.Proofs.Text.Digits

/-! Decimals written with a point read back as numbers of the same value. -/

namespace EdmQuery.Number.Decimal

open Text

/-- Whether decimals with two magnitudes and scales are the same number of the same sign. -/
theorem compare_eq {a b : Decimal} (sign : a.negative = b.negative ∨ a.magnitude = 0)
    (value : a.magnitude * 10 ^ b.scale = b.magnitude * 10 ^ a.scale) : a.compare b = .eq := by
  have none (missing : a.magnitude = 0) : b.magnitude = 0 := by
    rw [missing, Nat.zero_mul] at value
    exact (Nat.mul_eq_zero.mp value.symm).resolve_right (by positivity)
  have scaled : (a.magnitude : Int) * 10 ^ b.scale = b.magnitude * 10 ^ a.scale := by
    exact_mod_cast value
  have numerators : a.numerator * 10 ^ b.scale = b.numerator * 10 ^ a.scale := by
    rcases sign with same | zero
    · simp only [numerator, same]
      split
      · rw [Int.neg_mul, Int.neg_mul, scaled]
      · exact scaled
    · simp [numerator, zero, none zero]
  rw [compare, numerators]
  exact Std.ReflOrd.compare_self

/-- Parts in range are those of a decimal. -/
theorem ofParts?_eq {negative : Bool} {magnitude scale : Nat} (low : magnitude < bound)
    (few : scale ≤ maxScale) :
    ofParts? negative magnitude scale = some ⟨negative, magnitude, scale, low, few⟩ := by
  rw [ofParts?, dif_pos ⟨low, few⟩]

namespace Progress

/-- What is below a bound with all digits is below it with the next one. -/
theorem below_of_next {n : Nat} {c : Char} {rest : List Char}
    (low : n * 10 ^ (c :: rest).length + natOfDigits (c :: rest) < bound) :
    n * 10 + digitValue c < bound := by
  have grows := Nat.le_mul_of_pos_right (n * 10 + digitValue c)
    (by positivity : 0 < 10 ^ rest.length)
  have same := natOfDigits_next n c rest
  omega

/-- The progress after digits in front of the point. -/
theorem read_whole {p : Progress} (front : p.pointed = false) (unscaled : p.scale = 0)
    {digits rest : List Char} (all : ∀ c ∈ digits, isDigit c = true)
    (low : p.magnitude * 10 ^ digits.length + natOfDigits digits < bound) :
    p.read (digits ++ rest) = Progress.read { p with
      started := p.started || !digits.isEmpty
      magnitude := p.magnitude * 10 ^ digits.length + natOfDigits digits } rest := by
  induction digits generalizing p with
  | nil => simp [natOfDigits]
  | cons c digits ih =>
    obtain ⟨first, others⟩ := List.forall_mem_cons.mp all
    have within := below_of_next low
    rw [List.cons_append, Progress.read]
    simp only [front, Bool.false_and, Bool.false_eq_true, if_false, first, if_true, within]
    rw [ih rfl rfl others (by rw [natOfDigits_next]; exact low)]
    simp only [natOfDigits_next, List.isEmpty_cons, Bool.not_false, Bool.true_or, Bool.or_true,
      unscaled]

/-- The progress after digits behind the point. -/
theorem read_places {p : Progress} (behind : p.pointed = true) {digits rest : List Char}
    (all : ∀ c ∈ digits, isDigit c = true) (few : p.scale + digits.length ≤ maxScale)
    (low : p.magnitude * 10 ^ digits.length + natOfDigits digits < bound) :
    p.read (digits ++ rest) = Progress.read { p with
      started := p.started || !digits.isEmpty
      magnitude := p.magnitude * 10 ^ digits.length + natOfDigits digits
      scale := p.scale + digits.length } rest := by
  induction digits generalizing p with
  | nil => simp [natOfDigits]
  | cons c digits ih =>
    obtain ⟨first, others⟩ := List.forall_mem_cons.mp all
    have within := below_of_next low
    rw [List.length_cons] at few
    have more : (p.scale == maxScale) = false := beq_eq_false_iff_ne.mpr (by omega)
    rw [List.cons_append, Progress.read]
    simp only [behind, more, Bool.and_false, Bool.false_eq_true, if_false, first, if_true, within]
    rw [ih rfl others (by simp only; omega) (by rw [natOfDigits_next]; exact low)]
    have count : p.scale + 1 + digits.length = p.scale + (c :: digits).length := by
      rw [List.length_cons]
      omega
    simp only [natOfDigits_next, count, List.isEmpty_cons, Bool.not_false, Bool.true_or,
      Bool.or_true]

end Progress

/-- Digits, a point and further digits write the number that all of them do. -/
theorem readPlain_point {negative : Bool} {front back : List Char} (some_ : front ≠ [])
    (allFront : ∀ c ∈ front, isDigit c = true) (allBack : ∀ c ∈ back, isDigit c = true)
    (few : back.length ≤ maxScale) (low : natOfDigits (front ++ back) < bound) :
    readPlain ((sign negative).toList ++ (front ++ '.' :: back)) =
      unsignedZero? negative (natOfDigits (front ++ back)) back.length := by
  rw [natOfDigits_append] at low ⊢
  obtain ⟨c, tail, rfl⟩ := List.exists_cons_of_ne_nil some_
  have digit : ∀ d ∈ (c :: tail ++ '.' :: back).head?, isDigit d = true := by
    rintro d ⟨⟩
    exact allFront c List.mem_cons_self
  have lowFront : natOfDigits (c :: tail) < bound := by
    have grows := Nat.le_mul_of_pos_right (natOfDigits (c :: tail))
      (by positivity : 0 < 10 ^ back.length)
    omega
  rw [readPlain, signed_sign digit]
  simp only
  rw [Progress.read_whole rfl rfl allFront (by simpa using lowFront), Progress.read]
  -- The point is passed once, and digits behind it count as places.
  have point : isDigit '.' = false := rfl
  simp only [point, Bool.false_and, Bool.false_eq_true, if_false, beq_self_eq_true, Bool.not_false,
    Bool.and_self, if_true]
  rw [← List.append_nil back, Progress.read_places rfl allBack (by simpa using few)
    (by simpa using low), Progress.read, Progress.finish]
  simp

/-- The characters of a magnitude with places are digits around a point. -/
theorem toList_magnitudeText (magnitude : Nat) {scale : Nat} (places : scale ≠ 0) :
    ∃ front back, (magnitudeText magnitude scale).toList = front ++ '.' :: back ∧
      front ++ back = (Calendar.padded (scale + 1) magnitude).toList ∧ front ≠ [] ∧
      back.length = scale := by
  let digits := (Calendar.padded (scale + 1) magnitude).toList
  have long : scale < digits.length := by
    simp only [digits, Calendar.toList_padded, List.length_append, List.length_replicate]
    omega
  refine ⟨digits.take (digits.length - scale), digits.drop (digits.length - scale), ?_,
    List.take_append_drop _ _, ?_, ?_⟩
  · have unfolded : magnitudeText magnitude scale =
        String.ofList (digits.take (digits.length - scale)) ++ "." ++
          String.ofList (digits.drop (digits.length - scale)) := by
      rw [magnitudeText, if_neg (by simpa using places)]
      simp only [digits, String.length_toList]
      rfl
    rw [unfolded]
    simp
  · rw [ne_eq, List.take_eq_nil_iff]
    rintro (none | empty)
    · omega
    · simp [empty] at long
  · rw [List.length_drop]
    omega

/-- A whole number with a point and a zero is read with the zero or, where it cannot be, without. -/
theorem readPlain_whole (negative : Bool) {magnitude : Nat} (low : magnitude < bound) :
    ∃ scale, readPlain ((sign negative).toList ++ ((natText magnitude).toList ++ ['.', '0'])) =
      unsignedZero? negative (magnitude * 10 ^ scale) scale ∧ scale ≤ 1 ∧
        magnitude * 10 ^ scale < bound := by
  have digits : ∀ c ∈ (natText magnitude).toList, isDigit c = true :=
    fun _ => isDigit_of_mem_natText
  have value : natOfDigits ((natText magnitude).toList ++ ['0']) = magnitude * 10 := by
    rw [natOfDigits_append, natOfDigits_natText]
    rfl
  by_cases fits : magnitude * 10 < bound
  · refine ⟨1, ?_, le_rfl, by simpa using fits⟩
    have last : ∀ c ∈ ['0'], isDigit c = true := by simp [isDigit]
    rw [readPlain_point (natText_ne_nil _) digits last (by simp [maxScale]) (by rwa [value]), value,
      pow_one]
    rfl
  · refine ⟨0, ?_, by decide, by simpa using low⟩
    have digit : ∀ d ∈ ((natText magnitude).toList ++ ['.', '0']).head?, isDigit d = true := by
      intro d mem
      rw [List.head?_append_of_ne_nil _ (natText_ne_nil _)] at mem
      exact digits d (List.mem_of_head? mem)
    have point : isDigit '.' = false := rfl
    have zero : isDigit '0' = true := rfl
    rw [readPlain, signed_sign digit]
    simp only
    rw [Progress.read_whole rfl rfl digits (by simpa [natOfDigits_natText] using low)]
    -- The zero does not fit, so it could only round, which a zero does not.
    have none : digitValue '0' = 0 := rfl
    have some_ : (natText magnitude).toList.isEmpty = false :=
      List.isEmpty_eq_false_iff.mpr (natText_ne_nil _)
    have unplaced : ((0 : Nat) == maxScale) = false := rfl
    simp only [Progress.read, Progress.roundedBy, Progress.finish, point, zero, none, some_,
      unplaced, natOfDigits_natText, fits, Bool.false_and, Bool.and_false, Bool.false_eq_true,
      if_false, beq_self_eq_true, Bool.not_false, Bool.and_self, if_true, Nat.zero_mul,
      Nat.zero_add, Nat.add_zero, Bool.true_or, Bool.not_true, Bool.and_true]
    simp

/-- The literal of a decimal with places reads back by its digits. -/
theorem read_toLiteral_scaled {d : Decimal} (scaled : d.scale ≠ 0) :
    Decimal.read (Scalar.toLiteral (.decimal d)) =
      unsignedZero? d.negative d.magnitude d.scale := by
  obtain ⟨front, back, text, digits, some_, places⟩ := toList_magnitudeText d.magnitude scaled
  have value : natOfDigits (front ++ back) = d.magnitude := by
    rw [digits, Calendar.natOfDigits_padded]
  have all : ∀ c ∈ front ++ back, isDigit c = true := by
    rw [digits]
    exact fun _ => Calendar.isDigit_of_mem_padded
  have made : unsignedZero? d.negative d.magnitude d.scale
      = some ⟨d.negative && d.magnitude != 0, d.magnitude, d.scale, d.magnitude_lt, d.scale_le⟩ :=
    ofParts?_eq d.magnitude_lt d.scale_le
  rw [Scalar.toLiteral, if_neg (by simpa using scaled), Decimal.read, toText, String.toList_append,
    text, readPlain_point some_ (fun c mem => all c (List.mem_append_left _ mem))
      (fun c mem => all c (List.mem_append_right _ mem)) (places ▸ d.scale_le)
      (value ▸ d.magnitude_lt), value, places, made]
  rfl

/-- The literal of a decimal reads back as the same number. -/
theorem read_toLiteral (d : Decimal) :
    ∃ d', Decimal.read (Scalar.toLiteral (.decimal d)) = some d' ∧ d.compare d' = .eq := by
  have same (scale : Nat) (low : d.magnitude * 10 ^ scale < bound)
      (few : d.scale + scale ≤ maxScale) :
      ∃ d', unsignedZero? d.negative (d.magnitude * 10 ^ scale) (d.scale + scale) = some d' ∧
        d.compare d' = .eq := by
    refine ⟨_, ofParts?_eq low few, compare_eq ?_ ?_⟩
    · by_cases zero : d.magnitude = 0
      · exact .inr zero
      · left
        simp [zero]
    · simp only [pow_add]
      ring
  rw [Scalar.toLiteral]
  split
  · rename_i unscaled
    have unscaled : d.scale = 0 := by simpa using unscaled
    obtain ⟨scale, read, few, low⟩ := readPlain_whole d.negative d.magnitude_lt
    have text : (d.toText ++ ".0").toList
        = (sign d.negative).toList ++ ((natText d.magnitude).toList ++ ['.', '0']) := by
      have filled : 0 + 1 - (natText d.magnitude).length = 0 := by
        have some_ := List.length_pos_of_ne_nil (natText_ne_nil d.magnitude)
        rw [String.length_toList] at some_
        omega
      simp [toText, magnitudeText, unscaled, filled]
    obtain ⟨d', made, equal⟩ := same scale low (by rw [unscaled, maxScale]; omega)
    refine ⟨d', ?_, equal⟩
    rw [unscaled, Nat.zero_add] at made
    rw [Decimal.read, text, read, made]
    rfl
  · rename_i scaled
    have scaled : d.scale ≠ 0 := by simpa using scaled
    obtain ⟨d', made, equal⟩ := same 0 (by simpa using d.magnitude_lt) d.scale_le
    rw [pow_zero, Nat.mul_one, Nat.add_zero] at made
    refine ⟨d', ?_, equal⟩
    rw [← made, ← read_toLiteral_scaled scaled, Scalar.toLiteral, if_neg (by simpa using scaled)]

/-- Whether a decimal has a sign only where it is not zero. -/
def IsUnsignedZero (d : Decimal) : Prop :=
  d.negative = true → d.magnitude ≠ 0

/-- A zero that is made without a sign has none. -/
theorem isUnsignedZero_of_made {negative : Bool} {magnitude scale : Nat} {d : Decimal}
    (made : unsignedZero? negative magnitude scale = some d) : d.IsUnsignedZero := by
  rw [unsignedZero?, ofParts?] at made
  split at made
  · cases made
    intro sign
    simpa using (Bool.and_eq_true_iff.mp sign).2
  · cases made

/-- A zero that was read to the end has no sign. -/
theorem Progress.isUnsignedZero_of_finish {p : Progress} {d : Decimal}
    (read : p.finish = some d) : d.IsUnsignedZero := by
  rw [finish] at read
  split at read
  · exact isUnsignedZero_of_made read
  · cases read

/-- A zero that was rounded has no sign. -/
theorem Progress.isUnsignedZero_of_roundedBy {p : Progress} {next : Char} {d : Decimal}
    (read : p.roundedBy next = some d) : d.IsUnsignedZero := by
  unfold roundedBy at read
  dsimp only at read
  repeat' split at read
  all_goals first
    | exact isUnsignedZero_of_finish read
    | cases read

/-- A zero that was read has no sign, whatever had been read before. -/
theorem Progress.isUnsignedZero_of_read {p : Progress} {chars : List Char} {d : Decimal}
    (read : p.read chars = some d) : d.IsUnsignedZero := by
  induction chars generalizing p with
  | nil => exact isUnsignedZero_of_finish read
  | cons c rest ih =>
    unfold Progress.read at read
    dsimp only at read
    repeat' split at read
    all_goals first
      | exact isUnsignedZero_of_roundedBy read
      | exact ih read
      | cases read

/-- The literal of a decimal with places reads back as the decimal, unless it is a negative zero. -/
theorem read_toLiteral_self {d : Decimal} (scaled : d.scale ≠ 0) (zero : d.IsUnsignedZero) :
    Decimal.read (Scalar.toLiteral (.decimal d)) = some d := by
  have sign : (d.negative && d.magnitude != 0) = d.negative := by
    cases negative : d.negative with
    | false => rfl
    | true => simpa using zero negative
  rw [read_toLiteral_scaled scaled, unsignedZero?, ofParts?_eq d.magnitude_lt d.scale_le]
  simp only [sign]

end EdmQuery.Number.Decimal
