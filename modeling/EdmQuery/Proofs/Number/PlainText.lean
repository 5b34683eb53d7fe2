import Mathlib
import EdmQuery.Proofs.Number.Decimal
import EdmQuery.Proofs.Number.DoubleText

/-! The numbers that documents write for doubles read as decimals of the same value. -/

namespace EdmQuery.Number

open Text

/-- The zeros behind a number are not digits of the stripped one. -/
theorem Scientific.stripped_digits {s : Scientific} (some : 0 < s.digits) :
    s.stripped.digits % 10 ≠ 0 := by
  have step (fuel : Nat) (s : Scientific) (some : 0 < s.digits) (enough : s.digits ≤ fuel) :
      (stripped.go fuel s).digits % 10 ≠ 0 := by
    -- Each step takes a zero off, so there are never more steps than the digits say.
    induction fuel generalizing s with
    | zero => omega
    | succ fuel ih =>
      rw [stripped.go]
      split
      · rename_i zero
        simp only [Bool.and_eq_true, beq_iff_eq] at zero
        exact ih _ (by simp only; omega) (by simp only; omega)
      · rename_i other
        simp only [Bool.and_eq_true, bne_iff_ne, beq_iff_eq, not_and] at other
        exact other some.ne'
  exact step s.digits s some le_rfl

/-- A number above zero has a digit other than zero. -/
theorem Scientific.digits_pos {s : Scientific} (some : 0 < s.value) : 0 < s.digits := by
  rw [Nat.pos_iff_ne_zero]
  intro none
  rw [value, none, Nat.cast_zero, zero_mul] at some
  exact absurd some (lt_irrefl 0)

/-- The shortest digits of a double end in no zero. -/
theorem shortest_digits {tie : Tie} {b : Binary} (some : 0 < (shortest tie b).value) :
    (shortest tie b).digits % 10 ≠ 0 := by
  rw [shortest] at some ⊢
  rw [Scientific.value_stripped] at some
  exact Scientific.stripped_digits (Scientific.digits_pos some)

namespace Decimal

/-- The decimal of a magnitude and a scale is the number that a text of digits stands for. -/
def Writes (d : Decimal) (negative : Bool) (v : ℚ) : Prop :=
  d.negative = negative ∧ (d.magnitude : ℚ) / 10 ^ d.scale = v

/-- Parts in range are those of a decimal, and keep their sign if there is a digit but zero. -/
theorem unsignedZero?_eq {negative : Bool} {magnitude scale : Nat} (some_ : 0 < magnitude)
    (low : magnitude < bound) (few : scale ≤ maxScale) :
    unsignedZero? negative magnitude scale = some ⟨negative, magnitude, scale, low, few⟩ := by
  rw [unsignedZero?, ofParts?_eq low few]
  simp only [bne_iff_ne.mpr some_.ne', Bool.and_true]

/-- A text with a point is read as the number of its digits over as many places. -/
theorem read_point {text : String} {negative : Bool} {front back : List Char}
    (written : text.toList = (sign negative).toList ++ (front ++ '.' :: back)) (some_ : front ≠ [])
    (digits : ∀ c ∈ front ++ back, isDigit c = true) (few : back.length ≤ maxScale)
    (positive : 0 < natOfDigits (front ++ back)) (low : natOfDigits (front ++ back) < bound) :
    ∃ d, Decimal.read text = some d ∧
      d.Writes negative (natOfDigits (front ++ back) / 10 ^ back.length) := by
  refine ⟨⟨negative, natOfDigits (front ++ back), back.length, low, few⟩, ?_, rfl, rfl⟩
  rw [Decimal.read, written, readPlain_point some_
    (fun c mem => digits c (List.mem_append_left _ mem))
    (fun c mem => digits c (List.mem_append_right _ mem)) few low, unsignedZero?_eq positive low few]
  rfl

/-- A number with places behind the point is its digits over so many powers of ten. -/
theorem value_scaled {s : Scientific} (part : s.exponent ≤ 0) :
    (s.digits : ℚ) / 10 ^ (-s.exponent).toNat = s.value := by
  obtain ⟨places, same⟩ : ∃ places : Nat, s.exponent = -(places : Int) :=
    ⟨(-s.exponent).toNat, by omega⟩
  rw [Scientific.value, same, neg_neg, Int.toNat_natCast, zpow_neg, zpow_natCast, div_eq_mul_inv]

/-- A mark of an exponent ends the digits of a number without one. -/
theorem read_mark {p : Progress} (rest : List Char) : p.read ('e' :: rest) = none := by
  have digit : isDigit 'e' = false := rfl
  rw [Progress.read]
  split
  · rw [Progress.roundedBy]
    simp [digit]
  · simp [digit]

section

variable {negative : Bool} {s : Scientific}

/-- The length of the digits and the exponent tell where the first digit stands. -/
theorem leading_eq (s : Scientific) :
    s.leading = s.exponent + ((natText s.digits).toList.length : Int) - 1 := by
  rw [Scientific.leading, String.length_toList]

/-- A number below one is read from behind its point. -/
theorem read_below_one (positive : 0 < s.digits) (few : s.digits < 10 ^ 15)
    (low : -28 ≤ s.exponent) (small : s.leading < 0) :
    ∃ d, Decimal.read (sign negative ++ ("0." ++
        String.ofList (List.replicate (-s.leading - 1).toNat '0') ++ natText s.digits)) = some d ∧
      d.Writes negative s.value := by
  have leading := leading_eq s
  -- The zeros behind the point are places, but no digits of the number.
  generalize filled : (-s.leading - 1).toNat = zeros
  have whole : natOfDigits (['0'] ++ (List.replicate zeros '0' ++ (natText s.digits).toList))
      = s.digits := by
    have front : ['0'] ++ (List.replicate zeros '0' ++ (natText s.digits).toList) =
        List.replicate (zeros + 1) '0' ++ (natText s.digits).toList := rfl
    rw [front, natOfDigits_zeros, natOfDigits_natText]
  have places : (List.replicate zeros '0' ++ (natText s.digits).toList).length
      = (-s.exponent).toNat := by
    rw [List.length_append, List.length_replicate]
    omega
  have written : (sign negative ++ ("0." ++ String.ofList (List.replicate zeros '0') ++
      natText s.digits)).toList = (sign negative).toList ++
        (['0'] ++ '.' :: (List.replicate zeros '0' ++ (natText s.digits).toList)) := by simp
  obtain ⟨d, read, writes⟩ := read_point written (by simp)
    (by
      intro c mem
      simp only [List.singleton_append, List.mem_cons, List.mem_append, List.mem_replicate] at mem
      rcases mem with rfl | ⟨-, rfl⟩ | mem
      · rfl
      · rfl
      · exact isDigit_of_mem_natText mem)
    (by rw [places, maxScale]; omega) (by rwa [whole])
    (by rw [whole, bound]; omega)
  refine ⟨d, read, ?_⟩
  rwa [whole, places, value_scaled (by omega)] at writes

/-- A whole number is read with the zeros that fill it up. -/
theorem read_whole_number (positive : 0 < s.digits) (high : s.leading < 16)
    (whole : 0 ≤ s.exponent) :
    ∃ d, Decimal.read (sign negative ++ (natText s.digits ++
        String.ofList (List.replicate s.exponent.toNat '0') ++ ".0")) = some d ∧
      d.Writes negative s.value := by
  have leading := leading_eq s
  obtain ⟨zeros, filled⟩ := Int.eq_ofNat_of_zero_le whole
  rw [filled, Int.toNat_natCast]
  have none : natOfDigits (List.replicate zeros '0') = 0 := by
    have padded := natOfDigits_zeros zeros []
    rwa [List.append_nil] at padded
  -- The zero behind the point is one more digit, and one more place.
  have value : natOfDigits ((natText s.digits).toList ++ List.replicate zeros '0' ++ ['0'])
      = s.digits * 10 ^ zeros * 10 := by
    rw [natOfDigits_append, natOfDigits_append, natOfDigits_natText, none, List.length_replicate]
    rfl
  have digits : ∀ c ∈ (natText s.digits).toList ++ List.replicate zeros '0' ++ ['0'],
      isDigit c = true := by
    intro c mem
    simp only [List.mem_append, List.mem_replicate, List.mem_singleton] at mem
    rcases mem with (mem | ⟨-, rfl⟩) | rfl
    · exact isDigit_of_mem_natText mem
    · rfl
    · rfl
  have size := natOfDigits_lt digits
  have range : 10 ^ ((natText s.digits).toList ++ List.replicate zeros '0' ++ ['0']).length
      ≤ 10 ^ 17 := by
    apply Nat.pow_le_pow_right (by decide)
    simp only [List.length_append, List.length_replicate, List.length_singleton]
    omega
  have written : (sign negative ++ (natText s.digits ++
      String.ofList (List.replicate zeros '0') ++ ".0")).toList = (sign negative).toList ++
        ((natText s.digits).toList ++ List.replicate zeros '0' ++ '.' :: ['0']) := by simp
  obtain ⟨d, read, writes⟩ := read_point written
    (fun none => natText_ne_nil _ (List.append_eq_nil_iff.mp none).1) digits (by simp [maxScale])
    (by rw [value]; positivity) (by rw [bound]; omega)
  refine ⟨d, read, ?_⟩
  have same : ((s.digits * 10 ^ zeros * 10 : Nat) : ℚ) / 10 ^ 1 = s.value := by
    rw [Scientific.value, filled, zpow_natCast]
    push_cast
    ring
  rwa [value, List.length_singleton, same] at writes

/-- A number with some of its digits in front of the point is read around it. -/
theorem read_mixed (positive : 0 < s.digits) (few : s.digits < 10 ^ 15) (low : -28 ≤ s.exponent)
    (large : 0 ≤ s.leading) (part : s.exponent < 0) :
    ∃ d, Decimal.read (sign negative ++
        (String.ofList ((natText s.digits).toList.take (s.leading.toNat + 1)) ++ "." ++
          String.ofList ((natText s.digits).toList.drop (s.leading.toNat + 1)))) = some d ∧
      d.Writes negative s.value := by
  have leading := leading_eq s
  -- The point cuts the digits in two, which are read as one number with the back as its places.
  generalize cut : s.leading.toNat + 1 = front
  have whole : (natText s.digits).toList.take front ++ (natText s.digits).toList.drop front
      = (natText s.digits).toList := List.take_append_drop _ _
  have value : natOfDigits ((natText s.digits).toList.take front ++
      (natText s.digits).toList.drop front) = s.digits := by
    rw [whole, natOfDigits_natText]
  have places : ((natText s.digits).toList.drop front).length = (-s.exponent).toNat := by
    rw [List.length_drop]
    omega
  have written : (sign negative ++ (String.ofList ((natText s.digits).toList.take front) ++ "." ++
      String.ofList ((natText s.digits).toList.drop front))).toList = (sign negative).toList ++
        ((natText s.digits).toList.take front ++
          '.' :: (natText s.digits).toList.drop front) := by simp
  obtain ⟨d, read, writes⟩ := read_point written
    (by
      rw [ne_eq, List.take_eq_nil_iff]
      rintro (none | empty)
      · omega
      · exact natText_ne_nil _ empty)
    (by
      rw [whole]
      exact fun _ => isDigit_of_mem_natText)
    (by rw [places, maxScale]; omega) (by rwa [value]) (by rw [value, bound]; omega)
  refine ⟨d, read, ?_⟩
  rwa [value, places, value_scaled (by omega)] at writes

/-- The progress after digits with a point after the first one. -/
theorem read_pointed (negative : Bool) (positive : 0 < s.digits) (few : s.digits < 10 ^ 15)
    (rest : List Char) :
    ∃ pointed_, Progress.read ⟨negative, false, false, 0, 0⟩
        ((pointed (natText s.digits)).toList ++ rest) =
      Progress.read ⟨negative, pointed_, true, s.digits, (natText s.digits).toList.length - 1⟩
        rest := by
  have digits : ∀ c ∈ (natText s.digits).toList, isDigit c = true := fun _ => isDigit_of_mem_natText
  have value := natOfDigits_natText s.digits
  have short : (natText s.digits).toList.length ≤ 15 := (length_natText_le (by decide)).mpr few
  obtain ⟨first, more, text⟩ := List.exists_cons_of_ne_nil (natText_ne_nil s.digits)
  rw [pointed]
  rw [text] at digits value short ⊢
  rw [List.length_cons] at short
  -- A single digit gets no point.
  cases more with
  | nil =>
    refine ⟨false, ?_⟩
    simp only [String.toList_ofList]
    rw [Progress.read_whole rfl rfl digits (by simp only [value, bound]; omega)]
    simp [value]
  | cons second more =>
    obtain ⟨firstDigit, moreDigits⟩ := List.forall_mem_cons.mp digits
    have point : isDigit '.' = false := rfl
    have joined : natOfDigits [first] * 10 ^ (second :: more).length + natOfDigits (second :: more)
        = s.digits := by
      rw [← natOfDigits_append]
      exact value
    have front : natOfDigits [first] < 10 ^ 1 := natOfDigits_lt (by simpa using firstDigit)
    refine ⟨true, ?_⟩
    simp only [String.toList_ofList]
    rw [show first :: '.' :: second :: more ++ rest = [first] ++ '.' :: (second :: more ++ rest)
      from rfl, Progress.read_whole rfl rfl (by simpa using firstDigit)
        (by simp only [bound]; omega), Progress.read]
    simp only [point, Bool.false_and, Bool.false_eq_true, if_false, beq_self_eq_true, Bool.not_false,
      Bool.and_self, if_true, Nat.zero_mul, Nat.zero_add]
    rw [Progress.read_places rfl moreDigits (by simp only [maxScale]; omega)
      (by simp only [joined, bound]; omega)]
    simp only [joined]
    simp

/-- The progress on a text that starts with a sign and such digits. -/
theorem readPlain_pointed (negative : Bool) (positive : 0 < s.digits) (few : s.digits < 10 ^ 15) (rest : List Char) :
    ∃ pointed_, readPlain ((sign negative).toList ++
        ((pointed (natText s.digits)).toList ++ rest)) =
      Progress.read ⟨negative, pointed_, true, s.digits, (natText s.digits).toList.length - 1⟩
        rest := by
  obtain ⟨pointed_, read⟩ := read_pointed negative positive few rest
  refine ⟨pointed_, ?_⟩
  rw [readPlain, signed_sign (isDigit_of_head_pointed s.digits)]
  exact read

/-- A point is all that is put into the digits. -/
theorem mem_pointed {text : String} {c : Char} (mem : c ∈ (pointed text).toList) :
    c ∈ text.toList ∨ c = '.' := by
  rw [pointed] at mem
  split at mem
  · rename_i first second more same
    rw [same]
    simp only [String.toList_ofList, List.mem_cons] at mem ⊢
    tauto
  · left
    simpa using mem

/-- No character in front of the exponent is a mark of one. -/
theorem unmarked {c : Char}
    (mem : c ∈ (sign negative).toList ++ (pointed (natText s.digits)).toList) :
    (!(c == 'e' || c == 'E')) = true := by
  have digit (own : isDigit c = true) : (!(c == 'e' || c == 'E')) = true := by
    have small : c ≠ 'e' := by
      rintro rfl
      cases own
    have capital : c ≠ 'E' := by
      rintro rfl
      cases own
    simp [small, capital]
  rcases List.mem_append.mp mem with front | back
  · cases negative with
    | true =>
      rw [List.mem_singleton.mp front]
      rfl
    | false => cases front
  · rcases mem_pointed back with inside | rfl
    · exact digit (isDigit_of_mem_natText inside)
    · rfl

/-- The size of an exponent is read as itself. -/
theorem readExponent_natText (n : Nat) : readExponent (natText n).toList = some n := by
  have digits : ∀ c ∈ (natText n).toList, isDigit c = true := fun _ => isDigit_of_mem_natText
  have value := natOfDigits_natText n
  obtain ⟨first, more, text⟩ := List.exists_cons_of_ne_nil (natText_ne_nil n)
  rw [text] at digits value ⊢
  rw [readExponent]
  · have all := List.all_eq_true.mpr digits
    simp only [List.isEmpty_cons, all, Bool.not_true, Bool.or_self, Bool.false_eq_true, if_false,
      value]
  · -- Digits do not start with a plus.
    rintro rest ⟨⟩
    cases digits '+' List.mem_cons_self

/-- A small number is read from its digits and its exponent. -/
theorem read_exponent (positive : 0 < s.digits) (few : s.digits < 10 ^ 15) (low : -28 ≤ s.exponent)
    (small : s.leading < 0) :
    ∃ d, Decimal.read (sign negative ++
        (pointed (natText s.digits) ++ "e" ++ "-" ++ toString s.leading.natAbs)) = some d ∧
      d.Writes negative s.value := by
  have leading := leading_eq s
  have some_ := List.length_pos_of_ne_nil (natText_ne_nil s.digits)
  have low' : s.digits < bound := by
    rw [bound]
    omega
  let n := s.leading.natAbs
  let front := (sign negative).toList ++ (pointed (natText s.digits)).toList
  have written : (sign negative ++ (pointed (natText s.digits) ++ "e" ++ "-" ++ toString n)).toList
      = front ++ 'e' :: '-' :: (natText n).toList := by
    simp [front, natText]
  -- As a number without exponent the text is refused at the mark.
  have refused : readPlain (front ++ 'e' :: '-' :: (natText n).toList) = none := by
    obtain ⟨_, read⟩ := readPlain_pointed negative positive few
      ('e' :: '-' :: (natText n).toList)
    rw [List.append_assoc, read, read_mark]
  -- What stands in front of the mark is a number of its own, whose point is moved afterwards.
  have base : readPlain front =
      unsignedZero? negative s.digits ((natText s.digits).toList.length - 1) := by
    obtain ⟨_, read⟩ := readPlain_pointed negative positive few []
    rw [List.append_nil] at read
    rw [read, Progress.read, Progress.finish]
    rfl
  have mark : Stops (fun c => !(c == 'e' || c == 'E')) ('e' :: '-' :: (natText n).toList) :=
    .cons rfl
  have dropped := mark.dropWhile_append fun c (mem : c ∈ front) => unmarked mem
  have taken := mark.takeWhile_append fun c (mem : c ∈ front) => unmarked mem
  have total : (natText s.digits).toList.length - 1 + n = (-s.exponent).toNat := by omega
  have made : unsignedZero? negative s.digits ((natText s.digits).toList.length - 1) = _ :=
    unsignedZero?_eq positive low' (by rw [maxScale]; omega)
  refine ⟨⟨negative, s.digits, (-s.exponent).toNat, low', by rw [maxScale]; omega⟩, ?_, rfl,
    value_scaled (by omega)⟩
  rw [Decimal.read, written, refused, Option.none_or, readScientific]
  simp only [dropped, taken, base, made, Option.bind_some, readExponent_natText]
  rw [lowered, if_neg (by rw [maxScale]; omega), if_pos (by simp only [maxScale]; omega)]
  simp only [total]
  exact ofParts?_eq low' (by rw [maxScale]; omega)

end

/-- The text of a double is read as the decimal of its shortest digits, if it has few of them. -/
theorem read_plainForm {b : Binary} (some_ : 0 < b.mantissa)
    (positive : 0 < (shortest .even b).digits) (few : (shortest .even b).digits < 10 ^ 15)
    (low : -28 ≤ (shortest .even b).exponent) (high : (shortest .even b).leading < 16) :
    ∃ d, Decimal.read (plainForm b) = some d ∧ d.Writes b.negative (shortest .even b).value := by
  rw [plainForm, if_neg (by simpa using some_.ne')]
  generalize shortest .even b = s at *
  have leading := leading_eq s
  have length : (natText s.digits).length = (natText s.digits).toList.length :=
    (String.length_toList).symm
  dsimp only
  -- Numbers are written out as long as their first digit is not too far behind the point.
  split
  · split
    · rename_i small
      exact read_below_one positive few low small
    · rename_i large
      split
      · rename_i whole
        have filled : s.leading.toNat + 1 - (natText s.digits).length = s.exponent.toNat := by omega
        rw [filled]
        exact read_whole_number positive high (by omega)
      · rw [List.splitAt_eq]
        exact read_mixed positive few low (by omega) (by omega)
  · rename_i far
    have small : s.leading < 0 := by
      simp only [Bool.and_eq_true, decide_eq_true_eq, not_and, not_lt] at far
      omega
    rw [if_pos small]
    exact read_exponent positive few low small

end Decimal

end EdmQuery.Number
