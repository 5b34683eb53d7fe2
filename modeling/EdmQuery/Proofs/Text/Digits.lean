import Mathlib
import EdmQuery.Calendar.Text
import EdmQuery.Edm.Enumeration

/-! Numbers written in digits, and the digits at the front of a text that read back as numbers. -/

namespace EdmQuery

open Text Number Calendar

/-- A text whose first character, if there is one, is outside a class. -/
def Stops (p : Char → Bool) (rest : List Char) : Prop :=
  ∀ c ∈ rest.head?, p c = false

namespace Stops

variable {p : Char → Bool} {front rest : List Char}

/-- The end of a text stops everything. -/
theorem nil : Stops p [] :=
  fun _ mem => by cases mem

/-- A character outside the class stops it. -/
theorem cons {c : Char} (outside : p c = false) : Stops p (c :: rest) := by
  intro d mem
  cases mem
  exact outside

/-- A smaller class is stopped where a greater one is. -/
theorem of_imp {q : Char → Bool} (stops : Stops q rest) (imp : ∀ c, p c = true → q c = true) :
    Stops p rest := by
  intro c mem
  by_contra inside
  have outside := stops c mem
  rw [imp c (by simpa using inside)] at outside
  cases outside

/-- A class that is stopped has no run in front. -/
theorem takeWhile_eq (stops : Stops p rest) : rest.takeWhile p = [] := by
  cases rest with
  | nil => rfl
  | cons c rest => rw [List.takeWhile_cons_of_neg (by simp [stops c rfl])]

/-- A run that is stopped is all that is taken. -/
theorem takeWhile_append (all : ∀ c ∈ front, p c = true) (stops : Stops p rest) :
    (front ++ rest).takeWhile p = front := by
  rw [List.takeWhile_append_of_pos all, stops.takeWhile_eq, List.append_nil]

/-- What stops a run is what is left behind it. -/
theorem dropWhile_append (all : ∀ c ∈ front, p c = true) (stops : Stops p rest) :
    (front ++ rest).dropWhile p = rest := by
  rw [List.dropWhile_append_of_pos all]
  cases rest with
  | nil => rfl
  | cons c rest => rw [List.dropWhile_cons_of_neg (by simp [stops c rfl])]

/-- A run ends in front of what stops it. -/
theorem dropWhile (p : Char → Bool) (chars : List Char) :
    Stops p (chars.dropWhile p) := by
  intro c next
  have outside := List.head?_dropWhile_not p chars
  rw [next] at outside
  simpa using outside

end Stops

namespace Text

/-- ASCII digits are those of the library. -/
theorem isDigit_eq (c : Char) : isDigit c = c.isDigit :=
  rfl

/-- A digit is one of ten characters. -/
theorem isDigit_iff {c : Char} : isDigit c = true ↔ 48 ≤ c.toNat ∧ c.toNat ≤ 57 := by
  simp only [isDigit, Bool.and_eq_true, decide_eq_true_eq]
  rfl

/-- The digit of a number below ten has its value. -/
theorem digitValue_digitChar {n : Nat} (small : n < 10) : digitValue n.digitChar = n := by
  have digit : isDigit n.digitChar = true := by
    rw [isDigit_eq, Nat.isDigit_digitChar, decide_eq_true small]
  rw [digitValue, if_pos digit, Nat.toNat_digitChar_sub_48_of_lt_ten small]

/-- A digit has a value below ten. -/
theorem digitValue_lt {c : Char} (digit : isDigit c = true) : digitValue c < 10 := by
  have range := isDigit_iff.mp digit
  rw [digitValue, if_pos digit]
  omega

end Text

namespace Number

/-- The characters of a written number are its digits. -/
theorem toList_natText (n : Nat) : (natText n).toList = Nat.toDigits 10 n :=
  Nat.toList_repr

/-- A written number consists of digits. -/
theorem isDigit_of_mem_natText {n : Nat} {c : Char} (mem : c ∈ (natText n).toList) :
    isDigit c = true := by
  rw [toList_natText] at mem
  exact Nat.isDigit_of_mem_toDigits (by decide) (by decide) mem

/-- A number has at least one digit. -/
theorem natText_ne_nil (n : Nat) : (natText n).toList ≠ [] := by
  rw [toList_natText]
  exact Nat.toDigits_ne_nil

/-- A number below a power of ten has no more digits than the power has zeros. -/
theorem length_natText_le {n k : Nat} (positive : 0 < k) :
    (natText n).toList.length ≤ k ↔ n < 10 ^ k := by
  rw [toList_natText]
  exact Nat.length_toDigits_le_iff (by decide) positive

/-- Digits behind others are worth what they stand for among so many places. -/
theorem natOfDigits_append (front back : List Char) :
    natOfDigits (front ++ back) = natOfDigits front * 10 ^ back.length + natOfDigits back := by
  -- The fold over the digits behind starts from the value of those in front.
  have general (start : Nat) : back.foldl (fun n c => n * 10 + digitValue c) start
      = start * 10 ^ back.length + natOfDigits back := by
    induction back generalizing start with
    | nil => simp [natOfDigits]
    | cons c rest ih =>
      rw [natOfDigits, List.foldl_cons, List.foldl_cons, ih, ih, List.length_cons, pow_succ]
      ring
  rw [natOfDigits, List.foldl_append, general]
  rfl

/-- The digits behind what has been read so far, with the next one read. -/
theorem natOfDigits_next (n : Nat) (c : Char) (rest : List Char) :
    (n * 10 + digitValue c) * 10 ^ rest.length + natOfDigits rest
      = n * 10 ^ (c :: rest).length + natOfDigits (c :: rest) := by
  have first : natOfDigits [c] = digitValue c := by simp [natOfDigits]
  rw [← List.singleton_append, natOfDigits_append, first, List.length_append,
    List.length_singleton, pow_add, pow_one]
  ring

/-- A written number reads back as itself. -/
theorem natOfDigits_natText (n : Nat) : natOfDigits (natText n).toList = n := by
  induction n using Nat.strongRecOn with
  | ind n ih =>
    rw [toList_natText, Nat.toDigits_eq_if (by decide)]
    split
    · rename_i small
      simp [natOfDigits, digitValue_digitChar small]
    · rename_i large
      have below : n / 10 < n := by omega
      have tens := ih (n / 10) below
      rw [toList_natText] at tens
      rw [natOfDigits_append, tens]
      have unit : natOfDigits [(n % 10).digitChar] = n % 10 := by
        simp [natOfDigits, digitValue_digitChar (Nat.mod_lt n (by decide))]
      rw [unit, List.length_singleton, pow_one]
      omega

/-- Digits stand for a number below the power of ten with their count. -/
theorem natOfDigits_lt {digits : List Char} (all : ∀ c ∈ digits, isDigit c = true) :
    natOfDigits digits < 10 ^ digits.length := by
  induction digits using List.reverseRecOn with
  | nil => simp [natOfDigits]
  | append_singleton front c ih =>
    have lower := ih fun d mem => all d (List.mem_append_left _ mem)
    have small := digitValue_lt (all c (by simp))
    have last : natOfDigits [c] = digitValue c := by simp [natOfDigits]
    rw [natOfDigits_append, last, List.length_append, List.length_singleton, pow_add, pow_one]
    omega

/-- Zeros in front do not count. -/
theorem natOfDigits_zeros (k : Nat) (digits : List Char) :
    natOfDigits (List.replicate k '0' ++ digits) = natOfDigits digits := by
  have none : natOfDigits (List.replicate k '0') = 0 := by
    induction k with
    | zero => rfl
    | succ k ih =>
      rw [List.replicate_succ', natOfDigits_append, ih]
      rfl
  rw [natOfDigits_append, none, Nat.zero_mul, Nat.zero_add]

/-- A sign in front of digits is read apart from them. -/
theorem signed_sign {negative : Bool} {chars : List Char}
    (digit : ∀ c ∈ chars.head?, isDigit c = true) :
    signed ((sign negative).toList ++ chars) = (negative, chars) := by
  cases negative with
  | true => rfl
  | false =>
    show signed chars = (false, chars)
    cases chars with
    | nil => rfl
    | cons c rest =>
      have range := isDigit_iff.mp (digit c rfl)
      rw [signed]
      · rintro _ ⟨⟩
        simp at range
      · rintro _ ⟨⟩
        simp at range

/-- The characters of a written integer are its sign and the digits of its magnitude. -/
theorem toList_toString (n : Int) :
    (toString n).toList = (sign (n < 0)).toList ++ (natText n.natAbs).toList := by
  cases n with
  | ofNat n => rfl
  | negSucc n =>
    have negative : decide (Int.negSucc n < 0) = true := decide_eq_true (Int.negSucc_lt_zero n)
    rw [negative]
    exact String.toList_append

/-- A written integer reads back as itself. -/
theorem readInteger_toString (n : Int) : readInteger (toString n).toList = some n := by
  have digit : ∀ c ∈ (natText n.natAbs).toList.head?, isDigit c = true :=
    fun _ mem => isDigit_of_mem_natText (List.mem_of_head? mem)
  have all : (natText n.natAbs).toList.all isDigit = true :=
    List.all_eq_true.mpr fun _ => isDigit_of_mem_natText
  have some_ : (natText n.natAbs).toList.isEmpty = false :=
    List.isEmpty_eq_false_iff.mpr (natText_ne_nil _)
  rw [toList_toString, readInteger, signed_sign digit]
  simp only [some_, all, natOfDigits_natText, Bool.not_true, Bool.or_self, Bool.false_eq_true,
    if_false, decide_eq_true_eq]
  split <;> congr 1 <;> omega

end Number

/-- A written 64-bit integer reads back as itself. -/
theorem readInt64_toString (n : Int64) : readInt64 (toString n.toInt) = some n := by
  have low := n.le_toInt
  have high := n.toInt_lt
  have within : Numeral.isSigned64 n.toInt = true := by
    simp only [Numeral.isSigned64, Bool.and_eq_true, decide_eq_true_eq]
    omega
  rw [readInt64, readInteger_toString, Option.bind_some, if_pos within, Int64.ofInt_toInt]

namespace Calendar

/-- The characters of a padded number are zeros and its digits. -/
theorem toList_padded (width n : Nat) :
    (padded width n).toList
      = List.replicate (width - (natText n).toList.length) '0' ++ (natText n).toList := by
  simp only [padded, String.toList_append, String.toList_ofList, String.length_toList]

/-- A padded number consists of digits. -/
theorem isDigit_of_mem_padded {width n : Nat} {c : Char} (mem : c ∈ (padded width n).toList) :
    isDigit c = true := by
  rw [toList_padded, List.mem_append] at mem
  rcases mem with zero | digit
  · rw [List.eq_of_mem_replicate zero]
    rfl
  · exact isDigit_of_mem_natText digit

/-- A padded number reads back as itself. -/
theorem natOfDigits_padded (width n : Nat) : natOfDigits (padded width n).toList = n := by
  rw [toList_padded, natOfDigits_zeros, natOfDigits_natText]

/-- A number that fits its width fills it. -/
theorem length_padded {width n : Nat} (positive : 0 < width) (fits : n < 10 ^ width) :
    (padded width n).toList.length = width := by
  have short := (length_natText_le positive).mpr fits
  rw [toList_padded, List.length_append, List.length_replicate]
  omega

end Calendar

end EdmQuery
