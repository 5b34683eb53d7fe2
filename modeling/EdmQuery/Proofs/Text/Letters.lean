import Mathlib
import EdmQuery.Expr.Recognizer
import EdmQuery.Proofs.Text.Digits

/-! Classes of characters that have nothing in common, and classes that are part of others. -/

namespace EdmQuery.Text

open Recognizer

variable {c : Char}

/-- The code points of blanks. -/
def blanks : List Nat :=
  [9, 10, 11, 12, 13, 0x20, 0x85, 0xa0, 0x1680, 0x2000, 0x2001, 0x2002, 0x2003, 0x2004, 0x2005,
    0x2006, 0x2007, 0x2008, 0x2009, 0x200a, 0x2028, 0x2029, 0x202f, 0x205f, 0x3000]

/-- A blank is one of those that are listed. -/
theorem mem_blanks (blank : isBlank c = true) : c.toNat ∈ blanks := by
  simp only [isBlank, Bool.or_eq_true, Bool.and_eq_true, decide_eq_true_eq, beq_iff_eq] at blank
  simp only [blanks, List.mem_cons, List.not_mem_nil, or_false]
  omega

/-- The letters of ASCII are two runs. -/
theorem isAlphabetic_ascii (ascii : c.toNat < 128) : isAlphabetic c = true ↔
    97 ≤ c.toNat ∧ c.toNat ≤ 122 ∨ 65 ≤ c.toNat ∧ c.toNat ≤ 90 := by
  rw [isAlphabetic, if_pos ascii]
  simp only [Bool.or_eq_true, Bool.and_eq_true, decide_eq_true_eq]
  rfl

/-- A letter is no blank. -/
theorem isBlank_of_isAlphabetic (letter : isAlphabetic c = true) : isBlank c = false := by
  by_contra blank
  have listed := mem_blanks (by simpa using blank)
  have tabled : ∀ code ∈ blanks, inRanges alphabeticRanges code = false := by decide +kernel
  by_cases ascii : c.toNat < 128
  · have range := (isAlphabetic_ascii ascii).mp letter
    simp only [blanks, List.mem_cons, List.not_mem_nil, or_false] at listed
    omega
  · rw [isAlphabetic, if_neg ascii, tabled _ listed] at letter
    cases letter

/-- A letter is no digit. -/
theorem isDigit_of_isAlphabetic (letter : isAlphabetic c = true) : isDigit c = false := by
  by_contra digit
  have digit := isDigit_iff.mp (by simpa using digit)
  have range := (isAlphabetic_ascii (by omega)).mp letter
  omega

/-- A digit goes on with a name. -/
theorem isNameChar_of_isDigit (digit : isDigit c = true) : isNameChar c = true := by
  have range := isDigit_iff.mp digit
  have ascii : c.toNat < 128 := by omega
  rw [isNameChar, isAlphanumeric, isNumeric, if_pos ascii, digit, Bool.or_true, Bool.true_or]

/-- A letter goes on with a name. -/
theorem isNameChar_of_isAlphabetic (letter : isAlphabetic c = true) : isNameChar c = true := by
  rw [isNameChar, isAlphanumeric, letter, Bool.true_or, Bool.true_or]

/-- A hexadecimal digit goes on with a name. -/
theorem isNameChar_of_isHexDigit (digit : isHexDigit c = true) : isNameChar c = true := by
  simp only [isHexDigit, Bool.or_eq_true, Bool.and_eq_true, decide_eq_true_eq, or_assoc] at digit
  rcases digit with decimal | letter
  · exact isNameChar_of_isDigit decimal
  · have range : (97 ≤ c.toNat ∧ c.toNat ≤ 102) ∨ (65 ≤ c.toNat ∧ c.toNat ≤ 70) := letter
    exact isNameChar_of_isAlphabetic ((isAlphabetic_ascii (by omega)).mpr (by omega))

/-- A hexadecimal digit is no blank. -/
theorem isBlank_of_isHexDigit (digit : isHexDigit c = true) : isBlank c = false := by
  by_contra blank
  have listed := mem_blanks (by simpa using blank)
  simp only [isHexDigit, Bool.or_eq_true, Bool.and_eq_true, decide_eq_true_eq, or_assoc] at digit
  simp only [blanks, List.mem_cons, List.not_mem_nil, or_false] at listed
  rcases digit with decimal | letter
  · have range := isDigit_iff.mp decimal
    omega
  · have range : (97 ≤ c.toNat ∧ c.toNat ≤ 102) ∨ (65 ≤ c.toNat ∧ c.toNat ≤ 70) := letter
    omega

/-- Whether a character may start a name. -/
def startsName (c : Char) : Bool :=
  isAlphabetic c || c == '_' || c == '$'

/-- A name does not start with a blank. -/
theorem isBlank_of_startsName (starts : startsName c = true) : isBlank c = false := by
  simp only [startsName, Bool.or_eq_true, beq_iff_eq] at starts
  rcases starts with (letter | rfl) | rfl
  · exact isBlank_of_isAlphabetic letter
  · rfl
  · rfl

/-- A name does not start with a digit. -/
theorem isDigit_of_startsName (starts : startsName c = true) : isDigit c = false := by
  simp only [startsName, Bool.or_eq_true, beq_iff_eq] at starts
  rcases starts with (letter | rfl) | rfl
  · exact isDigit_of_isAlphabetic letter
  · rfl
  · rfl

/-- A character that goes on with a name is no blank. -/
theorem isBlank_of_isNameChar (name : isNameChar c = true) : isBlank c = false := by
  simp only [isNameChar, isAlphanumeric, Bool.or_eq_true, beq_iff_eq] at name
  rcases name with (letter | numeral) | rfl
  · exact isBlank_of_isAlphabetic letter
  · by_contra blank
    have listed := mem_blanks (by simpa using blank)
    have tabled : ∀ code ∈ blanks, inRanges numericRanges code = false := by decide +kernel
    by_cases ascii : c.toNat < 128
    · rw [isNumeric, if_pos ascii] at numeral
      have range := isDigit_iff.mp numeral
      simp only [blanks, List.mem_cons, List.not_mem_nil, or_false] at listed
      omega
    · rw [isNumeric, if_neg ascii, tabled _ listed] at numeral
      cases numeral
  · rfl

/-- A mark of ASCII that is no letter, digit or underscore does not go on with a name. -/
theorem ne_of_isNameChar (name : isNameChar c = true) {mark : Char}
    (outside : isNameChar mark = false) : c ≠ mark := by
  rintro rfl
  cases name.symm.trans outside

end EdmQuery.Text
