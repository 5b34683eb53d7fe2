import Mathlib
import EdmQuery.Data.Guid

/-! Identifiers are read back from their hyphenated notation. -/

namespace EdmQuery.Guid

open Text

-- The equations are made here, so that the proofs behind do not wait for them.
attribute [local simp] hexDigits

/-- A digit of a number below sixteen is one, has its value and is no hyphen. -/
theorem hexDigit_reads {n : Nat} (small : n < 16) :
    isHexDigit (hexDigit n) = true ∧ digitValue (hexDigit n) = n ∧ (hexDigit n != '-') = true := by
  have all : ∀ n < 16, isHexDigit (hexDigit n) = true ∧ digitValue (hexDigit n) = n ∧
      (hexDigit n != '-') = true := by decide
  exact all n small

/-- As many digits are written as asked for. -/
theorem length_hexDigits (width n : Nat) : (hexDigits width n).length = width := by
  induction width generalizing n with
  | zero => rfl
  | succ width ih => rw [hexDigits, List.length_append, ih, List.length_singleton]

/-- Every character among the digits is the digit of a number below sixteen. -/
theorem exists_of_mem_hexDigits {width n : Nat} {c : Char} (mem : c ∈ hexDigits width n) :
    ∃ k < 16, c = hexDigit k := by
  induction width generalizing n with
  | zero => cases mem
  | succ width ih =>
    rw [hexDigits, List.mem_append, List.mem_singleton] at mem
    rcases mem with front | last
    · exact ih front
    · exact ⟨n % 16, Nat.mod_lt n (by decide), last⟩

/-- The digits of a number stand for what of it fits into them. -/
theorem foldl_hexDigits (width n : Nat) :
    (hexDigits width n).foldl (fun n c => n * 16 + digitValue c) 0 = n % 16 ^ width := by
  induction width generalizing n with
  | zero => rw [hexDigits, List.foldl_nil, pow_zero, Nat.mod_one]
  | succ width ih =>
    have value := (hexDigit_reads (Nat.mod_lt n (by decide : 0 < 16))).2.1
    rw [hexDigits, List.foldl_append, ih, List.foldl_cons, List.foldl_nil, value, pow_succ,
      mul_comm (16 ^ width) 16, Nat.mod_mul]
    ring

/-- Enough digits with hyphens between their groups are still those digits. -/
theorem filter_hyphenated {digits : List Char} (all : ∀ c ∈ digits, (c != '-') = true) :
    (hyphenated digits).filter (· != '-') = digits := by
  have kept (part : List Char) (among : ∀ c ∈ part, c ∈ digits) : part.filter (· != '-') = part :=
    List.filter_eq_self.mpr fun c mem => all c (among c mem)
  have hyphen (rest : List Char) : ('-' :: rest).filter (· != '-') = rest.filter (· != '-') := rfl
  simp only [hyphenated, List.append_assoc, List.cons_append, List.filter_append, hyphen]
  rw [kept _ fun c => List.mem_of_mem_take,
    kept _ fun c mem => List.mem_of_mem_drop (List.mem_of_mem_take mem),
    kept _ fun c mem => List.mem_of_mem_drop (List.mem_of_mem_take mem),
    kept _ fun c mem => List.mem_of_mem_drop (List.mem_of_mem_take mem),
    kept _ fun c => List.mem_of_mem_drop]
  have group (from_ count : Nat) :
      (digits.drop from_).take count ++ digits.drop (from_ + count) = digits.drop from_ := by
    rw [← List.drop_drop, List.take_append_drop]
  rw [group 16 4, group 12 4, group 8 4, List.take_append_drop]

/-- An identifier is read back from its notation. -/
theorem parse_toText (g : Guid) : parse g.toText = some g := by
  have length := length_hexDigits 32 g.bits.toNat
  have digits : ∀ c ∈ hexDigits 32 g.bits.toNat, isHexDigit c = true ∧ (c != '-') = true := by
    intro c mem
    obtain ⟨k, small, rfl⟩ := exists_of_mem_hexDigits mem
    exact ⟨(hexDigit_reads small).1, (hexDigit_reads small).2.2⟩
  have plain := filter_hyphenated fun c mem => (digits c mem).2
  have all : (hexDigits 32 g.bits.toNat).all isHexDigit = true :=
    List.all_eq_true.mpr fun c mem => (digits c mem).1
  have whole : (hyphenated (hexDigits 32 g.bits.toNat)).length = 36 := by
    simp only [hyphenated, List.length_append, List.length_cons, List.length_take,
      List.length_drop, length]
    rfl
  have value : g.bits.toNat % 16 ^ 32 = g.bits.toNat :=
    Nat.mod_eq_of_lt (by have := g.bits.isLt; norm_num at this ⊢; omega)
  simp only [parse, toText, String.toList_ofList, whole, ofHyphenated, plain, beq_self_eq_true,
    if_true, ofDigits, length, all, Bool.and_self, foldl_hexDigits, value, BitVec.ofNat_toNat,
    BitVec.setWidth_eq]

end EdmQuery.Guid
