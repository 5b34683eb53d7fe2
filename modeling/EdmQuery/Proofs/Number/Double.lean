import Mathlib
import EdmQuery.Number.Nearest

/-! The bits of doubles: what a double reads as determines it. -/

namespace EdmQuery.Number

open Float.Model.UnpackedFloat

/-- The format of doubles. -/
abbrev double64 : Float.Model.Format := .binary64

/-- The parts of the bits of a double put together again. -/
theorem packComponents_unpacked (b : BitVec double64.numBits) :
    packComponents double64 (Sign.ofBitVec (unpackSign b)) (unpackExponent b) (unpackMantissa b)
      = b := by
  have sign (s : BitVec 1) : (Sign.ofBitVec s).toBitVec = s := by
    revert s
    decide
  simp only [packComponents, sign, unpackSign, unpackExponent, unpackMantissa, BitVec.extractLsb]
  ext i within
  grind

/-- The sign among packed parts. -/
theorem sign_packComponents (s : Sign) (e : BitVec 11) (m : BitVec 52) :
    Sign.ofBitVec (unpackSign (packComponents double64 s e m)) = s := by
  have packed : unpackSign (packComponents double64 s e m) = s.toBitVec := by
    simp only [packComponents, unpackSign, BitVec.extractLsb]
    ext i within
    grind
  rw [packed]
  cases s <;> rfl

/-- What packed parts unpack to. -/
theorem unpack_packComponents (s : Sign) (e : BitVec 11) (m : BitVec 52) :
    unpack double64 (packComponents double64 s e m) =
      if e = -1#11 then if m = 0#52 then .infinity s else .notANumber
      else if e = 0#11 then
        if some : m = 0#52 then .zero s
        else .finite s m.toNat (-1074) (by simpa [BitVec.toNat_pos, BitVec.pos_iff_ne_zero])
      else .finite s (2 ^ 52 + m.toNat) ((e.toNat : Int) - 1075) (by positivity) := by
  have bias : (Float.Model.Format.exponentBias double64 : Int) = 1023 := rfl
  have implicit : (1#1 ++ m).toNat = 2 ^ 52 + m.toNat := by
    rw [BitVec.toNat_append, ← Nat.shiftLeft_add_eq_or_of_lt m.isLt]
    rfl
  have sign := sign_packComponents s e m
  simp only [unpack, unpackExponent_packComponents, unpackMantissa_packComponents, bias, sign,
    implicit]
  split
  · rfl
  · split
    · rename_i bottom
      subst bottom
      rfl
    · rfl

/-- Packing undoes unpacking for all bits that doubles have. -/
theorem pack_unpack {b : BitVec double64.numBits} (valid : double64.Valid b) :
    pack double64 (unpack double64 b) = b := by
  have bias : (Float.Model.Format.exponentBias double64 : Int) = 1023 := rfl
  have width : Float.Model.Format.mantissaBits double64 = 53 := rfl
  obtain ⟨s, e, m, rfl⟩ : ∃ (s : Sign) (e : BitVec 11) (m : BitVec 52),
      b = packComponents double64 s e m :=
    ⟨_, _, _, (packComponents_unpacked b).symm⟩
  rw [unpack_packComponents]
  -- Each class of doubles is packed by a branch of its own.
  split
  · rename_i top
    subst top
    split
    · rename_i none
      subst none
      rfl
    · rename_i some
      exact (valid.eq_packedNaN (by simp) (by simpa using some)).symm
  rename_i notTop
  split
  · rename_i bottom
    subst bottom
    split
    · rename_i none
      subst none
      rfl
    · rename_i some
      have few : m.toNat.log2 < 52 := (Nat.log2_lt fun zero => some (BitVec.eq_of_toNat_eq zero)).mpr m.isLt
      rw [pack]
      simp only [bias, width]
      rw [if_neg (by simp), if_neg (by omega), BitVec.ofNat_toNat, BitVec.setWidth_eq]
  · have long : (2 ^ 52 + m.toNat).log2 = 52 := by
      have short := m.isLt
      rw [Nat.log2_eq_iff (by positivity)]
      omega
    have range : e.toNat + 1 < 2 ^ 11 := by
      have other : e.toNat ≠ 2047 := fun same => notTop (BitVec.eq_of_toNat_eq same)
      have short := e.isLt
      omega
    have place : ((e.toNat : Int) - 1075 + 1023 + 52).toNat = e.toNat := by omega
    have leading : BitVec.ofNat 52 (2 ^ 52 + m.toNat) = m := by
      apply BitVec.eq_of_toNat_eq
      rw [BitVec.toNat_ofNat, Nat.add_mod_left, Nat.mod_eq_of_lt m.isLt]
    rw [pack]
    simp only [bias, width, long, Nat.cast_ofNat]
    rw [place, if_neg (by omega), if_pos trivial, leading, BitVec.ofNat_toNat, BitVec.setWidth_eq]

/-- A double is what its bits encode. -/
theorem ofBits_toBits (x : Float) : Float.ofBits x.toBits = x := by
  obtain ⟨⟨bits, valid⟩⟩ := x
  have packed : UInt64.ofBitVec (pack double64 (unpack double64 bits.toBitVec)) = bits := by
    rw [pack_unpack valid]
  simp only [Float.ofBits, Float.toBits, Float.Model.ofBits, Float.Model.pack]
  congr 2

/-- Bits of doubles whose number is not NaN encode the opposite double with the other sign. -/
theorem neg_ofBits {e : BitVec 11} {m : BitVec 52} (number : e = -1#11 → m = 0#52) :
    -Float.ofBits (UInt64.ofBitVec (packComponents double64 .positive e m)) =
      Float.ofBits (UInt64.ofBitVec (packComponents double64 .negative e m)) := by
  have valid : double64.Valid (packComponents double64 .positive e m) :=
    ⟨fun top some => absurd (number (by simpa using top)) (by simpa using some)⟩
  have opposite : (unpack double64 (packComponents double64 .positive e m)).neg =
      unpack double64 (packComponents double64 .negative e m) := by
    simp only [unpack_packComponents]
    split
    · split <;> rfl
    · split
      · split <;> rfl
      · rfl
  show Float.ofModel (Float.Model.pack (unpack double64 (pack double64
    (unpack double64 (packComponents double64 .positive e m)))).neg) = _
  rw [pack_unpack valid, opposite]
  rfl

/-- The bits of a double as a number. -/
theorem toNat_packComponents (s : Sign) (e : BitVec 11) (m : BitVec 52) :
    (packComponents double64 s e m).toNat
      = s.toBitVec.toNat * 2 ^ 63 + e.toNat * 2 ^ 52 + m.toNat := by
  have shortE := e.isLt
  have shortM := m.isLt
  rw [packComponents, BitVec.toNat_append, BitVec.toNat_append,
    ← Nat.shiftLeft_add_eq_or_of_lt m.isLt, ← Nat.shiftLeft_add_eq_or_of_lt e.isLt]
  simp only [Nat.shiftLeft_eq]
  omega

/-- A binary number the way doubles have it, whose mantissa is filled above the lowest exponent. -/
structure Binary.Canonical (b : Binary) : Prop where
  mantissa_lt : b.mantissa < 2 ^ 53
  le_exponent : -1074 ≤ b.exponent
  exponent_le : b.exponent ≤ 971
  filled : b.exponent = -1074 ∨ 2 ^ 52 ≤ b.mantissa

/-- The bits of the double that a canonical binary number is, without its sign. -/
def Binary.bits (b : Binary) : Nat :=
  (b.exponent + 1074).toNat * 2 ^ 52 + b.mantissa

/-- A double with a sign. -/
def withSign (negative : Bool) (x : Float) : Float :=
  if negative then -x else x

/-- The parts of a double, and what it reads as. -/
theorem exists_parts (x : Float) : ∃ (s : Sign) (e : BitVec 11) (m : BitVec 52),
    x = Float.ofBits (UInt64.ofBitVec (packComponents double64 s e m)) ∧
      double64.Valid (packComponents double64 s e m) ∧
      Reading.ofFloat x =
        if e = -1#11 then if m = 0#52 then .infinite (s == .negative) else .nan
        else if e = 0#11 then .finite ⟨s == .negative, m.toNat, -1074⟩
        else .finite ⟨s == .negative, m.toNat + 2 ^ 52, (e.toNat : Int) - 1075⟩ := by
  obtain ⟨s, e, m, whole⟩ : ∃ (s : Sign) (e : BitVec 11) (m : BitVec 52),
      x.toBits.toBitVec = packComponents double64 s e m :=
    ⟨_, _, _, (packComponents_unpacked x.toBits.toBitVec).symm⟩
  have same : x.toBits = UInt64.ofBitVec (packComponents double64 s e m) := by rw [← whole]
  refine ⟨s, e, m, by rw [← same, ofBits_toBits], whole ▸ x.toModel.valid, ?_⟩
  have bits : x.toBits.toNat = s.toBitVec.toNat * 2 ^ 63 + e.toNat * 2 ^ 52 + m.toNat := by
    rw [← UInt64.toNat_toBitVec, whole]
    exact toNat_packComponents s e m
  have shortE := e.isLt
  have shortM := m.isLt
  have shortS := s.toBitVec.isLt
  -- The three fields are cut out of the number that the bits are.
  have sign : x.toBits.toNat / 2 ^ 63 = s.toBitVec.toNat := by omega
  have exponent : x.toBits.toNat / 2 ^ 52 % 2048 = e.toNat := by omega
  have fraction : x.toBits.toNat % 2 ^ 52 = m.toNat := by omega
  have negative : (s.toBitVec.toNat == 1) = (s == .negative) := by cases s <;> rfl
  have top : (e.toNat == 2047) = decide (e = -1#11) := by
    rw [Bool.eq_iff_iff, beq_iff_eq, decide_eq_true_iff]
    exact BitVec.toNat_inj (y := -1#11)
  have bottom : (e.toNat == 0) = decide (e = 0#11) := by
    rw [Bool.eq_iff_iff, beq_iff_eq, decide_eq_true_iff]
    exact BitVec.toNat_inj (y := 0#11)
  have none : (m.toNat == 0) = decide (m = 0#52) := by
    rw [Bool.eq_iff_iff, beq_iff_eq, decide_eq_true_iff]
    exact BitVec.toNat_inj (y := 0#52)
  simp only [Reading.ofFloat, sign, exponent, fraction, negative, top, bottom, none,
    decide_eq_true_eq]

/-- A double that reads as NaN is the one that has no number. -/
theorem ofFloat_nan {x : Float} (read : Reading.ofFloat x = .nan) : x = 0.0 / 0.0 := by
  obtain ⟨s, e, m, rfl, valid, parts⟩ := exists_parts x
  rw [parts] at read
  split at read
  · rename_i top
    split at read
    · cases read
    · rename_i some
      rw [valid.eq_packedNaN (by simpa using top) (by simpa using some)]
      rfl
  · split at read <;> cases read

/-- A double that reads as infinite is one of the two infinities. -/
theorem ofFloat_infinite {x : Float} {negative : Bool}
    (read : Reading.ofFloat x = .infinite negative) :
    x = if negative then -1.0 / 0.0 else 1.0 / 0.0 := by
  obtain ⟨s, e, m, rfl, -, parts⟩ := exists_parts x
  rw [parts] at read
  split at read
  · rename_i top
    split at read
    · rename_i none
      subst top none
      cases read
      cases s <;> rfl
    · cases read
  · split at read <;> cases read

/-- A double that reads as finite is its sign and the bits of a canonical number. -/
theorem ofFloat_finite {x : Float} {b : Binary} (read : Reading.ofFloat x = .finite b) :
    b.Canonical ∧ x = withSign b.negative (Float.ofBits (UInt64.ofNat b.bits)) := by
  obtain ⟨s, e, m, rfl, -, parts⟩ := exists_parts x
  have shortE := e.isLt
  have shortM := m.isLt
  rw [parts] at read
  split at read
  · split at read <;> cases read
  rename_i notTop
  have range : e.toNat ≠ 2047 := fun same => notTop (BitVec.eq_of_toNat_eq same)
  have value : b.negative = (s == .negative) ∧ b.bits = e.toNat * 2 ^ 52 + m.toNat ∧
      b.Canonical := by
    split at read
    · rename_i bottom
      cases read
      subst bottom
      refine ⟨rfl, by simp [Binary.bits], ⟨by simp only; omega, le_rfl, by simp only; omega, .inl rfl⟩⟩
    · rename_i notBottom
      have positive : e.toNat ≠ 0 := fun same => notBottom (BitVec.eq_of_toNat_eq same)
      cases read
      refine ⟨rfl, ?_, ⟨?_, ?_, ?_, ?_⟩⟩ <;> simp only [Binary.bits] <;> omega
  obtain ⟨sign, bits, canonical⟩ := value
  have unsigned : UInt64.ofNat b.bits = UInt64.ofBitVec (packComponents double64 .positive e m) := by
    apply UInt64.toNat.inj
    rw [UInt64.toNat_ofNat', bits, UInt64.toNat_ofBitVec, toNat_packComponents]
    simp [Sign.toBitVec]
    omega
  refine ⟨canonical, ?_⟩
  rw [sign, unsigned]
  cases s with
  | negative => exact (neg_ofBits fun top => absurd top notTop).symm
  | positive => rfl

end EdmQuery.Number
