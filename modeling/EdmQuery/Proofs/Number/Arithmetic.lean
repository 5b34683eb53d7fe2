import Mathlib
import EdmQuery.Proofs.Number.Rounding

/-! The arithmetic of doubles gives the double nearest to the exact result. -/

namespace EdmQuery.Number

open Float.Model (totalExponent)
open Float.Model.UnpackedFloat

/-- What an unpacked double reads as. -/
def Reading.ofUnpacked : Float.Model.UnpackedFloat → Reading
  | .notANumber => .nan
  | .infinity s => .infinite (s == .negative)
  | .zero s => .finite ⟨s == .negative, 0, -1074⟩
  | .finite s m e _ => .finite ⟨s == .negative, m, e⟩

/-- A double reads as what it unpacks to. -/
theorem Reading.ofFloat_eq (x : Float) : Reading.ofFloat x = ofUnpacked x.toModel.unpack := by
  obtain ⟨s, e, m, same, valid, parts⟩ := exists_parts x
  have bits : x.toModel.unpack = unpack double64 (packComponents double64 s e m) := by
    rw [same]
    show unpack double64 (pack double64 (unpack double64 _)) = _
    rw [pack_unpack valid]
  rw [parts, bits, unpack_packComponents]
  -- Both look for the exponent of infinities first, then for that of subnormal numbers.
  split
  · split <;> rfl
  · split
    · split
      · rename_i none
        rw [none]
        rfl
      · rfl
    · rw [ofUnpacked, Nat.add_comm]

/-- A packed normal number unpacks to what it was. -/
theorem unpack_pack_normal {b : Binary} (normal : b.IsNormal) (s : Sign)
    (some : 0 < b.mantissa) :
    (Float.Model.pack (.finite s b.mantissa b.exponent some)).unpack =
      .finite s b.mantissa b.exponent some := by
  obtain ⟨low, high, least, most⟩ := normal
  have length : b.mantissa.log2 = 52 := (Nat.log2_eq_iff (by omega)).mpr ⟨low, high⟩
  have bias : (double64.exponentBias : Int) = 1023 := rfl
  have width : double64.mantissaBits = 53 := rfl
  -- The first bit of a full mantissa is not stored, and the exponent is stored with its bias.
  have fraction : (BitVec.ofNat 52 b.mantissa).toNat = b.mantissa - 2 ^ 52 := by
    rw [BitVec.toNat_ofNat]
    omega
  have exponent : (BitVec.ofNat 11 (b.exponent + 1023 + 52).toNat).toNat
      = (b.exponent + 1075).toNat := by
    rw [BitVec.toNat_ofNat]
    omega
  have packed : pack double64 (.finite s b.mantissa b.exponent some) =
      packComponents double64 s (BitVec.ofNat 11 (b.exponent + 1023 + 52).toNat)
        (BitVec.ofNat 52 b.mantissa) := by
    rw [pack]
    simp only [bias, width, length, Nat.cast_ofNat]
    rw [if_neg (by omega), if_pos trivial]
  show unpack double64 (pack double64 (.finite s b.mantissa b.exponent some)) = _
  -- The exponent is neither the one of infinities nor the one of subnormal numbers.
  have notTop : BitVec.ofNat 11 (b.exponent + 1023 + 52).toNat ≠ -1#11 := by
    intro same
    have same := congrArg BitVec.toNat same
    rw [exponent] at same
    have top : (-1#11).toNat = 2047 := rfl
    omega
  have notBottom : BitVec.ofNat 11 (b.exponent + 1023 + 52).toNat ≠ 0#11 := by
    intro same
    have same := congrArg BitVec.toNat same
    rw [exponent] at same
    have bottom : (0#11).toNat = 0 := rfl
    omega
  rw [packed, unpack_packComponents, if_neg notTop, if_neg notBottom]
  congr 1
  · rw [fraction]
    omega
  · rw [exponent]
    omega

/-- The size of a binary number. -/
def Binary.value (b : Binary) : ℚ :=
  b.mantissa * 2 ^ b.exponent

/-- A double that is a positive number, with a full mantissa. -/
def Exactly (x : Float) (v : ℚ) : Prop :=
  ∃ b, Reading.ofFloat x = .finite b ∧ b.negative = false ∧ b.IsNormal ∧ b.value = v

/-- A double that is nearest to a positive number, with a full mantissa. -/
def Rounded (x : Float) (v : ℚ) : Prop :=
  ∃ b, Reading.ofFloat x = .finite b ∧ b.negative = false ∧ b.IsNormal ∧
    (Interval.ofBinary b).Holds v

/-- The parts of a double that is a positive number. -/
theorem Exactly.unpack {x : Float} {v : ℚ} (exactly : Exactly x v) :
    ∃ (m : Nat) (e : Int) (some : 0 < m), x.toModel.unpack = .finite .positive m e some ∧
      2 ^ 52 ≤ m ∧ (m : ℚ) * 2 ^ e = v := by
  obtain ⟨b, read, sign, normal, rfl⟩ := exactly
  rw [Reading.ofFloat_eq] at read
  -- Nothing but a finite number that is not negative reads as a normal one.
  cases unpacked : x.toModel.unpack with
  | finite s m e some =>
    rw [unpacked] at read
    cases read
    cases s with
    | positive => exact ⟨m, e, some, rfl, normal.le_mantissa, rfl⟩
    | negative => cases sign
  | zero s =>
    rw [unpacked] at read
    cases read
    exact absurd normal.le_mantissa (by simp)
  | infinity s =>
    rw [unpacked] at read
    cases read
  | notANumber =>
    rw [unpacked] at read
    cases read

/-- What was rounded near a number is a double that is nearest to it. -/
theorem rounded_of_spec {v : ℚ} {u : Float.Model.UnpackedFloat}
    (spec : ∃ b : Binary, b.IsNormal ∧ b.negative = false ∧ (Interval.ofBinary b).Holds v ∧
      ∃ some, u = .finite .positive b.mantissa b.exponent some) :
    Rounded (Float.ofModel (Float.Model.pack u)) v := by
  obtain ⟨b, normal, sign, holds, some, rfl⟩ := spec
  refine ⟨b, ?_, sign, normal, holds⟩
  rw [Reading.ofFloat_eq]
  show Reading.ofUnpacked (Float.Model.pack _).unpack = _
  rw [unpack_pack_normal normal, Reading.ofUnpacked]
  obtain ⟨negative, m, e⟩ := b
  cases sign
  rfl

/-- The product of two doubles is the nearest to that of the numbers. -/
theorem rounded_mul {x y : Float} {v w : ℚ} (left : Exactly x v) (right : Exactly y w)
    (range : InRange (v * w)) : Rounded (x * y) (v * w) := by
  obtain ⟨m, e, some_, unpacked, full, rfl⟩ := left.unpack
  obtain ⟨n, f, more, unpacked', full', rfl⟩ := right.unpack
  have product : (m : ℚ) * 2 ^ e * (n * 2 ^ f) = ((m * n : Nat) : ℚ) * 2 ^ (e + f) := by
    rw [zpow_add₀ two_ne_zero]
    push_cast
    ring
  -- The product of two full mantissas is longer than a mantissa, so it needs no filling up.
  have long : e + f ≤ double64.targetExponent (totalExponent (m * n) (e + f)) := by
    have size : 104 ≤ (m * n).log2 :=
      (Nat.le_log2 (by positivity)).mpr (Nat.mul_le_mul full full' : 2 ^ 52 * 2 ^ 52 ≤ m * n)
    rw [targetExponent_eq, totalExponent]
    omega
  rw [product] at range ⊢
  have spec := roundWithAccuracy_spec (extends_exact _) long range
  show Rounded (Float.ofModel (Float.Model.pack (mul double64 x.toModel.unpack y.toModel.unpack))) _
  rw [unpacked, unpacked', mul]
  exact rounded_of_spec spec

/-- The quotient of two doubles is the nearest to that of the numbers. -/
theorem rounded_div {x y : Float} {v w : ℚ} (left : Exactly x v) (right : Exactly y w)
    (range : InRange (v / w)) : Rounded (x / y) (v / w) := by
  obtain ⟨m, e, some_, unpacked, -, rfl⟩ := left.unpack
  obtain ⟨n, f, more, unpacked', -, rfl⟩ := right.unpack
  show Rounded (Float.ofModel (Float.Model.pack (div double64 x.toModel.unpack y.toModel.unpack))) _
  rw [unpacked, unpacked']
  exact rounded_of_spec (divCore_spec some_ more range)

/-- The sum of two doubles is the nearest to that of the numbers. -/
theorem rounded_add {x y : Float} {v w : ℚ} (left : Exactly x v) (right : Exactly y w)
    (range : InRange (v + w)) : Rounded (x + y) (v + w) := by
  obtain ⟨m, e, some_, unpacked, -, rfl⟩ := left.unpack
  obtain ⟨n, f, more, unpacked', -, rfl⟩ := right.unpack
  generalize lower : min e f = t
  generalize first : m <<< (e - t).toNat = a
  generalize second : n <<< (f - t).toNat = c
  -- Both numbers are written with the lower one of their exponents, and their mantissas added.
  have aligned (k : Nat) (g : Int) (above : t ≤ g) :
      ((k <<< (g - t).toNat : Nat) : ℚ) * 2 ^ t = k * 2 ^ g := by
    rw [Nat.shiftLeft_eq]
    push_cast
    rw [mul_assoc, ← zpow_natCast, ← zpow_add₀ two_ne_zero]
    congr 2
    omega
  have sum : (m : ℚ) * 2 ^ e + n * 2 ^ f = ((a + c : Nat) : ℚ) * 2 ^ t := by
    rw [← aligned m e (by omega), ← aligned n f (by omega), first, second]
    push_cast
    ring
  have positive : 0 < a + c := by
    have : 0 < a := by
      rw [← first, Nat.shiftLeft_eq]
      positivity
    omega
  rw [sum] at range ⊢
  show Rounded (Float.ofModel (Float.Model.pack (add double64 x.toModel.unpack y.toModel.unpack))) _
  have normalized : add double64 (.finite .positive m e some_) (.finite .positive n f more) =
      Float.Model.UnpackedFloat.round double64 .positive (a + c) t := by
    rw [add]
    simp only [decreaseExponent, lower, first, second]
    show Float.Model.UnpackedFloat.normalize double64 ((a : Int) + c) t .positive = _
    rw [Float.Model.UnpackedFloat.normalize, compare_gt_iff_gt.mpr (by omega)]
    rfl
  rw [unpacked, unpacked', normalized]
  exact rounded_of_spec (round_spec positive range)

/-- A normal number lies in its own interval. -/
theorem Interval.holds_value {b : Binary} (normal : b.IsNormal) :
    (Interval.ofBinary b).Holds b.value := by
  have unit : (0 : ℚ) < 2 ^ b.exponent := by positivity
  have same : b.value / 2 ^ b.exponent = b.mantissa := by
    rw [Binary.value, mul_div_cancel_right₀ _ unit.ne']
  refine .of_rounds normal ⟨?_, ?_, fun _ => ⟨?_, ?_⟩⟩ fun _ => ?_ <;> rw [same] <;> linarith

/-- Canonical numbers with the same bits and a full mantissa are the same size. -/
theorem Binary.value_of_bits {b c : Binary} (left : b.IsNormal) (right : c.IsNormal)
    (same : b.bits = c.bits) : b.value = c.value := by
  obtain ⟨lowB, highB, leastB, mostB⟩ := left
  obtain ⟨lowC, highC, leastC, mostC⟩ := right
  rw [bits, bits] at same
  have exponents : b.exponent = c.exponent := by omega
  have mantissas : b.mantissa = c.mantissa := by
    rw [exponents] at same
    omega
  rw [value, value, mantissas, exponents]

/-- Only one full mantissa is nearest to a binary number. -/
theorem Binary.value_eq_of_holds {b c : Binary} (left : b.IsNormal) (right : c.IsNormal) {m : Nat}
    {e : Int} (holds : (Interval.ofBinary b).Holds (m * 2 ^ e))
    (holds' : (Interval.ofBinary c).Holds (m * 2 ^ e)) : b.value = c.value := by
  obtain ⟨-, below, power⟩ := ratio_eq (by decide : 0 < 2) e
  -- As a fraction of natural numbers it is rounded to the bits of both.
  have parts : fraction (m * (ratio 2 e).1, (ratio 2 e).2) = m * 2 ^ e := by
    have two : ((2 : Nat) : ℚ) = 2 := rfl
    rw [two] at power
    rw [← power, fraction, fraction, Nat.cast_mul, mul_div_assoc]
  have some_ := left.le_mantissa
  have more := right.le_mantissa
  apply value_of_bits left right
  rw [← nearestBits_eq left.canonical (by omega) below (parts ▸ holds),
    nearestBits_eq right.canonical (by omega) below (parts ▸ holds')]

/-- A number with a short mantissa has a full one as well, if the exponent leaves room for it. -/
theorem Binary.exists_normal {m : Nat} {e : Int} (positive : 0 < m) (short : m < 2 ^ 53)
    (range : InRange (m * 2 ^ e)) : ∃ c : Binary, c.IsNormal ∧ c.value = m * 2 ^ e := by
  obtain ⟨low, high⟩ := log2_mul_bounds (e := e) positive le_rfl (lt_add_one (m : ℚ))
  have least := (zpow_lt_zpow_iff_right₀ one_lt_two).mp (range.1.trans_lt high)
  have most := (zpow_lt_zpow_iff_right₀ one_lt_two).mp (low.trans_lt range.2)
  have few : m.log2 ≤ 52 := Nat.lt_succ_iff.mp ((Nat.log2_lt positive.ne').mpr short)
  -- The mantissa is filled up with zeros, and the exponent is lowered by as many places.
  refine ⟨⟨false, m * 2 ^ (52 - m.log2), e - (52 - m.log2 : Nat)⟩,
    ⟨?_, ?_, by simp only; omega, by simp only; omega⟩, ?_⟩
  · calc 2 ^ 52 = 2 ^ m.log2 * 2 ^ (52 - m.log2) := by rw [← pow_add]; congr 1; omega
      _ ≤ m * 2 ^ (52 - m.log2) := Nat.mul_le_mul_right _ (Nat.log2_self_le positive.ne')
  · calc m * 2 ^ (52 - m.log2) < 2 ^ (m.log2 + 1) * 2 ^ (52 - m.log2) :=
          Nat.mul_lt_mul_of_pos_right Nat.lt_log2_self (by positivity)
      _ = 2 ^ 53 := by rw [← pow_add]; congr 1; omega
  · rw [Binary.value, zpow_sub₀ two_ne_zero, zpow_natCast]
    push_cast
    field_simp

/-- A number that a double has room for is that double exactly. -/
theorem Rounded.exactly {x : Float} {m : Nat} {e : Int} (rounded : Rounded x (m * 2 ^ e))
    (positive : 0 < m) (short : m < 2 ^ 53) (range : InRange (m * 2 ^ e)) :
    Exactly x (m * 2 ^ e) := by
  obtain ⟨b, read, sign, normal, holds⟩ := rounded
  obtain ⟨c, full, same⟩ := Binary.exists_normal positive short range
  have own := Interval.holds_value full
  rw [same] at own
  exact ⟨b, read, sign, normal, (Binary.value_eq_of_holds normal full holds own).trans same⟩

/-- What differs from a number by at most the part of it that half a last place can be. -/
def Near (a v : ℚ) : Prop :=
  a * (1 - 1 / 2 ^ 53) ≤ v ∧ v ≤ a * (1 + 1 / 2 ^ 53)

/-- A double that is nearest to a number differs from it by at most half of its last place. -/
theorem Rounded.near {x : Float} {v : ℚ} (rounded : Rounded x v) :
    ∃ a, Exactly x a ∧ Near a v := by
  obtain ⟨b, read, sign, normal, holds⟩ := rounded
  have full := normal.le_mantissa
  have mantissa : (2 : ℚ) ^ 52 ≤ b.mantissa := by exact_mod_cast full
  obtain ⟨low, high, -, -⟩ := holds.around (by omega)
  have unit : (0 : ℚ) < 2 ^ b.exponent := by positivity
  rw [le_div_iff₀ unit] at low
  rw [div_le_iff₀ unit] at high
  refine ⟨b.value, ⟨b, read, sign, normal, rfl⟩, ?_, ?_⟩ <;> rw [Binary.value]
  · calc (b.mantissa : ℚ) * 2 ^ b.exponent * (1 - 1 / 2 ^ 53)
        = ((b.mantissa : ℚ) * (1 - 1 / 2 ^ 53)) * 2 ^ b.exponent := by ring
      _ ≤ ((b.mantissa : ℚ) - 1 / 2) * 2 ^ b.exponent := by
          gcongr
          linarith
      _ ≤ v := low
  · calc v ≤ ((b.mantissa : ℚ) + 1 / 2) * 2 ^ b.exponent := high
      _ ≤ (b.mantissa * (1 + 1 / 2 ^ 53)) * 2 ^ b.exponent := by
          gcongr
          linarith
      _ = (b.mantissa : ℚ) * 2 ^ b.exponent * (1 + 1 / 2 ^ 53) := by ring

/-- Only positive numbers are meant. -/
theorem Exactly.positive {x : Float} {v : ℚ} (exactly : Exactly x v) : 0 < v := by
  obtain ⟨m, e, some_, -, -, rfl⟩ := exactly.unpack
  positivity

/-- Numbers of a decimal magnitude up to thirty are in range. -/
theorem InRange.of_ten {v : ℚ} (low : 1 / 10 ^ 30 ≤ v) (high : v ≤ 10 ^ 30) : InRange v := by
  constructor
  · calc (2 : ℚ) ^ (-1022 : Int) ≤ 2 ^ (-100 : Int) :=
          zpow_le_zpow_right₀ one_le_two (by decide)
      _ ≤ 1 / 10 ^ 30 := by norm_num
      _ ≤ v := low
  · calc v ≤ 10 ^ 30 := high
      _ < 2 ^ (100 : Int) := by norm_num
      _ ≤ 2 ^ (1023 : Int) := zpow_le_zpow_right₀ one_le_two (by decide)

/-- Natural numbers of 64 bits are converted to the nearest double. -/
theorem rounded_natural {n : Nat} (positive : 0 < n) (short : n < 2 ^ 64) :
    Rounded n.toUInt64.toFloat n := by
  have same : n.toUInt64.toNat = n := by
    rw [Nat.toUInt64, UInt64.toNat_ofNat']
    exact Nat.mod_eq_of_lt short
  have range : InRange (n * 2 ^ (0 : Int)) := by
    have one : (1 : ℚ) ≤ n := by exact_mod_cast positive
    have most : (n : ℚ) < 2 ^ 64 := by exact_mod_cast short
    rw [zpow_zero, mul_one]
    exact .of_ten (by linarith) (by linarith)
  have spec := round_spec positive range
  rw [zpow_zero, mul_one] at spec
  have normalized : ofUInt64 double64 n.toUInt64 =
      Float.Model.UnpackedFloat.round double64 .positive n 0 := by
    rw [ofUInt64, same, Float.Model.UnpackedFloat.ofNat, Float.Model.UnpackedFloat.ofInt,
      Float.Model.UnpackedFloat.normalize, compare_gt_iff_gt.mpr (by omega)]
    rfl
  rw [← normalized] at spec
  exact rounded_of_spec spec

/-- The first of the powers of ten that are kept ready is one. -/
theorem exactly_one : Exactly (Float.ofBits 0x3FF0000000000000) 1 :=
  ⟨⟨false, 2 ^ 52, -52⟩, rfl, rfl, ⟨by decide, by decide, by decide, by decide⟩,
    by norm_num [Binary.value]⟩

/-- A natural number is scaled by no power of ten, and rounded once. -/
theorem ofScientific_natural {n : Nat} (positive : 0 < n) :
    ofScientific double64 n 0 =
      roundWithAccuracy double64 .positive (n <<< 53) (-((53 : Nat) : Int) + 0) .exact := by
  have width : double64.mantissaBits = 53 := rfl
  have factor : 10 ^ (0 : Int).toNat = 1 := rfl
  have low : ¬(0 : Int) > 2 ^ double64.exponentBits := by decide
  have high : ¬(0 : Int) < -((2 ^ double64.exponentBits : Int) + n.log2) := by
    have power : (2 : Int) ^ double64.exponentBits = 2048 := rfl
    omega
  rw [ofScientific, dif_neg positive.ne', if_neg low, if_neg high, if_pos le_rfl, mul]
  simp only [width, factor, mul_one]
  rfl

/-- A natural number that is scaled by no power of ten comes out as the nearest double. -/
theorem rounded_ofScientific {n : Nat} (positive : 0 < n) (within : InRange n) :
    Rounded (Float.ofModel (Float.Model.pack (ofScientific double64 n 0))) n := by
  rw [ofScientific_natural positive]
  generalize shifted : n <<< 53 = m
  have product : m = n * 2 ^ 53 := by rw [← shifted, Nat.shiftLeft_eq]
  have places : (m : ℚ) * 2 ^ (-((53 : Nat) : Int) + 0) = n := by
    rw [product, add_zero, zpow_neg, zpow_natCast, Nat.cast_mul, Nat.cast_pow]
    exact mul_inv_cancel_right₀ (by positivity) _
  have long : -((53 : Nat) : Int) + 0 ≤
      double64.targetExponent (totalExponent m (-((53 : Nat) : Int) + 0)) := by
    have size : 53 ≤ m.log2 := by
      rw [product]
      exact (Nat.le_log2 (by positivity)).mpr (Nat.le_mul_of_pos_left _ positive)
    rw [targetExponent_eq, totalExponent]
    omega
  rw [← places] at within ⊢
  exact rounded_of_spec (roundWithAccuracy_spec (extends_exact m) long within)

/-- Natural numbers are converted to the nearest double, also beyond 64 bits. -/
theorem rounded_ofMagnitude {n : Nat} (positive : 0 < n) (range : n ≤ 10 ^ 30) :
    Rounded (ofMagnitude false n) n := by
  have within : InRange n := by
    have one : (1 : ℚ) ≤ n := by exact_mod_cast positive
    have most : (n : ℚ) ≤ 10 ^ 30 := by exact_mod_cast range
    exact .of_ten (by linarith) most
  rw [ofMagnitude]
  simp only [Bool.false_eq_true, if_false]
  rw [Float.ofScientific]
  split
  · -- A number of up to 53 bits is converted exactly, and its product with one is rounded.
    rename_i small
    have natural : Exactly n.toUInt64.toFloat (n * 2 ^ (0 : Int)) := by
      have rounded := rounded_natural positive (by omega)
      rw [← mul_one (n : ℚ), ← zpow_zero (2 : ℚ)] at rounded
      exact rounded.exactly positive small.1 (by simpa using within)
    rw [zpow_zero, mul_one] at natural
    have product := rounded_mul natural exactly_one (by rwa [mul_one])
    rw [mul_one] at product
    exact product
  · exact rounded_ofScientific positive within

/-- Natural numbers that a double has room for are converted exactly. -/
theorem exactly_ofMagnitude {n : Nat} (positive : 0 < n) (short : n < 2 ^ 53) :
    Exactly (ofMagnitude false n) n := by
  have rounded := rounded_ofMagnitude positive (by omega)
  have one : (1 : ℚ) ≤ n := by exact_mod_cast positive
  have most : (n : ℚ) < 2 ^ 53 := by exact_mod_cast short
  have whole : (n : ℚ) = n * 2 ^ (0 : Int) := by rw [zpow_zero, mul_one]
  have range : InRange n := .of_ten (by linarith) (by linarith)
  rw [whole] at rounded range ⊢
  exact rounded.exactly positive short range

/-- A positive double is not zero. -/
theorem Exactly.ne_zero {x : Float} {v : ℚ} (exactly : Exactly x v) : (x == 0.0) = false := by
  obtain ⟨m, e, some_, unpacked, -, -⟩ := exactly.unpack
  have zero : (0.0 : Float).toModel.unpack = .zero .positive := rfl
  show Float.Model.UnpackedFloat.beq x.toModel.unpack (0.0 : Float).toModel.unpack = false
  rw [unpacked, zero]
  rfl

/-- Zero added to a positive double gives that double. -/
theorem Exactly.zero_add {x : Float} {v : ℚ} (exactly : Exactly x v) :
    Exactly (ofMagnitude false 0 + x) v := by
  obtain ⟨m, e, some_, unpacked, -, -⟩ := exactly.unpack
  have zero : (ofMagnitude false 0).toModel.unpack = .zero .positive := rfl
  have same : ofMagnitude false 0 + x = Float.ofModel (Float.Model.pack x.toModel.unpack) := by
    show Float.ofModel (Float.Model.pack (add double64 _ x.toModel.unpack)) = _
    rw [zero, unpacked]
    rfl
  have own : Float.ofModel (Float.Model.pack x.toModel.unpack) = x := ofBits_toBits x
  rw [same, own]
  exact exactly

/-- The opposite of a positive double has the other sign. -/
theorem ofFloat_neg {x : Float} {b : Binary} (read : Reading.ofFloat x = .finite b)
    (sign : b.negative = false) (normal : b.IsNormal) :
    Reading.ofFloat (-x) = .finite { b with negative := true } := by
  obtain ⟨m, e, some_, unpacked, -, -⟩ := Exactly.unpack ⟨b, read, sign, normal, rfl⟩
  rw [Reading.ofFloat_eq, unpacked, Reading.ofUnpacked] at read
  cases read
  rw [Reading.ofFloat_eq]
  show Reading.ofUnpacked (Float.Model.pack x.toModel.unpack.neg).unpack = _
  rw [unpacked]
  show Reading.ofUnpacked (Float.Model.pack (.finite .negative m e some_)).unpack = _
  rw [unpack_pack_normal normal]
  rfl

/-- A double less than a half away from a natural number is rounded to that. -/
theorem Exactly.round {x : Float} {v : ℚ} {n : Nat} (exactly : Exactly x v)
    (low : (n : ℚ) - 1 / 2 < v) (high : v < n + 1 / 2) :
    Number.round x = ofMagnitude false n := by
  obtain ⟨b, read, sign, normal, rfl⟩ := exactly
  have rounded : b.roundedMagnitude = n := by
    rw [Binary.value] at low high
    rw [Binary.roundedMagnitude]
    split
    · rename_i whole
      obtain ⟨k, exponent⟩ := Int.eq_ofNat_of_zero_le whole
      rw [exponent] at low high
      rw [exponent, Int.toNat_natCast]
      rw [zpow_natCast] at low high
      have above : (n : ℚ) < (b.mantissa * 2 ^ k : Nat) + 1 := by push_cast; linarith
      have below : ((b.mantissa * 2 ^ k : Nat) : ℚ) < n + 1 := by push_cast; linarith
      have above : n < b.mantissa * 2 ^ k + 1 := by exact_mod_cast above
      have below : b.mantissa * 2 ^ k < n + 1 := by exact_mod_cast below
      omega
    · rename_i part
      obtain ⟨k, exponent⟩ : ∃ k : Nat, b.exponent = -(k : Int) := ⟨(-b.exponent).toNat, by omega⟩
      have unit : (0 : ℚ) < 2 ^ k := by positivity
      rw [exponent, zpow_neg, zpow_natCast, ← div_eq_mul_inv] at low high
      rw [lt_div_iff₀ unit] at low
      rw [div_lt_iff₀ unit] at high
      simp only [exponent, neg_neg, Int.toNat_natCast]
      have above : (n * (2 * 2 ^ k) : Nat) ≤ 2 * b.mantissa + 2 ^ k := by
        rw [← Nat.cast_le (α := ℚ)]
        push_cast
        linarith
      have below : 2 * b.mantissa + 2 ^ k < (n + 1) * (2 * 2 ^ k) := by
        rw [← Nat.cast_lt (α := ℚ)]
        push_cast
        linarith
      exact Nat.div_eq_of_lt_le above below
  rw [Number.round, roundedBy, read]
  simp only [sign, rounded]

end EdmQuery.Number
