import Mathlib
import EdmQuery.Edm.Value

/-! The comparisons of values are orders: each kind has a total one, and NaN alone is outside. -/

namespace EdmQuery

open Number Calendar

namespace Number

/-- The numerator of a decimal over the greatest power of ten that one can have. -/
def Decimal.common (d : Decimal) : Int :=
  d.numerator * 10 ^ (Decimal.maxScale - d.scale)

/-- Two decimals compare as their numerators over one common power of ten. -/
theorem Decimal.compare_eq_common (a b : Decimal) :
    a.compare b = Ord.compare a.common b.common := by
  -- Both comparisons are scaled to the denominator that has all three powers.
  have scaled (d : Decimal) : d.common * 10 ^ d.scale = d.numerator * 10 ^ Decimal.maxScale := by
    rw [Decimal.common, mul_assoc, ← pow_add, Nat.sub_add_cancel d.scale_le]
  have positive (n : Nat) : (0 : Int) < 10 ^ n := by positivity
  have cross : a.common * (10 ^ a.scale * 10 ^ b.scale)
      = a.numerator * 10 ^ b.scale * 10 ^ Decimal.maxScale := by
    rw [← mul_assoc, scaled, mul_right_comm]
  have cross' : b.common * (10 ^ a.scale * 10 ^ b.scale)
      = b.numerator * 10 ^ a.scale * 10 ^ Decimal.maxScale := by
    rw [mul_comm (10 ^ a.scale), ← mul_assoc, scaled, mul_right_comm]
  have below : a.numerator * 10 ^ b.scale < b.numerator * 10 ^ a.scale ↔ a.common < b.common := by
    rw [← mul_lt_mul_iff_left₀ (positive Decimal.maxScale), ← cross, ← cross',
      mul_lt_mul_iff_left₀ (mul_pos (positive _) (positive _))]
  have equal : a.numerator * 10 ^ b.scale = b.numerator * 10 ^ a.scale ↔ a.common = b.common := by
    rw [← mul_left_inj' (positive Decimal.maxScale).ne', ← cross, ← cross',
      mul_left_inj' (mul_pos (positive _) (positive _)).ne']
  show compareOfLessAndEq (a.numerator * 10 ^ b.scale) (b.numerator * 10 ^ a.scale)
    = compareOfLessAndEq a.common b.common
  simp only [compareOfLessAndEq, below, equal]

instance : Std.TransCmp Decimal.compare :=
  (funext₂ Decimal.compare_eq_common : Decimal.compare = compareOn Decimal.common) ▸
    inferInstanceAs (Std.TransCmp (compareOn Decimal.common))

end Number

namespace Calendar

instance : Std.TransCmp Date.compare :=
  inferInstanceAs (Std.TransCmp (compareLex (compareOn Date.year)
    (compareLex (compareOn Date.month) (compareOn Date.day))))

instance : Std.TransCmp TimeOfDay.compare :=
  inferInstanceAs (Std.TransCmp (compareLex (compareOn TimeOfDay.hour)
    (compareLex (compareOn TimeOfDay.minute)
      (compareLex (compareOn TimeOfDay.second) (compareOn TimeOfDay.nano)))))

/-- A total order of images is one of what they are images of. -/
theorem transCmp_image {α β : Type} (cmp : β → β → Ordering) [Std.TransCmp cmp] (f : α → β) :
    Std.TransCmp fun a b => cmp (f a) (f b) where
  eq_swap := Std.OrientedCmp.eq_swap
  isLE_trans := Std.TransCmp.isLE_trans

instance : Std.TransCmp DateTime.compare :=
  -- Instants are ordered by their date and then by their time in universal time.
  have := transCmp_image Date.compare DateTime.universalDate
  have := transCmp_image TimeOfDay.compare DateTime.universalTime
  inferInstanceAs (Std.TransCmp (compareLex
    (fun a b : DateTime => a.universalDate.compare b.universalDate)
    (fun a b : DateTime => a.universalTime.compare b.universalTime)))

instance : Std.TransCmp Duration.compare :=
  inferInstanceAs (Std.TransCmp (compareOn Duration.nanos))

end Calendar

instance : Std.TransCmp Guid.compare :=
  inferInstanceAs (Std.TransCmp (compareOn fun g : Guid => g.bits.toNat))

/-- The order of unpacked doubles: their class, then for finite ones exponent and mantissa. -/
def unpackedKey : Float.Model.UnpackedFloat → Int × Int × Int
  | .infinity .negative => (-2, 0, 0)
  | .finite .negative mantissa exponent _ => (-1, -exponent, -(mantissa : Int))
  | .finite .positive mantissa exponent _ => (1, exponent, mantissa)
  | .infinity .positive => (2, 0, 0)
  | _ => (0, 0, 0)

/-- The lexicographic order of three integers. -/
def compareTriples : Int × Int × Int → Int × Int × Int → Ordering :=
  compareLex (compareOn (·.1)) (compareLex (compareOn (·.2.1)) (compareOn (·.2.2)))

instance : Std.TransCmp compareTriples :=
  inferInstanceAs (Std.TransCmp (compareLex (compareOn _) (compareLex (compareOn _) (compareOn _))))

/-- Opposite integers compare the other way round. -/
theorem compare_neg (a b : Int) : Ord.compare (-a) (-b) = (Ord.compare a b).swap := by
  rw [Int.compare_swap, Int.compare_eq_ite_lt, Int.compare_eq_ite_lt]
  simp only [Int.neg_lt_neg_iff]

/-- Natural numbers compare as integers do. -/
theorem compare_natCast (a b : Nat) : Ord.compare (a : Int) (b : Int) = Ord.compare a b := by
  rw [Int.compare_eq_ite_lt, Nat.compare_eq_ite_lt]
  simp only [Int.ofNat_lt]

/-- Whether an unpacked double is no number. -/
def isUnpackedNaN : Float.Model.UnpackedFloat → Bool
  | .notANumber => true
  | _ => false

/-- Two unpacked doubles compare by their keys unless one of them is no number. -/
theorem unpacked_compare (x y : Float.Model.UnpackedFloat) :
    x.compare y = if isUnpackedNaN x || isUnpackedNaN y then none
      else some (compareTriples (unpackedKey x) (unpackedKey y)) := by
  -- Finite doubles of one sign compare by exponent and mantissa, all others by their class.
  rcases x with (_ | _) | _ | _ | ⟨(_ | _), m, e, _⟩ <;>
    rcases y with (_ | _) | _ | _ | ⟨(_ | _), n, f, _⟩ <;> try rfl
  · simp only [Float.Model.UnpackedFloat.compare, isUnpackedNaN, Bool.or_self, Bool.false_eq_true,
      if_false, unpackedKey, compareTriples, compareLex, compareOn, compare_neg, compare_natCast,
      Ordering.swap_then]
    rfl
  · simp only [Float.Model.UnpackedFloat.compare, isUnpackedNaN, Bool.or_self, Bool.false_eq_true,
      if_false, unpackedKey, compareTriples, compareLex, compareOn, compare_natCast]
    rfl

/-- Whether a double is no number. -/
def isNaN (x : Float) : Bool :=
  isUnpackedNaN x.toModel.unpack

/-- The comparison of two doubles is that of what they unpack to. -/
theorem compareFloats_unpacked (x y : Float) :
    compareFloats x y = x.toModel.unpack.compare y.toModel.unpack := by
  have less (x y : Float) : x < y ↔ x.toModel.unpack.compare y.toModel.unpack = some .lt := by
    show decide (x.toModel < y.toModel) = true ↔ _
    rw [decide_eq_true_iff]
    show (x.toModel.unpack.compare y.toModel.unpack == some .lt) = true ↔ _
    exact beq_iff_eq
  have equal : (x == y) = (x.toModel.unpack.compare y.toModel.unpack == some .eq) := rfl
  have swapped : y.toModel.unpack.compare x.toModel.unpack
      = (x.toModel.unpack.compare y.toModel.unpack).map Ordering.swap := by
    rw [unpacked_compare, unpacked_compare, Bool.or_comm]
    split
    · rfl
    · rw [Option.map_some, ← @Std.OrientedCmp.eq_swap _ compareTriples _ _ _]
  simp only [compareFloats, less, equal, swapped]
  rcases x.toModel.unpack.compare y.toModel.unpack with _ | (_ | _ | _) <;> rfl

/-- Two doubles compare by their keys unless one of them is no number. -/
theorem compareFloats_eq (x y : Float) :
    compareFloats x y = if isNaN x || isNaN y then none
      else some (compareTriples (unpackedKey x.toModel.unpack) (unpackedKey y.toModel.unpack)) := by
  rw [compareFloats_unpacked, unpacked_compare]
  rfl

/-- Doubles compare the other way round when they change places. -/
theorem compareFloats_swap (x y : Float) :
    compareFloats x y = (compareFloats y x).map Ordering.swap := by
  rw [compareFloats_eq, compareFloats_eq, Bool.or_comm]
  split
  · rfl
  · rw [Option.map_some, ← @Std.OrientedCmp.eq_swap _ compareTriples _ _ _]

/-- An order that may be missing goes from smaller to greater or equal. -/
def ascends (order : Option Ordering) : Bool :=
  order.any Ordering.isLE

/-- Doubles that ascend twice ascend. -/
theorem compareFloats_trans {x y z : Float} (first : ascends (compareFloats x y))
    (second : ascends (compareFloats y z)) : ascends (compareFloats x z) := by
  rw [compareFloats_eq] at *
  -- A missing order does not ascend, so none of the three is a NaN.
  cases hx : isNaN x <;> cases hy : isNaN y <;> cases hz : isNaN z <;>
    simp only [hx, hy, hz, Bool.or_self, Bool.or_true, Bool.true_or, Bool.false_eq_true, if_true,
      if_false, ascends, Option.any_none, Option.any_some] at *
  exact @Std.TransCmp.isLE_trans _ compareTriples _ _ _ _ first second

namespace Scalar

/-- Values compare the other way round when they change places. -/
theorem compare_swap (a b : Scalar) : a.compare b = (b.compare a).map Ordering.swap := by
  cases a <;> cases b <;> first
    | rfl
    | exact compareFloats_swap _ _
    | exact congrArg some (@Std.OrientedCmp.eq_swap _ Decimal.compare _ _ _)
    | exact congrArg some (@Std.OrientedCmp.eq_swap _ Date.compare _ _ _)
    | exact congrArg some (@Std.OrientedCmp.eq_swap _ TimeOfDay.compare _ _ _)
    | exact congrArg some (@Std.OrientedCmp.eq_swap _ DateTime.compare _ _ _)
    | exact congrArg some (@Std.OrientedCmp.eq_swap _ Duration.compare _ _ _)
    | exact congrArg some (@Std.OrientedCmp.eq_swap _ Guid.compare _ _ _)
    | exact congrArg some Std.OrientedOrd.eq_swap
    | skip
  case enum.enum s a t b =>
    -- Both directions test the same names.
    simp only [compare]
    by_cases named : s.name = t.name
    · simp only [named, beq_self_eq_true, if_true, Option.map_some]
      exact congrArg some Std.OrientedOrd.eq_swap
    · simp [named, Ne.symm named]

/-- Values of one kind that ascend twice ascend. -/
theorem compare_trans {a b c : Scalar} (alike : a.kind = b.kind) (alike' : b.kind = c.kind)
    (first : ascends (a.compare b)) (second : ascends (b.compare c)) :
    ascends (a.compare c) := by
  cases a <;> cases b <;> simp only [kind, String.reduceEq] at alike <;>
    cases c <;> simp only [kind, String.reduceEq] at alike'
  case double => exact compareFloats_trans first second
  case decimal => exact @Std.TransCmp.isLE_trans _ Decimal.compare _ _ _ _ first second
  case date => exact @Std.TransCmp.isLE_trans _ Date.compare _ _ _ _ first second
  case dateTime => exact @Std.TransCmp.isLE_trans _ DateTime.compare _ _ _ _ first second
  case timeOfDay => exact @Std.TransCmp.isLE_trans _ TimeOfDay.compare _ _ _ _ first second
  case duration => exact @Std.TransCmp.isLE_trans _ Duration.compare _ _ _ _ first second
  case guid => exact @Std.TransCmp.isLE_trans _ Guid.compare _ _ _ _ first second
  case enum s a t b u c =>
    -- A missing order does not ascend, so all three enumerations have one name.
    have named : s.name = t.name := by
      by_contra apart
      simp [compare, apart, ascends] at first
    have named' : t.name = u.name := by
      by_contra apart
      simp [compare, apart, ascends] at second
    simp only [compare, named, named', beq_self_eq_true, if_true, ascends, Option.any_some]
      at first second ⊢
    exact Std.TransOrd.isLE_trans first second
  all_goals exact Std.TransOrd.isLE_trans first second

end Scalar

end EdmQuery
