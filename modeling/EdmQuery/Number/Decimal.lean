import EdmQuery.Number.Binary

/-! Decimals with a 96-bit magnitude and up to 28 decimal places, and their exact arithmetic. -/

namespace EdmQuery.Number

/-- The most decimal places that a decimal keeps. -/
def Decimal.maxScale : Nat := 28

/-- One more than the greatest magnitude of a decimal. -/
def Decimal.bound : Nat := 2 ^ 96

/-- The number `magnitude / 10 ^ scale` with the given sign, which a zero keeps too. -/
structure Decimal where
  negative : Bool
  magnitude : Nat
  scale : Nat
  magnitude_lt : magnitude < Decimal.bound
  scale_le : scale ≤ Decimal.maxScale
  deriving DecidableEq

namespace Decimal

/-- A decimal of the given parts, if they are in range. -/
def ofParts? (negative : Bool) (magnitude scale : Nat) : Option Decimal :=
  if range : magnitude < bound ∧ scale ≤ maxScale then
    some ⟨negative, magnitude, scale, range.1, range.2⟩
  else none

/-- A decimal of the given parts whose zero has no sign. -/
def unsignedZero? (negative : Bool) (magnitude scale : Nat) : Option Decimal :=
  ofParts? (negative && magnitude != 0) magnitude scale

/-- The decimal zero without places. -/
def zero : Decimal := ⟨false, 0, 0, by decide, by decide⟩

/-- The signed magnitude. -/
def numerator (d : Decimal) : Int :=
  if d.negative then -(d.magnitude : Int) else d.magnitude

/-- Whether a decimal is zero, whatever its scale. -/
def isZero (d : Decimal) : Bool :=
  d.magnitude == 0

/-- The decimal of a 64-bit integer. -/
def ofInt64 (n : Int64) : Decimal :=
  { negative := n.toInt < 0
    magnitude := n.toInt.natAbs
    scale := 0
    magnitude_lt := by
      -- Sixty-three bits leave room below the ninety-sixth.
      have low := n.le_toInt
      have high := n.toInt_lt
      simp only [bound]
      omega
    scale_le := by decide }

/-- The order of the numbers that two decimals stand for. -/
def compare (a b : Decimal) : Ordering :=
  -- Multiplying by the power of ten of the other side brings both to one denominator.
  Ord.compare (a.numerator * 10 ^ b.scale) (b.numerator * 10 ^ a.scale)

/-- The quotient of two naturals rounded to the nearest, halves to the even neighbour. -/
def divHalfEven (n d : Nat) : Nat :=
  let quotient := n / d
  let rest := 2 * (n % d)
  if d < rest || (rest == d && quotient % 2 == 1) then quotient + 1 else quotient

/-- The fewest digits dropped, from `dropped` on, that bring a number into range. -/
def fitFrom (n scale : Nat) : Nat → Nat → Option (Nat × Nat)
  | 0, _ => none
  | fuel + 1, dropped =>
    if dropped > scale then none
    else
      let rounded := divHalfEven n (10 ^ dropped)
      if rounded < bound then some (rounded, scale - dropped)
      else fitFrom n scale fuel (dropped + 1)

/-- A magnitude and scale brought into range by dropping as few digits as possible. -/
def fit (n scale : Nat) : Option (Nat × Nat) :=
  fitFrom n scale (scale + 1) (scale - maxScale)

/-- The opposite number, where a zero changes its sign too. -/
def neg (d : Decimal) : Decimal :=
  { d with negative := !d.negative }

/-- The sum of two decimals, none when it is out of range. -/
def add? (a b : Decimal) : Option Decimal :=
  -- A zero leaves the other side as it is, its scale included.
  if a.isZero then some b
  else if b.isZero then some a
  else
    let scale := max a.scale b.scale
    let left := a.magnitude * 10 ^ (scale - a.scale)
    let right := b.magnitude * 10 ^ (scale - b.scale)
    if a.negative == b.negative then
      (fit (left + right) scale).bind fun (n, s) => unsignedZero? a.negative n s
    else if left == right then
      -- A difference of one-word magnitudes that vanishes keeps the sign of the left side.
      ofParts? (a.negative && left < 2 ^ 32) 0 scale
    else
      let negative := if left < right then !a.negative else a.negative
      let difference := if left < right then right - left else left - right
      (fit difference scale).bind fun (n, s) => unsignedZero? negative n s

/-- The difference of two decimals, none when it is out of range. -/
def sub? (a b : Decimal) : Option Decimal :=
  if b.isZero then (if a.isZero then some b else some a) else add? a b.neg

/-- The product of two decimals, none when it is out of range. -/
def mul? (a b : Decimal) : Option Decimal :=
  let scale := a.scale + b.scale
  if a.isZero || b.isZero then some zero
  -- One-word factors so small that no digit of the product can survive give a bare zero.
  else if a.magnitude < 2 ^ 32 && b.magnitude < 2 ^ 32 && scale > maxScale + 19 then some zero
  else
    (fit (a.magnitude * b.magnitude) scale).bind fun (n, s) =>
      unsignedZero? (a.negative != b.negative) n s

/-- A magnitude and scale without trailing zeros behind the point. -/
def strip (n : Nat) : Nat → Nat × Nat
  | 0 => (n, 0)
  | scale + 1 => if n % 10 == 0 then strip (n / 10) scale else (n, scale + 1)

/-- The most digits of a fraction that fit, from `places` downwards. -/
def quotientFrom (n d : Nat) : Nat → Option (Nat × Nat)
  | 0 =>
    let rounded := divHalfEven n d
    if rounded < bound then some (rounded, 0) else none
  | places + 1 =>
    let rounded := divHalfEven (n * 10 ^ (places + 1)) d
    if rounded < bound then some (rounded, places + 1) else quotientFrom n d places

/-- The quotient of two decimals, none for a zero divisor or out of range. -/
def div? (a b : Decimal) : Option Decimal :=
  if b.isZero then none
  else if a.isZero then some zero
  else
    let negative := a.negative != b.negative
    if b.scale ≤ a.scale && a.magnitude % b.magnitude == 0 then
      -- A division without remainder keeps the difference of the scales.
      unsignedZero? negative (a.magnitude / b.magnitude) (a.scale - b.scale)
    else
      let n := a.magnitude * 10 ^ b.scale
      let d := b.magnitude * 10 ^ a.scale
      (quotientFrom n d maxScale).bind fun (rounded, places) =>
        let (m, s) := strip rounded places
        unsignedZero? negative m s

/-- The remainder of a truncating division, none for a zero divisor. -/
def rem? (a b : Decimal) : Option Decimal :=
  if b.isZero then none
  else if a.isZero then some zero
  else
    let scale := max a.scale b.scale
    let left := a.magnitude * 10 ^ (scale - a.scale)
    let right := b.magnitude * 10 ^ (scale - b.scale)
    if left == right then some zero
    else if left < right then some a
    else unsignedZero? a.negative (left % right) scale

/-- The integer part, which keeps the sign of a negative fraction. -/
def truncate (d : Decimal) : Decimal :=
  { d with
    magnitude := d.magnitude / 10 ^ d.scale
    scale := 0
    magnitude_lt := Nat.lt_of_le_of_lt (Nat.div_le_self _ _) d.magnitude_lt
    scale_le := Nat.zero_le _ }

/-- Whether a decimal has a non-zero digit behind the point. -/
def hasFraction (d : Decimal) : Bool :=
  d.magnitude % 10 ^ d.scale != 0

/-- The decimal one. -/
def one : Decimal := ⟨false, 1, 0, by decide, by decide⟩

/-- The greatest integer not above a decimal. -/
def floor (d : Decimal) : Option Decimal :=
  if d.negative && d.hasFraction then d.truncate.sub? one else some d.truncate

/-- The least integer not below a decimal. -/
def ceiling (d : Decimal) : Option Decimal :=
  if !d.negative && d.hasFraction then d.truncate.add? one else some d.truncate

/-- The integer nearest to a decimal, halves going away from zero. -/
def round (d : Decimal) : Option Decimal :=
  -- A decimal without places is returned as it is, sign of zero included.
  if d.scale == 0 then some d
  else
    let unit := 10 ^ d.scale
    unsignedZero? d.negative ((2 * d.magnitude + unit) / (2 * unit)) 0

/-- The double of a decimal: integer and fraction are converted apart, then rounded together. -/
def toFloat (d : Decimal) : Float :=
  let value :=
    if d.scale == 0 then ofMagnitude false d.magnitude
    else
      let unit := 10 ^ d.scale
      let whole := ofMagnitude false (d.magnitude / unit)
      let fraction := ofMagnitude false (d.magnitude % unit) / ofMagnitude false unit
      if fraction == 0.0 then whole
      else
        let power := powerBySquaring 10.0 d.scale
        Number.round ((whole + fraction) * power) / power
  if d.negative then -value else value

end Decimal

end EdmQuery.Number
