import EdmQuery.Number.Power

/-! Doubles taken apart into exact integers, and the roundings that are decided on them. -/

namespace EdmQuery.Number

/-- A finite double, equal to `mantissa * 2 ^ exponent` with the given sign. -/
structure Binary where
  negative : Bool
  mantissa : Nat
  exponent : Int
  deriving DecidableEq

/-- What a double stands for. -/
inductive Reading where
  | nan
  | infinite (negative : Bool)
  | finite (value : Binary)
  deriving DecidableEq

/-- The number that the bits of a double encode. -/
def Reading.ofFloat (x : Float) : Reading :=
  let bits := x.toBits.toNat
  let negative := bits / 2 ^ 63 == 1
  let exponent : Nat := bits / 2 ^ 52 % 2048
  let fraction : Nat := bits % 2 ^ 52
  -- The top exponent holds no numbers, and the bottom one has no implicit leading bit.
  if exponent == 2047 then (if fraction == 0 then .infinite negative else .nan)
  else if exponent == 0 then .finite ⟨negative, fraction, -1074⟩
  else .finite ⟨negative, fraction + 2 ^ 52, (exponent : Int) - 1075⟩

/-- The double nearest to an integer of the given sign, which keeps the sign of zero. -/
def ofMagnitude (negative : Bool) (magnitude : Nat) : Float :=
  let x := Float.ofScientific magnitude false 0
  if negative then -x else x

/-- The double nearest to an integer. -/
def ofInteger (n : Int) : Float :=
  ofMagnitude (n < 0) n.natAbs

/-- The double nearest to an exact binary number. -/
def Binary.toFloat (b : Binary) : Float :=
  let x :=
    -- A negative power of two is the same power of five over a power of ten.
    if 0 ≤ b.exponent then Float.ofScientific (b.mantissa * 2 ^ b.exponent.toNat) false 0
    else Float.ofScientific (b.mantissa * 5 ^ (-b.exponent).toNat) true (-b.exponent).toNat
  if b.negative then -x else x

/-- The integer part of the magnitude, and whether a fraction was dropped. -/
def Binary.truncated (b : Binary) : Nat × Bool :=
  if 0 ≤ b.exponent then (b.mantissa * 2 ^ b.exponent.toNat, false)
  else
    let unit := 2 ^ (-b.exponent).toNat
    (b.mantissa / unit, b.mantissa % unit != 0)

/-- The magnitude rounded to an integer, halves going up. -/
def Binary.roundedMagnitude (b : Binary) : Nat :=
  if 0 ≤ b.exponent then b.mantissa * 2 ^ b.exponent.toNat
  else
    let unit := 2 ^ (-b.exponent).toNat
    (2 * b.mantissa + unit) / (2 * unit)

/-- A double sent through a rounding of its exact value, NaN and the infinities unchanged. -/
def roundedBy (magnitude : Binary → Nat) (x : Float) : Float :=
  match Reading.ofFloat x with
  | .finite b => ofMagnitude b.negative (magnitude b)
  | _ => x

/-- The greatest integer not above a double. -/
def floor (x : Float) : Float :=
  roundedBy (fun b => let (n, inexact) := b.truncated; if b.negative && inexact then n + 1 else n) x

/-- The least integer not below a double. -/
def ceiling (x : Float) : Float :=
  roundedBy (fun b =>
    let (n, inexact) := b.truncated
    if !b.negative && inexact then n + 1 else n) x

/-- The integer nearest to a double, halves going away from zero. -/
def round (x : Float) : Float :=
  roundedBy Binary.roundedMagnitude x

/-- The integer part of a finite double. -/
def toInteger? (x : Float) : Option Int :=
  match Reading.ofFloat x with
  | .finite b => some (if b.negative then -(b.truncated.1 : Int) else b.truncated.1)
  | _ => none

/-- The integer that a double is exactly equal to. -/
def exactInteger? (x : Float) : Option Int :=
  match Reading.ofFloat x with
  | .finite b => if b.truncated.2 then none else toInteger? x
  | _ => none

/-- Whether a double is neither NaN nor infinite. -/
def isFinite (x : Float) : Bool :=
  match Reading.ofFloat x with
  | .finite _ => true
  | _ => false

/-- The exact remainder of a division that truncates, with the sign of the dividend. -/
def remainder (x y : Float) : Float :=
  match Reading.ofFloat x, Reading.ofFloat y with
  | .finite a, .infinite _ => a.toFloat
  | .finite a, .finite b =>
    -- Both sides are written over the smaller power of two, where the remainder is one of integers.
    let exponent := min a.exponent b.exponent
    let whole (c : Binary) := c.mantissa * 2 ^ (c.exponent - exponent).toNat
    if b.mantissa == 0 then 0.0 / 0.0
    else (Binary.mk a.negative (whole a % whole b) exponent).toFloat
  | _, _ => 0.0 / 0.0

/-- A power with a natural exponent, by repeated squaring. -/
def powerBySquaring (base : Float) (exponent : Nat) : Float :=
  go exponent base 1.0 exponent
where
  /-- Multiplies the pending square in for each binary digit of the exponent. -/
  go : Nat → Float → Float → Nat → Float
    | 0, _, product, _ => product
    | fuel + 1, square, product, n =>
      -- The exponent itself bounds the number of its binary digits.
      if n == 0 then product
      else go fuel (square * square) (if n % 2 == 1 then product * square else product) (n / 2)

end EdmQuery.Number
