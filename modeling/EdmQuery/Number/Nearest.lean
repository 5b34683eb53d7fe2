import EdmQuery.Number.Decimal
import EdmQuery.Number.Shortest

/-! The doubles nearest to fractions of natural numbers. -/

namespace EdmQuery.Number

/-- A fraction over a power of two. -/
def overPower (numerator denominator : Nat) (exponent : Int) : Nat × Nat :=
  let (two, twoBelow) := ratio 2 exponent
  (numerator * twoBelow, denominator * two)

/-- The exponent of the last place that a double has for a positive fraction. -/
def placeOf (numerator denominator : Nat) : Int :=
  -- The difference of the lengths tells the size of the quotient up to a factor of two.
  let estimate : Int := max ((Nat.log2 numerator : Int) - Nat.log2 denominator - 53) (-1074)
  let (n, d) := overPower numerator denominator estimate
  if n / d < 2 ^ 53 then estimate else estimate + 1

/-- The bits of the double nearest to a positive fraction, halves going to the even neighbour. -/
def nearestBits (numerator denominator : Nat) : Nat :=
  let place := placeOf numerator denominator
  let (n, d) := overPower numerator denominator place
  -- A mantissa that is rounded up to the next power of two carries into the exponent.
  min ((place + 1074).toNat * 2 ^ 52 + Decimal.divHalfEven n d) (2047 * 2 ^ 52)

/-- The double nearest to a positive fraction, infinite beyond the greatest one. -/
def nearest (numerator denominator : Nat) : Float :=
  Float.ofBits (UInt64.ofNat (nearestBits numerator denominator))

end EdmQuery.Number
