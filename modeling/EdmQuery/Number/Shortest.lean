import EdmQuery.Number.Binary

/-! The fewest decimal digits that read back as a given double. -/

namespace EdmQuery.Number

/-- Which way a double goes when two shortest decimals are equally near. -/
inductive Tie where
  | away
  | even
  deriving DecidableEq

/-- A positive decimal number `digits * 10 ^ exponent`. -/
structure Scientific where
  digits : Nat
  exponent : Int
  deriving DecidableEq

/-- The reals that round to a positive double, in units of a quarter of its last place. -/
structure Interval where
  low : Nat
  value : Nat
  high : Nat
  closed : Bool
  exponent : Int
  deriving DecidableEq

/-- The interval of a positive binary number, narrower below where the exponent changes. -/
def Interval.ofBinary (b : Binary) : Interval :=
  -- A power of two has its lower neighbour at half the distance of the upper one.
  let narrow := b.mantissa == 2 ^ 52 && b.exponent != -1074
  { low := 4 * b.mantissa - (if narrow then 1 else 2)
    value := 4 * b.mantissa
    high := 4 * b.mantissa + 2
    closed := b.mantissa % 2 == 0
    exponent := b.exponent - 2 }

/-- The factors that bring a power of a base to a fraction of naturals. -/
def ratio (base : Nat) (exponent : Int) : Nat × Nat :=
  if 0 ≤ exponent then (base ^ exponent.toNat, 1) else (1, base ^ (-exponent).toNat)

/-- The point of the grid of multiples of `10 ^ grid` inside the interval, nearest to the value. -/
def Interval.pointOn (i : Interval) (tie : Tie) (grid : Int) : Option Nat :=
  let (two, twoBelow) := ratio 2 i.exponent
  let (ten, tenBelow) := ratio 10 grid
  -- Cross multiplication turns every comparison with a grid point into one of naturals.
  let left := two * tenBelow
  let right := twoBelow * ten
  let inside (n : Nat) : Bool :=
    if i.closed then i.low * left ≤ n * right && n * right ≤ i.high * left
    else i.low * left < n * right && n * right < i.high * left
  let below := i.value * left / right
  let above := below + 1
  let toBelow := i.value * left - below * right
  let toAbove := above * right - i.value * left
  match inside below, inside above with
  | true, true =>
    if toBelow < toAbove then some below
    else if toAbove < toBelow then some above
    else match tie with
      | .away => some above
      | .even => some (if below % 2 == 0 then below else above)
  | true, false => some below
  | false, true => some above
  | false, false => none

/-- The coarsest grid with a point inside the interval, among `fuel` grids from `grid` down. -/
def Interval.search (i : Interval) (tie : Tie) : Nat → Int → Scientific
  | 0, grid => ⟨i.value, grid⟩
  | fuel + 1, grid =>
    match i.pointOn tie grid with
    | some digits => ⟨digits, grid⟩
    | none => i.search tie fuel (grid - 1)

/-- The same number without trailing zero digits. -/
def Scientific.stripped (s : Scientific) : Scientific :=
  go s.digits s
where
  /-- Divides by ten while the digits allow it, at most once per unit of fuel. -/
  go : Nat → Scientific → Scientific
    | 0, s => s
    | fuel + 1, s =>
      if s.digits != 0 && s.digits % 10 == 0 then go fuel ⟨s.digits / 10, s.exponent + 1⟩ else s

/-- The shortest decimal that reads back as a positive binary number. -/
def shortest (tie : Tie) (b : Binary) : Scientific :=
  -- Twice a decimal magnitude above the number no grid has a point, and 17 digits always suffice.
  let bits := (Nat.log2 b.mantissa : Int) + 1 + b.exponent
  ((Interval.ofBinary b).search tie 24 (bits * 30103 / 100000 + 2)).stripped

end EdmQuery.Number
