import Calculator.Number.Binary64
/-!
# Shortest digits

The digits a float is written with: the fewest that read back as the same
float. They are the float's nearest point on the coarsest decimal grid
that has a point among the reals that round to the float. All of it is
exact arithmetic on naturals: a grid of unit `10 ^ k` compares `c * unit`
with `value * factor`, both scaled so that neither is a fraction.
-/

namespace Calculator

namespace Number

/-- The reals that round to one float, and that float itself, in units of
`2 ^ exponent`. A real at an end rounds to it if the interval is closed. -/
structure Interval where
  low : Nat
  value : Nat
  high : Nat
  exponent : Int
  closed : Bool

/-- **The interval of a positive float.** It reaches half way to either
neighbour, and the neighbour below a power of two is twice as close. A tie
goes to the even significand, so the ends belong to an even one. -/
def Interval.ofFinite (significand : Nat) (exponent : Int) : Interval where
  low :=
    if significand == Binary64.leadingBit && exponent > Binary64.leastExponent
    then 4 * significand - 1 else 4 * significand - 2
  value := 4 * significand
  high := 4 * significand + 2
  exponent := exponent - 2
  closed := significand % 2 == 0

/-- `digits` times ten to `exponent`. -/
structure Decimal where
  digits : Nat
  exponent : Int
deriving DecidableEq, Repr

/-- The nearest point to the value on the grid of unit `10 ^ k`, of those
in the interval: only the value's two neighbours on the grid can be it.
Half way between them it is the one above. -/
def Interval.nearest? (interval : Interval) (k : Int) : Option Decimal :=
  let unit := Nat.pow 2 (-interval.exponent).toNat * Nat.pow 10 k.toNat
  let factor := Nat.pow 2 interval.exponent.toNat * Nat.pow 10 (-k).toNat
  let value := interval.value * factor
  let holds (c : Nat) : Bool :=
    let point := c * unit
    if interval.closed then interval.low * factor ≤ point && point ≤ interval.high * factor
    else interval.low * factor < point && point < interval.high * factor
  let below := value / unit
  match holds below, holds (below + 1) with
  | true, true =>
    some ⟨if 2 * (value - below * unit) < unit then below else below + 1, k⟩
  | true, false => some ⟨below, k⟩
  | false, true => some ⟨below + 1, k⟩
  | false, false => none

/-- An exponent of ten that is above the interval, and above it by less
than two powers: `30103 / 100000` is just over the logarithm of two. -/
def Interval.above (interval : Interval) : Int :=
  ((interval.high.log2 + 1 : Nat) + interval.exponent) * 30103 / 100000 + 1

/-- **The shortest digits of a positive float**: grids are tried from the
coarsest down. Seventeen digits always suffice, which the count of grids
covers with a margin for where the search starts. -/
def shortest (significand : Nat) (exponent : Int) : Decimal :=
  let interval := Interval.ofFinite significand exponent
  let grids := (List.range 24).map fun (i : Nat) => interval.above - (i : Int)
  (grids.findSome? interval.nearest?).getD ⟨0, 0⟩

end Number

end Calculator
