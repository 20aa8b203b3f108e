import ForeignDecl.Decimal.Basic

/-!
# Shortest decimals of doubles

The decimal that a double is written as: the one with the fewest digits among those that read back
as the same double, and of these the nearest to it; of two equally near ones the greater.

A finite double is `significand * 2 ^ exponent`, and the reals that round to it form an interval
around it, with its ends included exactly when the significand is even. The multiples of a power of
ten are a grid, and a number has fewer digits the coarser the grid it lies on. So the search goes
from coarse to fine grids and stops at the first that has a point in the interval. Since the
interval surrounds the value, such a grid has a point in it next to the value, and only the two
neighbours need looking at. All of this is exact arithmetic on natural numbers.
-/

set_option autoImplicit false

namespace ForeignDecl

/-! ## Binary form -/

/-- A positive double, as `significand * 2 ^ exponent`. -/
structure BinaryFloat where
  significand : Nat
  exponent : Int
  /-- The next smaller double is only half as far away as the next greater one. -/
  isBoundary : Bool
deriving DecidableEq, Repr, Inhabited

namespace BinaryFloat

/-- The magnitude of a finite double from its exponent and fraction fields. -/
def ofFields (exponentField fraction : Nat) : BinaryFloat :=
  if exponentField = 0 then ⟨fraction, -1074, false⟩
  else ⟨Nat.pow 2 52 + fraction, exponentField - 1075, fraction = 0 && 1 < exponentField⟩

end BinaryFloat

/-! ## The interval that rounds to a double -/

/-- The reals that round to one double, as fractions over one denominator. -/
structure RoundingInterval where
  low : Nat
  value : Nat
  high : Nat
  unit : Nat
  /-- Both ends belong to the interval. -/
  isClosed : Bool
deriving DecidableEq, Repr, Inhabited

namespace RoundingInterval

/-- Halfway to the neighbours on both sides, in quarters of the last place. -/
def ofBinary (b : BinaryFloat) : RoundingInterval :=
  let scale := b.exponent - 2
  let up := Nat.pow 2 scale.toNat
  { low := (4 * b.significand - if b.isBoundary then 1 else 2) * up
    value := 4 * b.significand * up
    high := (4 * b.significand + 2) * up
    unit := Nat.pow 2 (-scale).toNat
    isClosed := b.significand % 2 = 0 }

/-- Whether a fraction over the common denominator lies in the interval. -/
def contains (r : RoundingInterval) (n : Nat) : Bool :=
  if r.isClosed then r.low ≤ n && n ≤ r.high else r.low < n && n < r.high

/-- The same interval multiplied by a power of ten. -/
def scaleUp (r : RoundingInterval) (places : Nat) : RoundingInterval :=
  let factor := Nat.pow 10 places
  { r with low := r.low * factor, value := r.value * factor, high := r.high * factor }

/-- The multiple of `step` nearest to the value among those in the interval, as a count of steps;
of two equally near ones the greater. -/
def nearestMultiple? (r : RoundingInterval) (step : Nat) : Option Nat :=
  let below := r.value / step
  let above := below + 1
  match r.contains (below * step), r.contains (above * step) with
  | true, true =>
    some (if r.value - below * step < above * step - r.value then below else above)
  | true, false => some below
  | false, true => some above
  | false, false => none

/-- The point of the grid of multiples of `10 ^ exponent`. -/
def gridPoint? (r : RoundingInterval) : Int → Option Nat
  | .ofNat e => r.nearestMultiple? (r.unit * Nat.pow 10 e)
  | .negSucc e => (r.scaleUp (e + 1)).nearestMultiple? r.unit

/-- The first grid with a point, going down from `exponent` by one at a time. -/
def firstPointWithin (r : RoundingInterval) : Nat → Int → Decimal
  | 0, exponent => ⟨0, exponent⟩
  | fuel + 1, exponent =>
    match r.gridPoint? exponent with
    | some n => ⟨n, exponent⟩
    | none => firstPointWithin r fuel (exponent - 1)

/-- The shortest decimal in the interval. No double reaches `10 ^ 309`, and every double is a
multiple of `10 ^ (-1074)`, so the search finds a point between the two. -/
def shortest (r : RoundingInterval) : Decimal := r.firstPointWithin 1384 309

end RoundingInterval

/-! ## Text -/

/-- How doubles are written where they are values of constants: without an exponent, the sign of
zero kept, and every NaN alike. -/
def doubleText (bits : UInt64) : String :=
  let n := bits.toNat
  let exponentField := n / Nat.pow 2 52 % Nat.pow 2 11
  let fraction := n % Nat.pow 2 52
  let sign := if n / Nat.pow 2 63 = 0 then "" else "-"
  if exponentField = 2047 then
    if fraction = 0 then sign ++ "inf" else "NaN"
  else if exponentField = 0 ∧ fraction = 0 then sign ++ "0"
  else
    let interval := RoundingInterval.ofBinary (.ofFields exponentField fraction)
    sign ++ interval.shortest.text

end ForeignDecl
