import SealedStream.Text.Double

/-!
# The shortest decimal of a double

Of all decimals that a double is the nearest double to, the one with the fewest
digits; of several, the one nearest to it. The grids of decimals are tried from
the coarsest on: the first that comes near enough has the digits.
-/

namespace SealedStream.Text.Double

/--
Four times the significand, and the ends of what rounds to it in the same unit. At
a power of two the doubles below are twice as close.
-/
def roundingInterval (x : Double) : Nat × Nat × Nat :=
  let mid := 4 * x.significand
  let below := if x.significand = Nat.pow 2 (precision - 1) ∧ leastExponent < x.exponent then 1 else 2
  (mid - below, mid, mid + 2)

/--
The multiple of a power of ten that is nearest to a double, among those that the
double is the nearest double to.
-/
def onGrid? (x : Double) (power : Int) : Option Nat :=
  let (low, mid, high) := x.roundingInterval
  let (p, q) := powerFraction 2 (x.exponent - 2)
  let (g, h) := powerFraction 10 power
  let unit := p * h
  let step := q * g
  let rounds (digits : Nat) : Bool :=
    let place := digits * step
    (low * unit < place && place < high * unit) ||
      (x.significand % 2 = 0 && (place = low * unit || place = high * unit))
  let nearer := roundDiv (mid * unit) step
  let below := mid * unit / step
  ([nearer, below, below + 1] : List Nat).find? rounds

/-- The power of ten of the coarsest grid that any double is near to, and how many are finer. -/
def coarsestPower : Int := 309
def gridCount : Nat := 650

/-- The digits as one number, and the power of ten that it is to be taken with. -/
def shortest (x : Double) : Nat × Int :=
  ((List.range gridCount).findSome? fun (i : Nat) =>
    let power := coarsestPower - Int.ofNat i
    (x.onGrid? power).map fun digits => (digits, power)).getD (0, 0)

end SealedStream.Text.Double
