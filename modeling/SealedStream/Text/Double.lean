/-!
# Doubles

The numbers from zero on that a double stands for, as a whole significand times
a power of two, without an upper bound on the exponent. The result of every
operation is the double nearest to the exact one; of two that are equally near,
the one with the even significand.
-/

namespace SealedStream.Text

/-- A quotient rounded to the nearest whole number, a tie to the even one. -/
def roundDiv (n d : Nat) : Nat :=
  let left := n % d
  if d < 2 * left ∨ (d = 2 * left ∧ n / d % 2 = 1) then n / d + 1 else n / d

/-- The rounded quotient is within half a unit of the exact one. -/
theorem roundDiv_near (n : Nat) {d : Nat} (hd : 0 < d) :
    2 * n ≤ 2 * (d * roundDiv n d) + d ∧ 2 * (d * roundDiv n d) ≤ 2 * n + d := by
  have hdiv := Nat.div_add_mod n d
  have hmod := Nat.mod_lt n hd
  simp only [roundDiv]
  split
  · rw [Nat.mul_add, Nat.mul_one]
    omega
  · omega

/-- The value `significand * 2 ^ exponent`. -/
structure Double where
  significand : Nat
  exponent : Int
  deriving DecidableEq, Repr

namespace Double

/-- How many bits a significand has. -/
def precision : Nat := 53

/-- The exponent of the smallest doubles, whose significands have fewer bits. -/
def leastExponent : Int := -1074

/-- The largest exponent of a double that is not infinite. -/
def largestExponent : Int := 971

def zero : Double := ⟨0, leastExponent⟩

def isFinite (x : Double) : Bool := x.exponent ≤ largestExponent

/-- A fraction with the value of a power of a base. -/
def powerFraction (base : Nat) (exponent : Int) : Nat × Nat :=
  (Nat.pow base exponent.toNat, Nat.pow base (-exponent).toNat)

/-- A fraction with the value of a double. -/
def fraction (x : Double) : Nat × Nat :=
  let (n, d) := powerFraction 2 x.exponent
  (x.significand * n, d)

/-- The exponent of the largest power of two that is not above a fraction. -/
def binaryOrder (n d : Nat) : Int :=
  let order : Int := n.log2 - d.log2
  let (p, q) := powerFraction 2 order
  if d * p ≤ n * q then order else order - 1

/-- The double nearest to a fraction. -/
def nearest (n d : Nat) : Double :=
  if n = 0 then zero
  else
    let exponent := max (binaryOrder n d - (precision - 1 : Nat)) leastExponent
    let (p, q) := powerFraction 2 exponent
    let significand := roundDiv (n * q) (d * p)
    if significand = Nat.pow 2 precision then ⟨Nat.pow 2 (precision - 1), exponent + 1⟩
    else ⟨significand, exponent⟩

def ofNat (n : Nat) : Double := nearest n 1

def mul (x y : Double) : Double :=
  nearest (x.fraction.1 * y.fraction.1) (x.fraction.2 * y.fraction.2)

def div (x y : Double) : Double :=
  nearest (x.fraction.1 * y.fraction.2) (x.fraction.2 * y.fraction.1)

end Double

end SealedStream.Text
