import SealedStream.Bytes

/-!
# Key agreement on the curve `y² = x³ + 486662 x² + x` modulo `2 ^ 255 - 19`

Points are known by their `x` coordinate alone, as a fraction `X / Z`.
`multiply` climbs the bits of a scalar with a pair of points that always
differ by the base point. Secrets count modulo the order of the group that the
point with coordinate nine generates. Every multiple inside that group is the
same either way; for a coordinate outside it, the reduced scalar decides.
-/

namespace SealedStream.Cipher.X25519

def modulus : Nat := Nat.pow 2 255 - 19

def add (a b : Nat) : Nat := (a + b) % modulus

def sub (a b : Nat) : Nat := (a + (modulus - b % modulus)) % modulus

def mul (a b : Nat) : Nat := a * b % modulus

/-- The lowest `count` bits of a number, highest first. -/
def bitsOf (count value : Nat) : List Bool :=
  (List.range count).reverse.map value.testBit

/-- A power by repeated squaring over the bits of the exponent. -/
def power (base exponent : Nat) : Nat :=
  (bitsOf 255 exponent).foldl
    (fun acc bit => if bit then mul (mul acc acc) base else mul acc acc) 1

/-- The inverse by Fermat's little theorem; zero has inverse zero. -/
def inverse (a : Nat) : Nat := power a (modulus - 2)

/-- A fraction `x / z` for an `x` coordinate; `z = 0` is the point at infinity. -/
structure Fraction where
  x : Nat
  z : Nat

def Fraction.value (p : Fraction) : Nat := mul p.x (inverse p.z)

/-- The coordinate of a point's double. -/
def Fraction.double (p : Fraction) : Fraction :=
  let sum := mul (add p.x p.z) (add p.x p.z)
  let difference := mul (sub p.x p.z) (sub p.x p.z)
  let e := sub sum difference
  { x := mul sum difference, z := mul e (add sum (mul 121665 e)) }

/-- The coordinate of the sum of two points whose difference has coordinate `base`. -/
def Fraction.addDifferent (base : Nat) (p q : Fraction) : Fraction :=
  let da := mul (sub q.x q.z) (add p.x p.z)
  let cb := mul (add q.x q.z) (sub p.x p.z)
  { x := mul (add da cb) (add da cb)
    z := mul base (mul (sub da cb) (sub da cb)) }

/-- One more bit: from `n` and `n + 1` times the base to `2n` and `2n + 1`, or one more. -/
def climb (base : Nat) (pair : Fraction × Fraction) (bit : Bool) : Fraction × Fraction :=
  let sum := Fraction.addDifferent base pair.1 pair.2
  if bit then (sum, pair.2.double) else (pair.1.double, sum)

/-- The coordinate of a multiple of the point with the given coordinate. -/
def multiply (scalar base : Nat) : Nat :=
  ((bitsOf 255 scalar).foldl (climb base) (⟨1, 0⟩, ⟨base, 1⟩)).1.value

/-- The prime order of the group that the point with coordinate nine generates. -/
def groupOrder : Nat := Nat.pow 2 252 + 27742317777372353535851937790883648493

/-- The number that a secret spells with three low bits cleared, bit 254 set, bit 255 cleared. -/
def clamped (secret : Bytes) : Nat :=
  let low := Bytes.toNatLE secret % Nat.pow 2 254
  Nat.pow 2 254 + (low - low % 8)

/-- The scalar of a secret. -/
def scalarOf (secret : Bytes) : Nat := clamped secret % groupOrder

/-- The coordinate in a public key; its highest bit is ignored. -/
def coordinateOf (peer : Bytes) : Nat := Bytes.toNatLE peer % Nat.pow 2 255 % modulus

/-- The secret both sides share. -/
def shared (secret peer : Bytes) : Bytes :=
  Bytes.ofNatLE 32 (multiply (scalarOf secret) (coordinateOf peer))

/-- The public key of a secret: its multiple of the point with coordinate nine. -/
def publicKey (secret : Bytes) : Bytes :=
  Bytes.ofNatLE 32 (multiply (scalarOf secret) 9)

end SealedStream.Cipher.X25519
