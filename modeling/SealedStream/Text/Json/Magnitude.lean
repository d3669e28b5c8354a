import SealedStream.Text.Double

/-!
# The magnitude of a number in a document

A number that is not whole stands for a double: its first digits, as many as 64
bits hold, times a power of ten, each factor rounded to a double before the
product is. Numbers whose product passes the largest double are refused.
-/

namespace SealedStream.Text.Json

/-- The value `significand * 10 ^ exponent`. -/
structure Scaled where
  significand : Nat
  exponent : Int
  deriving DecidableEq, Repr

namespace Scaled

/-- Digits behind a significand as long as it stays within 64 bits, and the digits left. -/
def absorb (significand : Nat) : List Nat → Nat × List Nat
  | [] => (significand, [])
  | digit :: rest =>
    if significand * 10 + digit < UInt64.size then absorb (significand * 10 + digit) rest
    else (significand, digit :: rest)

theorem absorb_lt {significand : Nat} (h : significand < UInt64.size) (digits : List Nat) :
    (absorb significand digits).1 < UInt64.size := by
  induction digits generalizing significand with
  | nil => exact h
  | cons digit rest ih =>
    unfold absorb
    split
    · next hd => exact ih hd
    · exact h

/--
The digits before and after the point. What is left of the digits before it
counts as zeros, what is left of those after it does not count.
-/
def ofDigits (whole decimals : List Nat) (exponent : Int) : Scaled :=
  let (significand, zeros) := absorb 0 whole
  let (significand, dropped) := absorb significand decimals
  { significand, exponent := exponent + zeros.length - (decimals.length - dropped.length : Nat) }

end Scaled

/-- The exponent of the largest power of ten that is a double. -/
def largestPower : Nat := 308

namespace Scaled

/-- How many divisions by the largest power of ten leave nothing of 64 bits. -/
def vanishing : Nat := 3

/-- A significand divided by a power of ten, which is taken in parts if it is no double itself. -/
def divided (significand power : Nat) : Double :=
  let parts := (power - 1) / largestPower
  if vanishing ≤ parts then .zero
  else
    let part := Double.ofNat (Nat.pow 10 largestPower)
    (Nat.repeat (·.div part) parts (Double.ofNat significand)).div
      (Double.ofNat (Nat.pow 10 (power - parts * largestPower)))

/-- The double that a number stands for, if there is one that large. -/
def toDouble? (x : Scaled) : Option Double :=
  if x.significand = 0 then some .zero
  else if x.exponent < 0 then some (divided x.significand x.exponent.natAbs)
  else if largestPower < x.exponent.natAbs then none
  else
    let product := (Double.ofNat x.significand).mul (Double.ofNat (Nat.pow 10 x.exponent.natAbs))
    if product.isFinite then some product else none

/-- A number whose exponent is negative is no larger than its significand. -/
theorem isSome_toDouble?_of_neg {x : Scaled} (h : x.exponent < 0) : x.toDouble?.isSome = true := by
  unfold toDouble?
  split
  · rfl
  · simp

end Scaled

end SealedStream.Text.Json
