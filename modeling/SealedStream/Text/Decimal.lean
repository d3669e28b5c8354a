/-!
# Decimal numerals

Natural numbers in ASCII digits, and the reading of an unsigned number with an
optional plus sign and a bound.
-/

namespace SealedStream.Text.Decimal

def digitValue? (c : Char) : Option Nat :=
  if '0' ≤ c ∧ c ≤ '9' then some (c.toNat - '0'.toNat) else none

/-- The value of a string of digits; none if it is empty or holds anything else. -/
def ofDigits? (digits : List Char) : Option Nat :=
  if digits.isEmpty then none
  else digits.foldlM (fun value c => (digitValue? c).map (10 * value + ·)) 0

/-- An unsigned number below a bound: digits, with one plus sign allowed in front. -/
def unsignedBelow? (bound : Nat) (text : String) : Option Nat :=
  let digits := match text.toList with
    | '+' :: rest => rest
    | all => all
  (ofDigits? digits).filter (· < bound)

/-- A signed number: digits, with one sign allowed in front. -/
def signed? (text : String) : Option Int :=
  match text.toList with
  | '-' :: rest => (ofDigits? rest).map fun n => -(n : Int)
  | '+' :: rest => (ofDigits? rest).map Int.ofNat
  | all => (ofDigits? all).map Int.ofNat

end SealedStream.Text.Decimal
