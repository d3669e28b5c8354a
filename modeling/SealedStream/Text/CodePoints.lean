/-!
# Sets of code points

A property of characters is given by the ranges of code points that have it, in
ascending order and with both ends included.
-/

namespace SealedStream.Text

abbrev CodePoints := List (Nat × Nat)

namespace CodePoints

def has (points : CodePoints) (c : Char) : Bool :=
  points.any fun range => range.1 ≤ c.toNat ∧ c.toNat ≤ range.2

/-- The ranges ascend and leave something out between them, so that no set has two forms. -/
def isOrdered : CodePoints → Bool
  | [] => true
  | [range] => range.1 ≤ range.2
  | range :: next :: rest => range.1 ≤ range.2 && range.2 + 1 < next.1 && isOrdered (next :: rest)

/-- How many code points there are in all. -/
def size : CodePoints → Nat
  | [] => 0
  | range :: rest => range.2 + 1 - range.1 + size rest

end CodePoints

end SealedStream.Text
