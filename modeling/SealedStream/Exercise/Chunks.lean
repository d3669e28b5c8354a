import SealedStream.Bytes

/-!
# Cutting a text into chunks
-/

namespace SealedStream.Exercise

/-- The chunks of a text by sizes that are used in turn, from one of them on. -/
def chunksFrom (sizes : List Nat) (turn : Nat) (text : Bytes) : List Bytes :=
  if h : text = [] ∨ sizes = [] then []
  else
    let size := max 1 (sizes.getD (turn % sizes.length) 1)
    text.take size :: chunksFrom sizes (turn + 1) (text.drop size)
termination_by text.length
decreasing_by
  have := List.length_pos_iff.mpr (not_or.mp h).1
  simp only [List.length_drop]
  omega

/-- The chunks of a text by sizes that are used over and over; each holds a byte at least. -/
def chunks (sizes : List Nat) (text : Bytes) : List Bytes := chunksFrom sizes 0 text

end SealedStream.Exercise
