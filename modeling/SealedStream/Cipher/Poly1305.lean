import SealedStream.Bytes

/-!
# The Poly1305 one-time authenticator

A 32-byte key gives the evaluation point (its first half, with some bits
cleared) and the mask (its second half). The tag is the message's polynomial
at that point modulo `2 ^ 130 - 5`, plus the mask, in sixteen bytes.
-/

namespace SealedStream.Cipher.Poly1305

def modulus : Nat := Nat.pow 2 130 - 5

/-- The bits an evaluation point may have. -/
def pointMask : Nat := 0x0ffffffc0ffffffc0ffffffc0fffffff

/-- A block as a number, with one more byte of value one on top. -/
def coefficient (block : Bytes) : Nat :=
  Bytes.toNatLE block + Nat.pow 256 block.length

def evaluate (point : Nat) (message : Bytes) : Nat :=
  (Bytes.blocks 16 message).foldl (fun acc b => (acc + coefficient b) * point % modulus) 0

def tag (key message : Bytes) : Bytes :=
  let point := Bytes.toNatLE (key.take 16) &&& pointMask
  Bytes.ofNatLE 16 (evaluate point message + Bytes.toNatLE (key.drop 16))

end SealedStream.Cipher.Poly1305
