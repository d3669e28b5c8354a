import SealedStream.Cipher.ChaCha
import SealedStream.Entropy

/-!
# The process's own source of random bytes

A key stream started from 32 bytes of entropy. It serves nonces and the key
material that no vault supplies. Each request uses whole words: what is left
of its last word is never served.
-/

namespace SealedStream

structure RandomSource where
  seed : Bytes
  /-- How many words have been used. -/
  position : Nat := 0

namespace RandomSource

def seedSize : Nat := 32

/-- A source seeded with the next bytes of the operating system's entropy. -/
def create (entropy : Entropy) : RandomSource × Entropy :=
  let (seed, entropy) := entropy.draw seedSize
  ({ seed }, entropy)

def wordsFor (length : Nat) : Nat := (length + 3) / 4

/-- The next `length` bytes and the source after them. -/
def bytes (r : RandomSource) (length : Nat) : Bytes × RandomSource :=
  ((Cipher.bytesLE (Cipher.ChaCha.words r.seed r.position (wordsFor length))).take length,
   { r with position := r.position + wordsFor length })

/-- The text shown for a source in diagnostics, which tells nothing about it. -/
def debugText : String := "RandomSource \x7b .. \x7d"

end RandomSource

end SealedStream
