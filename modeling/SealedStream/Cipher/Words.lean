import SealedStream.Bytes

/-!
# States of sixteen 32-bit words

What the ciphers built from addition, rotation and exclusive or share: a state
of sixteen words, one step of a quarter round, and words to and from bytes.
-/

namespace SealedStream.Cipher

abbrev State := Vector UInt32 16

def rotate (w : UInt32) (n : UInt32) : UInt32 := (w <<< n) ||| (w >>> (32 - n))

def wordLE (bytes : Bytes) : UInt32 := UInt32.ofNat (Bytes.toNatLE bytes)

/-- The little-endian words of a byte string. -/
def wordsLE (bytes : Bytes) : List UInt32 := (Bytes.blocks 4 bytes).map wordLE

def bytesLE (words : List UInt32) : Bytes := words.flatMap fun w => Bytes.ofNatLE 4 w.toNat

/-- The words `expand 32-byte k` in ASCII. -/
def sigma : List UInt32 := [0x61707865, 0x3320646e, 0x79622d32, 0x6b206574]

def State.ofList (words : List UInt32) : State := .ofFn fun i => words.getD i.val 0

/-- The word at an index below sixteen. -/
def State.word (s : State) (i : Nat) : UInt32 := s.getD i 0

def State.withWord (s : State) (i : Nat) (w : UInt32) : State := s.setIfInBounds i w

/-- The sum of two states, word by word. -/
def State.add (s t : State) : State := s.zipWith (· + ·) t

/-- The `n`-fold repetition of a round. -/
def State.iterate (round : State → State) : Nat → State → State
  | 0, s => s
  | n + 1, s => State.iterate round n (round s)

end SealedStream.Cipher
