import SealedStream.Cipher.Aes

/-!
# Galois counter mode

Authenticated encipherment of a byte string with a 12-byte nonce and no
associated data, over any cipher of 16-byte blocks. The text is xored with a
key stream of enciphered counter blocks; the tag is a polynomial in the hash
key, masked with the enciphered first counter block. `opened` inverts `sealed`
and accepts nothing else.
-/

namespace SealedStream.Cipher.Gcm

open Aes (Block)

abbrev BlockCipher := Block → Block

def tagSize : Nat := 16

def blockOf (bytes : Bytes) : Block := .ofFn fun i => bytes.getD i.val 0

/-- The nonce followed by a 32-bit counter, which wraps. -/
def counterBlock (nonce : Bytes) (counter : Nat) : Block :=
  blockOf (nonce ++ Bytes.ofNatBE 4 counter)

/-- Enciphered counter blocks. The first counter masks the tag, so the stream starts at two. -/
def keyStream (cipher : BlockCipher) (nonce : Bytes) (count : Nat) : Bytes :=
  (List.range count).flatMap fun i => (cipher (counterBlock nonce (i + 2))).toList

/-- Counter mode: the same map enciphers and deciphers. -/
def crypt (cipher : BlockCipher) (nonce text : Bytes) : Bytes :=
  Bytes.xor text (keyStream cipher nonce ((text.length + 15) / 16))

/-- One step of the field product: add the shifted factor where the bit is set, then shift it. -/
def productStep (x : Nat) (acc : Nat × Nat) (i : Nat) : Nat × Nat :=
  (if x.testBit (127 - i) then acc.1 ^^^ acc.2 else acc.1,
   if acc.2.testBit 0 then (acc.2 >>> 1) ^^^ (0xe1 <<< 120) else acc.2 >>> 1)

/-- The product of two blocks in the field of 2 ^ 128 elements, highest bit first. -/
def product (x y : Nat) : Nat :=
  ((List.range 128).foldl (productStep x) (0, y)).1

/-- A short block is filled up with zeros on the right. -/
def padded (block : Bytes) : Nat :=
  Bytes.toNatBE block * Nat.pow 256 (16 - block.length)

/-- What the tag depends on: the padded text and one block with its length in bits. -/
def hashInput (text : Bytes) : List Nat :=
  (Bytes.blocks 16 text).map padded ++ [8 * text.length % UInt64.size]

/-- The polynomial with the given coefficients, at the hash key. -/
def hash (key : Nat) (coefficients : List Nat) : Nat :=
  coefficients.foldl (fun acc c => product (acc ^^^ c) key) 0

def hashKey (cipher : BlockCipher) : Nat :=
  Bytes.toNatBE (cipher (blockOf [])).toList

def tag (cipher : BlockCipher) (nonce ciphertext : Bytes) : Bytes :=
  Bytes.xor (Bytes.ofNatBE tagSize (hash (hashKey cipher) (hashInput ciphertext)))
    (cipher (counterBlock nonce 1)).toList

/-- The enciphered text followed by its tag. -/
def sealed (cipher : BlockCipher) (nonce text : Bytes) : Bytes :=
  let ciphertext := crypt cipher nonce text
  ciphertext ++ tag cipher nonce ciphertext

/-- The text under a sealed byte string, unless it is too short or the tag does not match. -/
def opened (cipher : BlockCipher) (nonce input : Bytes) : Option Bytes :=
  let ciphertext := input.take (input.length - tagSize)
  if tagSize ≤ input.length ∧ input.drop (input.length - tagSize) = tag cipher nonce ciphertext then
    some (crypt cipher nonce ciphertext)
  else none

end SealedStream.Cipher.Gcm
