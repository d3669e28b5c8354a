import SealedStream.Cipher.Poly1305
import SealedStream.Cipher.Salsa
import SealedStream.Cipher.X25519

/-!
# Public-key boxes

A message sealed under the secret that a secret key and another party's public
key share. The tag of sixteen bytes comes first, then the enciphered message;
the first block of the key stream gives the authenticator's key.
-/

namespace SealedStream.Cipher.Box

def publicKeySize : Nat := 32
def nonceSize : Nat := 24
def tagSize : Nat := 16

/-- The symmetric key of a box between a secret and a public key. -/
def agreedKey (secret peer : Bytes) : Bytes :=
  Salsa.derive (X25519.shared secret peer) (List.replicate 16 0)

/-- The key stream for a message of `length` bytes: 32 bytes for the authenticator, then the rest. -/
def keyStream (key nonce : Bytes) (length : Nat) : Bytes :=
  Salsa.longStream key nonce ((32 + length + 63) / 64)

def crypt (key nonce message : Bytes) : Bytes :=
  Bytes.xor message ((keyStream key nonce message.length).drop 32)

def tag (key nonce ciphertext : Bytes) : Bytes :=
  Poly1305.tag ((keyStream key nonce ciphertext.length).take 32) ciphertext

def sealed (key nonce message : Bytes) : Bytes :=
  let ciphertext := crypt key nonce message
  tag key nonce ciphertext ++ ciphertext

/-- The message in a box, unless the box is too short or its tag does not match. -/
def opened (key nonce box : Bytes) : Option Bytes :=
  let ciphertext := box.drop tagSize
  if tagSize ≤ box.length ∧ box.take tagSize = tag key nonce ciphertext then
    some (crypt key nonce ciphertext)
  else none

end SealedStream.Cipher.Box
