import SealedStream.Cipher.Gcm
import SealedStream.SealError
import SealedStream.Stream.Header
import SealedStream.Tier
import SealedStream.Vault.Key

/-!
# The cipher of a stream

A whole text is sealed at once under the content key and an initialisation
vector, with a tag of sixteen bytes behind the ciphertext, and opened again
only if the tag is right.
-/

namespace SealedStream

/-- What the reader of a stream knows of its cipher beside the key. -/
inductive CipherParams where
  | tagged (tagBits : Nat) (iv : Bytes)
  /-- The tag has the cipher's own length. -/
  | bare (iv : Bytes)
  deriving DecidableEq, Repr

namespace CipherParams

def vector : CipherParams → Bytes
  | tagged _ iv => iv
  | bare iv => iv

def tagBits : CipherParams → Nat
  | tagged bits _ => bits
  | bare _ => Cipher.Gcm.tagSize * 8

end CipherParams

/-- The parameters that go with a key of a tier. -/
def Tier.cipherParams (tier : Tier) (iv : Bytes) : CipherParams :=
  match tier with
  | .modernDirect => .tagged (Cipher.Gcm.tagSize * 8) iv
  | _ => .bare iv

/-- The ciphers there are. -/
inductive CipherSuite where
  | aes128
  | aes256
  deriving DecidableEq, Repr

/-- The cipher that takes keys of so many bytes. -/
def CipherSuite.forKeyLength (length : Nat) : Except SealError CipherSuite :=
  if length = KeySize.bits128.bytes then .ok .aes128
  else if length = KeySize.bits256.bytes then .ok .aes256
  else .error (.invalidKeySize length)

namespace SymmetricKey

def suite (key : SymmetricKey) : Except SealError CipherSuite :=
  CipherSuite.forKeyLength key.bytes.length

/-- There is a cipher for every key. -/
theorem suite_ok (key : SymmetricKey) : ∃ suite, key.suite = .ok suite := by
  obtain h | h := key.length_bytes
  · exact ⟨.aes128, by rw [suite, h]; rfl⟩
  · exact ⟨.aes256, by rw [suite, h]; rfl⟩

/-- The longest text that the cipher takes, in bytes. -/
def longestText : Nat := Nat.pow 2 36

/-- The ciphertext of a text and its tag. -/
def sealText (key : SymmetricKey) (iv text : Bytes) : Except SealDefect Bytes :=
  if text.length ≤ longestText then
    .ok (Cipher.Gcm.sealed (Cipher.Aes.encipherWith (Cipher.Aes.schedule key.bytes)) iv text)
  else .error .tooLong

/-- The text of a ciphertext with its tag. -/
def openText (key : SymmetricKey) (params : CipherParams) (bytes : Bytes) :
    Except SealError Bytes :=
  if params.tagBits ≠ Cipher.Gcm.tagSize * 8 then .error (.invalidConfig (.tagLength params.tagBits))
  else if bytes.length < Cipher.Gcm.tagSize then .error (.decryptionFailed .tooShort)
  else if longestText + Cipher.Gcm.tagSize < bytes.length - Cipher.Gcm.tagSize then
    .error (.decryptionFailed .notAuthentic)
  else
    match Cipher.Gcm.opened (Cipher.Aes.encipherWith (Cipher.Aes.schedule key.bytes))
        params.vector bytes with
    | some text => .ok text
    | none => .error (.decryptionFailed .notAuthentic)

/-- The cipher of a key in diagnostics. -/
def cipherText (key : SymmetricKey) : String :=
  Text.recordText "GcmCipher"
    [("cipher", Text.quoted (if key.bytes.length = 16 then "Aes128Gcm" else "Aes256Gcm"))]

end SymmetricKey

end SealedStream
