import SealedStream.Cipher.X25519
import SealedStream.Entropy
import SealedStream.Text.Quoted
import SealedStream.Time

/-!
# Keys and what is asked of a key pair
-/

namespace SealedStream

inductive KeySize where
  | bits128
  | bits256
  deriving DecidableEq, Repr

namespace KeySize

def bytes : KeySize → Nat
  | bits128 => 16
  | bits256 => 32

def ofBits? (bits : Nat) : Option KeySize :=
  if bits = 128 then some bits128 else if bits = 256 then some bits256 else none

end KeySize

structure SymmetricKey where
  bytes : Bytes
  length_bytes : bytes.length = 16 ∨ bytes.length = 32
  deriving DecidableEq

namespace SymmetricKey

/-- The key that the bytes are, or their length if no key has it. -/
def ofBytes (bytes : Bytes) : Except Nat SymmetricKey :=
  if h : bytes.length = 16 ∨ bytes.length = 32 then .ok ⟨bytes, h⟩ else .error bytes.length

theorem ofBytes_bytes (key : SymmetricKey) : ofBytes key.bytes = .ok key := by
  simp [ofBytes, key.length_bytes]

theorem bytes_of_ofBytes {bytes : Bytes} {key : SymmetricKey} (h : ofBytes bytes = .ok key) :
    key.bytes = bytes := by
  unfold ofBytes at h
  split at h
  · cases h
    rfl
  · cases h

/-- A key of the next bytes of entropy. -/
def draw (size : KeySize) (entropy : Entropy) : SymmetricKey × Entropy :=
  (⟨(entropy.draw size.bytes).1, by rw [Entropy.length_draw]; cases size <;> simp [KeySize.bytes]⟩,
   (entropy.draw size.bytes).2)

def sizeBits (key : SymmetricKey) : Nat := key.bytes.length * 8

/-- The text shown for a key in diagnostics, which tells its size alone. -/
def debugText (key : SymmetricKey) : String :=
  Text.recordText "SymmetricKey"
    [("bits", s!"{key.sizeBits}"), ("bytes", Text.quoted "[REDACTED]")]

end SymmetricKey

/-- The private half of a key pair. -/
structure SecretKey where
  bytes : Bytes
  length_bytes : bytes.length = 32
  deriving DecidableEq

namespace SecretKey

def ofBytes? (bytes : Bytes) : Option SecretKey :=
  if h : bytes.length = 32 then some ⟨bytes, h⟩ else none

theorem ofBytes?_bytes (secret : SecretKey) : ofBytes? secret.bytes = some secret := by
  simp [ofBytes?, secret.length_bytes]

def draw (entropy : Entropy) : SecretKey × Entropy :=
  (⟨(entropy.draw 32).1, entropy.length_draw 32⟩, (entropy.draw 32).2)

def publicKey (secret : SecretKey) : Bytes := Cipher.X25519.publicKey secret.bytes

end SecretKey

/-- A key pair as it is asked for, or as it was. Both ends of the window belong to it. -/
structure KeyPairSpec where
  sizeBits : UInt32
  notBefore : Time
  notAfter : Time
  deriving DecidableEq

namespace KeyPairSpec

/-- Valid for a span from a point on, if the clock reaches its end. -/
def validFor? (sizeBits : UInt32) (start : Time) (validity : Duration) : Option KeyPairSpec :=
  (start.add? validity).map fun notAfter => { sizeBits, notBefore := start, notAfter }

def IsValidAt (spec : KeyPairSpec) (t : Time) : Prop := spec.notBefore ≤ t ∧ t ≤ spec.notAfter

instance (spec : KeyPairSpec) (t : Time) : Decidable (spec.IsValidAt t) :=
  inferInstanceAs (Decidable (_ ∧ _))

end KeyPairSpec

/-- The trust boundary around the keys of a vault. -/
inductive ProtectionLevel where
  | hardware
  | software
  deriving DecidableEq, Repr

def ProtectionLevel.name : ProtectionLevel → String
  | hardware => "Hardware"
  | software => "Software"

end SealedStream
