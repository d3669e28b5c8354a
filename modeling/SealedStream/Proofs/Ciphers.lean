import SealedStream.Proofs.Curve.Agreement
import SealedStream.ContentCipher
import SealedStream.Vault

/-!
# What is sealed opens, and nothing else does

Both ciphers xor a text with a key stream that is long enough for it, so that
twice is the identity. A byte string opens to a text exactly when it is the
sealed form of that text. A wrapped key opens with the secret whose public key
it was wrapped for.
-/

namespace SealedStream

namespace Cipher

theorem length_bytesLE (words : List UInt32) : (bytesLE words).length = 4 * words.length := by
  induction words with
  | nil => rfl
  | cons w words ih =>
    simp only [bytesLE, List.flatMap_cons, List.length_append, Bytes.length_ofNatLE,
      List.length_cons] at ih ⊢
    omega

/-- A stream of blocks of one length. -/
theorem length_flatMap_range {size : Nat} {block : Nat → Bytes}
    (h : ∀ i, (block i).length = size) (count : Nat) :
    ((List.range count).flatMap block).length = size * count := by
  induction count with
  | zero => rfl
  | succ count ih => simp [List.range_succ, ih, h, Nat.mul_succ]

namespace Gcm

variable (cipher : BlockCipher) (nonce text : Bytes)

theorem length_keyStream (count : Nat) : (keyStream cipher nonce count).length = 16 * count :=
  length_flatMap_range (fun _ => by simp) count

theorem length_crypt : (crypt cipher nonce text).length = text.length := by
  rw [crypt, Bytes.length_xor, length_keyStream]
  omega

theorem crypt_crypt : crypt cipher nonce (crypt cipher nonce text) = text := by
  rw [crypt, length_crypt]
  refine Bytes.xor_xor text _ ?_
  rw [length_keyStream]
  omega

theorem length_tag : (tag cipher nonce text).length = tagSize := by
  simp [tag, Bytes.length_xor, Bytes.length_ofNatBE, tagSize]

theorem length_sealed : (sealed cipher nonce text).length = text.length + tagSize := by
  simp [sealed, length_crypt, length_tag]

theorem opened_sealed : opened cipher nonce (sealed cipher nonce text) = some text := by
  have htag := length_tag cipher nonce (crypt cipher nonce text)
  have hsize : (sealed cipher nonce text).length - tagSize = (crypt cipher nonce text).length := by
    rw [length_sealed, length_crypt, Nat.add_sub_cancel]
  have htake : (sealed cipher nonce text).take ((sealed cipher nonce text).length - tagSize) =
      crypt cipher nonce text := by
    rw [hsize, sealed, List.take_left]
  have hdrop : (sealed cipher nonce text).drop ((sealed cipher nonce text).length - tagSize) =
      tag cipher nonce (crypt cipher nonce text) := by
    rw [hsize, sealed, List.drop_left]
  rw [opened, htake, hdrop, length_sealed, crypt_crypt]
  simp

variable {cipher nonce text}

theorem opened_eq_some_iff {input : Bytes} :
    opened cipher nonce input = some text ↔ input = sealed cipher nonce text := by
  constructor
  · intro h
    simp only [opened] at h
    split at h
    · next hin =>
      obtain rfl := Option.some.inj h
      rw [sealed, crypt_crypt, ← hin.2, List.take_append_drop]
    · cases h
  · rintro rfl
    exact opened_sealed cipher nonce text

end Gcm

theorem Salsa.length_stream (key nonce : Bytes) (count : Nat) :
    (stream key nonce count).length = 64 * count :=
  length_flatMap_range (fun _ => by simp [block, length_bytesLE]) count

namespace Box

variable (key nonce message : Bytes)

theorem length_keyStream (length : Nat) :
    (keyStream key nonce length).length = 64 * ((32 + length + 63) / 64) := by
  rw [keyStream, Salsa.longStream, Salsa.length_stream]

theorem length_crypt : (crypt key nonce message).length = message.length := by
  rw [crypt, Bytes.length_xor, List.length_drop, length_keyStream]
  omega

theorem crypt_crypt : crypt key nonce (crypt key nonce message) = message := by
  rw [crypt, length_crypt]
  refine Bytes.xor_xor message _ ?_
  rw [List.length_drop, length_keyStream]
  omega

theorem length_tag : (tag key nonce message).length = tagSize := by
  simp [tag, Poly1305.tag, Bytes.length_ofNatLE, tagSize]

theorem length_sealed : (sealed key nonce message).length = tagSize + message.length := by
  simp [sealed, length_crypt, length_tag]

theorem opened_sealed : opened key nonce (sealed key nonce message) = some message := by
  have htag := length_tag key nonce (crypt key nonce message)
  have htake : (sealed key nonce message).take tagSize =
      tag key nonce (crypt key nonce message) := by
    rw [sealed, ← htag, List.take_left]
  have hdrop : (sealed key nonce message).drop tagSize = crypt key nonce message := by
    rw [sealed, ← htag, List.drop_left]
  rw [opened, htake, hdrop, length_sealed, crypt_crypt]
  simp

variable {key nonce message}

theorem opened_eq_some_iff {box : Bytes} :
    opened key nonce box = some message ↔ box = sealed key nonce message := by
  constructor
  · intro h
    simp only [opened] at h
    split at h
    · next hin =>
      obtain rfl := Option.some.inj h
      rw [sealed, crypt_crypt, ← hin.2, List.take_append_drop]
    · cases h
  · rintro rfl
    exact opened_sealed key nonce message

end Box

theorem X25519.length_publicKey (secret : Bytes) : (publicKey secret).length = 32 :=
  Bytes.length_ofNatLE ..

/-- What a secret agrees on with another's public key is what the other agrees on with its own. -/
theorem Box.agreedKey_publicKey (secret other : Bytes) :
    agreedKey secret (X25519.publicKey other) = agreedKey other (X25519.publicKey secret) := by
  rw [agreedKey, agreedKey, X25519.shared_publicKey]

end Cipher

namespace Vault

variable {ephemeral secret : SecretKey} {nonce : Bytes} {key : SymmetricKey}

theorem Wrapped.ofBytes?_bytes {w : Wrapped} (he : w.ephemeral.length = Cipher.Box.publicKeySize)
    (hn : w.nonce.length = Cipher.Box.nonceSize) (hb : Cipher.Box.tagSize ≤ w.box.length) :
    ofBytes? w.bytes = some w := by
  have hsize : ¬ w.bytes.length < leastSize := by
    simp only [bytes, leastSize, List.length_append, he, hn]
    omega
  rw [ofBytes?, if_neg hsize]
  simp [bytes, ← he, ← hn]

theorem length_wrapped (hn : nonce.length = Cipher.Box.nonceSize) (recipient : Bytes) :
    (wrapped ephemeral nonce recipient key).bytes.length =
      Wrapped.leastSize + key.bytes.length := by
  simp only [Wrapped.bytes, wrapped, SecretKey.publicKey, List.length_append,
    Cipher.X25519.length_publicKey, hn, Cipher.Box.length_sealed, Wrapped.leastSize,
    Cipher.Box.publicKeySize]
  omega

/-- A key wrapped for a public key opens with its secret. -/
theorem unwrapped_wrapped (hn : nonce.length = Cipher.Box.nonceSize) :
    unwrapped secret (wrapped ephemeral nonce secret.publicKey key).bytes = .ok key := by
  have hparts := Wrapped.ofBytes?_bytes (w := wrapped ephemeral nonce secret.publicKey key)
    (Cipher.X25519.length_publicKey _) hn (by simp [wrapped, Cipher.Box.length_sealed])
  have hopen : Cipher.Box.opened
      (Cipher.Box.agreedKey secret.bytes (wrapped ephemeral nonce secret.publicKey key).ephemeral)
      nonce (wrapped ephemeral nonce secret.publicKey key).box = some key.bytes := by
    simp only [wrapped, SecretKey.publicKey]
    rw [Cipher.Box.agreedKey_publicKey, Cipher.Box.opened_sealed]
  rw [unwrapped, hparts]
  simp only
  rw [show (wrapped ephemeral nonce secret.publicKey key).nonce = nonce from rfl, hopen]
  simp only
  rw [SymmetricKey.ofBytes_bytes]
  rfl

end Vault

end SealedStream
