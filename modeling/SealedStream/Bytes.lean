/-!
# Byte strings

Byte strings, the numbers they spell in either order, and their cutting into
blocks. Every cipher and every file of the library works on `Bytes`.
-/

namespace SealedStream

abbrev Bytes := List UInt8

namespace Bytes

/-- The number whose base-256 digits, lowest first, are the bytes. -/
def toNatLE : Bytes → Nat
  | [] => 0
  | b :: rest => b.toNat + 256 * toNatLE rest

/-- The lowest `length` base-256 digits of a number, lowest first. -/
def ofNatLE : (length : Nat) → Nat → Bytes
  | 0, _ => []
  | n + 1, x => UInt8.ofNat x :: ofNatLE n (x / 256)

/-- The number whose base-256 digits, highest first, are the bytes. -/
def toNatBE (bytes : Bytes) : Nat := toNatLE bytes.reverse

/-- The lowest `length` base-256 digits of a number, highest first. -/
def ofNatBE (length value : Nat) : Bytes := (ofNatLE length value).reverse

theorem length_ofNatLE (n x : Nat) : (ofNatLE n x).length = n := by
  induction n generalizing x with
  | zero => rfl
  | succ n ih => simp [ofNatLE, ih]

theorem length_ofNatBE (n x : Nat) : (ofNatBE n x).length = n := by
  simp [ofNatBE, length_ofNatLE]

/-- Byte by byte exclusive or, as long as the shorter of the two. -/
def xor (left right : Bytes) : Bytes := List.zipWith (· ^^^ ·) left right

/-- Exclusive or with the same key stream twice gives the text back. -/
theorem xor_xor (text stream : Bytes) (h : text.length ≤ stream.length) :
    xor (xor text stream) stream = text := by
  induction text generalizing stream with
  | nil => rfl
  | cons a text ih =>
    cases stream with
    | nil => simp at h
    | cons b stream =>
      have hb : a ^^^ b ^^^ b = a := by
        rw [UInt8.xor_assoc, UInt8.xor_self, UInt8.xor_zero]
      have ht := ih stream (by simpa using h)
      simp only [xor] at ht
      simp [xor, hb, ht]

theorem length_xor (left right : Bytes) :
    (xor left right).length = min left.length right.length := by
  simp [xor]

/-- The first `count` pieces of `size` bytes each. -/
def pieces (size : Nat) : (count : Nat) → Bytes → List Bytes
  | 0, _ => []
  | n + 1, bytes => bytes.take size :: pieces size n (bytes.drop size)

/-- All of a byte string in blocks of `size` bytes, the last one possibly shorter. -/
def blocks (size : Nat) (bytes : Bytes) : List Bytes :=
  pieces size ((bytes.length + (size - 1)) / size) bytes

/-- The UTF-8 form of a text. -/
def ofString (text : String) : Bytes := text.toUTF8.data.toList

/-- The text whose UTF-8 form the bytes are, if they are one. -/
def toString? (bytes : Bytes) : Option String := String.fromUTF8? ⟨bytes.toArray⟩

theorem toString?_ofString (text : String) : toString? (ofString text) = some text := by
  have h : (⟨text.toUTF8.data.toList.toArray⟩ : ByteArray) = text.toByteArray := by
    simp [String.toUTF8_eq_toByteArray]
  unfold toString? ofString
  rw [h]
  simp only [String.fromUTF8?]
  split
  · rfl
  · next hv => exact absurd (by simpa using text.isValidUTF8) hv

end Bytes

end SealedStream
