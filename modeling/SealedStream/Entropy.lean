import SealedStream.Bytes

/-!
# The entropy of the operating system

An endless byte stream of which every request takes the next bytes and none is
taken twice: a request is a segment of the stream, and segments of successive
requests lie one behind the other.
-/

namespace SealedStream

structure Entropy where
  byte : Nat → UInt8
  /-- How many bytes have been taken. -/
  position : Nat := 0

namespace Entropy

/-- The bytes of the stream from `start` on. -/
def segment (e : Entropy) (start length : Nat) : Bytes :=
  (List.range length).map fun i => e.byte (start + i)

/-- The next bytes and the stream after them. -/
def draw (e : Entropy) (length : Nat) : Bytes × Entropy :=
  (e.segment e.position length, { e with position := e.position + length })

theorem length_draw (e : Entropy) (n : Nat) : (e.draw n).1.length = n := by
  simp [draw, segment]

/-- The mixing function of the SplitMix64 generator. -/
def mix (state : UInt64) : UInt64 :=
  let z := (state ^^^ (state >>> 30)) * 0xbf58476d1ce4e5b9
  let z := (z ^^^ (z >>> 27)) * 0x94d049bb133111eb
  z ^^^ (z >>> 31)

/-- The word of a SplitMix64 sequence at an index: its state moves by a fixed odd step. -/
def splitMixWord (seed : UInt64) (index : Nat) : UInt64 :=
  mix (seed + UInt64.ofNat (index + 1) * 0x9e3779b97f4a7c15)

/-- The stream that a seed determines: words in order, each lowest byte first. -/
def ofSeed (seed : UInt64) : Entropy where
  byte i := (splitMixWord seed (i / 8) >>> UInt64.ofNat (8 * (i % 8))).toUInt8

end Entropy

end SealedStream
