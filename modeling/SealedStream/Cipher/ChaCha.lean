import SealedStream.Cipher.Words

/-!
# The ChaCha key stream with twelve rounds

A 32-byte key, a 64-bit block counter and an all-zero 64-bit nonce. The stream
is addressed by word, so any part of it can be computed by itself.
-/

namespace SealedStream.Cipher.ChaCha

def quarterRound (a b c d : Nat) (s : State) : State :=
  let va := s.word a + s.word b
  let vd := rotate (s.word d ^^^ va) 16
  let vc := s.word c + vd
  let vb := rotate (s.word b ^^^ vc) 12
  let va := va + vb
  let vd := rotate (vd ^^^ va) 8
  let vc := vc + vd
  let vb := rotate (vb ^^^ vc) 7
  (((s.withWord a va).withWord b vb).withWord c vc).withWord d vd

def columnRound (s : State) : State :=
  quarterRound 3 7 11 15 (quarterRound 2 6 10 14 (quarterRound 1 5 9 13 (quarterRound 0 4 8 12 s)))

def diagonalRound (s : State) : State :=
  quarterRound 3 4 9 14 (quarterRound 2 7 8 13 (quarterRound 1 6 11 12 (quarterRound 0 5 10 15 s)))

def start (key : Bytes) (counter : Nat) : State :=
  .ofList (sigma ++ wordsLE key ++ wordsLE (Bytes.ofNatLE 8 counter) ++ [0, 0])

/-- One block of the stream: sixteen words. -/
def block (key : Bytes) (counter : Nat) : State :=
  let s := start key counter
  s.add (State.iterate (fun t => diagonalRound (columnRound t)) 6 s)

/-- The `count` words of the stream from word `position` on. -/
def words (key : Bytes) (position count : Nat) : List UInt32 :=
  let first := position / 16
  let blockCount := (position % 16 + count + 15) / 16
  (((List.range blockCount).flatMap fun i => (block key (first + i)).toList).drop
    (position % 16)).take count

end SealedStream.Cipher.ChaCha
