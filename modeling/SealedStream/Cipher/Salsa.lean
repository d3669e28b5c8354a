import SealedStream.Cipher.Words

/-!
# The Salsa20 key stream and its extension to long nonces

`core` mixes a state with twenty rounds. `stream` is the key stream of a
32-byte key and an 8-byte nonce, `derive` a new key from a key and sixteen
bytes, and `longStream` the key stream of a 24-byte nonce: its first sixteen
bytes derive the key, the other eight are the nonce.
-/

namespace SealedStream.Cipher.Salsa

def quarterRound (a b c d : Nat) (s : State) : State :=
  let vb := s.word b ^^^ rotate (s.word a + s.word d) 7
  let vc := s.word c ^^^ rotate (vb + s.word a) 9
  let vd := s.word d ^^^ rotate (vc + vb) 13
  let va := s.word a ^^^ rotate (vd + vc) 18
  (((s.withWord a va).withWord b vb).withWord c vc).withWord d vd

def columnRound (s : State) : State :=
  quarterRound 15 3 7 11 (quarterRound 10 14 2 6 (quarterRound 5 9 13 1 (quarterRound 0 4 8 12 s)))

def rowRound (s : State) : State :=
  quarterRound 15 12 13 14 (quarterRound 10 11 8 9 (quarterRound 5 6 7 4 (quarterRound 0 1 2 3 s)))

def core (s : State) : State := State.iterate (fun t => rowRound (columnRound t)) 10 s

/-- The constants stand on the diagonal, the key around the sixteen bytes of input. -/
def start (key input : Bytes) : State :=
  let k := wordsLE key
  let n := wordsLE input
  .ofList (sigma.take 1 ++ k.take 4 ++ (sigma.drop 1).take 1 ++ n ++
    (sigma.drop 2).take 1 ++ k.drop 4 ++ sigma.drop 3)

def block (key nonce : Bytes) (counter : Nat) : Bytes :=
  let s := start key (nonce ++ Bytes.ofNatLE 8 counter)
  bytesLE (s.add (core s)).toList

/-- The first `count` blocks of the stream. -/
def stream (key nonce : Bytes) (count : Nat) : Bytes :=
  (List.range count).flatMap fun i => block key nonce i

/-- A new key: the diagonal and the input words after the rounds, with nothing added back. -/
def derive (key input : Bytes) : Bytes :=
  let s := core (start key input)
  bytesLE ([0, 5, 10, 15, 6, 7, 8, 9].map s.word)

def longStream (key nonce : Bytes) (count : Nat) : Bytes :=
  stream (derive key (nonce.take 16)) (nonce.drop 16) count

end SealedStream.Cipher.Salsa
