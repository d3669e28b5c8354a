import SealedStream.Bytes

/-!
# The AES block cipher

Encipherment of one block under a 16- or 32-byte key. The substitution is
computed from inversion in the field of 256 elements; a state is kept in
column order, so that byte `4 * c + r` stands in row `r` of column `c`.
-/

namespace SealedStream.Cipher.Aes

abbrev Block := Vector UInt8 16

/-- Multiplication by the field's generator `x`, modulo `x^8 + x^4 + x^3 + x + 1`. -/
def double (b : UInt8) : UInt8 :=
  if b &&& 0x80 = 0 then b <<< 1 else (b <<< 1) ^^^ 0x1b

/-- The field product, by Horner's rule over the bits of the first factor. -/
def product (a b : UInt8) : UInt8 :=
  (List.range 8).foldr
    (fun i acc => double acc ^^^ (if a.toNat.testBit i then b else 0)) 0

/-- The field inverse, which is the 254th power; zero stays zero. -/
def inverse (a : UInt8) : UInt8 :=
  let a2 := product a a
  let a4 := product a2 a2
  let a8 := product a4 a4
  let a16 := product a8 a8
  let a32 := product a16 a16
  let a64 := product a32 a32
  let a128 := product a64 a64
  product a2 (product a4 (product a8 (product a16 (product a32 (product a64 a128)))))

def rotateByte (b : UInt8) (n : UInt8) : UInt8 := (b <<< n) ||| (b >>> (8 - n))

/-- Inversion followed by the fixed affine map. -/
def substitute (a : UInt8) : UInt8 :=
  let b := inverse a
  b ^^^ rotateByte b 1 ^^^ rotateByte b 2 ^^^ rotateByte b 3 ^^^ rotateByte b 4 ^^^ 0x63

def substitution : Vector UInt8 UInt8.size := .ofFn fun i => substitute (UInt8.ofFin i)

def substituted (b : UInt8) : UInt8 := substitution.get b.toFin

/-- Substitution of every byte, then rotation of row `r` by `r` places. -/
def substituteAndShift (s : Block) : Block :=
  .ofFn fun i => substituted (s.get ⟨5 * i.val % 16, Nat.mod_lt _ (by decide)⟩)

/-- Multiplication of every column by the fixed circulant matrix 2 3 1 1. -/
def mixColumns (s : Block) : Block :=
  .ofFn fun i =>
    let cell (r : Nat) : UInt8 := s.getD (4 * (i.val / 4) + (i.val + r) % 4) 0
    double (cell 0) ^^^ double (cell 1) ^^^ cell 1 ^^^ cell 2 ^^^ cell 3

def addKey (s k : Block) : Block := s.zipWith (· ^^^ ·) k

/-- One word of the key schedule, a column of four bytes. -/
abbrev Word := Vector UInt8 4

def Word.xor (a b : Word) : Word := a.zipWith (· ^^^ ·) b

/-- Rotation by one byte and substitution, with the round constant on the first byte. -/
def Word.turned (w : Word) (constant : UInt8) : Word :=
  #v[substituted w[1] ^^^ constant, substituted w[2], substituted w[3], substituted w[0]]

/-- The next schedule word from the words so far, last one first. -/
def nextWord (keyWords : Nat) (constants : List UInt8) (words : List Word) : Word :=
  let zero : Word := #v[0, 0, 0, 0]
  let position := words.length
  let last := words.headD zero
  let earlier := words.getD (keyWords - 1) zero
  let changed :=
    if position % keyWords = 0 then last.turned (constants.getD (position / keyWords - 1) 0)
    else if keyWords > 6 ∧ position % keyWords = 4 then last.map substituted
    else last
  earlier.xor changed

/-- The round constants: the powers of `x`. -/
def constants : List UInt8 := [0x01, 0x02, 0x04, 0x08, 0x10, 0x20, 0x40, 0x80, 0x1b, 0x36]

def wordOf (bytes : Bytes) : Word := .ofFn fun i => bytes.getD i.val 0

/-- Schedule words, last one first, until `count` more have been added. -/
def extend (keyWords : Nat) : (count : Nat) → List Word → List Word
  | 0, words => words
  | n + 1, words => extend keyWords n (nextWord keyWords constants words :: words)

def joinWords : List Word → List Block
  | a :: b :: c :: d :: rest => (a ++ b ++ c ++ d) :: joinWords rest
  | _ => []

/-- The round keys: one for whitening and one for each of the `key words + 6` rounds. -/
def schedule (key : Bytes) : List Block :=
  let keyWords := key.length / 4
  let first := ((Bytes.blocks 4 key).map wordOf).reverse
  joinWords (extend keyWords (4 * (keyWords + 7) - keyWords) first).reverse

/-- The rounds under the remaining round keys; the last one mixes no columns. -/
def rounds : List Block → Block → Block
  | [], s => s
  | [k], s => addKey (substituteAndShift s) k
  | k :: rest, s => rounds rest (addKey (mixColumns (substituteAndShift s)) k)

def encipherWith (roundKeys : List Block) (s : Block) : Block :=
  match roundKeys with
  | [] => s
  | k :: rest => rounds rest (addKey s k)

end SealedStream.Cipher.Aes
