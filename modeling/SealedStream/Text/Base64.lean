import SealedStream.Bytes

/-!
# Base64 with the standard alphabet

`encode` writes three bytes as four symbols and pads the last group with equals
signs. `decode` accepts exactly what `encode` writes: padding has to be there
and the bits beyond the last byte have to be zero. A refusal names the first
thing that is wrong in a fixed order of checks.
-/

namespace SealedStream.Text.Base64

inductive Error where
  | symbol (byte : UInt8) (offset : Nat)
  | length (symbols : Nat)
  | padding
  | lastSymbol (byte : UInt8) (offset : Nat)
  deriving DecidableEq, Repr

def Error.message : Error → String
  | .symbol byte offset => s!"Invalid symbol {byte.toNat}, offset {offset}."
  | .length symbols => s!"Invalid input length: {symbols}"
  | .padding => "Invalid padding"
  | .lastSymbol byte offset => s!"Invalid last symbol {byte.toNat}, offset {offset}."

/-- The symbol of a value below 64. -/
def symbolOf (value : Nat) : UInt8 :=
  if value < 26 then UInt8.ofNat (value + 65)
  else if value < 52 then UInt8.ofNat (value + 71)
  else if value < 62 then UInt8.ofNat (value - 4)
  else if value = 62 then 43
  else 47

def valueOf? (byte : UInt8) : Option Nat :=
  let n := byte.toNat
  if 65 ≤ n ∧ n ≤ 90 then some (n - 65)
  else if 97 ≤ n ∧ n ≤ 122 then some (n - 71)
  else if 48 ≤ n ∧ n ≤ 57 then some (n + 4)
  else if n = 43 then some 62
  else if n = 47 then some 63
  else none

/-- The equals sign. -/
def pad : UInt8 := 61

def encodeBytes : Bytes → Bytes
  | [] => []
  | [a] =>
    let n := a.toNat * 16
    [symbolOf (n / 64), symbolOf (n % 64), pad, pad]
  | [a, b] =>
    let n := (a.toNat * 256 + b.toNat) * 4
    [symbolOf (n / 4096), symbolOf (n / 64 % 64), symbolOf (n % 64), pad]
  | a :: b :: c :: rest =>
    let n := (a.toNat * 256 + b.toNat) * 256 + c.toNat
    symbolOf (n / 262144) :: symbolOf (n / 4096 % 64) :: symbolOf (n / 64 % 64) ::
      symbolOf (n % 64) :: encodeBytes rest

def encode (bytes : Bytes) : String :=
  String.ofList ((encodeBytes bytes).map fun b => Char.ofNat b.toNat)

/-- The three bytes of four values. -/
def bytesOfGroup (a b c d : Nat) : Bytes :=
  let n := ((a * 64 + b) * 64 + c) * 64 + d
  [UInt8.ofNat (n / 65536), UInt8.ofNat (n / 256), UInt8.ofNat n]

/-- The values of symbols that begin at an offset, or the first byte that is no symbol. -/
def values : (offset : Nat) → Bytes → Except Error (List Nat)
  | _, [] => .ok []
  | offset, b :: rest =>
    match valueOf? b with
    | none => .error (.symbol b offset)
    | some v => (values (offset + 1) rest).map (v :: ·)

/-- The bytes of whole groups of four values. -/
def bytesOfValues : List Nat → Bytes
  | a :: b :: c :: d :: rest => bytesOfGroup a b c d ++ bytesOfValues rest
  | _ => []

/-- The symbols of the last group: its values, and how many equals signs follow them. -/
structure LastGroup where
  values : List Nat
  pads : Nat

/--
Reads the last one to four bytes. `place` counts the bytes read, `firstPad` is
the place of the first equals sign.
-/
def readLast (start : Nat) : (place : Nat) → (firstPad : Option Nat) → Bytes →
    Except Error LastGroup
  | _, _, [] => .ok ⟨[], 0⟩
  | place, firstPad, b :: rest =>
    if b = pad then
      if place < 2 then .error (.symbol pad (start + place))
      else (readLast start (place + 1) (some (firstPad.getD place)) rest).map
        fun g => { g with pads := g.pads + 1 }
    else match firstPad with
      | some first => .error (.symbol pad (start + first))
      | none =>
        match valueOf? b with
        | none => .error (.symbol b (start + place))
        | some v => (readLast start (place + 1) none rest).map
          fun g => { g with values := v :: g.values }

/-- The bytes of the last group, and the bits it has beyond them. -/
def bytesOfLast : List Nat → Bytes × Nat
  | [a, b] => ([UInt8.ofNat ((a * 64 + b) / 16)], b % 16)
  | [a, b, c] =>
    let n := (a * 64 + b) * 64 + c
    ([UInt8.ofNat (n / 1024), UInt8.ofNat (n / 4)], c % 4)
  | [a, b, c, d] => (bytesOfGroup a b c d, 0)
  | _ => ([], 0)

/-- The last group of a text, which begins at an offset. -/
def decodeLast (start : Nat) (bytes : Bytes) : Except Error Bytes := do
  let g ← readLast start 0 none bytes
  if g.values.length < 2 then throw (.length (start + g.values.length))
  if (g.values.length + g.pads) % 4 ≠ 0 then throw .padding
  let (decoded, extra) := bytesOfLast g.values
  if extra ≠ 0 then
    let last := g.values.length - 1
    throw (.lastSymbol (bytes.getD last 0) (start + last))
  return decoded

/-- A single byte too many that is neither a symbol nor an equals sign is named before all else. -/
def strayLast (bytes : Bytes) : Option Error :=
  match bytes.getLast? with
  | none => none
  | some last =>
    if bytes.length % 4 = 1 ∧ last ≠ pad ∧ (valueOf? last).isNone then
      some (.symbol last (bytes.length - 1))
    else none

def decodeBytes (bytes : Bytes) : Except Error Bytes :=
  if bytes.isEmpty then .ok []
  else match strayLast bytes with
    | some e => .error e
    | none => do
      let start := (bytes.length - 1) / 4 * 4
      let groups ← values 0 (bytes.take start)
      let last ← decodeLast start (bytes.drop start)
      return bytesOfValues groups ++ last

def decode (text : String) : Except Error Bytes := decodeBytes (Bytes.ofString text)

end SealedStream.Text.Base64
