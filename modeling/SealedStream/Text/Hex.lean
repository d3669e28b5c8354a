import SealedStream.Bytes
import SealedStream.Text.Json

/-!
# Bytes in hexadecimal digits

Two lower-case digits for each byte; digits of either case are read.
-/

namespace SealedStream.Text

namespace Json

def hexValue? (c : Char) : Option Nat :=
  if '0' ≤ c ∧ c ≤ '9' then some (c.toNat - 48)
  else if 'a' ≤ c ∧ c ≤ 'f' then some (c.toNat - 87)
  else if 'A' ≤ c ∧ c ≤ 'F' then some (c.toNat - 55)
  else none

end Json

namespace Hex

def digits (b : UInt8) : List Char :=
  [Json.hexDigit (b.toNat / 16), Json.hexDigit (b.toNat % 16)]

def encode (bytes : Bytes) : String := String.ofList (bytes.flatMap digits)

def decodeChars? : List Char → Option Bytes
  | [] => some []
  | a :: b :: rest => do
    let a ← Json.hexValue? a
    let b ← Json.hexValue? b
    let bytes ← decodeChars? rest
    return UInt8.ofNat (16 * a + b) :: bytes
  | [_] => none

def decode? (text : String) : Option Bytes := decodeChars? text.toList

end Hex

end SealedStream.Text
