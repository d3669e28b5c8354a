import SealedStream.Bytes
import SealedStream.Text.Double.Shortest

/-!
# JSON documents and their written form

`Json.written` is the form of every document the library writes: members on
lines of their own, two spaces deeper than what holds them, with only the
escapes that are needed. The reader is `Json.read?` in `Text.Json.Reader`.
-/

namespace SealedStream.Text

inductive Json where
  | null
  | bool (value : Bool)
  /-- A whole number that fits 64 bits, signed or unsigned. -/
  | integer (value : Int)
  /-- Any other number. -/
  | real (negative : Bool) (magnitude : Double)
  | string (value : String)
  | array (items : List Json)
  | object (members : List (String × Json))
  deriving Inhabited

namespace Json

def hexDigit (n : Nat) : Char := Char.ofNat (if n < 10 then n + 48 else n + 87)

def escaped (c : Char) : List Char :=
  if c = '"' then ['\\', '"']
  else if c = '\\' then ['\\', '\\']
  else if c.toNat = 0x08 then ['\\', 'b']
  else if c.toNat = 0x09 then ['\\', 't']
  else if c.toNat = 0x0a then ['\\', 'n']
  else if c.toNat = 0x0c then ['\\', 'f']
  else if c.toNat = 0x0d then ['\\', 'r']
  else if c.toNat < 0x20 then
    ['\\', 'u', '0', '0', hexDigit (c.toNat / 16), hexDigit (c.toNat % 16)]
  else [c]

def quotedChars (text : String) : List Char :=
  '"' :: (text.toList.flatMap escaped ++ ['"'])

/-- Digits with a point behind the first so many, zeros being put where there are none. -/
def positional (digits : List Char) (point : Int) : List Char :=
  if point ≤ 0 then '0' :: '.' :: List.replicate (-point).toNat '0' ++ digits
  else if (digits.length : Int) ≤ point then
    digits ++ List.replicate (point.toNat - digits.length) '0' ++ ['.', '0']
  else digits.take point.toNat ++ '.' :: digits.drop point.toNat

/-- Digits with a point behind the first, if there are more, and the power of ten they need. -/
def exponential (digits : List Char) (point : Int) : List Char :=
  digits.take 1 ++ (if digits.length = 1 then [] else '.' :: digits.drop 1) ++
    'e' :: (toString (point - 1)).toList

/-- The shortest decimal, with a point where it stands among the next digits. -/
def realChars (negative : Bool) (magnitude : Double) : List Char :=
  let (value, power) := magnitude.shortest
  let digits := Nat.toDigits 10 value
  let point := digits.length + power
  (if negative then ['-'] else []) ++
    if magnitude.significand = 0 then positional ['0'] 1
    else if -5 < point ∧ point ≤ 16 then positional digits point
    else exponential digits point

def newline (depth : Nat) : List Char := '\n' :: List.replicate (2 * depth) ' '

def opening : Char := '\x7b'
def closing : Char := '\x7d'

mutual

/-- The form of a value that stands `depth` levels deep. -/
def writtenChars (depth : Nat) : Json → List Char
  | .null => "null".toList
  | .bool value => (if value then "true" else "false").toList
  | .integer value => (toString value).toList
  | .real negative magnitude => realChars negative magnitude
  | .string value => quotedChars value
  | .array [] => ['[', ']']
  | .array (item :: rest) =>
    '[' :: newline (depth + 1) ++ writtenChars (depth + 1) item ++
      writtenItems (depth + 1) rest ++ newline depth ++ [']']
  | .object [] => [opening, closing]
  | .object ((name, value) :: rest) =>
    opening :: newline (depth + 1) ++ quotedChars name ++ [':', ' '] ++
      writtenChars (depth + 1) value ++ writtenMembers (depth + 1) rest ++ newline depth ++ [closing]

def writtenItems (depth : Nat) : List Json → List Char
  | [] => []
  | item :: rest => ',' :: newline depth ++ writtenChars depth item ++ writtenItems depth rest

def writtenMembers (depth : Nat) : List (String × Json) → List Char
  | [] => []
  | (name, value) :: rest =>
    ',' :: newline depth ++ quotedChars name ++ [':', ' '] ++ writtenChars depth value ++
      writtenMembers depth rest

end

def written (document : Json) : String := String.ofList (writtenChars 0 document)

/-- An escape of one 16-bit unit. -/
def escapedUnit (unit : Nat) : List Char :=
  ['\\', 'u', hexDigit (unit / 4096 % 16), hexDigit (unit / 256 % 16), hexDigit (unit / 16 % 16),
    hexDigit (unit % 16)]

/-- A character in a text that may hold ASCII alone. -/
def asciiEscaped (c : Char) : List Char :=
  if c.toNat < 0x7f then escaped c
  else if c.toNat < 0x10000 then escapedUnit c.toNat
  else
    escapedUnit (0xd800 + (c.toNat - 0x10000) / 0x400) ++
      escapedUnit (0xdc00 + (c.toNat - 0x10000) % 0x400)

def asciiQuoted (text : String) : List Char :=
  '"' :: (text.toList.flatMap asciiEscaped ++ ['"'])

mutual

/-- The form of a value on one line, in ASCII. -/
def lineChars : Json → List Char
  | .null => "null".toList
  | .bool value => (if value then "true" else "false").toList
  | .integer value => (toString value).toList
  | .real negative magnitude => realChars negative magnitude
  | .string value => asciiQuoted value
  | .array [] => ['[', ']']
  | .array (item :: rest) => '[' :: lineChars item ++ lineItems rest
  | .object [] => [opening, closing]
  | .object ((name, value) :: rest) =>
    opening :: asciiQuoted name ++ ':' :: lineChars value ++ lineMembers rest

def lineItems : List Json → List Char
  | [] => [']']
  | item :: rest => ',' :: lineChars item ++ lineItems rest

def lineMembers : List (String × Json) → List Char
  | [] => [closing]
  | (name, value) :: rest => ',' :: asciiQuoted name ++ ':' :: lineChars value ++ lineMembers rest

end

/-- A document on one line, in ASCII. -/
def line (document : Json) : String := String.ofList (lineChars document)

end Json

end SealedStream.Text
