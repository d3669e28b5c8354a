import SealedStream.Text.Decimal
import SealedStream.Text.Hex
import SealedStream.Text.Json
import SealedStream.Text.Json.Magnitude

/-!
# Reading JSON documents

A strict reader: one value with blanks around it, no control characters inside
strings, no halves of surrogate pairs, at most 127 arrays and objects inside
one another, and no number too large for a double. Members are kept in order,
repeated names included; what a repeated name means is for the reader of the
value to say.
-/

namespace SealedStream.Text.Json

def isSpace (c : Char) : Bool := c = ' ' || c = '\n' || c = '\t' || c = '\r'

def skipSpaces (text : List Char) : List Char := text.dropWhile isSpace

/-- Four hexadecimal digits. -/
def hexUnit? (a b c d : Char) : Option Nat := do
  let a ← hexValue? a
  let b ← hexValue? b
  let c ← hexValue? c
  let d ← hexValue? d
  return ((a * 16 + b) * 16 + c) * 16 + d

def isLeadUnit (unit : Nat) : Bool := 0xd800 ≤ unit && unit < 0xdc00
def isTrailUnit (unit : Nat) : Bool := 0xdc00 ≤ unit && unit < 0xe000

/-- The character of a pair of surrogate units. -/
def pairedChar (lead trail : Nat) : Char :=
  Char.ofNat (0x10000 + (lead - 0xd800) * 0x400 + (trail - 0xdc00))

/-- The character that a letter after a backslash stands for. -/
def simpleEscape? : Char → Option Char
  | '"' => some '"'
  | '\\' => some '\\'
  | '/' => some '/'
  | 'b' => some '\x08'
  | 'f' => some '\x0c'
  | 'n' => some '\n'
  | 'r' => some '\r'
  | 't' => some '\t'
  | _ => none

/-- The rest of a string after its opening quote: its characters and what follows. -/
def stringRest? : List Char → Option (List Char × List Char)
  | [] => none
  | '"' :: rest => some ([], rest)
  | '\\' :: 'u' :: a :: b :: c :: d :: rest => do
    let unit ← hexUnit? a b c d
    if isLeadUnit unit then
      match rest with
      | '\\' :: 'u' :: e :: f :: g :: h :: rest => do
        let trail ← hexUnit? e f g h
        if isTrailUnit trail then
          let (chars, rest) ← stringRest? rest
          return (pairedChar unit trail :: chars, rest)
        else none
      | _ => none
    else if isTrailUnit unit then none
    else
      let (chars, rest) ← stringRest? rest
      return (Char.ofNat unit :: chars, rest)
  | '\\' :: c :: rest => do
    let c ← simpleEscape? c
    let (chars, rest) ← stringRest? rest
    return (c :: chars, rest)
  | c :: rest =>
    if c.toNat < 0x20 ∨ c = '\\' then none
    else do
      let (chars, rest) ← stringRest? rest
      return (c :: chars, rest)

def digitsOf (text : List Char) : List Char × List Char :=
  text.span fun c => (Decimal.digitValue? c).isSome

/-- The digits before the point: a zero alone, or digits that begin with another one. -/
def wholePart? (text : List Char) : Option (List Char × List Char) :=
  match digitsOf text with
  | ([], _) => none
  | ('0' :: _ :: _, _) => none
  | parts => some parts

/-- The digits after the point, if there is one. -/
def fraction? : List Char → Option (List Char × List Char)
  | '.' :: rest =>
    match digitsOf rest with
    | ([], _) => none
    | parts => some parts
  | text => some ([], text)

/-- The exponent, if there is one. -/
def exponent? : List Char → Option (Option Int × List Char)
  | e :: rest =>
    if e = 'e' ∨ e = 'E' then
      let (negative, digits) := match rest with
        | '-' :: more => (true, more)
        | '+' :: more => (false, more)
        | more => (false, more)
      match digitsOf digits with
      | ([], _) => none
      | (ds, rest) =>
        let size : Int := (Decimal.ofDigits? ds).getD 0
        some (some (if negative then -size else size), rest)
    else some (none, e :: rest)
  | [] => some (none, [])

/-- A number: whole and within 64 bits, or a double. -/
def readNumber? (text : List Char) : Option (Json × List Char) := do
  let (negative, unsigned) := match text with
    | '-' :: rest => (true, rest)
    | all => (false, all)
  let (whole, rest) ← wholePart? unsigned
  let (decimals, rest) ← fraction? rest
  let (exponent, rest) ← exponent? rest
  let value := (Decimal.ofDigits? whole).getD 0
  let isWhole := decimals.isEmpty ∧ exponent.isNone
  if isWhole ∧ ¬ negative ∧ value < UInt64.size then return (.integer value, rest)
  if isWhole ∧ negative ∧ 0 < value ∧ value ≤ Nat.pow 2 63 then return (.integer (-value), rest)
  let digits (part : List Char) : List Nat := part.filterMap Decimal.digitValue?
  let magnitude ← (Scaled.ofDigits (digits whole) (digits decimals) (exponent.getD 0)).toDouble?
  return (.real negative magnitude, rest)

/-- A fixed word at the front of a text. -/
def afterWord? (word : String) (text : List Char) : Option (List Char) :=
  if word.toList.isPrefixOf text then some (text.drop word.length) else none

/-- The most arrays and objects that may stand inside one another. -/
def depthLimit : Nat := 127

mutual

/-- A value at the front of a text, with `depth` more levels allowed below it. -/
def readValue? (depth : Nat) : (fuel : Nat) → List Char → Option (Json × List Char)
  | 0, _ => none
  | fuel + 1, text =>
    match skipSpaces text with
    | 'n' :: rest => (afterWord? "ull" rest).map (.null, ·)
    | 't' :: rest => (afterWord? "rue" rest).map (.bool true, ·)
    | 'f' :: rest => (afterWord? "alse" rest).map (.bool false, ·)
    | '"' :: rest => (stringRest? rest).map fun (chars, rest) => (.string (String.ofList chars), rest)
    | '[' :: rest =>
      match depth with
      | 0 => none
      | depth + 1 =>
        match skipSpaces rest with
        | ']' :: rest => some (.array [], rest)
        | rest => (readItems? depth fuel rest).map fun (items, rest) => (.array items, rest)
    | '\x7b' :: rest =>
      match depth with
      | 0 => none
      | depth + 1 =>
        match skipSpaces rest with
        | '\x7d' :: rest => some (.object [], rest)
        | rest => (readMembers? depth fuel rest).map fun (members, rest) => (.object members, rest)
    | rest => readNumber? rest

/-- One or more items and the closing bracket. -/
def readItems? (depth : Nat) : (fuel : Nat) → List Char → Option (List Json × List Char)
  | 0, _ => none
  | fuel + 1, text =>
    match readValue? depth fuel text with
    | none => none
    | some (item, rest) =>
      match skipSpaces rest with
      | ',' :: rest => (readItems? depth fuel rest).map fun (items, rest) => (item :: items, rest)
      | ']' :: rest => some ([item], rest)
      | _ => none

/-- One or more members and the closing brace. -/
def readMembers? (depth : Nat) : (fuel : Nat) → List Char → Option (List (String × Json) × List Char)
  | 0, _ => none
  | fuel + 1, text =>
    match skipSpaces text with
    | '"' :: rest =>
      match stringRest? rest with
      | none => none
      | some (name, rest) =>
        match skipSpaces rest with
        | ':' :: rest =>
          match readValue? depth fuel rest with
          | none => none
          | some (value, rest) =>
            let member := (String.ofList name, value)
            match skipSpaces rest with
            | ',' :: rest =>
              (readMembers? depth fuel rest).map fun (members, rest) => (member :: members, rest)
            | '\x7d' :: rest => some ([member], rest)
            | _ => none
        | _ => none
    | _ => none

end

/-- The document a text holds: one value and blanks around it. -/
def ofString? (text : String) : Option Json :=
  let chars := text.toList
  match readValue? depthLimit (chars.length + 1) chars with
  | some (document, rest) => if (skipSpaces rest).isEmpty then some document else none
  | none => none

/-- The document that UTF-8 bytes hold. -/
def read? (bytes : Bytes) : Option Json := (Bytes.toString? bytes).bind ofString?

end SealedStream.Text.Json
