import SealedStream.Action
import SealedStream.Dict
import SealedStream.Text.Json.Reader
import SealedStream.Vault.Error
import SealedStream.Vault.Key

/-!
# The document of a vault

A JSON object from aliases to entries. An entry is first read as a `Record` of
texts and numbers, then its key material and its times are made out: only a
document whose records are all well formed gets that far. The records are then
visited in some order, and the first that no entry can be made of ends the
visit. Times are kept in whole seconds.
-/

namespace SealedStream

inductive VaultEntry where
  | symmetric (key : SymmetricKey)
  | keyPair (secret : SecretKey) (spec : KeyPairSpec)
  deriving DecidableEq

namespace Vault

open Text (Json)

/-- An entry as it is written. -/
inductive Record where
  | symmetric (key : String)
  | keyPair (secret : String) (sizeBits : UInt32) (notBefore notAfter : Nat)
  deriving DecidableEq, Repr

namespace Record

def ofEntry : VaultEntry → Record
  | .symmetric key => .symmetric (Text.Base64.encode key.bytes)
  | .keyPair secret spec =>
    .keyPair (Text.Base64.encode secret.bytes) spec.sizeBits spec.notBefore.epochSeconds
      spec.notAfter.epochSeconds

def toJson : Record → Json
  | symmetric key => .object [("kind", .string "symmetric"), ("key", .string key)]
  | keyPair secret sizeBits notBefore notAfter =>
    .object [("kind", .string "key_pair"), ("secret", .string secret),
      ("size_bits", .integer sizeBits.toNat), ("not_before", .integer notBefore),
      ("not_after", .integer notAfter)]

/-- The fields of each kind of entry, in their order. -/
def fieldNames? (kind : String) : Option (List String) :=
  if kind = "symmetric" then some ["key"]
  else if kind = "key_pair" then some ["secret", "size_bits", "not_before", "not_after"]
  else none

/-- The one member of a name. -/
def member? (members : List (String × Json)) (name : String) : Option Json :=
  match members.filter fun m => m.1 = name with
  | [m] => some m.2
  | _ => none

/-- The kind of an entry and its fields, which may stand by name or in order behind the kind. -/
def fields? : Json → Option (String × List Json)
  | .object members =>
    match member? members "kind" with
    | some (.string kind) => do
      let names ← fieldNames? kind
      let fields ← names.mapM (member? members)
      return (kind, fields)
    | _ => none
  | .array (.string kind :: fields) => some (kind, fields)
  | _ => none

/-- A number of seconds that a record can hold. -/
def isSeconds (value : Int) : Bool := 0 ≤ value ∧ value < UInt64.size

def ofFields? (kind : String) (fields : List Json) : Option Record :=
  if kind = "symmetric" then
    match fields with
    | [.string key] => some (.symmetric key)
    | _ => none
  else if kind = "key_pair" then
    match fields with
    | [.string secret, .integer size, .integer notBefore, .integer notAfter] =>
      if 0 ≤ size ∧ size < UInt32.size ∧ isSeconds notBefore ∧ isSeconds notAfter then
        some (.keyPair secret (UInt32.ofNat size.toNat) notBefore.toNat notAfter.toNat)
      else none
    | _ => none
  else none

def ofJson? (json : Json) : Option Record := do
  let (kind, fields) ← fields? json
  ofFields? kind fields

def material (keyName encoded : String) : Except (Failure VaultDefect) Bytes :=
  (Text.Base64.decode encoded).mapError fun e => .error (.material keyName e)

def timeOf (seconds : Nat) : Except (Failure VaultDefect) Time :=
  match Time.ofEpochSeconds? seconds with
  | some t => .ok t
  | none => .error (.abort .timeOverflow)

/-- The entry that a record under an alias stands for. -/
def toEntry (keyName : String) : Record → Except (Failure VaultDefect) VaultEntry
  | symmetric encoded => do
    let bytes ← material keyName encoded
    match SymmetricKey.ofBytes bytes with
    | .ok key => return .symmetric key
    | .error length => throw (.error (.keyLength keyName length))
  | keyPair encoded sizeBits notBefore notAfter => do
    let bytes ← material keyName encoded
    match SecretKey.ofBytes? bytes with
    | none => throw (.error (.secretLength keyName))
    | some secret => do
      let notBefore ← timeOf notBefore
      let notAfter ← timeOf notAfter
      return .keyPair secret { sizeBits, notBefore, notAfter }

end Record

/-- The document of the entries, in the order of their names. It would read the same in any. -/
def encode (entries : Dict VaultEntry) : Bytes :=
  Bytes.ofString (Json.object (entries.entries.map fun (keyName, entry) =>
    (keyName, (Record.ofEntry entry).toJson))).written

/-- The records of a document; of records under one alias the last one counts. -/
def records? (document : Bytes) : Option (Dict Record) :=
  match Json.read? document with
  | some (.object members) =>
    (members.mapM fun (m : String × Json) => (Record.ofJson? m.2).map (m.1, ·)).map Dict.ofList
  | _ => none

/-- The order in which records are visited. Nothing says which one it is. -/
structure Visit where
  order : Dict Record → List (String × Record)
  perm : ∀ records, (order records).Perm records.entries

def Visit.byName : Visit := ⟨Dict.entries, fun _ => .refl _⟩

def decode (document : Bytes) (visit : Visit := .byName) :
    Except (Failure VaultDefect) (Dict VaultEntry) :=
  match records? document with
  | none => .error (.error .malformed)
  | some records => do
    let entries ← (visit.order records).mapM fun (record : String × Record) =>
      (record.2.toEntry record.1).map (record.1, ·)
    return Dict.ofList entries

end Vault

end SealedStream
