import SealedStream.StateDirectory
import SealedStream.Stream.Protected

/-!
# An application that keeps sealed records

It seals what it is given and remembers both forms. Its process may restart, on
the same host or after an upgrade; what it sealed before must then still open.
A step that takes this for granted ends the process where it does not hold.
-/

namespace SealedStream.Exercise

structure Record where
  text : Bytes
  sealedText : Bytes
  deriving DecidableEq

structure RecordKeeper where
  custody : Custody
  records : Dict Record := .empty

namespace RecordKeeper

abbrev KeeperAction := Action RecordKeeper (Failure SealError)

variable {α : Type}

/-- The same steps, where an error is not expected. -/
def expected {σ : Type} (x : Action σ (Failure SealError) α) : Action σ (Failure SealError) α :=
  x.mapError fun e =>
    match e with
    | .error _ => .abort .brokenExpectation
    | .abort why => .abort why

def onCustody (x : CustodyAction α) : KeeperAction α :=
  x.zoom custody fun custody k => { k with custody }

/-- A new custodian for a level on a host, if the configuration is a good one. -/
def startCustody (host : Host) (level : UInt32) (config : Config) : Except SealError Custody :=
  (Custodian.create ⟨level⟩ config).map fun custodian => { custodian, host }

/-- A keeper of nothing yet on a fresh host. -/
def create (machine : Machine) (level : UInt32) (config : Config) : Except SealError RecordKeeper :=
  (startCustody (Host.fresh machine) level config).map fun custody => { custody }

def level (k : RecordKeeper) : UInt32 := k.custody.custodian.platform.level

/-- Seals a text and keeps it under a name. -/
def put (name : String) (text : Bytes) : KeeperAction Bytes := do
  let sealedText ← onCustody (expected (Custody.encrypt text))
  modify fun k => { k with records := k.records.insert name { text, sealedText } }
  return sealedText

/-- The opened text under a name. -/
def get? (name : String) : KeeperAction (Option Bytes) := do
  match (← get).records.get? name with
  | none => return none
  | some record => some <$> onCustody (Custody.decrypt record.sealedText)

/-- The opened text under a name, which has to be what was put there. -/
def verify (name : String) : KeeperAction Bytes := do
  match (← get).records.get? name with
  | none => throw (.abort .brokenExpectation)
  | some record =>
    let text ← onCustody (expected (Custody.decrypt record.sealedText))
    if text ≠ record.text then throw (.abort .brokenExpectation)
    return text

def verifyAll : KeeperAction Unit := do
  (← get).records.names.forM fun name => discard (verify name)

/-- The custodian of a new process at a level: it has nothing cached. -/
def upgrade (level : UInt32) : KeeperAction Unit :=
  modify fun k =>
    let custodian := { k.custody.custodian with platform := ⟨level⟩, cached := none }
    { k with custody := { k.custody with custodian } }

def restart : KeeperAction Unit := do
  upgrade (← get).level

end RecordKeeper

end SealedStream.Exercise
