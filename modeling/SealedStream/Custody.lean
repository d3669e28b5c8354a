import SealedStream.Custodian

/-!
# A custodian at work on a host

A key that has been resolved is kept, and not looked up again until the
custodian is told to forget it.
-/

namespace SealedStream

/-- A custodian and the host it works on. -/
structure Custody where
  custodian : Custodian
  host : Host

abbrev CustodyAction := Action Custody (Failure SealError)

namespace Custody

variable {α : Type}

def onHost (x : HostAction α) : CustodyAction α :=
  x.zoom host fun host p => { p with host }

/-- The content key: the cached one, or the one that is then cached. -/
def resolve : CustodyAction ContentKey := do
  let p ← get
  match p.custodian.cached with
  | some key => return key
  | none =>
    let key ← onHost p.custodian.lookUp
    modify fun p => { p with custodian := { p.custodian with cached := some key } }
    return key

def status : CustodyAction KeyStatus := do
  let p ← get
  onHost p.custodian.status

def invalidate : CustodyAction Unit :=
  modify fun p => { p with custodian := p.custodian.invalidate }

end Custody

end SealedStream
