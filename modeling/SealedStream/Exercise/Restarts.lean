import SealedStream.StateDirectory

/-!
# A host that starts anew for every step

Nothing but the files of its directory lasts from one step to the next.
-/

namespace SealedStream.Exercise.Restarts

variable {α : Type}

/-- What a new process opens over the files, where nothing is expected to be wrong with them. -/
def start (directory : Path) (level : UInt32) : Action Machine (Failure SealError) Custody := do
  let host ← (Host.openIn directory).mapError fun _ => .abort .brokenExpectation
  match Custodian.create ⟨level⟩ {} with
  | .ok custodian => return { custodian, host }
  | .error _ => throw (.abort .brokenExpectation)

/-- One step of a new process, and the key that it ends with. -/
def step (directory : Path) (level : UInt32) (x : CustodyAction α) :
    Action Machine (Failure SealError) (α × Option ContentKey) := do
  let p ← start directory level
  let (answer, p) := x p
  set p.host.machine
  let value ← Action.ofExcept answer
  return (value, p.custodian.cached)

end SealedStream.Exercise.Restarts
