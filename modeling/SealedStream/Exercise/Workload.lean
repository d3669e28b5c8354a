import SealedStream.Exercise.Records

/-!
# Many round trips over one content key

Each operation seals a text and opens it again. Operations run one after the
other, or divided among workers. Workers share the custodian and the tally, and
take their steps in the order of a schedule: between two steps of a round trip
others may take theirs.
-/

namespace SealedStream.Exercise

structure Workload where
  operations : Nat := 1000
  workers : Nat := 4
  payloadSize : Nat := 256
  deriving DecidableEq

structure Tally where
  successful : Nat := 0
  failed : Nat := 0
  deriving DecidableEq

namespace Tally

def total (t : Tally) : Nat := t.successful + t.failed

def count (t : Tally) (succeeded : Bool) : Tally :=
  if succeeded then { t with successful := t.successful + 1 }
  else { t with failed := t.failed + 1 }

end Tally

namespace Workload

/-- The text of an operation. -/
def payload (w : Workload) (operation : Nat) : Bytes :=
  List.replicate w.payloadSize (UInt8.ofNat (operation % 256))

/-- Seals a text and opens it again, and tells whether it came back. -/
def roundTrip (text : Bytes) : CustodyAction Bool := do
  let sealThenOpen : CustodyAction Bytes := do
    let bytes ← Custody.encrypt text
    Custody.decrypt bytes
  match ← sealThenOpen.attempt with
  | .ok opened => return opened = text
  | .error (.error _) => return false
  | .error (.abort why) => throw (.abort why)

def perform (w : Workload) : (operations : List Nat) → (tally : Tally) → CustodyAction Tally
  | [], tally => return tally
  | operation :: rest, tally => do
    let succeeded ← roundTrip (w.payload operation)
    perform w rest (tally.count succeeded)

def sequential (w : Workload) : CustodyAction Tally := perform w (List.range w.operations) {}

/-- How many operations each worker has. -/
def share (w : Workload) : Except Abort Nat :=
  if w.workers = 0 then .error .divisionByZero else .ok (w.operations / w.workers)

/-- How far a round trip has come. -/
inductive Progress where
  | idle
  /-- The key to seal under is at hand. -/
  | keyed (key : ContentKey)
  | sealed (stream : Bytes)
  /-- It is known whether the text came back, and not counted yet. -/
  | judged (succeeded : Bool)

/-- Begins a stream under a key that is at hand. -/
def beginUnder (key : ContentKey) : Outgoing.OutgoingAction Sealing := do
  let _ ← Action.ofExcept (key.key.suite.mapError .error)
  let iv ← Outgoing.onCustody (Custody.onHost key.tier.freshIv)
  Outgoing.onSink (Header.write iv)
  return { key := key.key, iv }

theorem beginUnder_eq (key : ContentKey) : beginUnder key = (do
    let iv ← Outgoing.onCustody (Custody.onHost key.tier.freshIv)
    Outgoing.onSink (Header.write iv)
    return { key := key.key, iv }) := by
  simp only [beginUnder, SymmetricKey.suite_bind]

/-- A whole text as a stream under a key that is at hand. -/
def sealUnder (key : ContentKey) (text : Bytes) : CustodyAction Bytes := fun p =>
  match beginUnder key { custody := p, sink := {} } with
  | (.error e, out) => (.error e, out.custody)
  | (.ok sealing, out) =>
    let finish : SealingStream.WriteAction Unit := do
      SealingStream.writeAll text
      SealingStream.finish
    match finish { sealing := some sealing, sink := out.sink } with
    | (.ok _, stream) => (.ok stream.sink.content, out.custody)
    | (.error e, _) => (.error (.error (.io e)), out.custody)

/-- A round trip has come so far; one that fails on the way is judged by that. -/
def orFailed (x : CustodyAction Progress) : CustodyAction Progress := do
  match ← x.attempt with
  | .ok progress => return progress
  | .error (.error _) => return .judged false
  | .error (.abort why) => throw (.abort why)

/-- The next step of a round trip. Each has one access to what others have access to: the cache,
the source of vectors, and the cache again. -/
def Progress.next (text : Bytes) : Progress → CustodyAction Progress
  | .idle => do
    if (← get).isProtected then return .keyed (← Custody.resolve) else return .sealed text
  | .keyed key => return .sealed (← sealUnder key text)
  | .sealed stream => return .judged ((← Custody.decrypt stream) = text)
  | .judged succeeded => return .judged succeeded

structure Worker where
  /-- The operations that it has not counted; it is at the first of them. -/
  operations : List Nat
  progress : Progress := .idle

/-- The workers and what they share. -/
structure Shift where
  custody : Custody
  workers : List Worker
  tally : Tally := {}

abbrev ShiftAction := Action Shift (Failure SealError)

namespace Shift

def onCustody {α : Type} (x : CustodyAction α) : ShiftAction α :=
  x.zoom custody fun custody s => { s with custody }

/-- A worker's next step. A round trip that has been judged is counted. -/
def step (w : Workload) (worker : Worker) : ShiftAction Worker :=
  match worker.operations, worker.progress with
  | [], _ => return worker
  | _ :: rest, .judged succeeded => do
    modify fun s => { s with tally := s.tally.count succeeded }
    return { operations := rest }
  | operation :: _, progress => do
    let progress ← onCustody (orFailed (progress.next (w.payload operation)))
    return { worker with progress }

/-- The turn of a worker by its number, if there is such a worker. -/
def turn (w : Workload) (number : Nat) : ShiftAction Unit := do
  match (← get).workers[number]? with
  | none => return
  | some worker =>
    let worker ← step w worker
    modify fun s => { s with workers := s.workers.set number worker }

end Shift

/-- The workers, each with a share of the operations. -/
def staff (w : Workload) (share : Nat) : List Worker :=
  (List.range w.workers).map fun number =>
    { operations := (List.range share).map fun i => number * share + i }

/-- The schedule in which each worker is done before the next begins. -/
def inTurn (w : Workload) (share : Nat) : List Nat :=
  (List.range w.workers).flatMap fun number => List.replicate (4 * share) number

/-- All workers' operations with their steps in the order of a schedule. What it leaves undone is
done in turn. -/
def concurrent (w : Workload) (schedule : Nat → List Nat) : CustodyAction Tally := fun p =>
  match w.share with
  | .error why => (.error (.abort why), p)
  | .ok share =>
    let turns := (schedule share ++ w.inTurn share).forM (Shift.turn w)
    let (answer, s) := turns { custody := p, workers := w.staff share }
    (answer.map fun _ => s.tally, s.custody)

/-- What so many callers see who ask for the key at once. -/
def resolutions : (callers : Nat) → CustodyAction (List ContentKey)
  | 0 => return []
  | n + 1 => do
    let key ← RecordKeeper.expected Custody.resolve
    let rest ← resolutions n
    return key :: rest

end Workload

end SealedStream.Exercise
