import SealedStream.Custody
import SealedStream.Stream.Opening
import SealedStream.Stream.Sealing

/-!
# Sealing and opening streams under the content key

The header comes first on both sides: it is on the sink before any text is
taken, and it is read and found right before the key is asked for. The key's
tier, not the host's, tells where an initialisation vector comes from.
-/

namespace SealedStream

/-- The keeping of the key, and the sink of a stream sealed under it. -/
structure Outgoing where
  custody : Custody
  sink : Sink

/-- The keeping of the key, and the source of a stream opened under it. -/
structure Incoming where
  custody : Custody
  source : Source

/-- A fresh initialisation vector for a stream under a key of a tier. -/
def Tier.freshIv : Tier → HostAction Bytes
  | .modernDirect => Host.systemBytes Header.ivSize
  | _ => Host.randomBytes Header.ivSize

/-- The choice of a cipher for a key does not fail. -/
theorem SymmetricKey.suite_bind {σ α : Type} (key : SymmetricKey)
    (x : Action σ (Failure SealError) α) :
    (Action.ofExcept (key.suite.mapError .error) >>= fun _ => x) = x := by
  obtain ⟨suite, h⟩ := key.suite_ok
  rw [h]
  rfl

/-- Streams are sealed at all on this host. -/
def Custody.isProtected (p : Custody) : Bool := p.custodian.hostTier.isSupported

namespace Outgoing

abbrev OutgoingAction := Action Outgoing (Failure SealError)

def onCustody {α : Type} (x : CustodyAction α) : OutgoingAction α :=
  x.zoom custody fun custody out => { out with custody }

def onSink {α : Type} (x : Action Sink SealError α) : OutgoingAction α :=
  Failure.lift id (x.zoom sink fun sink out => { out with sink })

/-- Begins a stream on the sink: its header is written, if it has one. -/
def start : OutgoingAction (Option Sealing) := do
  if (← get).custody.isProtected then
    let key ← onCustody Custody.resolve
    let _ ← Action.ofExcept (key.key.suite.mapError .error)
    let iv ← onCustody (Custody.onHost key.tier.freshIv)
    onSink (Header.write iv)
    return some { key := key.key, iv }
  else return none

theorem start_eq : start = (do
    if (← get).custody.isProtected then
      let key ← onCustody Custody.resolve
      let iv ← onCustody (Custody.onHost key.tier.freshIv)
      onSink (Header.write iv)
      return some { key := key.key, iv }
    else return none) := by
  simp only [start, SymmetricKey.suite_bind]

end Outgoing

namespace Incoming

abbrev IncomingAction := Action Incoming (Failure SealError)

def onCustody {α : Type} (x : CustodyAction α) : IncomingAction α :=
  x.zoom custody fun custody i => { i with custody }

def onSource {α : Type} (x : Action Source SealError α) : IncomingAction α :=
  Failure.lift id (x.zoom source fun source i => { i with source })

/-- Reads the beginning of a stream from the source: its header, if it has one. -/
def start : IncomingAction (Option Opening) := do
  if (← get).custody.isProtected then
    let iv ← onSource Header.read
    let key ← onCustody Custody.resolve
    let _ ← Action.ofExcept (key.key.suite.mapError .error)
    return some { key := key.key, params := key.tier.cipherParams iv }
  else return none

theorem start_eq : start = (do
    if (← get).custody.isProtected then
      let iv ← onSource Header.read
      let key ← onCustody Custody.resolve
      return some { key := key.key, params := key.tier.cipherParams iv }
    else return none) := by
  simp only [start, SymmetricKey.suite_bind]

end Incoming

namespace Custody

/-- A whole text as a stream. -/
def encrypt (text : Bytes) : CustodyAction Bytes := fun p =>
  match Outgoing.start { custody := p, sink := {} } with
  | (.error e, out) => (.error e, out.custody)
  | (.ok sealing, out) =>
    let finish : SealingStream.WriteAction Unit := do
      SealingStream.writeAll text
      SealingStream.finish
    match finish { sealing, sink := out.sink } with
    | (.ok _, stream) => (.ok stream.sink.content, out.custody)
    | (.error e, _) => (.error (.error (.io e)), out.custody)

/-- The text of a whole stream. -/
def decrypt (bytes : Bytes) : CustodyAction Bytes := fun p =>
  match Incoming.start { custody := p, source := .ofBytes bytes } with
  | (.error e, i) => (.error e, i.custody)
  | (.ok opening, i) =>
    ((OpeningStream.readToEnd { opening, source := i.source }).1.mapError fun e => .error (.io e),
      i.custody)

end Custody

end SealedStream
