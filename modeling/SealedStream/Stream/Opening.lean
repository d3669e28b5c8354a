import SealedStream.ContentCipher

/-!
# Streams that are opened while they are read

The first read takes everything up to the end of the source and opens it, so
that no byte is given out before the whole is known to be authentic. What went
wrong there is final: later reads repeat the same error. Where a host has no
protection the bytes come straight from the source.
-/

namespace SealedStream

inductive OpeningState where
  | unread
  | opened (text : Bytes) (position : Nat)
  | failed (e : IoError)
  deriving DecidableEq

/-- A stream to be opened: its header is read, the rest is not. -/
structure Opening where
  key : SymmetricKey
  params : CipherParams
  state : OpeningState := .unread
  deriving DecidableEq

namespace Opening

def position (o : Opening) : Nat :=
  match o.state with
  | .opened _ position => position
  | _ => 0

def debugText (o : Opening) : String :=
  let decrypted := o.state matches .opened _ _
  let failed := o.state matches .failed _
  Text.recordText "DecryptReader"
    [("cipher", o.key.cipherText), ("decrypted", s!"{decrypted}"), ("failed", s!"{failed}"),
      ("position", s!"{o.position}")]

/-- Opens all that the source still delivers. -/
def openRest (o : Opening) : Action Source IoError Bytes := do
  let bytes ← Source.readToEnd
  Action.ofExcept ((o.key.openText o.params bytes).mapError fun e =>
    .custom .invalidData e.message)

/-- An error as it is told again. -/
def again (e : IoError) : IoError := .custom e.kind e.message

end Opening

/-- A source and what opens the bytes that come from it, if anything does. -/
structure OpeningStream where
  opening : Option Opening
  source : Source

namespace OpeningStream

abbrev ReadAction := Action OpeningStream IoError

def onSource {α : Type} (x : Action Source IoError α) : ReadAction α :=
  x.zoom source fun source stream => { stream with source }

def setState (o : Opening) (state : OpeningState) : ReadAction Unit :=
  modify fun stream => { stream with opening := some { o with state } }

/-- The text of a stream from its position on, opened now if it was not yet. -/
def available (o : Opening) : ReadAction Bytes :=
  match o.state with
  | .opened text position => pure (text.drop position)
  | .failed e => throw e
  | .unread => do
    match ← Action.attempt (onSource o.openRest) with
    | .ok text =>
      setState o (.opened text 0)
      return text
    | .error e =>
      setState o (.failed (Opening.again e))
      throw e

/-- Moves the position of an opened text forward. -/
def advance (length : Nat) : ReadAction Unit :=
  modify fun stream =>
    match stream.opening with
    | some { key, params, state := .opened text position } =>
      { stream with opening := some { key, params, state := .opened text (position + length) } }
    | _ => stream

/-- One read into a buffer of a size. -/
def read (length : Nat) : ReadAction Bytes := do
  match (← get).opening with
  | none => onSource (Source.read length)
  | some o =>
    let text ← available o
    let bytes := text.take length
    advance bytes.length
    return bytes

/-- Everything up to the end. -/
def readToEnd : ReadAction Bytes := do
  match (← get).opening with
  | none => onSource Source.readToEnd
  | some o =>
    let text ← available o
    advance text.length
    return text

end OpeningStream

end SealedStream
