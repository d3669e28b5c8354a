import SealedStream.ContentCipher

/-!
# Streams that are sealed while they are written

What is written is held back until the stream is finished; then the whole text
is sealed once and written behind the header. A stream that is abandoned leaves
nothing behind its header. Where a host has no protection the bytes go straight
to the sink.
-/

namespace SealedStream

/-- A stream to be sealed: its header is written, its text is not. -/
structure Sealing where
  key : SymmetricKey
  iv : Bytes
  /-- The text so far. -/
  buffer : Bytes := []
  finished : Bool := false
  deriving DecidableEq

namespace Sealing

def debugText (s : Sealing) : String :=
  Text.recordText "EncryptWriter"
    [("cipher", s.key.cipherText), ("buffered", s!"{s.buffer.length}"),
      ("finished", s!"{s.finished}")]

def writtenAfterEnd : IoError :=
  .custom .other "write after encrypted stream was finished"

end Sealing

/-- A sink and what seals the bytes on their way to it, if anything does. -/
structure SealingStream where
  sealing : Option Sealing
  sink : Sink

namespace SealingStream

abbrev WriteAction := Action SealingStream IoError

def onSink {α : Type} (x : Action Sink IoError α) : WriteAction α :=
  x.zoom sink fun sink stream => { stream with sink }

def setSealing (sealing : Sealing) : WriteAction Unit :=
  modify fun stream => { stream with sealing := some sealing }

/-- Takes bytes and tells how many it took. -/
def write (bytes : Bytes) : WriteAction Nat := do
  match (← get).sealing with
  | none => onSink (Sink.write bytes)
  | some s =>
    if s.finished then throw Sealing.writtenAfterEnd
    setSealing { s with buffer := s.buffer ++ bytes }
    return bytes.length

def writeAll (bytes : Bytes) : WriteAction Unit := do
  match (← get).sealing with
  | none => onSink (Sink.writeAll bytes)
  | some _ => if bytes ≠ [] then discard (write bytes)

def flush : WriteAction Unit := onSink Sink.flush

/-- The end of a sealed stream. It is tried once, whatever comes of it: no text is sealed twice. -/
def finishSealing (s : Sealing) : WriteAction Unit := do
  if s.finished then return
  setSealing { s with finished := true }
  match s.key.sealText s.iv s.buffer with
  | .error defect => throw (.custom .other (SealError.encryptionFailed defect).message)
  | .ok bytes =>
    setSealing { s with finished := true, buffer := [] }
    onSink (Sink.writeAll bytes)
    flush

def finish : WriteAction Unit := do
  match (← get).sealing with
  | none => flush
  | some s => finishSealing s

/-- Leaves the stream unfinished for good. -/
def abandon (stream : SealingStream) : SealingStream :=
  { stream with sealing := stream.sealing.map fun s => { s with finished := true, buffer := [] } }

end SealingStream

end SealedStream
