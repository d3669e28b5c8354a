import SealedStream.CommandLine.Arguments
import SealedStream.CommandLine.KeyReport
import SealedStream.StateDirectory
import SealedStream.Stream.Input
import SealedStream.Stream.Protected

/-!
# The commands

`encrypt` and `decrypt` write to a draft beside the output, which takes the
output's place when it is complete; a command that fails on the way removes its
draft. Nothing is written for a stream that does not open.
-/

namespace SealedStream.CommandLine

inductive CommandError where
  /-- A file could not be used. -/
  | file (e : IoError)
  | vault (e : VaultError)
  | settings (e : SettingsError)
  | stream (e : SealError)
  | described (text : String)
  deriving DecidableEq, Repr

def CommandError.message : CommandError → String
  | file e => e.message
  | vault e => e.message
  | settings e => e.message
  | stream e => e.message
  | described text => text

def CommandError.ofState : StateError → CommandError
  | .vault e => vault e
  | .settings e => settings e

abbrev CommandAction := Action Custody (Failure CommandError)

variable {α : Type}

def onFiles {ε : Type} (x : Action Files ε α) : Action Custody ε α :=
  x.zoom (fun p => p.host.machine.files) fun files p =>
    { p with host := { p.host with machine := { p.host.machine with files } } }

/-- A step on files whose errors end the command. -/
def file (x : Action Files IoError α) : CommandAction α :=
  Failure.lift .file (onFiles x)

/-- How much of an input is read at a time. -/
def readAhead : Nat := 8192

def draftOf (output : String) : Path := Path.ofString (output ++ ".tmp")

/-- What a finished copy tells: how many bytes it took, and whether it left them as they were. -/
structure Copied where
  bytes : Nat
  passthrough : Bool
  deriving DecidableEq

/-- What was sealed, and all that the sink has taken, which is there also after a failure. -/
abbrev SealedInput := Except (Failure CommandError) Copied × Bytes

/-- Seals a text onto a sink that has taken the beginning of the stream. -/
def sealText (sealing : Option Sealing) (sink : Sink) (text : Bytes) : SealedInput :=
  let finish : SealingStream.WriteAction Unit := do
    SealingStream.writeAll text
    SealingStream.finish
  let (answer, stream) := finish { sealing, sink }
  let copied : Copied := { bytes := text.length, passthrough := sealing.isNone }
  ((answer.map fun _ => copied).mapError fun e => .error (.file e), stream.sink.content)

/-- Begins a stream on an empty sink. -/
def beginSealing : CommandAction (Except (Failure CommandError) (Option Sealing) × Sink) := fun p =>
  let (answer, out) := Outgoing.start { custody := p, sink := {} }
  (.ok (answer.mapError fun e => e.map .stream, out.sink), out.custody)

/-- Seals an open input, which is read when the stream has begun. -/
def sealInput (input : Node) : CommandAction SealedInput := do
  let (answer, sink) ← beginSealing
  match answer with
  | .error e => return (.error e, sink.content)
  | .ok sealing =>
    let source ← onFiles (Files.deliver input 0)
    match source.readToEnd with
    | (.ok text, _) => return sealText sealing sink text
    | (.error e, _) => return (.error (.error (.file e)), sink.content)

/--
Seals an open input into a draft. What a failed attempt had sealed is in the
draft as well. The draft is written to wherever it is: the state that is stored
on the way may have taken it for its own.
-/
def writeSealed (input : Node) (draft : Path) : CommandAction Copied := do
  let number ← file (Files.createAt draft)
  let (answer, bytes) ← sealInput input
  match answer with
  | .ok copied =>
    file (FileStep.overwrite number bytes).run
    file (FileStep.sync draft).run
    return copied
  | .error e =>
    discard (onFiles (FileStep.overwrite number bytes).run).attempt
    throw e

/-- Removes a draft, if that is possible. -/
def discardDraft (draft : Path) : CommandAction Unit :=
  discard (onFiles (FileStep.remove draft).run).attempt

def encryptFile (input output : String) : CommandAction String := do
  let draft := draftOf output
  let node ← file (Files.openAt (Path.ofString input))
  match ← (writeSealed node draft).attempt with
  | .error (.abort why) => throw (.abort why)
  | .error (.error e) =>
    discardDraft draft
    throw (.error e)
  | .ok copied =>
    file (FileStep.rename draft (Path.ofString output)).run
    if copied.passthrough then
      let level := (← get).custodian.platform.level.toNat
      return s!"Platform level {level} has no local encryption support; copied {copied.bytes} bytes unencrypted\n"
    else return s!"Encrypted {copied.bytes} bytes to {output}\n"

/-- The error on an input that does not begin as it should. -/
def beginningError (input : String) (e : SealError) : CommandError :=
  if e.isCorruptHeader then .described s!"{input} is not a LocalSeal stream: {e.message}"
  else .described e.message

/-- A stream of which the beginning has been read. -/
structure Begun where
  opening : Option Opening
  /-- What has been read ahead of it. -/
  ahead : Source
  /-- How far the input has been read. -/
  offset : Nat

/-- Reads the beginning of a stream from an open input, if streams begin with anything. -/
def beginOpening (input : String) (node : Node) : CommandAction Begun := do
  let first ← if (← get).isProtected then onFiles (Files.deliver node 0) else pure []
  let ahead := first.upTo readAhead
  fun p =>
    match Incoming.start { custody := p, source := ahead } with
    | (.error e, i) => (.error (e.map (beginningError input)), i.custody)
    | (.ok opening, i) => (.ok { opening, ahead := i.source, offset := ahead.size }, i.custody)

/-- Opens a stream into a draft, which is emptied before the rest of the input is read. -/
def writeOpened (node : Node) (draft : Path) (begun : Begun) : Action Files IoError Nat := do
  let number ← Files.createAt draft
  let rest ← Files.deliver node begun.offset
  let stream : OpeningStream := { opening := begun.opening, source := begun.ahead ++ rest }
  let text ← Action.ofExcept stream.readToEnd.1
  (FileStep.overwrite number text).run
  (FileStep.sync draft).run
  return text.length

/-- The error on a stream whose bytes could not all be opened and written. -/
def openingError (input : String) (e : IoError) : CommandError :=
  if e.kind = .invalidData then .described s!"{input} failed authentication: {e.message}"
  else .file e

def decryptFile (input output : String) : CommandAction String := do
  let draft := draftOf output
  let node ← file (Files.openAt (Path.ofString input))
  let begun ← beginOpening input node
  match ← (onFiles (writeOpened node draft begun)).attempt with
  | .error e =>
    discardDraft draft
    throw (.error (openingError input e))
  | .ok copied =>
    file (FileStep.rename draft (Path.ofString output)).run
    return s!"Decrypted {copied} bytes to {output}\n"

def reportStatus (format : String) : CommandAction String := do
  let status ← Custody.status.mapError fun e => e.map .stream
  return KeyReport.text status format

def versionNumber : String := "0.3.0"

def versionText : String :=
  s!"LocalSeal CLI v{versionNumber}\nLocalSeal Core v{versionNumber}\n"

/-- The host of a run: the level that was asked for, or the environment's, or the modern one. -/
def platformOf (level : Option UInt32) (levelBytes : Option Bytes) : Except CommandError Platform :=
  match level with
  | some level => .ok ⟨level⟩
  | none => (Platform.ofVariable levelBytes ({} : Config).modernLevel).mapError fun defect =>
    .stream (.invalidConfig defect)

/-- Opens the state of a run, whose directory is made first. -/
def openCustody (inv : Invocation) (levelBytes : Option Bytes) :
    Action Machine (Failure CommandError) Custody := do
  let directory := Path.ofString inv.stateDirectory
  Failure.lift .file (Machine.onFiles (FileStep.makeDirs directory).run)
  let platform ← Action.ofExcept ((platformOf inv.level levelBytes).mapError .error)
  let host ← (Host.openIn directory).mapError fun e => e.map .ofState
  let custodian ← Action.ofExcept ((Custodian.create platform {}).mapError fun e => .error (.stream e))
  return { custodian, host }

/-- What a command prints, run on an open state. -/
def Command.action : Command → CommandAction String
  | encrypt input output => encryptFile input output
  | decrypt input output => decryptFile input output
  | status format => reportStatus format
  | version => pure versionText

def Invocation.action (inv : Invocation) (levelBytes : Option Bytes) :
    Action Machine (Failure CommandError) String :=
  match inv.command with
  | .version => pure versionText
  | command => do
    let p ← openCustody inv levelBytes
    let (answer, p) := command.action p
    set p.host.machine
    Action.ofExcept answer

/-- The paths that a run may look at or change. -/
def Invocation.paths (inv : Invocation) : List Path :=
  let directory := Path.ofString inv.stateDirectory
  let documents := [Host.vaultFile, Host.settingsFile].map directory.join
  let streams := match inv.command with
    | .encrypt input output => [Path.ofString input, Path.ofString output, draftOf output]
    | .decrypt input output => [Path.ofString input, Path.ofString output, draftOf output]
    | _ => []
  documents ++ documents.map Files.draftPath ++ streams

/-- How a run ends. -/
structure Outcome where
  exitCode : Nat
  output : String := ""
  error : Option CommandError := none
  deriving DecidableEq

namespace Outcome

def ofAnswer : Except (Failure CommandError) String → Outcome
  | .ok output => { exitCode := 0, output }
  | .error (.error e) => { exitCode := 1, error := some e }
  | .error (.abort _) => { exitCode := 101 }

def ofStop : Stop → Outcome
  | .usage => { exitCode := 2 }
  | .help => { exitCode := 0, output := "Usage: localseal [OPTIONS] <COMMAND>\n" }
  | .version => { exitCode := 0, output := s!"localseal {versionNumber}\n" }

end Outcome

/-- One run of the program. -/
def run (arguments : List String) (levelBytes : Option Bytes) (machine : Machine) : Outcome × Machine :=
  match parse arguments with
  | .error stop => (.ofStop stop, machine)
  | .ok inv =>
    let (answer, machine) := inv.action levelBytes machine
    (.ofAnswer answer, machine)

end SealedStream.CommandLine
