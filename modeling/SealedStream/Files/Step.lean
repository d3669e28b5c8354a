import SealedStream.Files.Change

/-!
# Calls that may fail

Each `FileStep` is one call: it happens as a whole, except that a write which
fails may leave the first bytes of what it had to write.
-/

namespace SealedStream

namespace Files

variable {α : Type}

/-- A call, unless the next fault is for it: then what the fault leaves behind. -/
def call (x : Action Files IoError α) (leftover : Nat → Files → Files) : Action Files IoError α :=
  fun files =>
    let rest := { files with faults := files.faults.tail }
    match files.faults.head? with
    | some (some fault) => (.error fault.error, leftover fault.written rest)
    | _ => x rest

/-- A call that either happens or changes nothing. -/
def callOrNothing (x : Action Files IoError α) : Action Files IoError α := call x fun _ files => files

/-- Opens what is at a path, for reading. -/
def openAt (path : Path) : Action Files IoError Node :=
  callOrNothing (Action.reads (·.stat path))

/-- Creates a file, which stays open for writing. -/
def createAt (path : Path) : Action Files IoError FileNumber :=
  callOrNothing fun files =>
    match files.create path with
    | .ok (number, changed) => (.ok number, changed)
    | .error e => (.error e, files)

/-- The whole content of a file. -/
def read (path : Path) : Action Files IoError Bytes :=
  callOrNothing (Action.reads (·.content? path))

end Files

/-- A call that changes the files. -/
inductive FileStep where
  | makeDirs (path : Path)
  | create (path : Path)
  | write (path : Path) (bytes : Bytes)
  /-- Bytes written from the beginning of a file that has been open since it was created. -/
  | overwrite (number : FileNumber) (bytes : Bytes)
  | sync (path : Path)
  | rename (source target : Path)
  | remove (path : Path)
  deriving DecidableEq, Repr

namespace FileStep

def apply : FileStep → Action Files IoError Unit
  | makeDirs path => Files.makeDirs path
  | create path => Files.change fun files => (files.create path).map Prod.snd
  | write path bytes => Files.change (Files.append path bytes)
  | overwrite number bytes => modify (Files.overwrite number bytes)
  | sync _ => pure ()
  | rename source target => Files.change (Files.rename source target)
  | remove path => Files.change (Files.remove path)

/-- What a failing call leaves behind: nothing, or the first bytes of a write. -/
def leftover (kept : Nat) : FileStep → Files → Files
  | write path bytes, files => ((Files.append path (bytes.take kept) files).toOption).getD files
  | overwrite number bytes, files => Files.overwrite number (bytes.take kept) files
  | _, files => files

/-- One call, unless the next fault is for it. -/
def run (step : FileStep) : Action Files IoError Unit :=
  Files.call step.apply fun kept files => step.leftover kept files

/-- Calls in order, up to the first that fails. -/
def runAll : List FileStep → Action Files IoError Unit
  | [] => pure ()
  | step :: rest => do
    step.run
    runAll rest

end FileStep

end SealedStream
