import SealedStream.Action
import SealedStream.Files.Resolution

/-!
# Changes to the tree

One definition for each call that changes what is listed or what a file holds.
A call that fails changes nothing, with one exception: making a directory and
those above it may fail when some of them have been made.
-/

namespace SealedStream.Files

def makeDir (path : Path) (files : Files) : Except IoError Files := do
  let spot ← files.spot path
  match spot.name with
  | none => throw (.system .alreadyExists)
  | some name =>
    match ← files.lookUp spot.directory name with
    | some _ => throw (.system .alreadyExists)
    | none => return files.put (spot.directory ++ [name]) .directory

/-- An empty file at a path: a new one, or the one that is there, emptied. -/
def create (path : Path) (files : Files) : Except IoError (FileNumber × Files) := do
  let spot ← files.spot path
  match spot.name with
  | none => throw (.system .isADirectory)
  | some name =>
    if spot.needsDirectory then throw (.system .isADirectory)
    match ← files.lookUp spot.directory name with
    | some .directory => throw (.system .isADirectory)
    | some (.file number) => return (number, files.setContent number [])
    | none => return files.addFile (spot.directory ++ [name])

/-- Bytes behind those that the file at a path holds. -/
def append (path : Path) (bytes : Bytes) (files : Files) : Except IoError Files := do
  match ← files.stat path with
  | .directory => throw (.system .isADirectory)
  | .file number => return files.setContent number (files.content number ++ bytes)

/-- Bytes in place of the first ones of a file, wherever it is listed. -/
def overwrite (number : FileNumber) (bytes : Bytes) (files : Files) : Files :=
  files.setContent number (bytes ++ (files.content number).drop bytes.length)

/--
Gives a file another path, in place of a file that was there. A file that is
there already stays. Directories keep their names.
-/
def rename (source target : Path) (files : Files) : Except IoError Files := do
  let old ← files.spot source
  let new ← files.spot target
  match old.name, new.name with
  | some oldName, some newName =>
    match ← files.lookUp old.directory oldName with
    | none => throw (.system .notFound)
    | some .directory => throw (.system .isADirectory)
    | some (.file number) =>
      let inTheWay ← files.lookUp new.directory newName
      if old.needsDirectory ∨ new.needsDirectory then throw (.system .notADirectory)
      if inTheWay = some .directory then throw (.system .isADirectory)
      if inTheWay = some (.file number) then return files
      return (files.erase (old.directory ++ [oldName])).put (new.directory ++ [newName]) (.file number)
  | _, _ => throw (.system .resourceBusy)

/-- Takes the name of a file away. -/
def remove (path : Path) (files : Files) : Except IoError Files := do
  let spot ← files.spot path
  match spot.name with
  | none => throw (.system .isADirectory)
  | some name =>
    match ← files.lookUp spot.directory name with
    | none => throw (.system .notFound)
    | some .directory => throw (.system .isADirectory)
    | some (.file _) =>
      if spot.needsDirectory then throw (.system .notADirectory)
      else return files.erase (spot.directory ++ [name])

/-- Takes away what is at a path and everything below it. -/
def removeTree (path : Path) (files : Files) : Except IoError Files := do
  let spot ← files.spot path
  match spot.name, ← files.stat path with
  | none, _ => throw (.system .invalidInput)
  | some name, _ => return files.eraseAll (spot.directory ++ [name])

/-- A change as a step that keeps the files as they are where it fails. -/
def change (f : Files → Except IoError Files) : Action Files IoError Unit := fun files =>
  match f files with
  | .ok changed => (.ok (), changed)
  | .error e => (.error e, files)

/-- Makes a directory. One that is there is as good as one just made. -/
def ensureDir (path : Path) : Action Files IoError Unit := fun files =>
  match files.makeDir path with
  | .ok changed => (.ok (), changed)
  | .error e => (if files.isDirectory path then .ok () else .error e, files)

/--
Makes the first directory of a list. Where there is nothing to make it in, those
that follow are made first.
-/
def makeInnermost : List Path → Action Files IoError Unit
  | [] => pure ()
  | path :: parents => do
    match makeDir path (← get) with
    | .error (.system .notFound) =>
      makeInnermost parents
      ensureDir path
    | _ => ensureDir path

/-- A directory and all directories above it, made where they are missing. -/
def makeDirs (path : Path) : Action Files IoError Unit :=
  makeInnermost ((path :: path.parents).filter fun p => p.toString ≠ "")

end SealedStream.Files
