import SealedStream.Files
import SealedStream.Path

/-!
# Where a path leads

A path is walked piece by piece, from the root or from the working directory.
What stands before the last piece must be there and be a directory, also where
two dots lead up again from it at once. The last piece may be a name under which
nothing is listed yet; with a slash behind it, it stands for a directory.
-/

namespace SealedStream

namespace Path

/-- The pieces that a walk has to do with. -/
def steps (path : Path) : List String := path.pieces.filter (· ≠ "")

def endsInSlash (path : Path) : Bool := path.pieces.getLast? = some ""

/-- A character that no path may hold. -/
def hasTerminator (path : Path) : Bool := path.pieces.any fun piece => piece.toList.contains '\x00'

/-- The most bytes that a path may have. -/
def longest : Nat := 4095

/-- The most bytes that a name may have. -/
def longestName : Nat := 255

end Path

/-- What a path leads to: a directory, or a name in it. -/
structure Spot where
  directory : Place
  name : Option String
  /-- Whatever the name stands for must be a directory. -/
  needsDirectory : Bool
  deriving DecidableEq, Repr

namespace Files

/-- What is listed under a name of a directory. -/
def lookUp (files : Files) (directory : Place) (name : String) : Except IoError (Option Node) :=
  if Path.longestName < name.utf8ByteSize then .error (.system .invalidFilename)
  else .ok (files.node? (directory ++ [name]))

/-- One step on a walk, which ends in a directory again. -/
def enter (files : Files) (place : Place) (piece : String) : Except IoError Place :=
  if Path.isIdle piece then .ok place
  else if piece = Path.up then .ok place.dropLast
  else
    match files.lookUp place piece with
    | .ok (some .directory) => .ok (place ++ [piece])
    | .ok (some (.file _)) => .error (.system .notADirectory)
    | .ok none => .error (.system .notFound)
    | .error e => .error e

def start (files : Files) (path : Path) : Place :=
  if path.isAbsolute then [] else files.workingDirectory

def spot (files : Files) (path : Path) : Except IoError Spot := do
  if path.hasTerminator then
    throw (.custom .invalidInput "file name contained an unexpected NUL byte")
  if Path.longest < path.toString.utf8ByteSize then throw (.system .invalidFilename)
  match path.steps.getLast? with
  | none =>
    if path.isAbsolute then return ⟨[], none, false⟩
    else throw (.system .notFound)
  | some last =>
    let directory ← path.steps.dropLast.foldlM files.enter (files.start path)
    if Path.isIdle last then return ⟨directory, none, false⟩
    else if last = Path.up then return ⟨directory.dropLast, none, false⟩
    else return ⟨directory, some last, path.endsInSlash⟩

/-- What is at the end of a path. -/
def stat (files : Files) (path : Path) : Except IoError Node := do
  let spot ← files.spot path
  match spot.name with
  | none => return .directory
  | some name =>
    match ← files.lookUp spot.directory name with
    | none => throw (.system .notFound)
    | some .directory => return .directory
    | some (.file number) =>
      if spot.needsDirectory then throw (.system .notADirectory)
      else return .file number

/--
There is something at the end of a path, and it can be reached. Looking there is no call that meets
a fault: `Files.faults` is for the calls that read and change something.
-/
def exists? (files : Files) (path : Path) : Bool :=
  match files.stat path with
  | .ok _ => true
  | .error _ => false

def isDirectory (files : Files) (path : Path) : Bool :=
  match files.stat path with
  | .ok .directory => true
  | _ => false

/-- What is read from a node: a directory can be opened, but nothing is read from it. -/
def contentOf (files : Files) : Node → Except IoError Bytes
  | .directory => .error (.system .isADirectory)
  | .file number => .ok (files.content number)

def content? (files : Files) (path : Path) : Except IoError Bytes :=
  files.stat path >>= files.contentOf

/-- What files hold has no say in where a path leads. -/
theorem spot_setContent (files : Files) (number : FileNumber) (bytes : Bytes) (path : Path) :
    (files.setContent number bytes).spot path = files.spot path := rfl

theorem stat_setContent (files : Files) (number : FileNumber) (bytes : Bytes) (path : Path) :
    (files.setContent number bytes).stat path = files.stat path := rfl

end Files

end SealedStream
