import SealedStream.CommandLine.Program
import Std.Time.DateTime.Timestamp

/-!
# The program

Takes what a run may look at from the file system, runs it, and brings what it
changed back.
-/

namespace SealedStream.Main

/-- Every place that a walk along a path may come by. -/
def placesAlong (start : Place) (path : Path) : List Place :=
  let next (place : Place) (piece : String) : Place :=
    if Path.isIdle piece then place
    else if piece = Path.up then place.dropLast
    else place ++ [piece]
  let places := path.pieces.foldl (fun places piece => next (places.headD []) piece :: places)
    [if path.isAbsolute then [] else start]
  places.reverse

/-- All places that a run may have to do with, each behind those above it. -/
def placesOf (start : Place) (paths : List Path) : List Place :=
  let places := start :: paths.flatMap (placesAlong start)
  (places.flatMap fun place => (List.range (place.length + 1)).map place.take).eraseDups.filter (· ≠ [])

def nameOf (place : Place) : String := "/" ++ "/".intercalate place

def snapshot (start : Place) (places : List Place) : IO Files := do
  let here ← IO.currentDir
  let mut files : Files := { workingDirectory := start }
  for place in places do
    let path := here / nameOf place
    if ← path.isDir then files := files.put place .directory
    else if ← path.pathExists then
      let bytes ← IO.FS.readBinFile path
      let (number, added) := files.addFile place
      files := added.setContent number bytes.data.toList
  return files

def bringBack (places : List Place) (before after : Files) : IO Unit := do
  for place in places do
    let name := nameOf place
    if before.standing place ≠ after.standing place then
      match after.standing place with
      | some none => IO.FS.createDirAll name
      | some (some content) =>
        IO.FS.writeBinFile (name ++ "~") ⟨content.toArray⟩
        IO.FS.rename (name ++ "~") name
      | none => IO.FS.removeFile name

/-- More entropy than any run draws. -/
def entropySize : USize := 1024

def entropy : IO Entropy := do
  let bytes ← IO.getRandomBytes entropySize
  return { byte := fun i => bytes.data.getD i 0 }

def now : IO Time := do
  let t ← Std.Time.Timestamp.now
  return ⟨t.toNanosecondsSinceUnixEpoch.val⟩

def main (arguments : List String) : IO UInt32 := do
  let start := (Path.ofString (← IO.currentDir).toString).steps
  let places := match CommandLine.parse arguments with
    | .ok inv => placesOf start inv.paths
    | .error _ => []
  let level ← IO.getEnv levelVariable
  let files ← snapshot start places
  let machine : Machine := { files, entropy := ← entropy, now := ← now }
  let (outcome, machine) := CommandLine.run arguments (level.map Bytes.ofString) machine
  bringBack places files machine.files
  IO.print outcome.output
  if let some e := outcome.error then
    IO.eprintln s!"Error: {e.message}"
  return UInt32.ofNat outcome.exitCode

end SealedStream.Main

def main (arguments : List String) : IO UInt32 := SealedStream.Main.main arguments
