/-!
# Paths

A path is kept as it is written: the pieces between its slashes, among them
empty ones, dots and the double dots that lead up. Where a path leads is for the
files to say; here it is only text, and an operation leaves what it does not
concern as it stands.
-/

namespace SealedStream

structure Path where
  /-- Written with a slash in front: from the root on. -/
  isAbsolute : Bool := false
  pieces : List String
  deriving DecidableEq, Repr

namespace Path

def ofString (text : String) : Path :=
  match (text.toList.splitOn '/').map String.ofList with
  | "" :: piece :: rest => ⟨true, piece :: rest⟩
  | pieces => ⟨false, pieces⟩

def toString (path : Path) : String :=
  (if path.isAbsolute then "/" else "") ++ "/".intercalate path.pieces

/-- A piece that leads nowhere: nothing between two slashes, or a dot. -/
def isIdle (piece : String) : Bool := piece = "" || piece = "."

/-- The piece that leads to the directory above. -/
def up : String := ".."

/-- Without the idle pieces at the end. -/
def withoutIdleEnd (pieces : List String) : List String :=
  (pieces.reverse.dropWhile isIdle).reverse

/-- The path without the idle pieces at its two ends. -/
def trimmed (path : Path) : Path :=
  { path with pieces := withoutIdleEnd (path.pieces.dropWhile isIdle) }

/-- A path on from a directory; an absolute one stands for itself. -/
def join (directory path : Path) : Path :=
  if path.isAbsolute then path
  else if directory.pieces.getLast? = some "" then
    { directory with pieces := directory.pieces.dropLast ++ path.pieces }
  else { directory with pieces := directory.pieces ++ path.pieces }

/-- The path on from a directory that it begins with. -/
def relativeTo? (path directory : Path) : Option Path :=
  if path.isAbsolute = directory.isAbsolute ∧ directory.pieces.isPrefixOf path.pieces then
    some (trimmed { pieces := path.pieces.drop directory.pieces.length })
  else none

/-- What is left at each step when pieces are taken off an end, idle ones together with the next. -/
def leftovers : List String → List (List String)
  | [] => []
  | piece :: rest => if isIdle piece then leftovers rest else rest.dropWhile isIdle :: leftovers rest

/-- The paths of all directories above a path as it is written, the innermost first. -/
def parents (path : Path) : List Path :=
  (leftovers path.pieces.reverse).map fun pieces => { path with pieces := pieces.reverse }

def parent? (path : Path) : Option Path := path.parents.head?

/-- The name that the path ends in, unless it ends on the way up or in no name at all. -/
def name? (path : Path) : Option String :=
  (withoutIdleEnd path.pieces).getLast?.filter (· ≠ up)

/-- A name without its extension: what stands before the last dot, unless nothing does. -/
def stem (name : String) : String :=
  match name.toList.reverse.dropWhile (· ≠ '.') with
  | _ :: before => if before.isEmpty then name else String.ofList before.reverse
  | [] => name

/--
The path with another extension in place of the one it has, if it has one. What
stands behind the name is left out. Of two dots with an extension at the very end
only the dots are left, which are no name and take no extension; a path that ends
in no name stays as it is.
-/
def withExtension (path : Path) (extension : String) : Path :=
  match path.name? with
  | none => path
  | some name =>
    let before := (withoutIdleEnd path.pieces).dropLast
    if stem name = "." ∧ path.pieces.getLast? = some name then
      { path with pieces := before ++ [up] }
    else { path with pieces := before ++ [stem name ++ "." ++ extension] }

end Path

end SealedStream
