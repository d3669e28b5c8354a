import SealedStream.Bytes
import SealedStream.IoError

/-!
# A tree of files

Every file has a number under which its content is kept. What is listed at a
place is a directory or the number of a file: a file that is given another name
stays the same file, and its content outlives its last name for whoever has it
open. `Files.faults` says which of the coming calls fail, so that a run with a
full disk or a crash is a run on another starting tree.
-/

namespace SealedStream

/-- Where something is listed: the names from the root down. -/
abbrev Place := List String

abbrev FileNumber := Nat

inductive Node where
  | directory
  | file (number : FileNumber)
  deriving DecidableEq, Repr

structure Fault where
  error : IoError
  /-- How many bytes a failing write leaves behind. -/
  written : Nat := 0
  deriving DecidableEq, Repr

structure Files where
  /-- What is listed below the root, which is always a directory. -/
  nodes : List (Place × Node) := []
  /-- The contents of all files there have been, each at its number. -/
  contents : List Bytes := []
  workingDirectory : Place := []
  /-- What becomes of the coming calls; after the end of the list none fails. -/
  faults : List (Option Fault) := []
  deriving DecidableEq, Repr

namespace Files

def node? (files : Files) (place : Place) : Option Node :=
  if place = [] then some .directory else files.nodes.lookup place

def erase (files : Files) (place : Place) : Files :=
  { files with nodes := files.nodes.filter fun entry => entry.1 ≠ place }

def put (files : Files) (place : Place) (node : Node) : Files :=
  { files with nodes := (place, node) :: (files.erase place).nodes }

/-- Without what is listed at a place and below it. -/
def eraseAll (files : Files) (place : Place) : Files :=
  { files with nodes := files.nodes.filter fun entry => ¬ place.isPrefixOf entry.1 }

theorem node?_erase (files : Files) (place other : Place) (h : place ≠ []) :
    (files.erase place).node? other = if other = place then none else files.node? other := by
  have lookup_filter (nodes : List (Place × Node)) :
      (nodes.filter fun entry => entry.1 ≠ place).lookup other =
        if other = place then none else nodes.lookup other := by
    induction nodes with
    | nil => simp
    | cons head rest ih => grind
  simp only [node?, erase, lookup_filter]
  grind

theorem node?_put (files : Files) (place other : Place) (node : Node) (h : place ≠ []) :
    (files.put place node).node? other = if other = place then some node else files.node? other := by
  have he := node?_erase files place other h
  by_cases ho : other = place
  · subst ho
    simp [node?, put, h]
  · simp only [node?, ho, if_false] at he
    simp only [node?, put, ho, if_false, List.lookup_cons, beq_eq_false_iff_ne.mpr ho, he]

/-- The content of a file. -/
def content (files : Files) (number : FileNumber) : Bytes := files.contents.getD number []

/-- What stands at a place: nothing, a directory, or a file with its content. -/
def standing (files : Files) (place : Place) : Option (Option Bytes) :=
  (files.node? place).map fun
    | .directory => none
    | .file number => some (files.content number)

def setContent (files : Files) (number : FileNumber) (bytes : Bytes) : Files :=
  { files with contents := files.contents.set number bytes }

theorem content_setContent (files : Files) (number other : FileNumber) (bytes : Bytes)
    (h : number < files.contents.length) :
    (files.setContent number bytes).content other = if other = number then bytes else files.content other := by
  simp only [content, setContent, List.getD_eq_getElem?_getD, List.getElem?_set]
  grind

/-- A new file with nothing in it, and its number. -/
def addFile (files : Files) (place : Place) : FileNumber × Files :=
  let number := files.contents.length
  (number, { files.put place (.file number) with contents := files.contents ++ [[]] })

end Files

end SealedStream
