import SealedStream.Files.Step

/-!
# Replacing a document

The new text of a document is complete in a second file before it takes the
place of the old one, so that at every moment there is one text or the other.
-/

namespace SealedStream.Files

/-- Where the next document is written before it takes its place. -/
def draftPath (path : Path) : Path := path.withExtension "tmp"

def makeParent (path : Path) : List FileStep := path.parent?.toList.map .makeDirs

/-- The calls that give a path a new content. -/
def replaceSteps (path : Path) (content : Bytes) : List FileStep :=
  let draft := draftPath path
  makeParent path ++ [.create draft, .write draft content, .sync draft, .rename draft path]

def replace (path : Path) (content : Bytes) : Action Files IoError Unit :=
  FileStep.runAll (replaceSteps path content)

/-- Writes a file at once, in directories that are made where they are missing. -/
def writeWithParents (path : Path) (content : Bytes) : Action Files IoError Unit :=
  FileStep.runAll (makeParent path ++ [.create path, .write path content])

end SealedStream.Files
