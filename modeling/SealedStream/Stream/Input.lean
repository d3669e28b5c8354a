import SealedStream.Files.Step
import SealedStream.Stream.Source

/-!
# Open files as sources

A file that is open for reading delivers what it holds when it is read, not what
it held when it was opened.
-/

namespace SealedStream

namespace Files

variable {ε : Type}

/--
What a node delivers from an offset on. A call that fails delivers its error
first, and to who asks again what is there.
-/
def deliver (node : Node) (offset : Nat) : Action Files ε Source := fun files =>
  let rest := { files with faults := files.faults.tail }
  let source : Source := match files.contentOf node with
    | .ok bytes => [.chunk (bytes.drop offset)]
    | .error e => [.fault e]
  match files.faults.head? with
  | some (some fault) => (.ok (.fault fault.error :: source), rest)
  | _ => (.ok source, rest)

end Files

namespace Source

/-- No more than so many bytes of each chunk. -/
def upTo (length : Nat) (source : Source) : Source :=
  source.map fun
    | .chunk bytes => .chunk (bytes.take length)
    | fault => fault

end Source

end SealedStream
