import SealedStream.Action
import SealedStream.Bytes
import SealedStream.IoError

/-!
# Where a stream is read from

A source delivers chunks of bytes and may raise errors between them. A read
never goes past the current chunk; `readExact` and `readToEnd` go on over
chunks and interruptions, so that what they answer does not depend on how the
bytes are cut.
-/

namespace SealedStream

inductive SourceItem where
  | chunk (bytes : Bytes)
  | fault (e : IoError)
  deriving DecidableEq, Repr

abbrev Source := List SourceItem

namespace Source

def ofBytes (bytes : Bytes) : Source := [.chunk bytes]

/-- How many bytes the source still holds. -/
def size : Source → Nat
  | [] => 0
  | .chunk bytes :: rest => bytes.length + size rest
  | .fault _ :: rest => size rest

/-- One read into a buffer of a size: at most the rest of the current chunk. -/
def read (length : Nat) : Action Source IoError Bytes
  | [] => (.ok [], [])
  | .chunk [] :: rest => read length rest
  | .chunk bytes :: rest => (.ok (bytes.take length), .chunk (bytes.drop length) :: rest)
  | .fault e :: rest => (.error e, rest)

/-- Exactly so many bytes; on an error those read so far are gone. -/
def readExact : (length : Nat) → Action Source IoError Bytes
  | 0, source => (.ok [], source)
  | _ + 1, [] => (.error .unfilled, [])
  | length + 1, .chunk bytes :: rest =>
    if length + 1 ≤ bytes.length then
      (.ok (bytes.take (length + 1)), .chunk (bytes.drop (length + 1)) :: rest)
    else
      let (answer, rest) := readExact (length + 1 - bytes.length) rest
      (answer.map (bytes ++ ·), rest)
  | length + 1, .fault e :: rest => if e.isInterrupted then readExact (length + 1) rest else (.error e, rest)

/-- All bytes up to the end. -/
def readToEnd : Action Source IoError Bytes
  | [] => (.ok [], [])
  | .chunk bytes :: rest =>
    let (answer, rest) := readToEnd rest
    (answer.map (bytes ++ ·), rest)
  | .fault e :: rest => if e.isInterrupted then readToEnd rest else (.error e, rest)

end Source

end SealedStream
