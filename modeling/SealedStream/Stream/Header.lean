import SealedStream.SealError
import SealedStream.Stream.Sink
import SealedStream.Stream.Source

/-!
# The header of a sealed stream

One byte that counts the bytes of the initialisation vector, and those bytes.
The count is always twelve; a stream that begins with anything else is refused
as soon as that byte has been read.
-/

namespace SealedStream.Header

def ivSize : Nat := 12

def bytes (iv : Bytes) : Bytes := UInt8.ofNat ivSize :: iv

/-- Writes a header at once. Nothing is written for a vector of another size. -/
def write (iv : Bytes) : Action Sink SealError Unit :=
  if iv.length = ivSize then Action.mapError .io (Sink.writeAll (bytes iv))
  else throw (.invalidIvLength ivSize iv.length)

/-- An end of the source inside the header cuts it off; any other error is the source's own. -/
def readError (e : IoError) : SealError :=
  if e.kind = .unexpectedEof then .truncatedHeader else .io e

/-- The vector of the header at the front of a source. -/
def read : Action Source SealError Bytes := do
  let count ← (Source.readExact 1).mapError readError
  let count := (count.headD 0).toNat
  if count = ivSize then (Source.readExact ivSize).mapError readError
  else throw (.invalidIvLength ivSize count)

end SealedStream.Header
