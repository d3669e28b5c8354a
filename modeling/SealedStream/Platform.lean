import SealedStream.Bytes
import SealedStream.Config
import SealedStream.Text.Blank
import SealedStream.Text.Decimal
import SealedStream.Text.Quoted

/-!
# The platform that a program runs on

Its level decides what protection there is. A variable of the environment may
tell the level; it is recorded in the settings when a key is generated.
-/

namespace SealedStream

/-- The platform a program runs on. -/
structure Platform where
  level : UInt32
  deriving DecidableEq

namespace Platform

/-- The level that a variable of the environment tells; one that is no text counts as unset. -/
def ofVariable (value : Option Bytes) (default : UInt32) : Except ConfigDefect Platform :=
  match value.bind Bytes.toString? with
  | none => .ok ⟨default⟩
  | some text =>
    match Text.Decimal.unsignedBelow? UInt32.size (Text.trimmed text) with
    | some level => .ok ⟨UInt32.ofNat level⟩
    | none => .error (.levelVariable text)

/-- The level as it is recorded in the settings. -/
def marker (p : Platform) : Int64 := Int64.ofNat p.level.toNat

def debugText (p : Platform) : String :=
  Text.recordText "HostProfile" [("platform_level", s!"{p.level.toNat}")]

end Platform

end SealedStream
