import SealedStream.Config

/-!
# Capability tiers

Two thresholds divide the platform levels: no protection below the first, a
content key wrapped by a key pair of the vault up to the second, a content key
that the vault itself holds from there on.
-/

namespace SealedStream

inductive Tier where
  | unsupported
  | legacyWrapped
  | modernDirect
  deriving DecidableEq, Repr

namespace Tier

def isSupported : Tier → Bool
  | unsupported => false
  | _ => true

def label : Tier → String
  | unsupported => "unsupported"
  | legacyWrapped => "legacy-wrapped"
  | modernDirect => "modern-direct"

/-- The name of a tier in diagnostics. -/
def name : Tier → String
  | unsupported => "Unsupported"
  | legacyWrapped => "LegacyWrapped"
  | modernDirect => "ModernDirect"

end Tier

structure Thresholds where
  baseline : UInt32
  modern : UInt32
  deriving DecidableEq

def Config.thresholds (c : Config) : Thresholds := ⟨c.baselineLevel, c.modernLevel⟩

namespace Thresholds

def tierAt (t : Thresholds) (level : UInt32) : Tier :=
  if level < t.baseline then .unsupported
  else if level < t.modern then .legacyWrapped
  else .modernDirect

/-- The tier of a key by the level recorded for it: what exists was generated somewhere. -/
def keyTier (t : Thresholds) (marker : Int64) : Tier :=
  if (t.modern.toNat : Int) ≤ marker.toInt then .modernDirect else .legacyWrapped

end Thresholds

end SealedStream
