import SealedStream.Text.Quoted
import SealedStream.Tier
import SealedStream.Vault.Key

/-!
# The content key

One long-lived key protects all streams of a host. It carries how it was come
by, and the level and tier of the host that it was generated on.
-/

namespace SealedStream

inductive KeySource where
  | vaultDirect
  | migratedLegacy
  | generatedModern
  | generatedLegacy
  deriving DecidableEq, Repr

namespace KeySource

def name : KeySource → String
  | vaultDirect => "VaultDirect"
  | migratedLegacy => "MigratedLegacy"
  | generatedModern => "GeneratedModern"
  | generatedLegacy => "GeneratedLegacy"

/-- The key did not exist before. -/
def isGenerated : KeySource → Bool
  | generatedModern => true
  | generatedLegacy => true
  | _ => false

end KeySource

/-- The content key. Its tier is that of the host it was generated on. -/
structure ContentKey where
  key : SymmetricKey
  tier : Tier
  source : KeySource
  platformLevel : Int64
  deriving DecidableEq

def ContentKey.debugText (k : ContentKey) : String :=
  Text.recordText "ProtectionKey"
    [("tier", k.tier.name), ("source", k.source.name),
      ("platform_level", s!"{k.platformLevel.toInt}"), ("size_bits", s!"{k.key.sizeBits}")]

end SealedStream
