import SealedStream.Time

/-!
# Configuration

Thresholds, key sizes and the names under which keys and settings are kept.
`Config.validate` refuses what could not work; the first defect is the one
named.
-/

namespace SealedStream

inductive ConfigDefect where
  | keySize (bits : Nat)
  | levels (baseline modern : Nat)
  | emptyAlias
  | equalAliases
  /-- The variable for the platform level holds no number. -/
  | levelVariable (text : String)
  | tagLength (bits : Nat)
  | described (text : String)
  deriving DecidableEq, Repr

/-- The variable of the environment that tells the platform level. -/
def levelVariable : String := "LOCALSEAL_PLATFORM_LEVEL"

def ConfigDefect.message : ConfigDefect → String
  | keySize bits => s!"key size must be 128 or 256 bits, got {bits}"
  | levels baseline modern => s!"baseline level {baseline} is above modern level {modern}"
  | emptyAlias => "vault aliases must not be empty"
  | equalAliases => "symmetric and wrap aliases must differ"
  | .levelVariable text => s!"{SealedStream.levelVariable}={text} is not a number"
  | tagLength bits => s!"unsupported tag length {bits} bits"
  | described text => text

structure Config where
  /-- The lowest level with any protection. -/
  baselineLevel : UInt32 := 19
  /-- The lowest level whose vault can hold the content key itself. -/
  modernLevel : UInt32 := 23
  keySizeBits : UInt32 := 128
  keyPairSizeBits : UInt32 := 256
  keyPairValidity : Duration := .ofSeconds (10 * 365 * 24 * 60 * 60)
  symmetricAlias : String := "aes_local_protection"
  wrapAlias : String := "wrap_local_protection"
  /-- The setting that holds the wrapped content key. -/
  wrappedKeySetting : String := "aes_wrapped_local_protection"
  /-- The setting that holds the level at which the content key was generated. -/
  levelSetting : String := "platform_level_when_key_generated"
  deriving DecidableEq

namespace Config

def validate (c : Config) : Except ConfigDefect Unit := do
  if c.keySizeBits ≠ 128 ∧ c.keySizeBits ≠ 256 then throw (.keySize c.keySizeBits.toNat)
  if c.modernLevel < c.baselineLevel then
    throw (.levels c.baselineLevel.toNat c.modernLevel.toNat)
  if c.symmetricAlias = "" ∨ c.wrapAlias = "" then throw .emptyAlias
  if c.symmetricAlias = c.wrapAlias then throw .equalAliases

end Config

end SealedStream
