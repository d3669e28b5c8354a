import SealedStream.ContentKey
import SealedStream.Host
import SealedStream.Platform

/-!
# The custodian of the content key

A custodian finds the key in the vault, recovers the wrapped one that an older
host left in the settings, or has a new one generated. The level at which a key
was generated is recorded beside it and tells its tier.
-/

namespace SealedStream

/-- What is known of the content key without resolving it. -/
structure KeyStatus where
  hostLevel : UInt32
  hostTier : Tier
  /-- The level recorded for the key, if one is. -/
  marker : Option Int64
  keyTier : Option Tier
  hasDirectKey : Bool
  hasWrapKey : Bool
  hasWrappedBlob : Bool
  cached : Bool
  deriving DecidableEq

structure Custodian where
  platform : Platform
  config : Config
  cached : Option ContentKey := none

namespace Custodian

def create (platform : Platform) (config : Config) : Except SealError Custodian := do
  config.validate.mapError .invalidConfig
  return { platform, config }

def hostTier (c : Custodian) : Tier := c.config.thresholds.tierAt c.platform.level

/-- The level recorded for the key; a key without one is taken for the host's own. -/
def readMarker (c : Custodian) : HostAction Int64 :=
  Host.readSettings (·.getInt c.config.levelSetting c.platform.marker)

def keyOf (c : Custodian) (key : SymmetricKey) (marker : Int64) (source : KeySource) :
    ContentKey where
  key := key
  tier := c.config.thresholds.keyTier marker
  source := source
  platformLevel := marker

/-- The bytes of a wrapped key as it stands in the settings, where blanks mean nothing. -/
def blobBytes (blob : String) : Except SealError Bytes :=
  (Text.Base64.decode (Text.withoutBlanks blob)).mapError fun e => .corruptWrappedKey (.encoding e)

/-- Unwraps the key in the settings; none if it or the key pair is missing. -/
def recoverWrapped (c : Custodian) : HostAction (Option SymmetricKey) := do
  match ← Host.readSettings (·.getString? c.config.wrappedKeySetting) with
  | none => return none
  | some blob =>
    match ← Host.onVault (VaultSite.privateKey c.config.wrapAlias) with
    | none => return none
    | some handle =>
      let wrapped ← Action.ofExcept ((blobBytes blob).mapError .error)
      let key ← Host.onVault (VaultSite.unwrap handle wrapped)
      return some key

/-- How a vault's error on generating under an alias is reported. -/
def generationError (keyName : String) (e : VaultError) : SealError :=
  if e.isGenerationRejected then .keyGeneration keyName e else .keyVault e

/-- A new key in the vault. The level is recorded after it. -/
def generateDirect (c : Custodian) : HostAction ContentKey := do
  let keyName := c.config.symmetricAlias
  let key ← Host.request (generationError keyName)
    (VaultSite.generateSymmetricKey keyName c.config.keySizeBits.toNat)
  Host.onSettings (SettingsSite.put c.config.levelSetting (.int c.platform.marker))
  return c.keyOf key c.platform.marker .generatedModern

def lookUpDirect (c : Custodian) : HostAction ContentKey := do
  let marker ← c.readMarker
  let keyName := c.config.symmetricAlias
  if ← Host.onVault (VaultSite.hasKey keyName) then
    match ← Host.onVault (VaultSite.symmetricKey keyName) with
    | some key => return c.keyOf key marker .vaultDirect
    | none => throw (.error (.keyVault (.keyNotFound keyName)))
  else
    match ← c.recoverWrapped with
    | some key => return c.keyOf key marker .migratedLegacy
    | none => c.generateDirect

/-- The window of a key pair generated now. -/
def newPairSpec (c : Custodian) : HostAction KeyPairSpec := do
  let host ← get
  match KeyPairSpec.validFor? c.config.keyPairSizeBits host.machine.now c.config.keyPairValidity with
  | some spec => return spec
  | none => throw (.abort .timeOverflow)

/-- A new key wrapped by a new key pair. Wrapped key and level are recorded together. -/
def generateWrapped (c : Custodian) : HostAction ContentKey := do
  let keyName := c.config.wrapAlias
  let spec ← c.newPairSpec
  let pair ← Host.request (generationError keyName) (VaultSite.generateKeyPair keyName spec)
  let material ← Host.randomBytes (c.config.keySizeBits.toNat / 8)
  let key ← Action.ofExcept ((SymmetricKey.ofBytes material).mapError fun length =>
    .error (.keyVault (.unsupportedSpec (.keyLength length))))
  let wrapped ← Host.onVault (VaultSite.wrap pair.publicKey key)
  Host.onSettings (SettingsSite.putAll
    [(c.config.wrappedKeySetting, .string (Text.Base64.encode wrapped)),
      (c.config.levelSetting, .int c.platform.marker)])
  return c.keyOf key c.platform.marker .generatedLegacy

def lookUpWrapped (c : Custodian) : HostAction ContentKey := do
  let marker ← c.readMarker
  match ← c.recoverWrapped with
  | some key => return c.keyOf key marker .migratedLegacy
  | none => c.generateWrapped

/-- Finds or generates the key, whatever is cached. -/
def lookUp (c : Custodian) : HostAction ContentKey :=
  match c.hostTier with
  | .modernDirect => c.lookUpDirect
  | .legacyWrapped => c.lookUpWrapped
  | .unsupported => throw (.error (.unsupportedPlatform c.platform.level.toNat))

def status (c : Custodian) : HostAction KeyStatus := do
  let marker ← Host.readSettings fun s =>
    match s.get? c.config.levelSetting with
    | some (.int level) => .ok (some level)
    | _ => .ok none
  let hasDirectKey ← Host.onVault (VaultSite.hasKey c.config.symmetricAlias)
  let hasWrapKey ← Host.onVault (VaultSite.hasKey c.config.wrapAlias)
  let blob ← Host.readSettings (·.getString? c.config.wrappedKeySetting)
  return {
    hostLevel := c.platform.level
    hostTier := c.hostTier
    marker := marker
    keyTier := marker.map c.config.thresholds.keyTier
    hasDirectKey := hasDirectKey
    hasWrapKey := hasWrapKey
    hasWrappedBlob := blob.isSome
    cached := c.cached.isSome }

def invalidate (c : Custodian) : Custodian := { c with cached := none }

def debugText (c : Custodian) (level : ProtectionLevel) : String :=
  Text.recordText "ProtectionKeyManager"
    [("host", c.platform.debugText), ("host_tier", c.hostTier.name),
      ("protection_level", level.name), ("cached", s!"{c.cached.isSome}")]

end Custodian

end SealedStream
