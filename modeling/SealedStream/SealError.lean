import SealedStream.Config
import SealedStream.Settings.Error
import SealedStream.Vault.Error

/-!
# Why a stream cannot be sealed or opened
-/

namespace SealedStream

/-- Why the wrapped content key in the settings is of no use. -/
inductive WrappedKeyDefect where
  | encoding (e : Text.Base64.Error)
  | described (text : String)
  deriving DecidableEq, Repr

def WrappedKeyDefect.message : WrappedKeyDefect → String
  | encoding e => e.message
  | described text => text

inductive OpenDefect where
  | tooShort
  | notAuthentic
  | described (text : String)
  deriving DecidableEq, Repr

def OpenDefect.message : OpenDefect → String
  | tooShort => "ciphertext too short"
  | notAuthentic => "authentication failed"
  | described text => text

inductive SealDefect where
  /-- The text is longer than the cipher takes. -/
  | tooLong
  | described (text : String)
  deriving DecidableEq, Repr

def SealDefect.message : SealDefect → String
  | tooLong => "encryption error"
  | described text => text

inductive SealError where
  | keyVault (e : VaultError)
  | keyGeneration (keyName : String) (e : VaultError)
  | settings (e : SettingsError)
  | io (e : IoError)
  | unsupportedPlatform (level : Nat)
  | invalidIvLength (expected actual : Nat)
  | truncatedHeader
  | corruptWrappedKey (defect : WrappedKeyDefect)
  | encryptionFailed (defect : SealDefect)
  | decryptionFailed (defect : OpenDefect)
  | invalidKeySize (actual : Nat)
  | invalidConfig (defect : ConfigDefect)
  deriving DecidableEq, Repr

namespace SealError

def message : SealError → String
  | keyVault e => s!"key vault error: {e.message}"
  | keyGeneration keyName e => s!"key generation rejected for {keyName}: {e.message}"
  | settings e => s!"settings error: {e.message}"
  | io e => s!"I/O error: {e.message}"
  | unsupportedPlatform level => s!"platform level {level} has no local encryption support"
  | invalidIvLength expected actual => s!"invalid IV length: expected {expected}, got {actual}"
  | truncatedHeader => "stream header truncated"
  | corruptWrappedKey defect => s!"corrupt wrapped key: {defect.message}"
  | encryptionFailed defect => s!"encryption failed: {defect.message}"
  | decryptionFailed defect => s!"decryption failed: {defect.message}"
  | invalidKeySize actual => s!"invalid key size: expected 16 or 32 bytes, got {actual}"
  | invalidConfig defect => s!"invalid configuration: {defect.message}"

/-- The kind of the error, and the kind of its cause. -/
def names : SealError → List String
  | keyVault e => ["KeyVault", e.name]
  | keyGeneration _ e => ["KeyGeneration", e.name]
  | settings e => ["Settings", e.name]
  | io e => ["Io", e.kind.name]
  | unsupportedPlatform _ => ["UnsupportedPlatform"]
  | invalidIvLength _ _ => ["InvalidIvLength"]
  | truncatedHeader => ["TruncatedHeader"]
  | corruptWrappedKey _ => ["CorruptWrappedKey"]
  | encryptionFailed _ => ["EncryptionFailed"]
  | decryptionFailed _ => ["DecryptionFailed"]
  | invalidKeySize _ => ["InvalidKeySize"]
  | invalidConfig _ => ["InvalidConfig"]

/-- What was read is not the beginning of a sealed stream. -/
def isCorruptHeader : SealError → Bool
  | invalidIvLength _ _ => true
  | truncatedHeader => true
  | _ => false

end SealError

end SealedStream
