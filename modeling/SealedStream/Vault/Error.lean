import SealedStream.IoError
import SealedStream.Text.Base64

/-!
# Why a vault refuses a request
-/

namespace SealedStream

/-- The length that a symmetric key must not have, in bytes. -/
def keyLengthText (length : Nat) : String :=
  s!"symmetric key must be 16 or 32 bytes, got {length}"

/-- Why a key is not generated or not accepted. -/
inductive Rejection where
  | emptyAlias
  | symmetricSize (bits : Nat)
  | keyPairSize (bits : Nat)
  | emptyWindow
  | keyLength (bytes : Nat)
  | described (text : String)
  deriving DecidableEq, Repr

def Rejection.message : Rejection → String
  | emptyAlias => "alias must not be empty"
  | symmetricSize bits => s!"symmetric key size {bits} bits"
  | keyPairSize bits => s!"key pair size {bits} bits (only 256 supported)"
  | emptyWindow => "empty validity window"
  | keyLength bytes => keyLengthText bytes
  | described text => text

/-- What is wrong with a vault document. -/
inductive VaultDefect where
  /-- Not a document of entries at all. -/
  | malformed
  | material (keyName : String) (e : Text.Base64.Error)
  | keyLength (keyName : String) (bytes : Nat)
  | secretLength (keyName : String)
  | described (text : String)
  deriving DecidableEq, Repr

def VaultDefect.message : VaultDefect → String
  | malformed => "malformed document"
  | material keyName e => s!"{keyName}: {e.message}"
  | keyLength keyName bytes => s!"{keyName}: unsupported key spec: {keyLengthText bytes}"
  | secretLength keyName => s!"{keyName}: secret key must be 32 bytes"
  | described text => text

inductive UnwrapDefect where
  | tooShort
  | notAuthentic
  | keyLength (bytes : Nat)
  | described (text : String)
  deriving DecidableEq, Repr

def UnwrapDefect.message : UnwrapDefect → String
  | tooShort => "wrapped key too short"
  | notAuthentic => "wrong key pair or tampered wrapped key"
  | keyLength bytes => s!"unsupported key spec: {keyLengthText bytes}"
  | described text => text

inductive VaultError where
  | unavailable (text : String)
  | locked
  | corrupted (defect : VaultDefect)
  | keyNotFound (keyName : String)
  | keyExpired (keyName : String)
  | unsupportedSpec (why : Rejection)
  | wrap (text : String)
  | unwrap (defect : UnwrapDefect)
  | io (e : IoError)
  deriving DecidableEq, Repr

namespace VaultError

def message : VaultError → String
  | unavailable text => s!"key vault unavailable: {text}"
  | locked => "key vault is locked"
  | corrupted defect => s!"key vault corrupted: {defect.message}"
  | keyNotFound keyName => s!"key not found: {keyName}"
  | keyExpired keyName => s!"key {keyName} is outside its validity window"
  | unsupportedSpec why => s!"unsupported key spec: {why.message}"
  | wrap text => s!"key wrap failed: {text}"
  | unwrap defect => s!"key unwrap failed: {defect.message}"
  | io e => s!"I/O error: {e.message}"

/-- The kind of the error. -/
def name : VaultError → String
  | unavailable _ => "Unavailable"
  | locked => "Locked"
  | corrupted _ => "Corrupted"
  | keyNotFound _ => "KeyNotFound"
  | keyExpired _ => "KeyExpired"
  | unsupportedSpec _ => "UnsupportedSpec"
  | wrap _ => "Wrap"
  | unwrap _ => "Unwrap"
  | io e => "Io." ++ e.kind.name

/-- The vault works but will not generate such a key. -/
def isGenerationRejected : VaultError → Bool
  | unsupportedSpec _ => true
  | _ => false

end VaultError

end SealedStream
