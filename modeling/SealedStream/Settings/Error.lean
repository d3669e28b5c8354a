import SealedStream.IoError

/-!
# Why the settings cannot be read or changed
-/

namespace SealedStream

inductive SettingType where
  | int
  | string
  deriving DecidableEq, Repr

def SettingType.name : SettingType → String
  | int => "int"
  | string => "string"

inductive SettingsError where
  | io (e : IoError)
  /-- The document is not one of settings. -/
  | malformed
  | corrupted (text : String)
  | typeMismatch (key : String) (expected actual : SettingType)
  deriving DecidableEq, Repr

namespace SettingsError

def message : SettingsError → String
  | io e => s!"I/O error: {e.message}"
  | malformed => "settings corrupted: malformed document"
  | corrupted text => s!"settings corrupted: {text}"
  | typeMismatch key expected actual =>
    s!"setting {key} has type {actual.name}, expected {expected.name}"

/-- The kind of the error. -/
def name : SettingsError → String
  | io e => "Io." ++ e.kind.name
  | malformed => "Corrupted"
  | corrupted _ => "Corrupted"
  | typeMismatch _ _ _ => "TypeMismatch"

end SettingsError

end SealedStream
