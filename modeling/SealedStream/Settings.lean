import SealedStream.Files.Replacement
import SealedStream.Settings.Document

/-!
# The settings

A small map from keys to whole numbers and texts, kept in memory alone or with
a document that follows every change. All entries of one update take place
together, once the document has been written, or none does.
-/

namespace SealedStream

/-- What stands behind the values in memory. -/
inductive Backing where
  | memory
  /-- Memory that takes no new values while it is read-only. -/
  | guarded (readOnly : Bool)
  | document (path : Path)
  deriving DecidableEq, Repr

structure Settings where
  values : Dict SettingValue := .empty
  backing : Backing := .memory

namespace Settings

def get? (s : Settings) (key : String) : Option SettingValue := s.values.get? key

def getInt (s : Settings) (key : String) (default : Int64) : Except SettingsError Int64 :=
  match s.get? key with
  | none => .ok default
  | some (.int value) => .ok value
  | some other => .error (.typeMismatch key .int other.type)

def getString? (s : Settings) (key : String) : Except SettingsError (Option String) :=
  match s.get? key with
  | none => .ok none
  | some (.string text) => .ok (some text)
  | some other => .error (.typeMismatch key .string other.type)

def readOnlyError : SettingsError :=
  .io (.custom .permissionDenied "settings store is read-only")

/-- Makes values durable, where there is a document. -/
def persist (backing : Backing) (values : Dict SettingValue) : Action Files SettingsError Unit :=
  match backing with
  | .document path => (Files.replace path (encode values)).mapError .io
  | _ => pure ()

/--
The settings whose document is at a path; where nothing is, empty ones. That one can see whether
anything is there is taken for granted: it is the reading that may fail.
-/
def openAt (path : Path) : Action Files SettingsError Settings := do
  let files ← get
  if files.exists? path then
    let document ← (Files.read path).mapError .io
    let values ← Action.ofExcept (decode document)
    return { values, backing := .document path }
  else return { backing := .document path }

end Settings

/-- Settings and the files they live in. -/
structure SettingsSite where
  settings : Settings := {}
  files : Files := {}

namespace SettingsSite

def onFiles {ε α : Type} (x : Action Files ε α) : Action SettingsSite ε α :=
  x.zoom files fun files site => { site with files }

/-- Makes the values those given, once they have been written. -/
def replaceValues (values : Dict SettingValue) : Action SettingsSite SettingsError Unit := do
  let site ← get
  onFiles (Settings.persist site.settings.backing values)
  modify fun site => { site with settings := { site.settings with values } }

/-- Puts all entries in order, so that of two under one key the later one stays. -/
def putAll (entries : List (String × SettingValue)) : Action SettingsSite SettingsError Unit := do
  let site ← get
  if site.settings.backing = .guarded true then throw Settings.readOnlyError
  replaceValues (site.settings.values.insertAll entries)

def put (key : String) (value : SettingValue) : Action SettingsSite SettingsError Unit :=
  putAll [(key, value)]

/-- Tells whether there was a value to remove. -/
def remove (key : String) : Action SettingsSite SettingsError Bool := do
  let site ← get
  let known := site.settings.values.contains key
  if known then replaceValues (site.settings.values.erase key)
  return known

end SettingsSite

end SealedStream
