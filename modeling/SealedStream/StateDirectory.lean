import SealedStream.Custody

/-!
# The state of a host in a directory

One file for the vault and one for the settings. A process that starts opens
both and seeds a random source of its own.
-/

namespace SealedStream

inductive StateError where
  | vault (e : VaultError)
  | settings (e : SettingsError)
  deriving DecidableEq, Repr

namespace Host

def vaultFile : Path := .ofString "vault.json"
def settingsFile : Path := .ofString "settings.json"

/-- A host with nothing stored, and nothing to store it in. -/
def fresh (machine : Machine) : Host :=
  let (random, entropy) := RandomSource.create machine.entropy
  { random, machine := { machine with entropy } }

/-- The host whose state is in a directory. -/
def openIn (directory : Path) : Action Machine (Failure StateError) Host := do
  let vault ← Machine.onFiles
    ((Vault.openAt (directory.join vaultFile)).mapError fun e => e.map StateError.vault)
  let settings ← Machine.onFiles
    (Failure.lift StateError.settings (Settings.openAt (directory.join settingsFile)))
  let random ← Machine.draw RandomSource.create
  let machine ← get
  return { vault, settings, random, machine }

end Host

end SealedStream
