import SealedStream.RandomSource
import SealedStream.SealError
import SealedStream.Settings
import SealedStream.Vault

/-!
# The host of a content key

The vault, the settings, a random source and the machine below them. A step
on one of these is a step on the host, with its errors worded as the library's.
-/

namespace SealedStream

/-- The stores and the surroundings that key custodians share. -/
structure Host where
  vault : Vault := {}
  requests : List Request := []
  settings : Settings := {}
  random : RandomSource
  machine : Machine

/-- A step on the host that may also end the process. -/
abbrev HostAction := Action Host (Failure SealError)

namespace Host

def vaultSite (host : Host) : VaultSite := ⟨host.vault, host.requests, host.machine⟩

def withVaultSite (site : VaultSite) (host : Host) : Host :=
  { host with vault := site.vault, requests := site.requests, machine := site.machine }

def settingsSite (host : Host) : SettingsSite := ⟨host.settings, host.machine.files⟩

def withSettingsSite (site : SettingsSite) (host : Host) : Host :=
  { host with settings := site.settings, machine := { host.machine with files := site.files } }

variable {α : Type}

/-- A request to the vault, whose errors are worded as given. -/
def request (wording : VaultError → SealError) (x : Action VaultSite VaultError α) : HostAction α :=
  Failure.lift wording (x.zoom vaultSite withVaultSite)

def onVault (x : Action VaultSite VaultError α) : HostAction α := request .keyVault x

def onSettings (x : Action SettingsSite SettingsError α) : HostAction α :=
  Failure.lift .settings (x.zoom settingsSite withSettingsSite)

/-- What the settings say, without a change to them. -/
def readSettings (x : Settings → Except SettingsError α) : HostAction α :=
  Failure.lift .settings (Action.reads fun host => x host.settings)

/-- The next bytes of the process's own random source. -/
def randomBytes (length : Nat) : HostAction Bytes :=
  modifyGet fun host =>
    let (bytes, random) := host.random.bytes length
    (bytes, { host with random })

/-- The next bytes of the operating system's entropy. -/
def systemBytes (length : Nat) : HostAction Bytes :=
  modifyGet fun host =>
    let (bytes, entropy) := host.machine.entropy.draw length
    (bytes, { host with machine := { host.machine with entropy } })

end Host

end SealedStream
