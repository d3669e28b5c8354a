import SealedStream.StateDirectory
import SealedStream.Stream.Protected

/-!
# A bench of stores and custodians

Several vaults, settings and random sources may be made one after the other on
one machine; the last of each is the current one. A custodian goes on with the
stores that were current when it was made, whatever is made after it.
-/

namespace SealedStream.Exercise

/-- A vault and all requests made to it. -/
structure WatchedVault where
  vault : Vault := {}
  requests : List Request := []

/-- A custodian and where its stores stand. -/
structure Stationed where
  custodian : Custodian
  vault : Nat
  settings : Nat
  random : Nat

structure Workbench where
  machine : Machine
  vaults : Array WatchedVault := #[{}]
  settings : Array Settings := #[{}]
  randoms : Array RandomSource := #[]
  custodians : Dict Stationed := .empty

namespace Workbench

variable {ε α : Type}

/-- A random source of its own becomes the current one. -/
def addRandom (b : Workbench) : Workbench :=
  let (random, entropy) := RandomSource.create b.machine.entropy
  { b with machine := { b.machine with entropy }, randoms := b.randoms.push random }

def start (machine : Machine) : Workbench := addRandom { machine }

def addVault (vault : Vault) (b : Workbench) : Workbench :=
  { b with vaults := b.vaults.push { vault } }

def addSettings (settings : Settings) (b : Workbench) : Workbench :=
  { b with settings := b.settings.push settings }

/-- The current vault. -/
def vault (b : Workbench) : WatchedVault := b.vaults.back?.getD {}

def withVault (vault : WatchedVault) (b : Workbench) : Workbench :=
  { b with vaults := b.vaults.pop.push vault }

/-- The current settings. -/
def currentSettings (b : Workbench) : Settings := b.settings.back?.getD {}

def withSettings (settings : Settings) (b : Workbench) : Workbench :=
  { b with settings := b.settings.pop.push settings }

def onFiles (x : Action Files ε α) : Action Workbench ε α :=
  x.zoom (·.machine.files) fun files b => { b with machine := { b.machine with files } }

def onVault (x : Action VaultSite ε α) : Action Workbench ε α :=
  x.zoom (fun b => ⟨b.vault.vault, b.vault.requests, b.machine⟩) fun site b =>
    { b.withVault ⟨site.vault, site.requests⟩ with machine := site.machine }

def onSettings (x : Action SettingsSite ε α) : Action Workbench ε α :=
  x.zoom (fun b => ⟨b.currentSettings, b.machine.files⟩) fun site b =>
    { b.withSettings site.settings with machine := { b.machine with files := site.files } }

/-- Stations a custodian under a name with the stores that are current. -/
def station (name : String) (custodian : Custodian) (b : Workbench) : Workbench :=
  let stationed : Stationed :=
    ⟨custodian, b.vaults.size - 1, b.settings.size - 1, b.randoms.size - 1⟩
  { b with custodians := b.custodians.insert name stationed }

/-- A custodian on the bench with its stores. -/
def custodyOf (b : Workbench) (stand : Stationed) : Custody where
  custodian := stand.custodian
  host :=
    let watched := b.vaults.getD stand.vault {}
    { vault := watched.vault
      requests := watched.requests
      settings := b.settings.getD stand.settings {}
      random := b.randoms.getD stand.random { seed := [] }
      machine := b.machine }

/-- Puts a custodian and its stores back where they came from. -/
def withCustody (name : String) (stand : Stationed) (p : Custody) (b : Workbench) : Workbench where
  machine := p.host.machine
  vaults := b.vaults.setIfInBounds stand.vault ⟨p.host.vault, p.host.requests⟩
  settings := b.settings.setIfInBounds stand.settings p.host.settings
  randoms := b.randoms.setIfInBounds stand.random p.host.random
  custodians := b.custodians.insert name { stand with custodian := p.custodian }

end Workbench

end SealedStream.Exercise
