import SealedStream.Proofs.Documents
import SealedStream.Proofs.KeptKey
import SealedStream.Proofs.Stream.Whole

/-!
# What look-ups keep

A look-up notes requests, draws bytes, stores at most one entry in the vault and puts
values into the settings. Whatever these few things keep of a host, every look-up
keeps, and so does every stream that is begun on the host, whether it succeeds or not.
-/

namespace SealedStream

open SealedStream.Action (Keeps)

-- ----------------------------------------------------------------------------
-- Requests to the vault
-- ----------------------------------------------------------------------------

namespace VaultSite

/-- What notes, draws and the storing of an entry keep of a vault. -/
structure Stable (fits : VaultSite → Prop) : Prop where
  noted : ∀ site requests, fits site → fits { site with requests }
  drawn : ∀ site entropy, fits site →
    fits { site with machine := { site.machine with entropy } }
  stored : ∀ site keyName entry, VaultEntry.InRange entry → fits site →
    fits (replaceEntries (site.vault.entries.insert keyName entry) site).2

variable {fits : VaultSite → Prop} (hs : Stable fits)

include hs

theorem Stable.ask {α : Type} (r : Request) (answer : VaultSite → Except VaultError α) :
    Keeps fits (VaultSite.ask r answer) := fun site hsite => hs.noted site _ hsite

theorem Stable.draw {ε α : Type} (x : Entropy → α × Entropy) :
    Keeps fits (onMachine (Machine.draw x) : Action VaultSite ε α) :=
  fun site hsite => hs.drawn site _ hsite

theorem Stable.store (keyName : String) {entry : VaultEntry} (hentry : entry.InRange) :
    Keeps fits (VaultSite.store keyName entry) := by
  intro site hsite
  rw [store_eq]
  exact hs.stored site keyName entry hentry hsite

theorem Stable.generateSymmetricKey (keyName : String) (bits : Nat) :
    Keeps fits (VaultSite.generateSymmetricKey keyName bits) :=
  .bind (hs.ask _ _) fun _ => .bind (hs.draw _) fun _ =>
    .bind (hs.store keyName trivial) fun _ => .of_same fun _ => rfl

theorem Stable.generateKeyPair (keyName : String) {spec : KeyPairSpec}
    (hspec : spec.notBefore.InRange ∧ spec.notAfter.InRange) :
    Keeps fits (VaultSite.generateKeyPair keyName spec) :=
  .bind (hs.ask _ _) fun _ => .bind (hs.draw _) fun _ =>
    .bind (hs.store keyName hspec) fun _ => .of_same fun _ => rfl

theorem Stable.wrap (publicKey : PublicKeyHandle) (key : SymmetricKey) :
    Keeps fits (VaultSite.wrap publicKey key) :=
  .bind (hs.ask _ _) fun _ => .bind (hs.draw _) fun _ => .bind (hs.draw _) fun _ =>
    .of_same fun _ => rfl

end VaultSite

-- ----------------------------------------------------------------------------
-- Look-ups
-- ----------------------------------------------------------------------------

namespace Host

/-- What the few things keep of a host that a look-up is made of. -/
structure Stable (fits : Host → Prop) : Prop where
  noted : ∀ h requests, fits h → fits { h with requests }
  random : ∀ h random, fits h → fits { h with random }
  drawn : ∀ h entropy, fits h → fits { h with machine := { h.machine with entropy } }
  stored : ∀ h keyName entry, VaultEntry.InRange entry → fits h →
    fits (withVaultSite
      (VaultSite.replaceEntries (h.vault.entries.insert keyName entry) h.vaultSite).2 h)
  put : ∀ h values, fits h →
    fits (withSettingsSite (SettingsSite.replaceValues values h.settingsSite).2 h)
  clock : ∀ h, fits h → h.machine.now.InRange

variable {fits : Host → Prop} {α : Type}

theorem Stable.vaultSite (hs : Stable fits) (h : Host) :
    VaultSite.Stable fun site => fits (withVaultSite site h) where
  noted site := hs.noted (withVaultSite site h)
  drawn site := hs.drawn (withVaultSite site h)
  stored site := hs.stored (withVaultSite site h)

theorem Stable.request {wording : VaultError → SealError} {x : Action VaultSite VaultError α}
    (hx : ∀ h, Keeps (fun site => fits (withVaultSite site h)) x) :
    Keeps fits (Host.request wording x) :=
  .mapError _ (.zoom (fun _ => rfl) hx)

theorem Stable.putAll (hs : Stable fits) (entries : List (String × SettingValue)) :
    Keeps fits (onSettings (SettingsSite.putAll entries)) := by
  intro h hh
  rw [onSettings_apply, SettingsSite.putAll_apply]
  split
  · exact hh
  · exact hs.put h _ hh

theorem Stable.freshIv (hs : Stable fits) (tier : Tier) : Keeps fits tier.freshIv := by
  cases tier with
  | modernDirect => exact fun h hh => hs.drawn h _ hh
  | legacyWrapped => exact fun h hh => hs.random h _ hh
  | unsupported => exact fun h hh => hs.random h _ hh

end Host

theorem KeyPairSpec.inRange_of_validFor? {sizeBits : UInt32} {now : Time} {validity : Duration}
    {spec : KeyPairSpec} (hnow : now.InRange) (h : validFor? sizeBits now validity = some spec) :
    spec.notBefore.InRange ∧ spec.notAfter.InRange := by
  obtain ⟨notAfter, hadd, rfl⟩ := Option.map_eq_some_iff.mp h
  refine ⟨hnow, ?_⟩
  simp only [Time.add?] at hadd
  split at hadd
  · next hrange =>
    cases hadd
    exact hrange
  · cases hadd

namespace Custodian

variable {fits : Host → Prop} (hs : Host.Stable fits) (c : Custodian)

include hs

theorem mintDirect_stable : Keeps fits c.mintDirect :=
  .bind (Host.Stable.request fun h => (hs.vaultSite h).generateSymmetricKey _ _) fun _ =>
    .of_same fun _ => rfl

theorem mintWrapped_stable : Keeps fits c.mintWrapped := by
  intro h hh
  rw [mintWrapped, Action.bind_apply, newPairSpec_apply]
  cases hspec : KeyPairSpec.validFor? c.config.keyPairSizeBits h.machine.now
    c.config.keyPairValidity with
  | none => exact hh
  | some spec =>
    have hrange := KeyPairSpec.inRange_of_validFor? (hs.clock h hh) hspec
    refine Keeps.bind (Host.Stable.request fun h => (hs.vaultSite h).generateKeyPair _ hrange)
      (fun pair => ?_) h hh
    refine .bind (fun h hh => hs.random h _ hh) fun material => ?_
    refine .bind (.of_same fun _ => rfl) fun key => ?_
    exact .bind (Host.Stable.request fun h => (hs.vaultSite h).wrap _ _) fun _ =>
      .of_same fun _ => rfl

theorem record_stable (m : Minted) : Keeps fits (c.record m) :=
  .bind (hs.putAll m.record) fun _ => .of_same fun _ => rfl

theorem lookUp_stable : Keeps fits c.lookUp := by
  by_cases hsupported : c.hostTier.isSupported
  · rw [lookUp_eq hsupported]
    refine .bind (c.search_keeps fun h r _ hh => hs.noted h _ hh) fun key? => ?_
    cases key? with
    | some key => exact .of_same fun _ => rfl
    | none =>
      refine .bind ?_ (c.record_stable hs)
      unfold mint
      split
      · exact c.mintDirect_stable hs
      · exact c.mintWrapped_stable hs
  · unfold lookUp
    cases htier : c.hostTier with
    | modernDirect => exact absurd (by rw [htier]; rfl) hsupported
    | legacyWrapped => exact absurd (by rw [htier]; rfl) hsupported
    | unsupported => exact .of_same fun _ => rfl

end Custodian

-- ----------------------------------------------------------------------------
-- Streams that are begun
-- ----------------------------------------------------------------------------

variable {fits : Host → Prop} (hs : Host.Stable fits)

include hs

theorem Custody.resolve_stable : Keeps (fun p => fits p.host) resolve := by
  intro p hp
  cases hcached : p.custodian.cached with
  | some k => rwa [resolve_of_cached hcached]
  | none =>
    have hlookUp := p.custodian.lookUp_stable hs p.host hp
    rw [resolve_of_uncached hcached]
    rcases hend : p.custodian.lookUp p.host with ⟨_ | _, h⟩
    all_goals
      rw [hend] at hlookUp
      exact hlookUp

theorem Outgoing.start_stable : Keeps (fun out => fits out.custody.host) start := by
  have hresolve : Keeps (fun out : Outgoing => fits out.custody.host)
      (onCustody Custody.resolve) :=
    .zoom (fun _ => rfl) fun _ => Custody.resolve_stable hs
  have hfresh (tier : Tier) : Keeps (fun out : Outgoing => fits out.custody.host)
      (onCustody (Custody.onHost tier.freshIv)) :=
    .zoom (fun _ => rfl) fun _ => .zoom (fun _ => rfl) fun _ => hs.freshIv tier
  rw [start_eq]
  refine .bind (.of_same fun _ => rfl) fun out => ?_
  split
  · refine .bind hresolve fun k => .bind (hfresh _) fun iv => .bind ?_ fun _ =>
      .of_same fun _ => rfl
    exact .mapError _ fun _ hout => hout
  · exact .of_same fun _ => rfl

theorem Incoming.start_stable : Keeps (fun i => fits i.custody.host) start := by
  have hresolve : Keeps (fun i : Incoming => fits i.custody.host)
      (onCustody Custody.resolve) :=
    .zoom (fun _ => rfl) fun _ => Custody.resolve_stable hs
  have hread : Keeps (fun i : Incoming => fits i.custody.host) (onSource Header.read) :=
    .mapError _ fun _ hi => hi
  rw [start_eq]
  refine .bind (.of_same fun _ => rfl) fun i => ?_
  split
  · exact .bind hread fun iv => .bind hresolve fun k => .of_same fun _ => rfl
  · exact .of_same fun _ => rfl

end SealedStream
