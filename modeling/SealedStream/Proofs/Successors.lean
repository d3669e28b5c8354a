import SealedStream.Proofs.Durable.VaultCalls
import SealedStream.Proofs.Migration

/-!
# What a successor finds

A legacy custodian that has made a key is followed by another of the same configuration, over the
same stores or over stores opened again from their documents. The successor finds the key, unless
one setting is to hold both the wrapped key and the level. That is a valid configuration, under
which the level takes the place of the wrapped key in the very write that records them.
-/

namespace SealedStream

-- ----------------------------------------------------------------------------
-- Stores with the same contents
-- ----------------------------------------------------------------------------

theorem Dict.get?_of_map_eq {α β γ : Type} {d : Dict α} {d' : Dict β} {f : α → γ} {g : β → γ}
    (h : d'.map g = d.map f) (name : String) : (d'.get? name).map g = (d.get? name).map f := by
  rw [← get?_map, h, get?_map]

theorem VaultEntry.held_symmetric {entry : VaultEntry} {key : SymmetricKey}
    (h : entry.held = .symmetric key) : entry = .symmetric key := by
  cases entry with
  | symmetric key' =>
    cases h
    rfl
  | keyPair secret spec => cases h

theorem VaultEntry.held_pair {entry : VaultEntry} {secret : SecretKey} {size : UInt32}
    (h : entry.held = .pair secret size) : ∃ spec, entry = .keyPair secret spec := by
  cases entry with
  | symmetric key => cases h
  | keyPair secret' spec =>
    cases h
    exact ⟨spec, rfl⟩

namespace Custodian

variable {c : Custodian} {h h' : Host} {v v' : Vault} {s s' : Settings} {k : ContentKey}

/-- A key stays kept where the vault is written down and read again: whether it is depends on no
times of key pairs. -/
theorem Kept.of_held (hkept : c.Kept v s k)
    (hheld : ∀ keyName, (v'.entries.get? keyName).map VaultEntry.held =
      (v.entries.get? keyName).map VaultEntry.held)
    (hvalues : ∀ name, s'.get? name = s.get? name) : c.Kept v' s' k := by
  have hint (name : String) (level : Int64) : s'.getInt name level = s.getInt name level := by
    rw [Settings.getInt, hvalues, Settings.getInt]
  have hstring (name : String) : s'.getString? name = s.getString? name := by
    rw [Settings.getString?, hvalues, Settings.getString?]
  cases hkept with
  | direct htier hkey hmarker =>
    have hkey' := hheld c.config.symmetricAlias
    rw [hkey] at hkey'
    obtain ⟨entry, hentry, hheld'⟩ := Option.map_eq_some_iff.mp hkey'
    exact .direct htier (VaultEntry.held_symmetric hheld' ▸ hentry) ((hint _ _).trans hmarker)
  | wrapped hnone hblob hbytes hpair hopen hmarker =>
    have hpair' := hheld c.config.wrapAlias
    rw [hpair] at hpair'
    obtain ⟨entry, hentry, hheld'⟩ := Option.map_eq_some_iff.mp hpair'
    obtain ⟨spec, rfl⟩ := VaultEntry.held_pair hheld'
    refine .wrapped (fun htier => ?_) ((hstring _).trans hblob) hbytes hentry hopen
      ((hint _ _).trans hmarker)
    have hnone' := hheld c.config.symmetricAlias
    rw [hnone htier] at hnone'
    exact Option.map_eq_none_iff.mp hnone'

theorem Kept.source_eq (hkept : c.Kept v s k) (htier : c.hostTier ≠ .modernDirect) :
    k.source = .migratedLegacy := by
  cases hkept with
  | direct hmodern => exact absurd hmodern htier
  | wrapped => rfl

-- ----------------------------------------------------------------------------
-- One setting for two values
-- ----------------------------------------------------------------------------

/-- Of a wrapped key and a level under one name the level stays. -/
theorem LookedUp.overwritten (hlookedUp : c.LookedUp h k h') (hsource : k.source = .generatedLegacy)
    (hsame : c.config.wrappedKeySetting = c.config.levelSetting) :
    h'.settings.get? c.config.wrappedKeySetting = some (.int c.platform.marker) := by
  obtain ⟨_, _, _, hmade⟩ := hlookedUp.madeWrapped hsource
  rw [hmade.written, if_pos hsame]

/-- A legacy custodian takes no level for a wrapped key, and does not go on without. -/
theorem lookUp_of_overwritten {level : Int64} (htier : c.hostTier = .legacyWrapped)
    (hsame : c.config.wrappedKeySetting = c.config.levelSetting)
    (hlevel : h.settings.get? c.config.wrappedKeySetting = some (.int level)) :
    (c.lookUp h).1 =
      .error (.error (.settings (.typeMismatch c.config.wrappedKeySetting .string .int))) := by
  have hmarker : h.settings.getInt c.config.levelSetting c.platform.marker = .ok level := by
    rw [Settings.getInt, ← hsame, hlevel]
  have hblob : h.settings.getString? c.config.wrappedKeySetting =
      .error (.typeMismatch c.config.wrappedKeySetting .string .int) := by
    rw [Settings.getString?, hlevel]
    rfl
  simp only [lookUp, htier, lookUpWrapped, Action.bind_apply, readMarker_eq hmarker,
    recoverWrapped, Host.readSettings_apply, hblob, Except.mapError]

end Custodian

namespace Custody

variable {config : Config} {level : UInt32} {host later : Host} {p p' next : Custody}
  {k : ContentKey}

theorem lookedUp_of_resolve (hv : p.custodian.config.validate = .ok ())
    (hsupported : p.custodian.hostTier.isSupported) (hcached : p.custodian.cached = none)
    (hresolve : resolve p = (.ok k, p')) : p.custodian.LookedUp p.host k p'.host :=
  Custodian.lookedUp hv hsupported (lookUp_of_resolve hcached hresolve)

/--
Where a legacy custodian of a valid configuration has made a key, a successor of the same
configuration on such a host gets the same key as a migrated one, at any time within the window of
the pair, exactly if the wrapped key and the level have settings of their own. It is the keys in
the vault that have to be the same; the vault may have been opened again.
-/
theorem successor_resolves (hbegin : begin config level host = .ok p)
    (htier : config.thresholds.tierAt level = .legacyWrapped)
    (hresolve : resolve p = (.ok k, p')) (hsource : k.source = .generatedLegacy)
    (hheld : ∀ keyName, (later.vault.entries.get? keyName).map VaultEntry.held =
      (p'.host.vault.entries.get? keyName).map VaultEntry.held)
    (hvalues : ∀ name, later.settings.get? name = p'.host.settings.get? name)
    (hl : ¬ later.vault.locked) (hwindow : p.custodian.InWindow later)
    (hnext : begin config level later = .ok next) :
    (resolve next).1 =
      if config.wrappedKeySetting = config.levelSetting then
        .error (.error (.settings (.typeMismatch config.wrappedKeySetting .string .int)))
      else .ok k.migrated := by
  obtain ⟨hv, rfl⟩ := begin_ok.mp hbegin
  obtain ⟨-, rfl⟩ := begin_ok.mp hnext
  let c : Custodian := { platform := ⟨level⟩, config }
  have htier : c.hostTier = .legacyWrapped := htier
  have hsupported : c.hostTier.isSupported := by rw [htier]; rfl
  have hlookedUp : c.LookedUp host k p'.host := lookedUp_of_resolve hv hsupported rfl hresolve
  rw [fst_resolve_of_uncached rfl]
  split
  · next hsame =>
    have hlevel := hlookedUp.overwritten hsource hsame
    exact Custodian.lookUp_of_overwritten htier hsame ((hvalues _).trans hlevel)
  · next hapart =>
    obtain ⟨source, hkept⟩ := hlookedUp.kept hapart
    have hlater := hkept.of_held hheld hvalues
    obtain rfl : source = .migratedLegacy := hkept.source_eq (by rw [htier]; decide)
    obtain ⟨requests, hlookUp⟩ := Custodian.lookUp_of_kept hsupported hlater hl hwindow
    rw [hlookUp]
    rfl

/-- A successor starts a minute later, over a vault that has been opened from its document. -/
theorem successor_resolves_reopened :
    let host : Host := .fresh { entropy := .ofSeed 7, now := .epoch }
    ∃ p k p' later next, begin {} 19 host = .ok p ∧ resolve p = (.ok k, p') ∧
      k.source = .generatedLegacy ∧
      later.vault.entries = p'.host.vault.entries.map VaultEntry.cut ∧
      later.machine.now = .of 60 0 ∧ begin {} 19 later = .ok next ∧
      (resolve next).1 = .ok k.migrated := by
  intro host
  let p : Custody := ⟨{ platform := ⟨19⟩, config := {} }, host⟩
  let reopened (h : Host) : Host := { h with
    vault := { h.vault with entries := h.vault.entries.map VaultEntry.cut }
    machine := { h.machine with now := .of 60 0 } }
  obtain ⟨p', hp', hgenerated, hl, hwindow⟩ : ∃ p', (resolve p).2 = p' ∧
      (resolve p).1.toOption.map ContentKey.source = some .generatedLegacy ∧
      ¬ p'.host.vault.locked ∧
      ((reopened p'.host).vault.entries.get? ({} : Config).wrapAlias).all (fun
        | .keyPair _ spec => decide (spec.IsValidAt (.of 60 0))
        | .symmetric _ => true) :=
    ⟨_, rfl, by decide +kernel⟩
  obtain ⟨k, hk, hsource⟩ := map_toOption_eq_some.mp hgenerated
  have hresolve : resolve p = (.ok k, p') := by
    rw [← hk, ← hp']
  have hheld (keyName : String) :
      ((reopened p'.host).vault.entries.get? keyName).map VaultEntry.held =
        (p'.host.vault.entries.get? keyName).map VaultEntry.held := by
    exact Dict.get?_of_map_eq (Vault.held_cut _) keyName
  have hinWindow : p.custodian.InWindow (reopened p'.host) := by
    intro secret spec hpair
    have hpair : (reopened p'.host).vault.entries.get? ({} : Config).wrapAlias =
      some (.keyPair secret spec) := hpair
    rw [hpair] at hwindow
    exact of_decide_eq_true hwindow
  have htier : ({} : Config).thresholds.tierAt 19 = .legacyWrapped := by decide
  exact ⟨p, k, p', reopened p'.host, _, rfl, hresolve, hsource, rfl, rfl, rfl,
    successor_resolves rfl htier hresolve hsource hheld (fun _ => rfl) hl hinWindow rfl⟩

/-- One setting for the wrapped key and the level: the key that was made is lost. -/
theorem successor_refused :
    let config : Config := { wrappedKeySetting := "key", levelSetting := "key" }
    ∃ p k p' next, begin config 19 (.fresh { entropy := .ofSeed 7, now := .epoch }) = .ok p ∧
      resolve p = (.ok k, p') ∧ k.source = .generatedLegacy ∧
      begin config 19 p'.host = .ok next ∧
      (resolve next).1 = .error (.error (.settings (.typeMismatch "key" .string .int))) := by
  intro config
  let c : Custodian := { platform := ⟨19⟩, config }
  let p : Custody := ⟨c, .fresh { entropy := .ofSeed 7, now := .epoch }⟩
  have hgenerated : (resolve p).1.toOption.map ContentKey.source = some .generatedLegacy := by
    decide +kernel
  obtain ⟨k, hk, hsource⟩ := map_toOption_eq_some.mp hgenerated
  have hresolve : resolve p = (.ok k, (resolve p).2) := Prod.ext hk rfl
  have htier : c.hostTier = .legacyWrapped := by decide
  have hlookedUp := lookedUp_of_resolve rfl (by rw [htier]; rfl) rfl hresolve
  refine ⟨p, k, (resolve p).2, ⟨c, (resolve p).2.host⟩, rfl, hresolve, hsource, rfl, ?_⟩
  rw [fst_resolve_of_uncached rfl]
  exact Custodian.lookUp_of_overwritten htier rfl (hlookedUp.overwritten hsource rfl)

end Custody

end SealedStream
