import Mathlib
import SealedStream.Custody

/-!
# Requests and changes, read on a host

One equation for each way that a custodian's step reaches the stores. What a
request answers stands in the vault as it is, and only the note of the request
stays. A change is a persisted one: entries and values are either all as they
were or those asked for.
-/

namespace SealedStream

-- ----------------------------------------------------------------------------
-- Checks
-- ----------------------------------------------------------------------------

theorem Config.validate_ok {config : Config} : config.validate = .ok () ↔
    (config.keySizeBits = 128 ∨ config.keySizeBits = 256) ∧
      config.baselineLevel ≤ config.modernLevel ∧
      (config.symmetricAlias ≠ "" ∧ config.wrapAlias ≠ "") ∧
      config.symmetricAlias ≠ config.wrapAlias := by
  simp only [validate, check_ok, lastCheck_ok, not_and_or, not_or, ne_eq, not_not, UInt32.not_lt]

theorem Vault.admitSymmetric_ok {v : Vault} {keyName : String} {bits : Nat} {size : KeySize} :
    v.admitSymmetric keyName bits = .ok size ↔
      ¬ v.locked ∧ keyName ≠ "" ∧ KeySize.ofBits? bits = some size := by
  by_cases hl : v.locked
  · simp [admitSymmetric, ensureUnlocked, hl, bind, Except.bind]
  · rw [admitSymmetric, ensureUnlocked, if_neg hl]
    show (if keyName = "" then _ else _) = _ ↔ _
    rw [check_ok]
    cases KeySize.ofBits? bits <;>
      simp [hl, pure, Except.pure, throw, throwThe, MonadExceptOf.throw]

theorem Vault.admitKeyPair_ok {v : Vault} {keyName : String} {spec : KeyPairSpec} :
    v.admitKeyPair keyName spec = .ok () ↔
      ¬ v.locked ∧ keyName ≠ "" ∧ spec.sizeBits = 256 ∧ spec.notBefore < spec.notAfter := by
  by_cases hl : v.locked
  · simp [admitKeyPair, ensureUnlocked, hl, bind, Except.bind]
  · rw [admitKeyPair, ensureUnlocked, if_neg hl]
    show (if keyName = "" then _ else _) = _ ↔ _
    rw [check_ok, check_ok, lastCheck_ok, not_not]
    have : ¬ spec.notAfter ≤ spec.notBefore ↔ spec.notBefore < spec.notAfter := Int.not_le
    simp [hl, this]

-- ----------------------------------------------------------------------------
-- Steps
-- ----------------------------------------------------------------------------

namespace Action

variable {σ ε α β γ : Type}

theorem bind_assoc (x : Action σ ε α) (f : α → Action σ ε β) (g : β → Action σ ε γ) :
    x >>= f >>= g = x >>= fun a => f a >>= g := by
  funext s
  simp only [bind_apply]
  rcases x s with ⟨_ | _, _⟩ <;> rfl

theorem bind_congr {x : Action σ ε α} {f g : α → Action σ ε β} (h : ∀ a, f a = g a) :
    x >>= f = x >>= g := by rw [funext h]

end Action

/-- What held of a state holds of the state that the steps leave, however they end. -/
def Action.Keeps {σ ε α : Type} (fits : σ → Prop) (x : Action σ ε α) : Prop :=
  ∀ s, fits s → fits (x s).2

namespace Action.Keeps

variable {σ τ ε δ α β : Type} {fits : σ → Prop} {x : Action σ ε α}

theorem of_same (h : ∀ s, (x s).2 = s) : Keeps fits x := by
  intro s hs
  rw [h]
  exact hs

theorem bind {f : α → Action σ ε β} (hx : Keeps fits x) (hf : ∀ a, Keeps fits (f a)) :
    Keeps fits (x >>= f) := by
  intro s hs
  have hnext := hx s hs
  rw [bind_apply]
  rcases hxs : x s with ⟨e | a, s'⟩
  all_goals rw [hxs] at hnext
  · exact hnext
  · exact hf a s' hnext

theorem mapError (f : ε → δ) (hx : Keeps fits x) : Keeps fits (x.mapError f) := by
  intro s hs
  rw [mapError_apply]
  exact hx s hs

theorem attempt (hx : Keeps fits x) : Keeps fits (x.attempt : Action σ δ (Except ε α)) := hx

theorem discard (hx : Keeps fits x) : Keeps fits (discard x : Action σ ε Unit) :=
  bind hx fun _ => of_same fun _ => rfl

/-- Steps on a part keep what they keep of the whole with that part in its place. -/
theorem zoom {fits : τ → Prop} {get : τ → σ} {put : σ → τ → τ} (hput : ∀ t, put (get t) t = t)
    (hx : ∀ t, Keeps (fun s => fits (put s t)) x) : Keeps fits (x.zoom get put) := by
  intro t ht
  rw [zoom_apply]
  have hget : fits (put (get t) t) := by rwa [hput]
  exact hx t (get t) hget

end Action.Keeps

open SealedStream.Action (Keeps)

/-- A configuration under which a key pair can be generated. -/
structure Config.Usable (config : Config) : Prop where
  valid : config.validate = .ok ()
  apart : config.wrappedKeySetting ≠ config.levelSetting
  pairSize : config.keyPairSizeBits = 256
  lasting : 0 < config.keyPairValidity.nanoseconds

theorem Config.usable_default : ({} : Config).Usable := ⟨rfl, by decide, rfl, by decide⟩

namespace VaultSite

/-- The site after a request has been noted. -/
def noted (site : VaultSite) (r : Request) : VaultSite :=
  { site with requests := site.requests ++ [r] }

theorem ask_apply {α : Type} (r : Request) (answer : VaultSite → Except VaultError α)
    (site : VaultSite) : ask r answer site = (answer (site.noted r), site.noted r) := rfl

/-- Makes the entries of the vault those given, once they have been written. -/
def replaceEntries (entries : Dict VaultEntry) : Action VaultSite VaultError Unit := do
  let site ← get
  onMachine (Machine.onFiles (Vault.persist site.vault.path entries))
  modify fun site => { site with vault := { site.vault with entries } }

theorem replaceEntries_apply (entries : Dict VaultEntry) (site : VaultSite) :
    replaceEntries entries site =
      match Vault.persist site.vault.path entries site.machine.files with
      | (.ok (), files) =>
        (.ok (), { site with
          vault := { site.vault with entries }, machine := { site.machine with files } })
      | (.error e, files) => (.error e, { site with machine := { site.machine with files } }) := by
  simp only [replaceEntries, Action.bind_apply, Action.get_apply, onMachine, Machine.onFiles,
    Action.zoom_apply, Action.modify_apply]
  rcases Vault.persist site.vault.path entries site.machine.files with ⟨_ | _, files⟩ <;> rfl

theorem persistOr_apply (undo : Dict VaultEntry → Dict VaultEntry) (site : VaultSite) :
    persistOr undo site =
      match Vault.persist site.vault.path site.vault.entries site.machine.files with
      | (.ok (), files) => (.ok (), { site with machine := { site.machine with files } })
      | (.error e, files) =>
        (.error e, { site with
          vault := { site.vault with entries := undo site.vault.entries }
          machine := { site.machine with files } }) := by
  rw [persistOr, Action.bind_apply, Action.get_apply]
  simp only [Action.tryCatch_apply, onMachine, Machine.onFiles, Action.zoom_apply]
  rcases Vault.persist site.vault.path site.vault.entries site.machine.files with
    ⟨_ | _, files⟩ <;> rfl

/-- A change that is undone where its write fails takes place as one step, or not at all. -/
theorem change_persistOr {site : VaultSite} {f undo : Dict VaultEntry → Dict VaultEntry}
    (hundo : undo (f site.vault.entries) = site.vault.entries) :
    (change f >>= fun _ => persistOr undo) site = replaceEntries (f site.vault.entries) site := by
  rw [Action.bind_apply, change, Action.modify_apply]
  simp only [persistOr_apply, replaceEntries_apply]
  rcases Vault.persist site.vault.path (f site.vault.entries) site.machine.files with
    ⟨_ | _, files⟩
  · simp only [hundo]
  · rfl

theorem store_eq (keyName : String) (entry : VaultEntry) (site : VaultSite) :
    store keyName entry site = replaceEntries (site.vault.entries.insert keyName entry) site := by
  refine change_persistOr (f := (·.insert keyName entry)) ?_
  cases hprevious : site.vault.entries.get? keyName with
  | none => exact Dict.erase_insert_of_none hprevious entry
  | some previous => exact Dict.insert_insert_of_some hprevious entry

/-- A deletion finds a locked vault, nothing under the name, or a key that it takes out. -/
theorem deleteKey_apply (keyName : String) (site : VaultSite) :
    deleteKey keyName site =
      match site.vault.hasKey keyName with
      | .error e => (.error e, site.noted .deleteKey)
      | .ok false => (.ok false, site.noted .deleteKey)
      | .ok true =>
        (replaceEntries (site.vault.entries.erase keyName) >>= fun _ => pure true)
          (site.noted .deleteKey) := by
  have hvault : (site.noted .deleteKey).vault = site.vault := rfl
  rw [deleteKey, Action.bind_apply, ask_apply, Vault.hasKey, hvault]
  rcases site.vault.ensureUnlocked with e | _
  · rfl
  · simp only [Action.bind_apply, Action.get_apply, hvault]
    cases hprevious : site.vault.entries.get? keyName with
    | none =>
      rw [Dict.contains, hprevious]
      rfl
    | some previous =>
      have hwrite : (change (·.erase keyName) >>= fun _ => persistOr (·.insert keyName previous))
          (site.noted .deleteKey) = _ :=
        change_persistOr (Dict.insert_erase_of_some hprevious)
      have hassoc := Action.bind_assoc (change (·.erase keyName))
        (fun _ => persistOr (·.insert keyName previous)) fun _ => (pure true : Action _ _ Bool)
      rw [Dict.contains, hprevious]
      show (change _ >>= fun _ => persistOr _ >>= fun _ => pure true) _ = _
      rw [← hassoc, Action.bind_apply, hwrite]
      rfl

end VaultSite

namespace SettingsSite

theorem replaceValues_apply (values : Dict SettingValue) (site : SettingsSite) :
    replaceValues values site =
      match Settings.persist site.settings.backing values site.files with
      | (.ok (), files) => (.ok (), ⟨{ site.settings with values }, files⟩)
      | (.error e, files) => (.error e, { site with files }) := by
  simp only [replaceValues, Action.bind_apply, Action.get_apply, onFiles, Action.zoom_apply,
    Action.modify_apply]
  rcases Settings.persist site.settings.backing values site.files with ⟨_ | _, files⟩ <;> rfl

theorem putAll_apply (entries : List (String × SettingValue)) (site : SettingsSite) :
    putAll entries site =
      if site.settings.backing = .guarded true then (.error Settings.readOnlyError, site)
      else replaceValues (site.settings.values.insertAll entries) site := by
  rw [putAll, Action.bind_apply, Action.get_apply]
  by_cases h : site.settings.backing = .guarded true
  · simp only [h, if_true]
    rfl
  · simp only [h, if_false]

end SettingsSite

namespace Host

variable {α : Type}

/-- The host after a request has been noted. -/
def noted (h : Host) (r : Request) : Host := { h with requests := h.requests ++ [r] }

/-- The host after requests of which nothing has come. -/
def asked (h : Host) (requests : List Request) : Host :=
  { h with requests := h.requests ++ requests }

theorem noted_noted (h : Host) (r r' : Request) : (h.noted r).noted r' = h.asked [r, r'] := by
  rw [noted, noted, asked, List.append_assoc]
  rfl

theorem request_apply (wording : VaultError → SealError) (x : Action VaultSite VaultError α)
    (h : Host) :
    request wording x h =
      ((x h.vaultSite).1.mapError fun e => .error (wording e),
        withVaultSite (x h.vaultSite).2 h) := by
  rw [request, Failure.lift, Action.mapError_apply, Action.zoom_apply]

theorem onVault_ask (r : Request) (answer : VaultSite → Except VaultError α) (h : Host) :
    onVault (VaultSite.ask r answer) h =
      ((answer (h.noted r).vaultSite).mapError fun e => .error (.keyVault e), h.noted r) := by
  rw [onVault, request_apply]
  rfl

theorem readSettings_apply (x : Settings → Except SettingsError α) (h : Host) :
    readSettings x h = ((x h.settings).mapError fun e => .error (.settings e), h) := by
  rw [readSettings, Failure.lift, Action.mapError_apply]
  rfl

theorem onSettings_apply (x : Action SettingsSite SettingsError α) (h : Host) :
    onSettings x h =
      ((x h.settingsSite).1.mapError fun e => .error (.settings e),
        withSettingsSite (x h.settingsSite).2 h) := by
  rw [onSettings, Failure.lift, Action.mapError_apply, Action.zoom_apply]

/-- A request that generates nothing keeps what its note keeps. -/
theorem keeps_onVault_ask {fits : Host → Prop} {r : Request} (hr : ¬ r.isGeneration)
    (hnoted : ∀ h (r : Request), ¬ r.isGeneration → fits h → fits (h.noted r))
    (answer : VaultSite → Except VaultError α) :
    Keeps fits (onVault (VaultSite.ask r answer)) := by
  intro h hh
  rw [Host.onVault_ask]
  exact hnoted h r hr hh

end Host

end SealedStream
