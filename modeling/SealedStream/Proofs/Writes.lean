import SealedStream.Proofs.Ciphers
import SealedStream.Proofs.Stores

/-!
# Writes to the stores

A write either takes place or leaves its store as it was; whoever stands around
the stores does not notice the difference. `Host.Accepts` holds where no write
is refused, and says so of all that come after it.
-/

namespace SealedStream

-- ----------------------------------------------------------------------------
-- Surroundings
-- ----------------------------------------------------------------------------

/-- Every write to stores that are backed in this way goes through, now and after other writes. -/
def Writable (path : Option Path) (backing : Backing) (files : Files) : Prop :=
  backing ≠ .guarded true ∧ ∃ fits : Files → Prop, fits files ∧ ∀ files, fits files →
    (∀ entries, ∃ files', Vault.persist path entries files = (.ok (), files') ∧ fits files') ∧
    ∀ values, ∃ files', Settings.persist backing values files = (.ok (), files') ∧ fits files'

/-- Stores in memory take every write. -/
theorem writable_memory (files : Files) : Writable none .memory files :=
  ⟨by decide, fun _ => True, trivial, fun files _ =>
    ⟨fun _ => ⟨files, rfl, trivial⟩, fun _ => ⟨files, rfl, trivial⟩⟩⟩

namespace Host

def Accepts (h : Host) : Prop := Writable h.vault.path h.settings.backing h.machine.files

/-- Nothing but the surroundings of the stores, or the requests to them, has changed. -/
structure SameStores (h h' : Host) : Prop where
  entries : h'.vault.entries = h.vault.entries
  values : h'.settings.values = h.settings.values

/-- What stands around the stores is as it was, and goes on as it did. -/
structure Around (h h' : Host) : Prop where
  locked : h'.vault.locked = h.vault.locked
  path : h'.vault.path = h.vault.path
  backing : h'.settings.backing = h.settings.backing
  now : h'.machine.now = h.machine.now
  accepts : h.Accepts → h'.Accepts

theorem Around.refl (h : Host) : h.Around h := ⟨rfl, rfl, rfl, rfl, id⟩

theorem Around.trans {h h' h'' : Host} (a : h.Around h') (b : h'.Around h'') : h.Around h'' where
  locked := b.locked.trans a.locked
  path := b.path.trans a.path
  backing := b.backing.trans a.backing
  now := b.now.trans a.now
  accepts := b.accepts ∘ a.accepts

end Host

theorem Host.Accepts.of_vault {h h' : Host} (ha : h.Accepts) (entries : Dict VaultEntry)
    (hpath : h'.vault.path = h.vault.path) (hbacking : h'.settings.backing = h.settings.backing)
    (hfiles : h'.machine.files = (Vault.persist h.vault.path entries h.machine.files).2) :
    h'.Accepts := by
  obtain ⟨hguard, fits, hfits, hclosed⟩ := ha
  obtain ⟨files, hpersist, hnext⟩ := (hclosed _ hfits).1 entries
  rw [hpersist] at hfiles
  refine ⟨hbacking ▸ hguard, fits, by rw [hfiles]; exact hnext, ?_⟩
  rw [hpath, hbacking]
  exact hclosed

theorem Host.Accepts.of_settings {h h' : Host} (ha : h.Accepts) (values : Dict SettingValue)
    (hpath : h'.vault.path = h.vault.path) (hbacking : h'.settings.backing = h.settings.backing)
    (hfiles : h'.machine.files = (Settings.persist h.settings.backing values h.machine.files).2) :
    h'.Accepts := by
  obtain ⟨hguard, fits, hfits, hclosed⟩ := ha
  obtain ⟨files, hpersist, hnext⟩ := (hclosed _ hfits).2 values
  rw [hpersist] at hfiles
  refine ⟨hbacking ▸ hguard, fits, by rw [hfiles]; exact hnext, ?_⟩
  rw [hpath, hbacking]
  exact hclosed

-- ----------------------------------------------------------------------------
-- Writes
-- ----------------------------------------------------------------------------

namespace Host

variable {α : Type} {h : Host}

/--
What a generating request ends in: an entry for its answer in the vault, or nothing of it.
Where it may count on success it is not refused.
-/
inductive Stored (h : Host) (keyName : String) (entry : α → VaultEntry → Prop) (sure : Prop) :
    Except (Failure SealError) α × Host → Prop
  | refused {e : SealError} {h' : Host} :
      ¬ sure → h.SameStores h' → h.Around h' → Stored h keyName entry sure (.error (.error e), h')
  | stored {a : α} {e : VaultEntry} {h' : Host} :
      ¬ h.vault.locked → entry a e → h'.vault.entries = h.vault.entries.insert keyName e →
        h'.settings = h.settings → h.Around h' → Stored h keyName entry sure (.ok a, h')

theorem Stored.mono {keyName : String} {entry : α → VaultEntry → Prop} {sure sure' : Prop}
    {outcome : Except (Failure SealError) α × Host} (hs : Stored h keyName entry sure outcome)
    (himp : sure' → sure) : Stored h keyName entry sure' outcome := by
  cases hs with
  | refused hsure same around => exact .refused (mt himp hsure) same around
  | stored hl he entries settings around => exact .stored hl he entries settings around

/-- The write of an entry, from a site that has moved on only in its requests and its entropy. -/
theorem stored_replaceEntries {s : VaultSite} (wording : VaultError → SealError)
    (keyName : String) (entry : α → VaultEntry → Prop) {a : α} {e : VaultEntry} (he : entry a e)
    (hl : ¬ h.vault.locked) (hvault : s.vault = h.vault)
    (hfiles : s.machine.files = h.machine.files) (hnow : s.machine.now = h.machine.now) :
    let written := VaultSite.replaceEntries (h.vault.entries.insert keyName e) s
    Stored h keyName entry h.Accepts
      ((written.1.map fun _ => a).mapError fun e => .error (wording e),
        withVaultSite written.2 h) := by
  generalize hentries : h.vault.entries.insert keyName e = entries
  rw [VaultSite.replaceEntries_apply, hvault, hfiles]
  rcases hp : Vault.persist h.vault.path entries h.machine.files with ⟨_ | _, files⟩
  · refine .refused (fun ha => ?_) ⟨rfl, rfl⟩
      ⟨rfl, rfl, rfl, hnow, fun ha => ha.of_vault entries rfl rfl (by rw [hp]; rfl)⟩
    obtain ⟨-, fits, hfits, hclosed⟩ := ha
    obtain ⟨files', hok, -⟩ := (hclosed _ hfits).1 entries
    rw [hp] at hok
    cases hok
  · exact .stored hl he hentries.symm rfl
      ⟨rfl, rfl, rfl, hnow, fun ha => ha.of_vault entries rfl rfl (by rw [hp]; rfl)⟩

theorem generateSymmetricKey_stored (wording : VaultError → SealError) (keyName : String)
    (bits : Nat) :
    Stored h keyName (fun key e => e = .symmetric key)
      (h.Accepts ∧ ∃ size, h.vault.admitSymmetric keyName bits = .ok size)
      (request wording (VaultSite.generateSymmetricKey keyName bits) h) := by
  rw [request_apply, VaultSite.generateSymmetricKey, Action.bind_apply]
  simp only [VaultSite.ask, VaultSite.note, Action.bind_apply, Action.modify_apply, Action.reads,
    vaultSite]
  cases hadmit : h.vault.admitSymmetric keyName bits with
  | error e =>
    refine .refused ?_ ⟨rfl, rfl⟩ ⟨rfl, rfl, rfl, rfl, id⟩
    rintro ⟨-, size, hsize⟩
    cases hsize
  | ok size =>
    let drawn := SymmetricKey.draw size h.machine.entropy
    let site : VaultSite := {
      vault := h.vault
      requests := h.requests ++ [.generateSymmetricKey]
      machine := { h.machine with entropy := drawn.2 } }
    have hstored := stored_replaceEntries (h := h) (s := site) (a := drawn.1) wording keyName
      (fun key e => e = .symmetric key) rfl (Vault.admitSymmetric_ok.mp hadmit).1 rfl rfl rfl
    convert hstored.mono And.left using 1
    have hrun : (Machine.draw (SymmetricKey.draw size) : Action Machine VaultError _) h.machine =
        (.ok drawn.1, { h.machine with entropy := drawn.2 }) := rfl
    simp only [VaultSite.onMachine, Action.zoom_apply, hrun, VaultSite.store_eq]
    generalize VaultSite.replaceEntries _ _ = written
    rcases written with ⟨_ | _, _⟩ <;> rfl

theorem generateKeyPair_stored (wording : VaultError → SealError) (keyName : String)
    (spec : KeyPairSpec) :
    Stored h keyName
      (fun pair e => ∃ secret : SecretKey, pair.publicKey = ⟨keyName, secret.publicKey⟩ ∧
        e = .keyPair secret spec)
      (h.Accepts ∧ h.vault.admitKeyPair keyName spec = .ok ())
      (request wording (VaultSite.generateKeyPair keyName spec) h) := by
  rw [request_apply, VaultSite.generateKeyPair, Action.bind_apply]
  simp only [VaultSite.ask, VaultSite.note, Action.bind_apply, Action.modify_apply, Action.reads,
    vaultSite]
  cases hadmit : h.vault.admitKeyPair keyName spec with
  | error e =>
    refine .refused ?_ ⟨rfl, rfl⟩ ⟨rfl, rfl, rfl, rfl, id⟩
    rintro ⟨-, hok⟩
    cases hok
  | ok _ =>
    let drawn := SecretKey.draw h.machine.entropy
    let pair : KeyPairHandle := ⟨⟨keyName, drawn.1.publicKey⟩, ⟨keyName⟩⟩
    let site : VaultSite := {
      vault := h.vault
      requests := h.requests ++ [.generateKeyPair]
      machine := { h.machine with entropy := drawn.2 } }
    have hstored := stored_replaceEntries (h := h) (s := site) (a := pair) wording keyName
      (fun pair e => ∃ secret : SecretKey, pair.publicKey = ⟨keyName, secret.publicKey⟩ ∧
        e = .keyPair secret spec)
      ⟨drawn.1, rfl, rfl⟩ (Vault.admitKeyPair_ok.mp hadmit).1 rfl rfl rfl
    convert hstored.mono And.left using 1
    have hrun : (Machine.draw SecretKey.draw : Action Machine VaultError _) h.machine =
        (.ok drawn.1, { h.machine with entropy := drawn.2 }) := rfl
    simp only [VaultSite.onMachine, Action.zoom_apply, hrun, VaultSite.store_eq]
    generalize VaultSite.replaceEntries _ _ = written
    rcases written with ⟨_ | _, _⟩ <;> rfl

/-- Wrapping changes nothing in the stores, and what it makes opens with the secret. -/
theorem wrap_ok (keyName : String) (secret : SecretKey) (key : SymmetricKey)
    (hl : ¬ h.vault.locked) :
    ∃ bytes h', onVault (VaultSite.wrap ⟨keyName, secret.publicKey⟩ key) h = (.ok bytes, h') ∧
      h.SameStores h' ∧ h.Around h' ∧ Vault.unwrapped secret bytes = .ok key := by
  let ephemeral := SecretKey.draw h.machine.entropy
  let nonce := ephemeral.2.draw Cipher.Box.nonceSize
  refine ⟨(Vault.wrapped ephemeral.1 nonce.1 secret.publicKey key).bytes,
    { h with
      requests := h.requests ++ [.wrap]
      machine := { h.machine with entropy := nonce.2 } }, ?_, ⟨rfl, rfl⟩,
    ⟨rfl, rfl, rfl, rfl, id⟩, Vault.unwrapped_wrapped (ephemeral.2.length_draw _)⟩
  rw [onVault, request_apply, VaultSite.wrap, Action.bind_apply]
  simp only [VaultSite.ask, VaultSite.note, Action.bind_apply, Action.modify_apply, Action.reads,
    vaultSite, Vault.ensureUnlocked, hl]
  rfl

/-- A deletion takes an entry out of the vault, or leaves the stores as they were. -/
theorem deleteKey_end (keyName : String) (h : Host) :
    h.SameStores (onVault (VaultSite.deleteKey keyName) h).2 ∨
      (onVault (VaultSite.deleteKey keyName) h).2.vault.entries = h.vault.entries.erase keyName ∧
        (onVault (VaultSite.deleteKey keyName) h).2.settings = h.settings := by
  rw [onVault, request_apply, VaultSite.deleteKey_apply]
  have hvault : h.vaultSite.vault = h.vault := rfl
  rw [hvault]
  cases h.vault.hasKey keyName with
  | error e => exact .inl ⟨rfl, rfl⟩
  | ok known =>
    cases known with
    | false => exact .inl ⟨rfl, rfl⟩
    | true =>
      simp only [Action.bind_apply, VaultSite.replaceEntries_apply, VaultSite.noted, vaultSite]
      rcases Vault.persist h.vault.path (h.vault.entries.erase keyName) h.machine.files with
        ⟨_ | _, files⟩
      · exact .inl ⟨rfl, rfl⟩
      · exact .inr ⟨rfl, rfl⟩

/-- What a write to the settings ends in. -/
inductive Put (h : Host) (entries : List (String × SettingValue)) :
    Except (Failure SealError) Unit × Host → Prop
  | refused {e : SettingsError} {h' : Host} :
      ¬ h.Accepts → h.SameStores h' → h.Around h' →
        Put h entries (.error (.error (.settings e)), h')
  | put {h' : Host} :
      h'.vault.entries = h.vault.entries →
        h'.settings.values = h.settings.values.insertAll entries → h.Around h' →
          Put h entries (.ok (), h')

theorem putAll_put (h : Host) (entries : List (String × SettingValue)) :
    Put h entries (onSettings (SettingsSite.putAll entries) h) := by
  rw [onSettings_apply, SettingsSite.putAll_apply]
  by_cases hguard : h.settings.backing = .guarded true
  · rw [settingsSite, if_pos hguard]
    exact .refused (fun ha => ha.1 hguard) ⟨rfl, rfl⟩ (.refl h)
  · rw [settingsSite, if_neg hguard, SettingsSite.replaceValues_apply]
    generalize hvalues : h.settings.values.insertAll entries = values
    rcases hp : Settings.persist h.settings.backing values h.machine.files with ⟨_ | _, files⟩
    · refine .refused (fun ha => ?_) ⟨rfl, rfl⟩
        ⟨rfl, rfl, rfl, rfl, fun ha => ha.of_settings values rfl rfl (by rw [hp]; rfl)⟩
      obtain ⟨-, fits, hfits, hclosed⟩ := ha
      obtain ⟨files', hok, -⟩ := (hclosed _ hfits).2 values
      rw [hp] at hok
      cases hok
    · exact .put rfl hvalues.symm
        ⟨rfl, rfl, rfl, rfl, fun ha => ha.of_settings values rfl rfl (by rw [hp]; rfl)⟩

end Host

end SealedStream
