import SealedStream.Proofs.Base64
import SealedStream.Proofs.Writes

/-!
# What the stores hold for a custodian

`Holdings` are the three things that make up a content key at rest: the key
itself, a key pair, and a wrapped key. They determine what a search answers,
and every write of a custodian changes one of them.
-/

namespace SealedStream

/-- The content key at rest. -/
structure Holdings where
  direct : Option SymmetricKey := none
  pair : Option (SecretKey × KeyPairSpec) := none
  blob : Option Bytes := none

namespace Holdings

/-- What the wrapped key gives: nothing where it or its pair is missing. -/
def recovered (s : Holdings) (wrapAlias : String) (locked : Bool) (now : Time) :
    Except VaultError (Option SymmetricKey) :=
  match s.blob with
  | none => .ok none
  | some blob =>
    if locked then .error .locked
    else match s.pair with
      | none => .ok none
      | some (secret, spec) =>
        if spec.IsValidAt now then
          ((Vault.unwrapped secret blob).mapError .unwrap).map some
        else .error (.keyExpired wrapAlias)

/-- What a custodian of a tier finds. -/
def found (s : Holdings) (tier : Tier) (wrapAlias : String) (locked : Bool) (now : Time) :
    Except VaultError (Option SymmetricKey) :=
  match tier with
  | .modernDirect =>
    if locked then .error .locked
    else match s.direct with
      | some key => .ok (some key)
      | none => s.recovered wrapAlias locked now
  | _ => s.recovered wrapAlias locked now

/-- Where the key that is found comes from. -/
def source (s : Holdings) (tier : Tier) : KeySource :=
  match tier, s.direct with
  | .modernDirect, some _ => .vaultDirect
  | _, _ => .migratedLegacy

/-- What is left once the entry of a name is deleted. -/
def without (s : Holdings) (config : Config) (keyName : String) : Holdings where
  direct := if config.symmetricAlias = keyName then none else s.direct
  pair := if config.wrapAlias = keyName then none else s.pair
  blob := s.blob

end Holdings

namespace Vault

variable {v : Vault} {keyName : String}

theorem hasKey_eq {direct : Option SymmetricKey}
    (h : v.entries.get? keyName = direct.map .symmetric) :
    v.hasKey keyName = if v.locked then .error .locked else .ok direct.isSome := by
  rw [hasKey, ensureUnlocked, Dict.contains, h, Option.isSome_map]
  cases v.locked <;> rfl

theorem symmetricKey_eq {direct : Option SymmetricKey}
    (h : v.entries.get? keyName = direct.map .symmetric) :
    v.symmetricKey keyName = if v.locked then .error .locked else .ok direct := by
  rw [symmetricKey, ensureUnlocked, h]
  cases v.locked <;> cases direct <;> rfl

variable {pair : Option (SecretKey × KeyPairSpec)}
  (h : v.entries.get? keyName = pair.map fun p => .keyPair p.1 p.2)

include h

theorem privateKey_eq :
    v.privateKey keyName =
      if v.locked then .error .locked else .ok (pair.map fun _ => ⟨keyName⟩) := by
  rw [privateKey, ensureUnlocked, h]
  cases v.locked <;> cases pair <;> rfl

theorem unwrap_eq (now : Time) (bytes : Bytes) :
    v.unwrap now ⟨keyName⟩ bytes =
      if v.locked then .error .locked
      else match pair with
        | none => .error (.keyNotFound keyName)
        | some (secret, spec) =>
          if spec.IsValidAt now then (unwrapped secret bytes).mapError .unwrap
          else .error (.keyExpired keyName) := by
  rw [unwrap, ensureUnlocked]
  cases v.locked <;> cases pair <;> simp [h, bind, Except.bind] <;> rfl

end Vault

theorem Vault.unwrap_keyPair {v : Vault} {keyName : String} {secret : SecretKey}
    {spec : KeyPairSpec} (h : v.entries.get? keyName = some (.keyPair secret spec)) (now : Time)
    (bytes : Bytes) :
    v.unwrap now ⟨keyName⟩ bytes =
      if v.locked then .error .locked
      else if spec.IsValidAt now then (unwrapped secret bytes).mapError .unwrap
      else .error (.keyExpired keyName) := by
  have hpair : v.entries.get? keyName =
      (some (secret, spec)).map fun p => .keyPair p.1 p.2 := h
  exact unwrap_eq hpair now bytes

/-- The entries and values under the names of a configuration are these holdings. -/
structure Host.Holds (h : Host) (config : Config) (s : Holdings) : Prop where
  direct : h.vault.entries.get? config.symmetricAlias = s.direct.map .symmetric
  pair : h.vault.entries.get? config.wrapAlias = s.pair.map fun p => .keyPair p.1 p.2
  blob : h.settings.get? config.wrappedKeySetting =
    s.blob.map fun b => .string (Text.Base64.encode b)
  marker : ∃ level : Option Int64, h.settings.get? config.levelSetting = level.map .int

-- ----------------------------------------------------------------------------
-- Changes
-- ----------------------------------------------------------------------------

theorem Host.Holds.of_empty {h : Host} {config : Config} (hentries : h.vault.entries = .empty)
    (hvalues : h.settings.values = .empty) : h.Holds config {} where
  direct := by rw [hentries, Dict.get?_empty]; rfl
  pair := by rw [hentries, Dict.get?_empty]; rfl
  blob := by rw [Settings.get?, hvalues, Dict.get?_empty]; rfl
  marker := ⟨none, by rw [Settings.get?, hvalues, Dict.get?_empty]; rfl⟩

namespace Host.Holds

variable {h h' : Host} {config : Config} {s : Holdings} (hs : h.Holds config s)

include hs

theorem of_same (same : h.SameStores h') : h'.Holds config s where
  direct := by rw [same.entries, hs.direct]
  pair := by rw [same.entries, hs.pair]
  blob := by rw [Settings.get?, same.values, ← hs.blob, Settings.get?]
  marker := by
    obtain ⟨level, hlevel⟩ := hs.marker
    exact ⟨level, by rw [Settings.get?, same.values, ← hlevel, Settings.get?]⟩

theorem insert_direct {key : SymmetricKey} (hne : config.symmetricAlias ≠ config.wrapAlias)
    (hentries : h'.vault.entries = h.vault.entries.insert config.symmetricAlias (.symmetric key))
    (hvalues : h'.settings.values = h.settings.values) :
    h'.Holds config { s with direct := some key } where
  direct := by rw [hentries, Dict.get?_insert, if_pos rfl]; rfl
  pair := by rw [hentries, Dict.get?_insert, if_neg hne.symm, hs.pair]
  blob := by rw [← hs.blob, Settings.get?, hvalues, Settings.get?]
  marker := by simpa [Settings.get?, hvalues] using hs.marker

theorem insert_pair {secret : SecretKey} {spec : KeyPairSpec}
    (hne : config.symmetricAlias ≠ config.wrapAlias)
    (hentries : h'.vault.entries = h.vault.entries.insert config.wrapAlias (.keyPair secret spec))
    (hvalues : h'.settings.values = h.settings.values) :
    h'.Holds config { s with pair := some (secret, spec) } where
  direct := by rw [hentries, Dict.get?_insert, if_neg hne, hs.direct]
  pair := by rw [hentries, Dict.get?_insert, if_pos rfl]; rfl
  blob := by rw [← hs.blob, Settings.get?, hvalues, Settings.get?]
  marker := by simpa [Settings.get?, hvalues] using hs.marker

theorem record_level {level : Int64} (hne : config.wrappedKeySetting ≠ config.levelSetting)
    (hentries : h'.vault.entries = h.vault.entries)
    (hvalues : h'.settings.values =
      h.settings.values.insertAll [(config.levelSetting, .int level)]) : h'.Holds config s where
  direct := by rw [hentries, hs.direct]
  pair := by rw [hentries, hs.pair]
  blob := by
    rw [← hs.blob, Settings.get?, hvalues]
    simp [Dict.insertAll, Dict.get?_insert, hne, Settings.get?]
  marker := ⟨some level, by simp [Settings.get?, hvalues, Dict.insertAll, Dict.get?_insert]⟩

theorem record_wrapped {bytes : Bytes} {level : Int64}
    (hne : config.wrappedKeySetting ≠ config.levelSetting)
    (hentries : h'.vault.entries = h.vault.entries)
    (hvalues : h'.settings.values = h.settings.values.insertAll
      [(config.wrappedKeySetting, .string (Text.Base64.encode bytes)),
        (config.levelSetting, .int level)]) :
    h'.Holds config { s with blob := some bytes } where
  direct := by rw [hentries, hs.direct]
  pair := by rw [hentries, hs.pair]
  blob := by simp [Settings.get?, hvalues, Dict.insertAll, Dict.get?_insert, hne]
  marker := ⟨some level, by simp [Settings.get?, hvalues, Dict.insertAll, Dict.get?_insert]⟩

theorem erase {keyName : String}
    (hentries : h'.vault.entries = h.vault.entries.erase keyName)
    (hsettings : h'.settings = h.settings) : h'.Holds config (s.without config keyName) where
  direct := by
    rw [hentries, Dict.get?_erase, Holdings.without, hs.direct]
    split <;> rfl
  pair := by
    rw [hentries, Dict.get?_erase, Holdings.without, hs.pair]
    split <;> rfl
  blob := by rw [hsettings, hs.blob, Holdings.without]
  marker := hsettings ▸ hs.marker

end Host.Holds

-- ----------------------------------------------------------------------------
-- Searching
-- ----------------------------------------------------------------------------

namespace Custodian

variable {c : Custodian} {h : Host} {s : Holdings}

/-- Looks for the key where one of the custodian's tier keeps it, without making one. -/
def search (c : Custodian) : HostAction (Option ContentKey) := do
  let marker ← c.readMarker
  match c.hostTier with
  | .modernDirect =>
    let keyName := c.config.symmetricAlias
    if ← Host.onVault (VaultSite.hasKey keyName) then
      match ← Host.onVault (VaultSite.symmetricKey keyName) with
      | some key => return some (c.keyOf key marker .vaultDirect)
      | none => throw (.error (.keyVault (.keyNotFound keyName)))
    else return (← c.recoverWrapped).map fun key => c.keyOf key marker .migratedLegacy
  | _ => return (← c.recoverWrapped).map fun key => c.keyOf key marker .migratedLegacy

theorem blobBytes_encode (bytes : Bytes) : blobBytes (Text.Base64.encode bytes) = .ok bytes := by
  rw [blobBytes, Text.Base64.withoutBlanks_encode, Text.Base64.decode_encode]
  rfl

theorem readMarker_of_holds (hs : h.Holds c.config s) :
    ∃ level, c.readMarker h = (.ok level, h) := by
  obtain ⟨level, hlevel⟩ := hs.marker
  rw [readMarker, Host.readSettings_apply, Settings.getInt, hlevel]
  cases level with
  | none => exact ⟨_, rfl⟩
  | some level => exact ⟨_, rfl⟩

theorem recoverWrapped_of_holds (hs : h.Holds c.config s) :
    ∃ requests, c.recoverWrapped h =
      ((s.recovered c.config.wrapAlias h.vault.locked h.machine.now).mapError fun e =>
        .error (.keyVault e), { h with requests }) := by
  obtain ⟨direct, pair, blob⟩ := s
  have hblob : h.settings.getString? c.config.wrappedKeySetting =
      .ok (blob.map Text.Base64.encode) := by
    rw [Settings.getString?, hs.blob]
    cases blob <;> rfl
  rw [recoverWrapped, Action.bind_apply, Host.readSettings_apply, hblob, Holdings.recovered]
  cases blob with
  | none => exact ⟨h.requests, rfl⟩
  | some blob =>
    simp only [Option.map_some, Except.mapError, Action.bind_apply, VaultSite.privateKey,
      Host.onVault_ask, Host.noted, Host.vaultSite, Vault.privateKey_eq hs.pair]
    by_cases hl : h.vault.locked
    · simp only [hl, if_true]
      exact ⟨_, rfl⟩
    · simp only [hl, Bool.false_eq_true, if_false]
      cases pair with
      | none => exact ⟨_, rfl⟩
      | some pair =>
        obtain ⟨secret, spec⟩ := pair
        simp only [Option.map_some, Action.bind_apply, blobBytes_encode, Action.ofExcept,
          VaultSite.unwrap, Host.onVault_ask, Host.noted, Host.vaultSite,
          Vault.unwrap_eq hs.pair, hl, Bool.false_eq_true, if_false]
        refine ⟨h.requests ++ [.privateKey] ++ [.unwrap], ?_⟩
        by_cases hv : spec.IsValidAt h.machine.now
        · simp only [hv, if_true]
          cases Vault.unwrapped secret blob <;> rfl
        · simp only [hv, if_false]
          rfl

theorem search_of_holds (hs : h.Holds c.config s) :
    ∃ level requests, c.readMarker h = (.ok level, h) ∧ c.search h =
      (((s.found c.hostTier c.config.wrapAlias h.vault.locked h.machine.now).map
        (Option.map fun key => c.keyOf key level (s.source c.hostTier))).mapError fun e =>
          .error (.keyVault e), { h with requests }) := by
  obtain ⟨level, hlevel⟩ := readMarker_of_holds hs
  refine ⟨level, ?_⟩
  have hrecover (h₁ : Host) (hs₁ : h₁.Holds c.config s) : ∃ requests,
      (do return (← c.recoverWrapped).map fun key => c.keyOf key level .migratedLegacy :
        HostAction (Option ContentKey)) h₁ =
      (((s.recovered c.config.wrapAlias h₁.vault.locked h₁.machine.now).map
        (Option.map fun key => c.keyOf key level .migratedLegacy)).mapError fun e =>
          .error (.keyVault e), { h₁ with requests }) := by
    obtain ⟨requests, hrecovered⟩ := recoverWrapped_of_holds hs₁
    refine ⟨requests, ?_⟩
    rw [Action.bind_apply, hrecovered]
    cases s.recovered c.config.wrapAlias h₁.vault.locked h₁.machine.now <;> rfl
  cases htier : c.hostTier with
  | modernDirect =>
    by_cases hl : h.vault.locked
    · refine ⟨h.requests ++ [.hasKey], hlevel, ?_⟩
      simp only [search, Action.bind_apply, hlevel, htier, VaultSite.hasKey, Host.onVault_ask,
        Host.noted, Host.vaultSite, Vault.hasKey_eq hs.direct, hl, if_true, Holdings.found]
      rfl
    · obtain ⟨direct, pair, blob⟩ := s
      simp only [search, Action.bind_apply, hlevel, htier, VaultSite.hasKey, Host.onVault_ask,
        Host.noted, Host.vaultSite, Vault.hasKey_eq hs.direct, hl, Bool.false_eq_true, if_false,
        Holdings.found]
      cases direct with
      | some key =>
        refine ⟨h.requests ++ [.hasKey] ++ [.getSymmetricKey], trivial, ?_⟩
        simp only [Option.isSome_some, Except.mapError, if_true, Action.bind_apply,
          VaultSite.symmetricKey, Host.onVault_ask, Host.noted, Host.vaultSite,
          Vault.symmetricKey_eq hs.direct, hl, Bool.false_eq_true, if_false]
        rfl
      | none =>
        obtain ⟨requests, hrec⟩ := hrecover { h with requests := h.requests ++ [.hasKey] }
          ⟨hs.direct, hs.pair, hs.blob, hs.marker⟩
        refine ⟨requests, trivial, ?_⟩
        simp only [hl] at hrec
        exact hrec
  | legacyWrapped =>
    obtain ⟨requests, hrec⟩ := hrecover h hs
    refine ⟨requests, hlevel, ?_⟩
    simp only [search, Action.bind_apply, hlevel, htier]
    exact hrec
  | unsupported =>
    obtain ⟨requests, hrec⟩ := hrecover h hs
    refine ⟨requests, hlevel, ?_⟩
    simp only [search, Action.bind_apply, hlevel, htier]
    exact hrec

end Custodian

end SealedStream
