import SealedStream.Proofs.LookUp

/-!
# Keys that the stores keep

What `Custodian.Kept` says of the stores is all that it takes for a custodian to
find a key again, and all that there is once it has found or made one. Nothing is
asked of the rest: a wrapped key may be written with blanks, a level may be
missing, and other names may stand for anything.
-/

namespace SealedStream

open SealedStream.Action (Keeps)

namespace Custodian

/-- The stores keep a key for a custodian: as one of the vault's own, where one of its tier looks
for that, or wrapped in the settings for a pair of the vault. -/
inductive Kept (c : Custodian) (v : Vault) (s : Settings) : ContentKey → Prop
  | direct {key : SymmetricKey} {marker : Int64} :
      c.hostTier = .modernDirect →
      v.entries.get? c.config.symmetricAlias = some (.symmetric key) →
      s.getInt c.config.levelSetting c.platform.marker = .ok marker →
      Kept c v s (c.keyOf key marker .vaultDirect)
  | wrapped {blob : String} {bytes : Bytes} {secret : SecretKey} {spec : KeyPairSpec}
      {key : SymmetricKey} {marker : Int64} :
      (c.hostTier = .modernDirect → v.entries.get? c.config.symmetricAlias = none) →
      s.getString? c.config.wrappedKeySetting = .ok (some blob) →
      blobBytes blob = .ok bytes →
      v.entries.get? c.config.wrapAlias = some (.keyPair secret spec) →
      Vault.unwrapped secret bytes = .ok key →
      s.getInt c.config.levelSetting c.platform.marker = .ok marker →
      Kept c v s (c.keyOf key marker .migratedLegacy)

/-- The pair that keys are wrapped for is valid now, if the vault has it. -/
def InWindow (c : Custodian) (h : Host) : Prop :=
  ∀ secret spec, h.vault.entries.get? c.config.wrapAlias = some (.keyPair secret spec) →
    spec.IsValidAt h.machine.now

variable {c : Custodian} {h h' : Host} {k : ContentKey}

-- ----------------------------------------------------------------------------
-- What is kept is found
-- ----------------------------------------------------------------------------

theorem readMarker_eq {marker : Int64}
    (hmarker : h.settings.getInt c.config.levelSetting c.platform.marker = .ok marker) :
    c.readMarker h = (.ok marker, h) := by
  rw [readMarker, Host.readSettings_apply, hmarker]
  rfl

/-- Where there is a wrapped key and a pair for it, the one is read and then opened with the other. -/
theorem recoverWrapped_of_pair {blob : String} {secret : SecretKey} {spec : KeyPairSpec}
    (hl : ¬ h.vault.locked)
    (hblob : h.settings.getString? c.config.wrappedKeySetting = .ok (some blob))
    (hpair : h.vault.entries.get? c.config.wrapAlias = some (.keyPair secret spec)) :
    c.recoverWrapped h =
      match blobBytes blob with
      | .error e => (.error (.error e), h.asked [.privateKey])
      | .ok bytes =>
        (((h.vault.unwrap h.machine.now ⟨c.config.wrapAlias⟩ bytes).map some).mapError fun e =>
          .error (.keyVault e), h.asked [.privateKey, .unwrap]) := by
  have hpair' : h.vault.entries.get? c.config.wrapAlias =
      (some (secret, spec)).map fun p => .keyPair p.1 p.2 := hpair
  have hhandle : (h.noted .privateKey).vault.privateKey c.config.wrapAlias =
      .ok (some ⟨c.config.wrapAlias⟩) := by
    show h.vault.privateKey c.config.wrapAlias = _
    rw [Vault.privateKey_eq hpair', if_neg hl]
    rfl
  simp only [recoverWrapped, Action.bind_apply, Host.readSettings_apply, hblob, Except.mapError,
    VaultSite.privateKey, VaultSite.unwrap, Host.onVault_ask, Host.vaultSite, hhandle,
    Action.ofExcept]
  cases blobBytes blob with
  | error e => rfl
  | ok bytes =>
    simp only [Host.noted_noted, Host.asked]
    cases h.vault.unwrap h.machine.now ⟨c.config.wrapAlias⟩ bytes <;> rfl

theorem recoverWrapped_eq {blob : String} {bytes : Bytes} {secret : SecretKey} {spec : KeyPairSpec}
    {key : SymmetricKey} (hl : ¬ h.vault.locked)
    (hblob : h.settings.getString? c.config.wrappedKeySetting = .ok (some blob))
    (hbytes : blobBytes blob = .ok bytes)
    (hpair : h.vault.entries.get? c.config.wrapAlias = some (.keyPair secret spec))
    (hvalid : spec.IsValidAt h.machine.now) (hopen : Vault.unwrapped secret bytes = .ok key) :
    c.recoverWrapped h = (.ok (some key), h.asked [.privateKey, .unwrap]) := by
  rw [recoverWrapped_of_pair hl hblob hpair, hbytes]
  simp only [Vault.unwrap_keyPair hpair, if_neg hl, if_pos hvalid, hopen]
  rfl

/-- Where a tier keeps no key in the vault, all that a search does is to recover the wrapped one. -/
theorem search_eq_recoverWrapped {marker : Int64} (hl : ¬ h.vault.locked)
    (hnone : c.hostTier = .modernDirect → h.vault.entries.get? c.config.symmetricAlias = none)
    (hmarker : h.settings.getInt c.config.levelSetting c.platform.marker = .ok marker) :
    c.search h =
      (do return (← c.recoverWrapped).map fun key => c.keyOf key marker .migratedLegacy :
        HostAction (Option ContentKey))
        (h.asked (if c.hostTier = .modernDirect then [.hasKey] else [])) := by
  cases htier : c.hostTier with
  | modernDirect =>
    have hnone' : h.vault.entries.get? c.config.symmetricAlias =
        (none : Option SymmetricKey).map .symmetric := hnone htier
    simp only [search, Action.bind_apply, readMarker_eq hmarker, htier, VaultSite.hasKey,
      Host.onVault_ask, Host.noted, Host.vaultSite, Vault.hasKey_eq hnone', hl, Except.mapError,
      Option.isSome_none, Bool.false_eq_true, if_false, if_true, Host.asked]
  | legacyWrapped =>
    simp only [search, Action.bind_apply, readMarker_eq hmarker, htier, reduceCtorEq, if_false,
      Host.asked, List.append_nil]
  | unsupported =>
    simp only [search, Action.bind_apply, readMarker_eq hmarker, htier, reduceCtorEq, if_false,
      Host.asked, List.append_nil]

/-- What a custodian asks of the vault until it has found a key of this source. -/
def searchRequests (c : Custodian) : KeySource → List Request
  | .vaultDirect => [.hasKey, .getSymmetricKey]
  | _ => (if c.hostTier = .modernDirect then [.hasKey] else []) ++ [.privateKey, .unwrap]

theorem search_of_direct {key : SymmetricKey} {marker : Int64} (htier : c.hostTier = .modernDirect)
    (hkey : h.vault.entries.get? c.config.symmetricAlias = some (.symmetric key))
    (hl : ¬ h.vault.locked)
    (hmarker : h.settings.getInt c.config.levelSetting c.platform.marker = .ok marker) :
    c.search h =
      (.ok (some (c.keyOf key marker .vaultDirect)), h.asked [.hasKey, .getSymmetricKey]) := by
  have hkey' : h.vault.entries.get? c.config.symmetricAlias = (some key).map .symmetric := hkey
  rw [← Host.noted_noted]
  simp only [search, Action.bind_apply, readMarker_eq hmarker, htier, VaultSite.hasKey,
    VaultSite.symmetricKey, Host.onVault_ask, Host.noted, Host.vaultSite, Vault.hasKey_eq hkey',
    Vault.symmetricKey_eq hkey', hl, Option.isSome_some, Except.mapError, if_true,
    Bool.false_eq_true, if_false]
  rfl

theorem search_of_kept (hkept : c.Kept h.vault h.settings k) (hl : ¬ h.vault.locked)
    (hwindow : c.InWindow h) :
    c.search h = (.ok (some k), h.asked (c.searchRequests k.source)) := by
  cases hkept with
  | direct htier hkey hmarker => exact search_of_direct htier hkey hl hmarker
  | @wrapped blob bytes secret spec key marker hnone hblob hbytes hpair hopen hmarker =>
    have hasked : h.asked (c.searchRequests .migratedLegacy) =
        (h.asked (if c.hostTier = .modernDirect then [.hasKey] else [])).asked
          [.privateKey, .unwrap] := by
      simp only [Host.asked, searchRequests, List.append_assoc]
    rw [search_eq_recoverWrapped hl hnone hmarker, Action.bind_apply,
      recoverWrapped_eq (h := h.asked _) hl hblob hbytes hpair (hwindow secret spec hpair) hopen,
      ← hasked]
    rfl

-- ----------------------------------------------------------------------------
-- What is found was kept
-- ----------------------------------------------------------------------------

theorem readMarker_ok {marker : Int64} (hmarker : c.readMarker h = (.ok marker, h')) :
    h' = h ∧ h.settings.getInt c.config.levelSetting c.platform.marker = .ok marker := by
  rw [readMarker, Host.readSettings_apply, Prod.mk.injEq, mapError_eq_ok] at hmarker
  exact ⟨hmarker.2.symm, hmarker.1⟩

end Custodian

/-- A request that was answered was answered from the vault as it stood. -/
theorem Host.onVault_ask_ok {α : Type} {r : Request} {answer : VaultSite → Except VaultError α}
    {h h' : Host} {a : α} (hask : onVault (VaultSite.ask r answer) h = (.ok a, h')) :
    h' = h.noted r ∧ answer (h.noted r).vaultSite = .ok a := by
  rw [onVault_ask, Prod.mk.injEq, mapError_eq_ok] at hask
  exact ⟨hask.2.symm, hask.1⟩

namespace Vault

variable {v : Vault} {keyName : String}

theorem unlocked_of_hasKey {known : Bool} (h : v.hasKey keyName = .ok known) :
    ¬ v.locked ∧ known = (v.entries.get? keyName).isSome := by
  unfold hasKey ensureUnlocked at h
  split at h
  · cases h
  · next hl => exact ⟨hl, (Except.ok.inj h).symm⟩

theorem get?_of_symmetricKey {key : SymmetricKey} (h : v.symmetricKey keyName = .ok (some key)) :
    v.entries.get? keyName = some (.symmetric key) := by
  unfold symmetricKey ensureUnlocked at h
  split at h
  · cases h
  · simp only [ok_bind] at h
    split at h
    · next hentry =>
      cases h
      exact hentry
    · cases h

theorem privateKey_ok {handle : PrivateKeyHandle} (h : v.privateKey keyName = .ok (some handle)) :
    handle = ⟨keyName⟩ ∧
      ∃ secret spec, v.entries.get? keyName = some (.keyPair secret spec) := by
  unfold privateKey ensureUnlocked at h
  split at h
  · cases h
  · simp only [ok_bind] at h
    split at h
    · next secret spec hentry =>
      cases h
      exact ⟨rfl, secret, spec, hentry⟩
    · cases h

theorem unwrap_ok {secret : SecretKey} {spec : KeyPairSpec} {now : Time} {bytes : Bytes}
    {key : SymmetricKey} (hpair : v.entries.get? keyName = some (.keyPair secret spec))
    (h : v.unwrap now ⟨keyName⟩ bytes = .ok key) : unwrapped secret bytes = .ok key := by
  rw [unwrap_keyPair hpair] at h
  split at h
  · cases h
  · split at h
    · exact mapError_eq_ok.mp h
    · cases h

end Vault

namespace Custodian

variable {c : Custodian} {h h' : Host} {k : ContentKey}

theorem recoverWrapped_ok {key : SymmetricKey}
    (hrecover : c.recoverWrapped h = (.ok (some key), h')) :
    ∃ blob bytes secret spec, h.settings.getString? c.config.wrappedKeySetting = .ok (some blob) ∧
      blobBytes blob = .ok bytes ∧
      h.vault.entries.get? c.config.wrapAlias = some (.keyPair secret spec) ∧
      Vault.unwrapped secret bytes = .ok key := by
  unfold recoverWrapped at hrecover
  obtain ⟨blob?, h₁, hread, hrest⟩ := Action.bind_ok.mp hrecover
  rw [Host.readSettings_apply, Prod.mk.injEq, mapError_eq_ok] at hread
  obtain ⟨hblob, rfl⟩ := hread
  cases blob? with
  | none => cases hrest
  | some blob =>
    obtain ⟨handle?, h₂, hask, hrest⟩ := Action.bind_ok.mp hrest
    obtain ⟨rfl, hhandle⟩ := Host.onVault_ask_ok hask
    cases handle? with
    | none => cases hrest
    | some handle =>
      obtain ⟨rfl, secret, spec, hpair⟩ := Vault.privateKey_ok hhandle
      obtain ⟨bytes, h₃, hread, hrest⟩ := Action.bind_ok.mp hrest
      rw [Action.ofExcept, Prod.mk.injEq, mapError_eq_ok] at hread
      obtain ⟨hbytes, rfl⟩ := hread
      obtain ⟨key', h₄, hask, hrest⟩ := Action.bind_ok.mp hrest
      obtain ⟨-, hunwrap⟩ := Host.onVault_ask_ok hask
      cases hrest
      exact ⟨blob, bytes, secret, spec, hblob, hbytes, hpair, Vault.unwrap_ok hpair hunwrap⟩

theorem kept_of_recoverWrapped {marker : Int64}
    (hnone : c.hostTier = .modernDirect → h.vault.entries.get? c.config.symmetricAlias = none)
    (hmarker : h.settings.getInt c.config.levelSetting c.platform.marker = .ok marker)
    (hrecover : (do return (← c.recoverWrapped).map fun key => c.keyOf key marker .migratedLegacy :
      HostAction (Option ContentKey)) h = (.ok (some k), h')) : c.Kept h.vault h.settings k := by
  obtain ⟨key?, h₁, hrecover, hk⟩ := Action.bind_ok.mp hrecover
  cases key? with
  | none => cases hk
  | some key =>
    cases hk
    obtain ⟨blob, bytes, secret, spec, hblob, hbytes, hpair, hopen⟩ := recoverWrapped_ok hrecover
    exact .wrapped hnone hblob hbytes hpair hopen hmarker

theorem kept_of_search (hsearch : c.search h = (.ok (some k), h')) :
    c.Kept h.vault h.settings k := by
  unfold search at hsearch
  obtain ⟨marker, h₁, hread, hrest⟩ := Action.bind_ok.mp hsearch
  obtain ⟨rfl, hmarker⟩ := readMarker_ok hread
  cases htier : c.hostTier with
  | modernDirect =>
    simp only [htier] at hrest
    obtain ⟨known, h₂, hask, hrest⟩ := Action.bind_ok.mp hrest
    obtain ⟨rfl, hknown⟩ := Host.onVault_ask_ok hask
    obtain ⟨-, rfl⟩ := Vault.unlocked_of_hasKey hknown
    split at hrest
    · obtain ⟨key?, h₃, hask, hrest⟩ := Action.bind_ok.mp hrest
      obtain ⟨rfl, hkey⟩ := Host.onVault_ask_ok hask
      cases key? with
      | none => cases hrest
      | some key =>
        cases hrest
        exact .direct htier (Vault.get?_of_symmetricKey hkey) hmarker
    · next hnone =>
      rw [Bool.not_eq_true, Option.isSome_eq_false_iff, Option.isNone_iff_eq_none] at hnone
      exact kept_of_recoverWrapped (h := h₁.noted .hasKey) (fun _ => hnone) hmarker hrest
  | legacyWrapped =>
    simp only [htier] at hrest
    exact kept_of_recoverWrapped (by simp [htier]) hmarker hrest
  | unsupported =>
    simp only [htier] at hrest
    exact kept_of_recoverWrapped (by simp [htier]) hmarker hrest

end Custodian

-- ----------------------------------------------------------------------------
-- Searching leaves the stores alone
-- ----------------------------------------------------------------------------

namespace Custodian

variable {c : Custodian} {h h' : Host} {k : ContentKey}

section

variable {fits : Host → Prop}
  (hnoted : ∀ h (r : Request), ¬ r.isGeneration → fits h → fits (h.noted r))

include hnoted

theorem recoverWrapped_keeps (c : Custodian) : Keeps fits c.recoverWrapped := by
  refine .bind (.of_same fun h => by rw [Host.readSettings_apply]) fun blob? => ?_
  cases blob? with
  | none => exact .of_same fun _ => rfl
  | some blob =>
    refine .bind (Host.keeps_onVault_ask (by decide) hnoted _) fun handle? => ?_
    cases handle? with
    | none => exact .of_same fun _ => rfl
    | some handle =>
      exact .bind (.of_same fun _ => rfl) fun _ =>
        .bind (Host.keeps_onVault_ask (by decide) hnoted _) fun _ => .of_same fun _ => rfl

/-- Nothing comes of a search but notes of the requests that it makes. -/
theorem search_keeps (c : Custodian) : Keeps fits c.search := by
  have hrecover (marker : Int64) : Keeps fits
      (do return (← c.recoverWrapped).map fun key => c.keyOf key marker .migratedLegacy :
        HostAction (Option ContentKey)) :=
    .bind (c.recoverWrapped_keeps hnoted) fun _ => .of_same fun _ => rfl
  unfold search
  refine .bind (.of_same fun h => by rw [readMarker, Host.readSettings_apply]) fun marker => ?_
  cases c.hostTier with
  | modernDirect =>
    refine .bind (Host.keeps_onVault_ask (by decide) hnoted _) fun known => ?_
    cases known with
    | false => exact hrecover marker
    | true =>
      refine .bind (Host.keeps_onVault_ask (by decide) hnoted _) fun key? => ?_
      cases key? <;> exact .of_same fun _ => rfl
  | legacyWrapped => exact hrecover marker
  | unsupported => exact hrecover marker

end

theorem search_asks (c : Custodian) (h : Host) :
    ∃ requests, (∀ r ∈ requests, ¬ r.isGeneration) ∧ (c.search h).2 = h.asked requests := by
  have hkeeps : Keeps (fun h' => ∃ requests, (∀ r ∈ requests, ¬ r.isGeneration) ∧
      h' = h.asked requests) c.search := by
    refine c.search_keeps ?_
    rintro _ r hr ⟨requests, hrequests, rfl⟩
    refine ⟨requests ++ [r], fun other hother => ?_, ?_⟩
    · obtain hother | hother := List.mem_append.mp hother
      · exact hrequests other hother
      · rwa [List.mem_singleton.mp hother]
    · rw [Host.asked, Host.noted, Host.asked, List.append_assoc]
  exact hkeeps h ⟨[], List.forall_mem_nil _, by rw [Host.asked, List.append_nil]⟩

-- ----------------------------------------------------------------------------
-- Looking up
-- ----------------------------------------------------------------------------

theorem lookUp_of_kept (hsupported : c.hostTier.isSupported)
    (hkept : c.Kept h.vault h.settings k) (hl : ¬ h.vault.locked) (hwindow : c.InWindow h) :
    ∃ requests, c.lookUp h = (.ok k, { h with requests }) := by
  refine ⟨h.requests ++ c.searchRequests k.source, ?_⟩
  rw [lookUp_eq hsupported, Action.bind_apply, search_of_kept hkept hl hwindow]
  rfl

/-- What a look-up that gives a key has done, whatever the stores held. -/
inductive LookedUp (c : Custodian) (h : Host) : ContentKey → Host → Prop
  | found {k : ContentKey} {requests : List Request} :
      c.Kept h.vault h.settings k → LookedUp c h k { h with requests }
  | direct {key : SymmetricKey} {h' : Host} :
      c.hostTier = .modernDirect →
      h'.vault.entries = h.vault.entries.insert c.config.symmetricAlias (.symmetric key) →
      h'.settings.values =
        h.settings.values.insertAll [(c.config.levelSetting, .int c.platform.marker)] →
      h.Around h' → LookedUp c h (c.keyOf key c.platform.marker .generatedModern) h'
  | wrapped {key : SymmetricKey} {secret : SecretKey} {spec : KeyPairSpec} {bytes : Bytes}
      {h' : Host} :
      c.hostTier ≠ .modernDirect → ¬ h.vault.locked →
      KeyPairSpec.validFor? c.config.keyPairSizeBits h.machine.now c.config.keyPairValidity =
        some spec →
      Vault.unwrapped secret bytes = .ok key →
      h'.vault.entries = h.vault.entries.insert c.config.wrapAlias (.keyPair secret spec) →
      h'.settings.values = h.settings.values.insertAll
        [(c.config.wrappedKeySetting, .string (Text.Base64.encode bytes)),
          (c.config.levelSetting, .int c.platform.marker)] →
      h.Around h' → LookedUp c h (c.keyOf key c.platform.marker .generatedLegacy) h'

theorem lookedUp (hv : c.config.validate = .ok ()) (hsupported : c.hostTier.isSupported)
    (hlookUp : c.lookUp h = (.ok k, h')) : c.LookedUp h k h' := by
  rw [lookUp_eq hsupported] at hlookUp
  obtain ⟨k?, h₁, hsearch, hrest⟩ := Action.bind_ok.mp hlookUp
  obtain ⟨requests, -, hasked⟩ := c.search_asks h
  rw [hsearch] at hasked
  subst hasked
  cases k? with
  | some k' =>
    cases hrest
    exact .found (kept_of_search hsearch)
  | none =>
    obtain ⟨m, h₂, hmint, hrecord⟩ := Action.bind_ok.mp hrest
    obtain ⟨⟨⟩, h₃, hput, hk⟩ := Action.bind_ok.mp hrecord
    cases hk
    have hmints := mint_mints hv (h.asked requests)
    have hputs := h₂.putAll_put m.record
    rw [hmint] at hmints
    rw [hput] at hputs
    have around : h.Around (h.asked requests) := ⟨rfl, rfl, rfl, rfl, id⟩
    cases hputs with
    | put hentries hvalues around₃ =>
      cases hmints with
      | direct htier hl hentries' hvalues' around₂ =>
        exact .direct htier (hentries.trans hentries') (by rw [hvalues, hvalues']; rfl)
          ((around.trans around₂).trans around₃)
      | wrapped htier hl hspec hopen hentries' hvalues' around₂ =>
        exact .wrapped htier hl hspec hopen (hentries.trans hentries')
          (by rw [hvalues, hvalues']; rfl) ((around.trans around₂).trans around₃)

theorem LookedUp.around (hlookedUp : c.LookedUp h k h') : h.Around h' := by
  cases hlookedUp with
  | found hkept => exact ⟨rfl, rfl, rfl, rfl, id⟩
  | direct htier hentries hvalues around => exact around
  | wrapped htier hl hspec hopen hentries hvalues around => exact around

/-- A look-up has had a wrapped key made: a pair is in the vault, and in the settings the key in
bytes that the pair opens. -/
structure MadeWrapped (c : Custodian) (h : Host) (k : ContentKey) (secret : SecretKey)
    (spec : KeyPairSpec) (bytes : Bytes) (h' : Host) : Prop where
  key : k = c.keyOf k.key c.platform.marker .generatedLegacy
  unlocked : ¬ h.vault.locked
  window : KeyPairSpec.validFor? c.config.keyPairSizeBits h.machine.now c.config.keyPairValidity =
    some spec
  opens : Vault.unwrapped secret bytes = .ok k.key
  pair : h'.vault.entries.get? c.config.wrapAlias = some (.keyPair secret spec)
  values : h'.settings.values = h.settings.values.insertAll
    [(c.config.wrappedKeySetting, .string (Text.Base64.encode bytes)),
      (c.config.levelSetting, .int c.platform.marker)]
  around : h.Around h'

/-- The source tells of a key that it was made and wrapped. -/
theorem LookedUp.madeWrapped (hlookedUp : c.LookedUp h k h') (hsource : k.source = .generatedLegacy) :
    ∃ secret spec bytes, c.MadeWrapped h k secret spec bytes h' := by
  cases hlookedUp with
  | found hkept => cases hkept <;> cases hsource
  | direct _ _ _ _ => cases hsource
  | wrapped _ hl hspec hopen hentries hvalues around =>
    exact ⟨_, _, _, rfl, hl, hspec, hopen, by rw [hentries, Dict.get?_insert, if_pos rfl], hvalues,
      around⟩

namespace MadeWrapped

variable {secret : SecretKey} {spec : KeyPairSpec} {bytes : Bytes}
  (hmade : c.MadeWrapped h k secret spec bytes h')

include hmade

/-- Where one name stands for both, the level takes the place of the key. -/
theorem written : h'.settings.get? c.config.wrappedKeySetting =
    if c.config.wrappedKeySetting = c.config.levelSetting then some (.int c.platform.marker)
    else some (.string (Text.Base64.encode bytes)) := by
  simp [Settings.get?, hmade.values, Dict.insertAll, Dict.get?_insert]

theorem level : h'.settings.get? c.config.levelSetting = some (.int c.platform.marker) := by
  simp [Settings.get?, hmade.values, Dict.insertAll, Dict.get?_insert]

/-- The pair is valid when it has just been made. -/
theorem inWindow : c.InWindow h' := by
  intro secret' spec' hpair
  rw [hmade.pair] at hpair
  cases hpair
  obtain ⟨-, hbefore, hafter⟩ := KeyPairSpec.of_validFor hmade.window
  have hlasting := Int.le_add_of_nonneg_right (a := h.machine.now.nanoseconds)
    (Int.natCast_nonneg c.config.keyPairValidity.nanoseconds)
  rw [hmade.around.now]
  exact ⟨Int.le_of_eq (by rw [hbefore]), Int.le_trans hlasting (Int.le_of_eq hafter.symm)⟩

end MadeWrapped

/-- The key that a look-up gave is kept from then on. Only how it was come by is told otherwise. -/
theorem LookedUp.kept (hlookedUp : c.LookedUp h k h')
    (hne : c.config.wrappedKeySetting ≠ c.config.levelSetting) :
    ∃ source, c.Kept h'.vault h'.settings { k with source } := by
  cases hlookedUp with
  | found hkept => exact ⟨k.source, hkept⟩
  | direct htier hentries hvalues around =>
    refine ⟨.vaultDirect, .direct htier ?_ ?_⟩
    · rw [hentries, Dict.get?_insert, if_pos rfl]
      rfl
    · simp [Settings.getInt, Settings.get?, hvalues, Dict.insertAll, Dict.get?_insert]
  | @wrapped key secret spec bytes _ htier hl hspec hopen hentries hvalues around =>
    have hpair : h'.vault.entries.get? c.config.wrapAlias = some (.keyPair secret spec) := by
      rw [hentries, Dict.get?_insert, if_pos rfl]
    refine ⟨.migratedLegacy,
      .wrapped (fun hmodern => absurd hmodern htier) ?_ (blobBytes_encode _) hpair hopen ?_⟩
    · simp [Settings.getString?, Settings.get?, hvalues, Dict.insertAll, Dict.get?_insert, hne]
    · simp [Settings.getInt, Settings.get?, hvalues, Dict.insertAll, Dict.get?_insert]

end Custodian

end SealedStream
