import SealedStream.Proofs.Markers
import SealedStream.Proofs.Recovery

/-!
# What a report tells

A report asks the vault whether there is an entry under a name, and the settings whether
there is a value; a resolution asks for keys, pairs, numbers and texts. They agree because
custodians never put anything else under their names: `Orderly` holds of empty stores, and
resolutions, deletions and whatever happens around the stores keep it. So a report also
tells where the key of a resolution would come from.
-/

namespace SealedStream

-- ----------------------------------------------------------------------------
-- Orderly stores
-- ----------------------------------------------------------------------------

/-- Under the names of a configuration there is nothing but what belongs there: a symmetric key, a
key pair, a number that can be a level, and bytes in base64. -/
structure Host.Orderly (h : Host) (config : Config) : Prop where
  direct : ∀ entry, h.vault.entries.get? config.symmetricAlias = some entry →
    ∃ key, entry = .symmetric key
  pair : ∀ entry, h.vault.entries.get? config.wrapAlias = some entry →
    ∃ secret spec, entry = .keyPair secret spec
  level : ∀ value, h.settings.get? config.levelSetting = some value →
    ∃ level : Int64, value = .int level ∧ 0 ≤ level.toInt ∧ level.toInt < UInt32.size
  blob : ∀ value, h.settings.get? config.wrappedKeySetting = some value →
    ∃ bytes, value = .string (Text.Base64.encode bytes)

theorem Platform.marker_range (p : Platform) :
    0 ≤ p.marker.toInt ∧ p.marker.toInt < UInt32.size := by
  rw [toInt_marker]
  exact ⟨Int.natCast_nonneg _, Int.ofNat_lt.mpr p.level.toNat_lt⟩

theorem exists_eq_map {α β : Type} {f : α → β} {x : Option β}
    (h : ∀ b, x = some b → ∃ a, b = f a) : ∃ o : Option α, x = o.map f := by
  cases x with
  | none => exact ⟨none, rfl⟩
  | some b =>
    obtain ⟨a, rfl⟩ := h b rfl
    exact ⟨some a, rfl⟩

namespace Host

variable {h h' : Host} {config : Config} {s : Holdings}

theorem Orderly.holds (ho : h.Orderly config) : ∃ s, h.Holds config s := by
  obtain ⟨direct, hdirect⟩ := exists_eq_map ho.direct
  obtain ⟨pair, hpair⟩ := exists_eq_map
    (f := fun p : SecretKey × KeyPairSpec => VaultEntry.keyPair p.1 p.2) fun entry hentry => by
      obtain ⟨secret, spec, rfl⟩ := ho.pair entry hentry
      exact ⟨(secret, spec), rfl⟩
  obtain ⟨blob, hblob⟩ := exists_eq_map ho.blob
  obtain ⟨level, hlevel⟩ := exists_eq_map fun value hvalue => by
    obtain ⟨level, rfl, -⟩ := ho.level value hvalue
    exact ⟨level, rfl⟩
  exact ⟨⟨direct, pair, blob⟩, hdirect, hpair, hblob, level, hlevel⟩

theorem Holds.orderly (hs : h.Holds config s)
    (hlevel : ∀ value, h.settings.get? config.levelSetting = some value →
      ∃ level : Int64, value = .int level ∧ 0 ≤ level.toInt ∧ level.toInt < UInt32.size) :
    h.Orderly config where
  direct entry hentry := by
    rw [hs.direct, Option.map_eq_some_iff] at hentry
    obtain ⟨key, -, rfl⟩ := hentry
    exact ⟨key, rfl⟩
  pair entry hentry := by
    rw [hs.pair, Option.map_eq_some_iff] at hentry
    obtain ⟨⟨secret, spec⟩, -, rfl⟩ := hentry
    exact ⟨secret, spec, rfl⟩
  level := hlevel
  blob value hvalue := by
    rw [hs.blob, Option.map_eq_some_iff] at hvalue
    obtain ⟨bytes, -, rfl⟩ := hvalue
    exact ⟨bytes, rfl⟩

theorem Orderly.of_empty (hentries : h.vault.entries = .empty)
    (hvalues : h.settings.values = .empty) : h.Orderly config := by
  refine (Holds.of_empty hentries hvalues).orderly fun value hvalue => ?_
  rw [Settings.get?, hvalues, Dict.get?_empty] at hvalue
  cases hvalue

theorem Orderly.of_same (ho : h.Orderly config) (same : h.SameStores h') : h'.Orderly config := by
  obtain ⟨s, hs⟩ := ho.holds
  refine (hs.of_same same).orderly ?_
  rw [Settings.get?, same.values]
  exact ho.level

theorem Orderly.deleted (ho : h.Orderly config) (keyName : String) :
    (onVault (VaultSite.deleteKey keyName) h).2.Orderly config := by
  obtain same | ⟨hentries, hsettings⟩ := deleteKey_end keyName h
  · exact ho.of_same same
  · obtain ⟨s, hs⟩ := ho.holds
    refine (hs.erase hentries hsettings).orderly ?_
    rw [hsettings]
    exact ho.level

end Host

namespace Custodian

variable {c : Custodian} {h h' : Host} {s : Holdings} {k : ContentKey}

theorem LookUpEnd.holds {outcome : Except (Failure SealError) ContentKey × Host}
    (hend : c.LookUpEnd h s outcome) : ∃ s', outcome.2.Holds c.config s' := by
  cases hend with
  | failed _ hs' _ => exact ⟨_, hs'⟩
  | found _ _ hs' _ => exact ⟨_, hs'⟩
  | refused _ _ hs' _ => exact ⟨_, hs'⟩
  | unrecorded _ _ _ hs' _ => exact ⟨_, hs'⟩
  | generated _ _ hs' _ => exact ⟨_, hs'⟩

/-- A look-up leaves the level that it has found, or records that of its platform. -/
theorem level_of_lookUp (hv : c.config.validate = .ok ()) (hsupported : c.hostTier.isSupported)
    {value : SettingValue}
    (hvalue : (c.lookUp h).2.settings.get? c.config.levelSetting = some value) :
    h.settings.get? c.config.levelSetting = some value ∨ value = .int c.platform.marker := by
  rcases hlookUp : c.lookUp h with ⟨e | k, h'⟩
  all_goals rw [hlookUp] at hvalue
  · -- Only a look-up that gives a key has put anything into the settings.
    obtain ⟨asked, hfrugal⟩ := lookUp_frugal hv hsupported h
    rw [hlookUp] at hfrugal
    by_cases hsame : h'.settings.values = h.settings.values
    · rw [Settings.get?, ← hsame]
      exact .inl hvalue
    · obtain ⟨k, ⟨⟩, -⟩ := hfrugal.recorded hsame
  · cases lookedUp hv hsupported hlookUp with
    | found hkept => exact .inl hvalue
    | direct _ _ hvalues _ | wrapped _ _ _ _ _ hvalues _ =>
      refine .inr ?_
      simp only [Settings.get?, hvalues, Dict.insertAll, List.foldl_cons, List.foldl_nil,
        Dict.get?_insert, if_true] at hvalue
      exact (Option.some.inj hvalue).symm

theorem orderly_lookUp (ho : h.Orderly c.config) (hv : c.config.validate = .ok ())
    (hne : c.config.wrappedKeySetting ≠ c.config.levelSetting)
    (hsupported : c.hostTier.isSupported) : (c.lookUp h).2.Orderly c.config := by
  obtain ⟨s, hs⟩ := ho.holds
  obtain ⟨s', hs'⟩ := (lookUp_end hs hv hne hsupported).holds
  refine hs'.orderly fun value hvalue => ?_
  obtain hfound | rfl := level_of_lookUp hv hsupported hvalue
  · exact ho.level value hfound
  · exact ⟨_, rfl, c.platform.marker_range⟩

end Custodian

/-- A host on which custodians of one configuration have been at work since its stores were empty.
Between what they do, keys are deleted, and everything around the contents of the stores may change:
the lock, what becomes of writes, the clock, the random sources. -/
inductive Reached (config : Config) : Host → Prop
  | empty {h : Host} : h.vault.entries = .empty → h.settings.values = .empty → Reached config h
  | resolved {p : Custody} : Reached config p.host → p.custodian.config = config →
      p.custodian.hostTier.isSupported → Reached config (Custody.resolve p).2.host
  | deleted {h : Host} (keyName : String) : Reached config h →
      Reached config (Host.onVault (VaultSite.deleteKey keyName) h).2
  | around {h h' : Host} : Reached config h → h.SameStores h' → Reached config h'

theorem Reached.orderly {config : Config} (hv : config.validate = .ok ())
    (hne : config.wrappedKeySetting ≠ config.levelSetting) {h : Host} (hr : Reached config h) :
    h.Orderly config := by
  induction hr with
  | empty hentries hvalues => exact .of_empty hentries hvalues
  | @resolved p _ hconfig hsupported ih =>
    subst hconfig
    cases hcached : p.custodian.cached with
    | some k =>
      rw [Custody.resolve_of_cached hcached]
      exact ih
    | none =>
      have ho := Custodian.orderly_lookUp ih hv hne hsupported
      rw [Custody.resolve_of_uncached hcached]
      rcases hlookUp : p.custodian.lookUp p.host with ⟨_ | _, _⟩
      all_goals
        rw [hlookUp] at ho
        exact ho
  | deleted keyName _ ih => exact ih.deleted keyName
  | around _ same ih => exact ih.of_same same

-- ----------------------------------------------------------------------------
-- Reports
-- ----------------------------------------------------------------------------

namespace KeyStatus

/-- Where the key of a resolution comes from, going by a report. -/
def impliedSource (r : KeyStatus) : KeySource :=
  if r.hostTier = .modernDirect ∧ r.hasDirectKey then .vaultDirect
  else if r.hasWrappedBlob ∧ r.hasWrapKey then .migratedLegacy
  else if r.hostTier = .modernDirect then .generatedModern
  else .generatedLegacy

/-- A report tells of a custodian and its host what is the case. -/
structure Accurate (r : KeyStatus) (c : Custodian) (h : Host) : Prop where
  hostLevel : r.hostLevel = c.platform.level
  hostTier : r.hostTier = c.hostTier
  marker : ∀ level, r.marker = some level ↔
    h.settings.get? c.config.levelSetting = some (.int level)
  keyTier : r.keyTier = r.marker.map c.config.thresholds.keyTier
  direct : r.hasDirectKey ↔ ∃ key, h.vault.symmetricKey c.config.symmetricAlias = .ok (some key)
  pair : r.hasWrapKey ↔ ∃ handle, h.vault.privateKey c.config.wrapAlias = .ok (some handle)
  blob : r.hasWrappedBlob ↔ ∃ bytes, h.settings.get? c.config.wrappedKeySetting =
    some (.string (Text.Base64.encode bytes))
  cached : r.cached = c.cached.isSome

end KeyStatus

theorem Vault.hasKey_unlocked {v : Vault} (hl : ¬ v.locked) (keyName : String) :
    v.hasKey keyName = .ok (v.entries.get? keyName).isSome := by
  rw [hasKey, ensureUnlocked, if_neg hl]
  rfl

namespace Custodian

variable {c : Custodian} {h h' : Host} {s : Holdings} {k : ContentKey} {marker : Option Int64}

/-- The report on these holdings and this level. -/
def report (c : Custodian) (s : Holdings) (marker : Option Int64) : KeyStatus where
  hostLevel := c.platform.level
  hostTier := c.hostTier
  marker := marker
  keyTier := marker.map c.config.thresholds.keyTier
  hasDirectKey := s.direct.isSome
  hasWrapKey := s.pair.isSome
  hasWrappedBlob := s.blob.isSome
  cached := c.cached.isSome

theorem status_of_holds (hs : h.Holds c.config s)
    (hlevel : h.settings.get? c.config.levelSetting = marker.map .int) (hl : ¬ h.vault.locked) :
    c.status h = (.ok (c.report s marker), h.asked [.hasKey, .hasKey]) := by
  have hblob : h.settings.getString? c.config.wrappedKeySetting =
      .ok (s.blob.map Text.Base64.encode) := by
    rw [Settings.getString?, hs.blob]
    cases s.blob <;> rfl
  have hpair : h.vault.hasKey c.config.wrapAlias = .ok s.pair.isSome := by
    rw [Vault.hasKey_unlocked hl, hs.pair, Option.isSome_map]
  have hdirect : h.vault.hasKey c.config.symmetricAlias = .ok s.direct.isSome := by
    rw [Vault.hasKey_unlocked hl, hs.direct, Option.isSome_map]
  have hfirst : (h.noted .hasKey).vaultSite.vault = h.vault := rfl
  have hsecond : ((h.noted .hasKey).noted .hasKey).vaultSite.vault = h.vault := rfl
  have hsettings : ((h.noted .hasKey).noted .hasKey).settings = h.settings := rfl
  rw [← Host.noted_noted, report]
  cases marker <;>
    simp only [status, Action.bind_apply, Host.readSettings_apply, hlevel, VaultSite.hasKey,
      Host.onVault_ask, hfirst, hsecond, hsettings, hdirect, hpair, hblob, Option.map_none,
      Option.map_some, Option.isSome_map, Except.mapError, Action.pure_apply]

theorem report_accurate (hs : h.Holds c.config s)
    (hlevel : h.settings.get? c.config.levelSetting = marker.map .int) (hl : ¬ h.vault.locked) :
    (c.report s marker).Accurate c h where
  hostLevel := rfl
  hostTier := rfl
  marker level := by
    rw [hlevel]
    simp [report]
  keyTier := rfl
  direct := by
    rw [Vault.symmetricKey_eq hs.direct, if_neg hl]
    simp [report, Option.isSome_iff_exists]
  pair := by
    rw [Vault.privateKey_eq hs.pair, if_neg hl]
    simp [report, Option.isSome_iff_exists]
  blob := by
    rw [hs.blob, report]
    cases s.blob <;> simp
  cached := rfl

end Custodian

-- ----------------------------------------------------------------------------
-- Sources
-- ----------------------------------------------------------------------------

/-- What is recovered has been wrapped, and there is a pair for it. -/
theorem Holdings.of_recovered_some {s : Holdings} {wrapAlias : String} {locked : Bool} {now : Time}
    {key : SymmetricKey} (h : s.recovered wrapAlias locked now = .ok (some key)) :
    s.blob.isSome ∧ s.pair.isSome := by
  unfold recovered at h
  split at h
  · cases h
  · next hblob =>
    split at h
    · cases h
    · split at h
      · cases h
      · next hpair =>
        rw [hblob, hpair]
        exact ⟨rfl, rfl⟩

namespace Custodian

variable {c : Custodian} {h h' : Host} {s : Holdings} {k : ContentKey} {marker : Option Int64}

/-- A key that is found comes from where a report tells of one. -/
theorem source_of_finds {key : SymmetricKey} (hfinds : c.Finds h s = .ok (some key)) :
    s.source c.hostTier = (c.report s marker).impliedSource := by
  by_cases hdirect : c.hostTier = .modernDirect ∧ s.direct.isSome
  · obtain ⟨htier, hdirect⟩ := hdirect
    obtain ⟨direct, hdirect⟩ := Option.isSome_iff_exists.mp hdirect
    simp [Holdings.source, KeyStatus.impliedSource, report, htier, hdirect]
  · have hnone (htier : c.hostTier = .modernDirect) : s.direct = none := by
      rw [not_and, Bool.not_eq_true, Option.isSome_eq_false_iff, Option.isNone_iff_eq_none] at hdirect
      exact hdirect htier
    obtain ⟨hblob, hpair⟩ := Holdings.of_recovered_some (recovered_of_finds hfinds hnone)
    have hsource : s.source c.hostTier = .migratedLegacy := by
      cases htier : c.hostTier with
      | modernDirect => simp [Holdings.source, hnone htier]
      | legacyWrapped | unsupported => rfl
    rw [hsource, KeyStatus.impliedSource, report, if_neg hdirect, if_pos ⟨hblob, hpair⟩]

/-- A generation takes place where a report tells of nothing to find. -/
theorem source_of_minting {now : Time} {m : Minted} {mid final : Holdings}
    (hfinds : c.Finds h s = .ok none) (hm : Minting c now s m mid final) :
    m.source = (c.report s marker).impliedSource := by
  have hdirect : ¬ (c.hostTier = .modernDirect ∧ s.direct.isSome) := by
    rintro ⟨htier, hdirect⟩
    rw [direct_of_finds_none hfinds htier] at hdirect
    cases hdirect
  have hwrapped : ¬ (s.blob.isSome ∧ s.pair.isSome) := by
    rintro ⟨hblob, hpair⟩
    rw [pair_of_finds_none hfinds hblob] at hpair
    cases hpair
  rw [KeyStatus.impliedSource, report, if_neg hdirect, if_neg hwrapped]
  cases hm with
  | direct key htier => rw [if_pos htier]
  | wrapped htier _ _ => rw [if_neg htier]

theorem source_of_lookUp (hs : h.Holds c.config s) (hv : c.config.validate = .ok ())
    (hne : c.config.wrappedKeySetting ≠ c.config.levelSetting)
    (hlookUp : c.lookUp h = (.ok k, h')) : k.source = (c.report s marker).impliedSource := by
  have hsupported : c.hostTier.isSupported := by
    cases htier : c.hostTier with
    | unsupported =>
      simp only [lookUp, htier] at hlookUp
      cases hlookUp
    | legacyWrapped | modernDirect => rfl
  have hend := lookUp_end hs hv hne hsupported
  rw [hlookUp] at hend
  cases hend with
  | found hfinds hsource _ _ => rw [hsource, source_of_finds hfinds]
  | generated hfinds hm _ _ => exact source_of_minting hfinds hm

end Custodian

namespace Custody

/--
Wherever custodians of one configuration have been at work, there is nothing else under its names
than what belongs there. So an unlocked vault lets a custodian report, of which nothing comes but
two requests; the report is accurate, and a custodian that starts on the same platform and gets a
key, whatever has become of the surroundings, comes by it in the way that the report implies.
-/
theorem status_predicts {config : Config} (hv : config.validate = .ok ())
    (hne : config.wrappedKeySetting ≠ config.levelSetting) {h : Host} (hr : Reached config h) :
    h.Orderly config ∧ ∀ c : Custodian, c.config = config → ¬ h.vault.locked →
      ∃ report, status ⟨c, h⟩ = (.ok report, ⟨c, h.asked [.hasKey, .hasKey]⟩) ∧
        report.Accurate c h ∧
        ∀ (h' : Host) (k : ContentKey) (p' : Custody), h.SameStores h' →
          resolve ⟨{ platform := c.platform, config }, h'⟩ = (.ok k, p') →
            k.source = report.impliedSource := by
  have ho := hr.orderly hv hne
  refine ⟨ho, fun c hconfig hl => ?_⟩
  subst hconfig
  obtain ⟨s, hs⟩ := ho.holds
  obtain ⟨marker, hmarker⟩ := hs.marker
  refine ⟨c.report s marker, ?_, Custodian.report_accurate hs hmarker hl, ?_⟩
  · simp only [status, Action.bind_apply, Action.get_apply, onHost, Action.zoom_apply,
      Custodian.status_of_holds hs hmarker hl]
  · intro h' k p' same hresolve
    let fresh : Custodian := { platform := c.platform, config := c.config }
    rw [resolve_of_uncached rfl] at hresolve
    rcases hlookUp : fresh.lookUp h' with ⟨e | k', h''⟩
    all_goals
      simp only [fresh] at hlookUp
      rw [hlookUp] at hresolve
      cases hresolve
    have hsource : k.source = (fresh.report s marker).impliedSource :=
      Custodian.source_of_lookUp (hs.of_same same) hv hne hlookUp
    exact hsource

/-- A legacy custodian has made a key, and its pair is deleted. The wrapped key is still there, but
the next one makes a key of its own. -/
theorem status_predicts_deleted :
    ∃ (h : Host) (report : KeyStatus) (k : ContentKey) (p' : Custody), Reached {} h ∧
      (status ⟨{ platform := ⟨19⟩, config := {} }, h⟩).1 = .ok report ∧
      report.hasWrappedBlob ∧ ¬ report.hasWrapKey ∧
      resolve ⟨{ platform := ⟨19⟩, config := {} }, h⟩ = (.ok k, p') ∧
      k.source = report.impliedSource ∧ k.source = .generatedLegacy := by
  let c : Custodian := { platform := ⟨19⟩, config := {} }
  obtain ⟨h, hr, hl, hpair, hblob, hresolved⟩ : ∃ h : Host, Reached {} h ∧ ¬ h.vault.locked ∧
      h.vault.privateKey c.config.wrapAlias = .ok none ∧
      (h.settings.get? c.config.wrappedKeySetting).isSome ∧
      (resolve ⟨c, h⟩).1.toOption.map ContentKey.source = some .generatedLegacy := by
    have hmade := Reached.resolved
      (p := ⟨c, .fresh { entropy := .ofSeed 7, now := .epoch }⟩) (.empty rfl rfl) rfl rfl
    exact ⟨_, hmade.deleted c.config.wrapAlias, by decide +kernel⟩
  obtain ⟨ho, hstatus⟩ := status_predicts rfl (by decide) hr
  obtain ⟨report, htold, haccurate, hpredicts⟩ := hstatus c rfl hl
  obtain ⟨value, hvalue⟩ := Option.isSome_iff_exists.mp hblob
  obtain ⟨bytes, rfl⟩ := ho.blob value hvalue
  obtain ⟨k, hk, hsource⟩ := map_toOption_eq_some.mp hresolved
  have hresolve : resolve ⟨c, h⟩ = (.ok k, (resolve ⟨c, h⟩).2) := Prod.ext hk rfl
  refine ⟨h, report, k, _, hr, by rw [htold], haccurate.blob.mpr ⟨bytes, hvalue⟩, fun hhas => ?_,
    hresolve, hpredicts h k _ ⟨rfl, rfl⟩ hresolve, hsource⟩
  obtain ⟨handle, hhandle⟩ := haccurate.pair.mp hhas
  rw [hpair] at hhandle
  cases hhandle

end Custody

end SealedStream
