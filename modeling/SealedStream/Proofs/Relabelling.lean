import SealedStream.Proofs.Reports
import SealedStream.Proofs.Stream.Keyless

/-!
# Keys under another level

The level recorded beside a key and the thresholds of a configuration tell of which tier
an old key is. The tier decides where a vector is drawn from and in which form a reader is
given it, and that is all: whoever finds the key opens what was sealed with it.
-/

namespace SealedStream

namespace Custodian

variable {c : Custodian} {h h' : Host} {k : ContentKey}

-- ----------------------------------------------------------------------------
-- What a search finds
-- ----------------------------------------------------------------------------

theorem recoverWrapped_locked {blob : String} (hl : h.vault.locked)
    (hblob : h.settings.getString? c.config.wrappedKeySetting = .ok (some blob)) :
    c.recoverWrapped h = (.error (.error (.keyVault .locked)), h.noted .privateKey) := by
  have hrefused : h.vault.privateKey c.config.wrapAlias = .error .locked := by
    rw [Vault.privateKey, Vault.ensureUnlocked, if_pos hl]
    rfl
  simp only [recoverWrapped, Action.bind_apply, Host.readSettings_apply, hblob, Except.mapError,
    VaultSite.privateKey, Host.onVault_ask, Host.noted, Host.vaultSite, hrefused]

/-- A wrapped key is recovered only with a pair that is valid now, and from an unlocked vault. -/
theorem window_of_recoverWrapped {key : SymmetricKey}
    (hrecover : c.recoverWrapped h = (.ok (some key), h')) :
    ¬ h.vault.locked ∧ c.InWindow h := by
  obtain ⟨blob, bytes, secret, spec, hblob, hbytes, hpair, -⟩ := recoverWrapped_ok hrecover
  have hl : ¬ h.vault.locked := fun hl => by
    rw [recoverWrapped_locked hl hblob] at hrecover
    cases hrecover
  refine ⟨hl, fun secret' spec' hpair' => ?_⟩
  rw [hpair] at hpair'
  cases hpair'
  by_contra hwindow
  rw [recoverWrapped_of_pair hl hblob hpair, hbytes] at hrecover
  simp only [Vault.unwrap_keyPair hpair, if_neg hl, if_neg hwindow] at hrecover
  cases hrecover

theorem unlocked_of_search (hsearch : c.search h = (.ok (some k), h')) :
    ¬ h.vault.locked ∧ (k.source = .migratedLegacy → c.InWindow h) := by
  unfold search at hsearch
  obtain ⟨marker, h₁, hread, hrest⟩ := Action.bind_ok.mp hsearch
  obtain ⟨rfl, -⟩ := readMarker_ok hread
  have hrecovered {h₀ h' : Host} (hrest : (do
      return (← c.recoverWrapped).map fun key => c.keyOf key marker .migratedLegacy :
        HostAction (Option ContentKey)) h₀ = (.ok (some k), h')) :
      ¬ h₀.vault.locked ∧ c.InWindow h₀ := by
    obtain ⟨key?, h₂, hrecover, hk⟩ := Action.bind_ok.mp hrest
    cases key? with
    | none => cases hk
    | some key => exact window_of_recoverWrapped hrecover
  cases htier : c.hostTier with
  | modernDirect =>
    simp only [htier] at hrest
    obtain ⟨known, h₂, hask, hrest⟩ := Action.bind_ok.mp hrest
    obtain ⟨rfl, hknown⟩ := Host.onVault_ask_ok hask
    obtain ⟨hl, -⟩ := Vault.unlocked_of_hasKey hknown
    refine ⟨hl, fun hsource => ?_⟩
    split at hrest
    · obtain ⟨key?, h₃, -, hrest⟩ := Action.bind_ok.mp hrest
      cases key? with
      | none => cases hrest
      | some key =>
        cases hrest
        cases hsource
    · exact (hrecovered hrest).2
  | legacyWrapped =>
    simp only [htier] at hrest
    exact (hrecovered hrest).imp_right fun hwindow _ => hwindow
  | unsupported =>
    simp only [htier] at hrest
    exact (hrecovered hrest).imp_right fun hwindow _ => hwindow

/-- A search finds a key exactly where the stores keep it, the vault is unlocked, and the pair that
opens a wrapped one is valid now. -/
theorem search_finds_iff :
    (∃ h', c.search h = (.ok (some k), h')) ↔ c.Kept h.vault h.settings k ∧
      ¬ h.vault.locked ∧ (k.source = .migratedLegacy → c.InWindow h) := by
  constructor
  · rintro ⟨h', hsearch⟩
    exact ⟨kept_of_search hsearch, unlocked_of_search hsearch⟩
  · rintro ⟨hkept, hl, hwindow⟩
    cases hkept with
    | direct htier hkey hmarker => exact ⟨_, search_of_direct htier hkey hl hmarker⟩
    | wrapped hnone hblob hbytes hpair hopen hmarker =>
      exact ⟨_, search_of_kept (.wrapped hnone hblob hbytes hpair hopen hmarker) hl (hwindow rfl)⟩

-- ----------------------------------------------------------------------------
-- What a look-up finds
-- ----------------------------------------------------------------------------

theorem isGenerated_of_mint {m : Minted} (hmint : c.mint h = (.ok m, h')) :
    m.source.isGenerated := by
  rw [mint_eq] at hmint
  split at hmint
  · obtain ⟨_, _, -, hm⟩ := Action.bind_ok.mp hmint
    cases hm
    rfl
  · obtain ⟨_, _, -, hmint⟩ := Action.bind_ok.mp hmint
    obtain ⟨_, _, -, hmint⟩ := Action.bind_ok.mp hmint
    obtain ⟨_, _, -, hmint⟩ := Action.bind_ok.mp hmint
    obtain ⟨_, _, -, hmint⟩ := Action.bind_ok.mp hmint
    obtain ⟨_, _, -, hm⟩ := Action.bind_ok.mp hmint
    cases hm
    rfl

/-- A key that a look-up gives and that is not a new one was found by the search. -/
theorem lookUp_old_iff (hk : ¬ k.source.isGenerated) :
    c.lookUp h = (.ok k, h') ↔ c.hostTier.isSupported ∧ c.search h = (.ok (some k), h') := by
  by_cases hsupported : c.hostTier.isSupported
  · rw [lookUp_eq hsupported, Action.bind_ok]
    constructor
    · rintro ⟨k?, h₁, hsearch, hrest⟩
      cases k? with
      | some k' =>
        cases hrest
        exact ⟨hsupported, hsearch⟩
      | none =>
        obtain ⟨m, h₂, hmint, hrecord⟩ := Action.bind_ok.mp hrest
        obtain ⟨_, _, -, hm⟩ := Action.bind_ok.mp hrecord
        cases hm
        exact absurd (isGenerated_of_mint hmint) hk
    · rintro ⟨-, hsearch⟩
      exact ⟨some k, h', hsearch, rfl⟩
  · rw [lookUp_unsupported hsupported]
    exact ⟨nofun, fun hfound => absurd hfound.1 hsupported⟩

end Custodian

theorem SymmetricKey.openText_tier (key : SymmetricKey) (tier tier' : Tier) (iv body : Bytes) :
    key.openText (tier.cipherParams iv) body = key.openText (tier'.cipherParams iv) body := by
  simp only [openText, Tier.tagBits_cipherParams, Tier.vector_cipherParams]

namespace Custody

variable {p p' q q' : Custody} {k k' : ContentKey}

-- ----------------------------------------------------------------------------
-- One key, two tiers
-- ----------------------------------------------------------------------------

/-- The key alone decides what comes of a stream, its tier does not. -/
theorem decrypt_of_same_key (hp : p.isProtected) (hq : q.isProtected)
    (hresolve : resolve p = (.ok k, p')) (hresolve' : resolve q = (.ok k', q'))
    (hkey : k'.key = k.key) (stream : Bytes) : (decrypt stream p).1 = (decrypt stream q).1 := by
  by_cases hb : Header.Begins stream
  · obtain ⟨iv, body, hiv, rfl⟩ := Header.whole_of_begins hb
    rw [decrypt_of_resolve hp hiv hresolve, decrypt_of_resolve hq hiv hresolve', hkey,
      k.key.openText_tier k.tier k'.tier]
  · obtain ⟨e, source, hread⟩ := Header.read_of_not_begins hb
    rw [decrypt_of_header_error hp hread, decrypt_of_header_error hq hread]

/-- What the one seals the other opens: whole texts, and the streams that have been finished on any
sink, from any source that delivers what the sink has taken of them. -/
structure SealsFor (p q : Custody) : Prop where
  text : ∀ text, text.length ≤ SymmetricKey.longestText →
    ∃ stream, (encrypt text p).1 = .ok stream ∧ (decrypt stream q).1 = .ok text
  stream : ∀ (sink : Sink) calls sealing out stream,
    Outgoing.start ⟨p, sink⟩ = (.ok sealing, out) →
    SealingStream.finish (SealingStream.after calls ⟨sealing, out.sink⟩) = (.ok (), stream) →
    ∃ written, stream.sink.content = sink.content ++ written ∧
      ∀ source : Source, source.delivered = written → source.breakOff? = none →
        ∃ opening i, Incoming.start ⟨q, source⟩ = (.ok (some opening), i) ∧
          OpeningStream.Gives ⟨some opening, i.source⟩ (calls.flatMap StreamCall.text)

/-- The bytes behind a header are opened with the key that they were sealed with. -/
theorem gives_of_sealed {iv body text : Bytes} {source : Source} (hq : q.isProtected)
    (hresolve : resolve q = (.ok k, q')) (hiv : iv.length = Header.ivSize)
    (hseal : k.key.sealText iv text = .ok body)
    (hdelivered : source.delivered = Header.bytes iv ++ body) (hwhole : source.breakOff? = none) :
    ∃ opening i, Incoming.start ⟨q, source⟩ = (.ok (some opening), i) ∧
      OpeningStream.Gives ⟨some opening, i.source⟩ text := by
  obtain ⟨rest, hread, hpassed⟩ := Header.read_passed_whole hiv hdelivered
  have hrest : Header.bytes iv ++ body = Header.bytes iv ++ rest.delivered :=
    hdelivered ▸ hpassed.delivered
  have hsealed : IsSealed k.key text (Header.bytes iv ++ body) := ⟨iv, body, hiv, hseal, rfl⟩
  obtain ⟨body', hseal', hlength⟩ := k.key.sealText_ok iv hsealed.text_le
  obtain rfl : body' = body := Except.ok.inj (hseal'.symm.trans hseal)
  have hbody : body'.length ≤ SymmetricKey.longestText + Cipher.Gcm.tagSize :=
    hlength ▸ Nat.add_le_add_right hsealed.text_le _
  refine ⟨_, _, Incoming.start_headed hq hread hresolve, OpeningStream.gives_of_yields ⟨?_, ?_⟩⟩
  · rw [hpassed.breakOff?, hwhole]
  · rw [← List.append_cancel_left hrest]
    exact (SymmetricKey.openText_eq_ok_iff k.tier hbody).mpr hseal

theorem sealsFor_of_same_key (hp : p.isProtected) (hq : q.isProtected)
    (hresolve : resolve p = (.ok k, p')) (hresolve' : resolve q = (.ok k', q'))
    (hkey : k'.key = k.key) : SealsFor p q where
  text text ht := by
    obtain ⟨iv, host, -, hiv, hencrypt⟩ := encrypt_of_resolve hp hresolve text
    obtain ⟨body, hseal, -⟩ := k.key.sealText_ok iv ht
    have hsealed : IsSealed k'.key text (Header.bytes iv ++ body) :=
      ⟨iv, body, hiv, hkey ▸ hseal, rfl⟩
    rw [hencrypt, hseal]
    exact ⟨_, rfl, (decrypt_eq_ok_iff hq hresolve' hsealed.length_le).mpr hsealed⟩
  stream sink calls sealing out stream hstart hfinish := by
    obtain ⟨iv, host, -, hiv, hleaves⟩ := Outgoing.leaves_of_resolve hp hresolve sink
    obtain ⟨rfl, hcarries⟩ := hleaves.begun sealing out hstart
    cases hseal : k.key.sealText iv (calls.flatMap StreamCall.text) with
    | error defect =>
      obtain ⟨e, _, hfailed, -⟩ := hcarries.unsealed calls defect hseal
      rw [hfinish] at hfailed
      cases hfailed
    | ok body =>
      refine ⟨_, hcarries.finished calls body stream hseal hfinish, fun source hd hwhole => ?_⟩
      exact gives_of_sealed hq hresolve' hiv (hkey ▸ hseal) hd hwhole

end Custody

-- ----------------------------------------------------------------------------
-- Another level, other thresholds
-- ----------------------------------------------------------------------------

/-- What stands under a name is a level, if anything does. -/
def Settings.HasLevel (s : Settings) (name : String) : Prop :=
  ∀ value, s.get? name = some value → ∃ level, value = .int level

namespace Custody

variable {p p' q q' : Custody} {k k' : ContentKey}

/-- Two custodians without a cached key work for one tier on equal vaults, and on settings that
differ in the recorded level alone; of their configurations only the thresholds differ. -/
structure Relabelled (p q : Custody) : Prop where
  uncached : p.custodian.cached = none ∧ q.custodian.cached = none
  thresholds : ∃ baselineLevel modernLevel,
    q.custodian.config = { p.custodian.config with baselineLevel, modernLevel }
  tier : q.custodian.hostTier = p.custodian.hostTier
  vault : q.host.vault = p.host.vault
  now : q.host.machine.now = p.host.machine.now
  settings : ∀ name ≠ p.custodian.config.levelSetting,
    q.host.settings.get? name = p.host.settings.get? name
  levels : p.host.settings.HasLevel p.custodian.config.levelSetting ∧
    q.host.settings.HasLevel p.custodian.config.levelSetting

namespace Relabelled

theorem symm (hpq : Relabelled p q) : Relabelled q p := by
  obtain ⟨⟨hp, hq⟩, ⟨baseline, modern, hconfig⟩, htier, hvault, hnow, hsettings, hlevels⟩ := hpq
  have hsetting : q.custodian.config.levelSetting = p.custodian.config.levelSetting := by
    rw [hconfig]
  refine ⟨⟨hq, hp⟩, ⟨p.custodian.config.baselineLevel, p.custodian.config.modernLevel, ?_⟩,
    htier.symm, hvault.symm, hnow.symm, ?_, ?_⟩
  · rw [hconfig]
  · rw [hsetting]
    exact fun name hname => (hsettings name hname).symm
  · rw [hsetting]
    exact hlevels.symm

/-- The stores keep one key for the two. A wrapped key stands under another name than the level,
since it is a text. -/
theorem kept (hpq : Relabelled p q) (hkept : p.custodian.Kept p.host.vault p.host.settings k) :
    ∃ k', q.custodian.Kept q.host.vault q.host.settings k' ∧ k'.key = k.key ∧
      k'.source = k.source := by
  obtain ⟨-, ⟨baseline, modern, hconfig⟩, htier, hvault, -, hsettings, hlevel, hlevel'⟩ := hpq
  obtain ⟨marker, hmarker⟩ : ∃ marker, q.host.settings.getInt q.custodian.config.levelSetting
      q.custodian.platform.marker = .ok marker := by
    rw [hconfig]
    exact Settings.getInt_of_int hlevel' _
  cases hkept with
  | direct hmodern hkey _ =>
    refine ⟨_, .direct (htier.trans hmodern) ?_ hmarker, rfl, rfl⟩
    rw [hvault, hconfig]
    exact hkey
  | @wrapped blob bytes secret spec key _ hnone hblob hbytes hpair hopen _ =>
    have hne : p.custodian.config.wrappedKeySetting ≠ p.custodian.config.levelSetting := by
      intro heq
      obtain ⟨level, hvalue⟩ := hlevel (.string blob) (heq ▸ Settings.get?_of_getString?_some hblob)
      cases hvalue
    have hpair' : q.host.vault.entries.get? q.custodian.config.wrapAlias =
        some (.keyPair secret spec) := by
      rw [hvault, hconfig]
      exact hpair
    refine ⟨_, .wrapped (fun hmodern => ?_) ?_ hbytes hpair' hopen hmarker, rfl, rfl⟩
    · rw [hvault, hconfig]
      exact hnone (htier ▸ hmodern)
    · rw [hconfig, Settings.getString?, hsettings _ hne]
      exact hblob

/-- The key that the one finds the other finds too, where the one does. -/
theorem resolve (hpq : Relabelled p q) (hresolve : Custody.resolve p = (.ok k, p'))
    (hk : ¬ k.source.isGenerated) :
    p.isProtected ∧ q.isProtected ∧ ∃ k' q', Custody.resolve q = (.ok k', q') ∧
      k'.key = k.key ∧ k'.source = k.source := by
  have hlookUp := lookUp_of_resolve hpq.uncached.1 hresolve
  obtain ⟨hp, hsearch⟩ := (Custodian.lookUp_old_iff hk).mp hlookUp
  obtain ⟨hkept, hl, hwindow⟩ := Custodian.search_finds_iff.mp ⟨_, hsearch⟩
  obtain ⟨k', hkept', hkey, hsource⟩ := hpq.kept hkept
  have hq : q.isProtected := by rwa [isProtected, hpq.tier]
  have hwindow' : k'.source = .migratedLegacy → q.custodian.InWindow q.host := by
    intro hmigrated
    obtain ⟨baseline, modern, hconfig⟩ := hpq.thresholds
    rw [Custodian.InWindow, hpq.vault, hpq.now, hconfig]
    exact hwindow (hsource ▸ hmigrated)
  obtain ⟨host, hsearch'⟩ :=
    Custodian.search_finds_iff.mpr ⟨hkept', by rwa [hpq.vault], hwindow'⟩
  have hlookUp' := (Custodian.lookUp_old_iff (hsource ▸ hk)).mpr ⟨hq, hsearch'⟩
  have hresolve' : Custody.resolve q =
      (.ok k', ⟨{ q.custodian with cached := some k' }, host⟩) := by
    rw [resolve_of_uncached hpq.uncached.2, hlookUp']
  exact ⟨hp, hq, k', _, hresolve', hkey, hsource⟩

end Relabelled

/-- Where one of two custodians finds a key that exists, the other one finds it, whatever level is
recorded for it and whatever tier it is therefore taken for. They answer alike for every stream,
and each opens what the other seals. -/
theorem opens_at_every_level {p p' q : Custody} {k : ContentKey} (hpq : Relabelled p q)
    (hresolve : resolve p = (.ok k, p')) (hk : ¬ k.source.isGenerated) :
    (∃ k' q', resolve q = (.ok k', q') ∧ k'.key = k.key ∧ k'.source = k.source) ∧
    (∀ stream, (decrypt stream p).1 = (decrypt stream q).1) ∧
    SealsFor p q ∧ SealsFor q p := by
  obtain ⟨hp, hq, k', q', hresolve', hkey, hsource⟩ := hpq.resolve hresolve hk
  exact ⟨⟨k', q', hresolve', hkey, hsource⟩, decrypt_of_same_key hp hq hresolve hresolve' hkey,
    sealsFor_of_same_key hp hq hresolve hresolve' hkey,
    sealsFor_of_same_key hq hp hresolve' hresolve hkey.symm⟩

/-- A key of a modern host, with its level lost in one place and a legacy one recorded for it in the
other, under other thresholds. -/
theorem opens_at_every_level_demoted :
    let entries : Dict VaultEntry := Dict.empty.insert "aes_local_protection"
      (.symmetric ⟨List.replicate 16 7, .inl rfl⟩)
    let values : Dict SettingValue :=
      Dict.empty.insert "platform_level_when_key_generated" (.int 19)
    let host : Host :=
      { Host.fresh { entropy := .ofSeed 7, now := .epoch } with vault := { entries } }
    let p : Custody := ⟨{ platform := ⟨23⟩, config := {} }, host⟩
    let q : Custody := ⟨{ platform := ⟨23⟩, config := { baselineLevel := 1, modernLevel := 20 } },
      { host with settings := { values } }⟩
    ∃ k p' k' q', resolve p = (.ok k, p') ∧ k.tier = .modernDirect ∧
      resolve q = (.ok k', q') ∧ k'.tier = .legacyWrapped ∧ k'.key = k.key ∧
      (∀ stream, (decrypt stream p).1 = (decrypt stream q).1) ∧ SealsFor p q ∧ SealsFor q p := by
  intro entries values host p q
  have hpq : Relabelled p q := by
    refine ⟨⟨rfl, rfl⟩, ⟨1, 20, rfl⟩, rfl, rfl, rfl, fun name hname => ?_, ?_, ?_⟩
    · exact (Dict.get?_insert ..).trans (if_neg hname)
    · rintro value ⟨⟩
    · intro value hvalue
      cases hvalue
      exact ⟨19, rfl⟩
  obtain ⟨k, p', hresolve, hk, htier⟩ : ∃ k p', resolve p = (.ok k, p') ∧
      ¬ k.source.isGenerated ∧ k.tier = .modernDirect := ⟨_, _, rfl, by decide, rfl⟩
  obtain ⟨⟨k', q', hresolve', hkey, -⟩, hopens⟩ := opens_at_every_level hpq hresolve hk
  have htier' : k'.tier = .legacyWrapped := by
    cases hresolve'
    rfl
  exact ⟨k, p', k', q', hresolve, htier, hresolve', htier', hkey, hopens⟩

end Custody

end SealedStream
