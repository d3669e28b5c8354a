import SealedStream.Proofs.Holdings
import SealedStream.Proofs.Stream.Pieces

/-!
# What a look-up can end in

A key is minted in the vault and then recorded in the settings. `lookUp_eq`
parts a look-up into searching, minting and recording, which is where a process
may stop between two writes. `LookUpEnd` lists all that a look-up does to the
holdings, and when.
-/

namespace SealedStream

/-- A key that is in the vault, and what the settings are to record of it. -/
structure Minted where
  key : SymmetricKey
  source : KeySource
  record : List (String × SettingValue)

namespace Custodian

variable {c : Custodian}

def mintDirect (c : Custodian) : HostAction Minted := do
  let keyName := c.config.symmetricAlias
  let key ← Host.request (generationError keyName)
    (VaultSite.generateSymmetricKey keyName c.config.keySizeBits.toNat)
  return ⟨key, .generatedModern, [(c.config.levelSetting, .int c.platform.marker)]⟩

def mintWrapped (c : Custodian) : HostAction Minted := do
  let keyName := c.config.wrapAlias
  let spec ← c.newPairSpec
  let pair ← Host.request (generationError keyName) (VaultSite.generateKeyPair keyName spec)
  let material ← Host.randomBytes (c.config.keySizeBits.toNat / 8)
  let key ← Action.ofExcept ((SymmetricKey.ofBytes material).mapError fun length =>
    .error (.keyVault (.unsupportedSpec (.keyLength length))))
  let wrapped ← Host.onVault (VaultSite.wrap pair.publicKey key)
  return ⟨key, .generatedLegacy,
    [(c.config.wrappedKeySetting, .string (Text.Base64.encode wrapped)),
      (c.config.levelSetting, .int c.platform.marker)]⟩

/-- What is left of minting once there is a pair to wrap the key for. -/
def mintFor (c : Custodian) (publicKey : PublicKeyHandle) : HostAction Minted := do
  let material ← Host.randomBytes (c.config.keySizeBits.toNat / 8)
  let key ← Action.ofExcept ((SymmetricKey.ofBytes material).mapError fun length =>
    .error (.keyVault (.unsupportedSpec (.keyLength length))))
  let wrapped ← Host.onVault (VaultSite.wrap publicKey key)
  return ⟨key, .generatedLegacy,
    [(c.config.wrappedKeySetting, .string (Text.Base64.encode wrapped)),
      (c.config.levelSetting, .int c.platform.marker)]⟩

theorem mintWrapped_eq (c : Custodian) : c.mintWrapped = (do
    let spec ← c.newPairSpec
    let pair ← Host.request (generationError c.config.wrapAlias)
      (VaultSite.generateKeyPair c.config.wrapAlias spec)
    c.mintFor pair.publicKey) := rfl

/-- The writes of a generation up to the last one, which is `record`. -/
def mint (c : Custodian) : HostAction Minted :=
  match c.hostTier with
  | .modernDirect => c.mintDirect
  | _ => c.mintWrapped

def record (c : Custodian) (m : Minted) : HostAction ContentKey := do
  Host.onSettings (SettingsSite.putAll m.record)
  return c.keyOf m.key c.platform.marker m.source

theorem mint_eq (c : Custodian) :
    c.mint = if c.hostTier = .modernDirect then c.mintDirect else c.mintWrapped := by
  unfold mint
  cases c.hostTier <;> rfl

theorem generateDirect_eq : c.generateDirect = c.mintDirect >>= c.record := by
  rw [generateDirect, mintDirect, Action.bind_assoc]
  rfl

theorem generateWrapped_eq : c.generateWrapped = c.mintWrapped >>= c.record := by
  simp only [generateWrapped, mintWrapped, Action.bind_assoc]
  rfl

theorem lookUp_eq (h : c.hostTier.isSupported) :
    c.lookUp = (do
      match ← c.search with
      | some k => return k
      | none => c.mint >>= c.record) := by
  cases htier : c.hostTier with
  | unsupported => rw [htier] at h; cases h
  | modernDirect =>
    simp only [lookUp, htier, lookUpDirect, search, mint, Action.bind_assoc]
    refine Action.bind_congr fun marker => Action.bind_congr fun direct => ?_
    cases direct with
    | true =>
      simp only [if_true, Action.bind_assoc]
      refine Action.bind_congr fun key => ?_
      cases key <;> rfl
    | false =>
      simp only [Bool.false_eq_true, if_false, Action.bind_assoc, ← generateDirect_eq]
      refine Action.bind_congr fun key => ?_
      cases key <;> rfl
  | legacyWrapped =>
    simp only [lookUp, htier, lookUpWrapped, search, mint, Action.bind_assoc, ← generateWrapped_eq]
    refine Action.bind_congr fun marker => Action.bind_congr fun key => ?_
    cases key <;> rfl

theorem lookUp_unsupported (hsupported : ¬ c.hostTier.isSupported) (h : Host) :
    c.lookUp h = (.error (.error (.unsupportedPlatform c.platform.level.toNat)), h) := by
  rw [lookUp]
  cases htier : c.hostTier with
  | unsupported => rfl
  | legacyWrapped => exact absurd (by rw [htier]; rfl) hsupported
  | modernDirect => exact absurd (by rw [htier]; rfl) hsupported

end Custodian

-- ----------------------------------------------------------------------------
-- Minting
-- ----------------------------------------------------------------------------

/-- A window begins where it was to begin, and is as long as it was to be. -/
theorem KeyPairSpec.of_validFor {sizeBits : UInt32} {start : Time} {validity : Duration}
    {spec : KeyPairSpec} (h : validFor? sizeBits start validity = some spec) :
    spec.sizeBits = sizeBits ∧ spec.notBefore = start ∧
      spec.notAfter.nanoseconds = start.nanoseconds + validity.nanoseconds := by
  rw [validFor?, Option.map_eq_some_iff] at h
  obtain ⟨notAfter, hadd, rfl⟩ := h
  refine ⟨rfl, rfl, ?_⟩
  simp only [Time.add?] at hadd
  split at hadd
  · cases hadd
    rfl
  · cases hadd

namespace Custodian

variable {c : Custodian} {h : Host} {s : Holdings}

/-- What minting makes of the holdings, and what recording then makes of them. -/
inductive Minting (c : Custodian) (now : Time) (s : Holdings) : Minted → Holdings → Holdings → Prop
  | direct (key : SymmetricKey) : c.hostTier = .modernDirect →
      Minting c now s
        ⟨key, .generatedModern, [(c.config.levelSetting, .int c.platform.marker)]⟩
        { s with direct := some key } { s with direct := some key }
  | wrapped {key : SymmetricKey} {secret : SecretKey} {spec : KeyPairSpec} {bytes : Bytes} :
      c.hostTier ≠ .modernDirect →
      KeyPairSpec.validFor? c.config.keyPairSizeBits now c.config.keyPairValidity = some spec →
      Vault.unwrapped secret bytes = .ok key →
      Minting c now s
        ⟨key, .generatedLegacy, [(c.config.wrappedKeySetting, .string (Text.Base64.encode bytes)),
          (c.config.levelSetting, .int c.platform.marker)]⟩
        { s with pair := some (secret, spec) }
        { s with pair := some (secret, spec), blob := some bytes }

/-- Nothing stands in the way of generating a key. -/
structure Ready (c : Custodian) (h : Host) : Prop where
  accepts : h.Accepts
  unlocked : ¬ h.vault.locked
  admitted : c.hostTier ≠ .modernDirect → ∃ spec,
    KeyPairSpec.validFor? c.config.keyPairSizeBits h.machine.now c.config.keyPairValidity =
      some spec ∧ h.vault.admitKeyPair c.config.wrapAlias spec = .ok ()

theorem validFor_of_reaches (hreaches : (h.machine.now.add? c.config.keyPairValidity).isSome) :
    ∃ spec, KeyPairSpec.validFor? c.config.keyPairSizeBits h.machine.now c.config.keyPairValidity =
      some spec ∧ spec.sizeBits = c.config.keyPairSizeBits ∧ spec.notBefore = h.machine.now ∧
      spec.notAfter.nanoseconds =
        h.machine.now.nanoseconds + c.config.keyPairValidity.nanoseconds := by
  obtain ⟨notAfter, hadd⟩ := Option.isSome_iff_exists.mp hreaches
  have hspec : KeyPairSpec.validFor? c.config.keyPairSizeBits h.machine.now
      c.config.keyPairValidity = some ⟨c.config.keyPairSizeBits, h.machine.now, notAfter⟩ := by
    rw [KeyPairSpec.validFor?, hadd]
    rfl
  exact ⟨_, hspec, KeyPairSpec.of_validFor hspec⟩

theorem ready_of_usable (hu : c.config.Usable) (hl : ¬ h.vault.locked) (haccepts : h.Accepts)
    (hreaches : (h.machine.now.add? c.config.keyPairValidity).isSome) : c.Ready h where
  accepts := haccepts
  unlocked := hl
  admitted _ := by
    obtain ⟨spec, hspec, hsize, hbefore, hafter⟩ := validFor_of_reaches hreaches
    refine ⟨spec, hspec, Vault.admitKeyPair_ok.mpr ⟨hl, ?_, ?_, ?_⟩⟩
    · exact (Config.validate_ok.mp hu.valid).2.2.1.2
    · rw [hsize, hu.pairSize]
    · have := hu.lasting
      show spec.notBefore.nanoseconds < spec.notAfter.nanoseconds
      rw [hbefore, hafter]
      omega

/-- What minting does to the stores, whatever they hold: one entry is made, or nothing. -/
inductive Mints (c : Custodian) (h : Host) : Except (Failure SealError) Minted × Host → Prop
  | refused {e : Failure SealError} {h' : Host} :
      ¬ c.Ready h → h.SameStores h' → h.Around h' → Mints c h (.error e, h')
  | direct {key : SymmetricKey} {h' : Host} :
      c.hostTier = .modernDirect → ¬ h.vault.locked →
      h'.vault.entries = h.vault.entries.insert c.config.symmetricAlias (.symmetric key) →
      h'.settings.values = h.settings.values → h.Around h' →
      Mints c h
        (.ok ⟨key, .generatedModern, [(c.config.levelSetting, .int c.platform.marker)]⟩, h')
  | wrapped {key : SymmetricKey} {secret : SecretKey} {spec : KeyPairSpec} {bytes : Bytes}
      {h' : Host} :
      c.hostTier ≠ .modernDirect → ¬ h.vault.locked →
      KeyPairSpec.validFor? c.config.keyPairSizeBits h.machine.now c.config.keyPairValidity =
        some spec →
      Vault.unwrapped secret bytes = .ok key →
      h'.vault.entries = h.vault.entries.insert c.config.wrapAlias (.keyPair secret spec) →
      h'.settings.values = h.settings.values → h.Around h' →
      Mints c h
        (.ok ⟨key, .generatedLegacy,
          [(c.config.wrappedKeySetting, .string (Text.Base64.encode bytes)),
            (c.config.levelSetting, .int c.platform.marker)]⟩, h')

theorem mintDirect_mints (hv : c.config.validate = .ok ()) (htier : c.hostTier = .modernDirect) :
    Mints c h (c.mintDirect h) := by
  obtain ⟨hsize, -, ⟨hname, -⟩, -⟩ := Config.validate_ok.mp hv
  have hstored : Host.Stored h c.config.symmetricAlias _ _ _ :=
    Host.generateSymmetricKey_stored (generationError c.config.symmetricAlias)
      c.config.symmetricAlias c.config.keySizeBits.toNat
  rw [mintDirect, Action.bind_apply]
  revert hstored
  generalize Host.request _ _ h = outcome
  intro hstored
  cases hstored with
  | refused hsure same around =>
    refine .refused (fun hready => hsure ⟨hready.accepts, ?_⟩) same around
    obtain hk | hk := hsize
    · exact ⟨.bits128, Vault.admitSymmetric_ok.mpr ⟨hready.unlocked, hname, by rw [hk]; rfl⟩⟩
    · exact ⟨.bits256, Vault.admitSymmetric_ok.mpr ⟨hready.unlocked, hname, by rw [hk]; rfl⟩⟩
  | stored hl he hentries hsettings around =>
    subst he
    exact .direct htier hl hentries (by rw [hsettings]) around

theorem newPairSpec_apply : c.newPairSpec h =
    match KeyPairSpec.validFor? c.config.keyPairSizeBits h.machine.now c.config.keyPairValidity with
    | some spec => (.ok spec, h)
    | none => (.error (.abort .timeOverflow), h) := by
  rw [newPairSpec, Action.bind_apply, Action.get_apply]
  cases hspec : KeyPairSpec.validFor? c.config.keyPairSizeBits h.machine.now
    c.config.keyPairValidity <;> simp [hspec] <;> rfl

/-- The length of a key of the configured size is right, so the material is one. -/
theorem material_ok (hv : c.config.validate = .ok ()) (h : Host) :
    ∃ material h' key, Host.randomBytes (c.config.keySizeBits.toNat / 8) h = (.ok material, h') ∧
      SymmetricKey.ofBytes material = .ok key ∧ h.SameStores h' ∧ h.Around h' := by
  let drawn := h.random.bytes (c.config.keySizeBits.toNat / 8)
  have hlength : drawn.1.length = 16 ∨ drawn.1.length = 32 := by
    rw [RandomSource.length_bytes]
    obtain hk | hk := (Config.validate_ok.mp hv).1
    · exact .inl (by rw [hk]; rfl)
    · exact .inr (by rw [hk]; rfl)
  exact ⟨drawn.1, { h with random := drawn.2 }, ⟨drawn.1, hlength⟩, rfl, dif_pos hlength,
    ⟨rfl, rfl⟩, ⟨rfl, rfl, rfl, rfl, id⟩⟩

theorem mintWrapped_mints (hv : c.config.validate = .ok ()) (htier : c.hostTier ≠ .modernDirect) :
    Mints c h (c.mintWrapped h) := by
  rw [mintWrapped, Action.bind_apply, newPairSpec_apply]
  cases hspec : KeyPairSpec.validFor? c.config.keyPairSizeBits h.machine.now
    c.config.keyPairValidity with
  | none =>
    refine .refused (fun hready => ?_) ⟨rfl, rfl⟩ (.refl h)
    obtain ⟨spec, hsome, -⟩ := hready.admitted htier
    rw [hspec] at hsome
    cases hsome
  | some spec =>
    have hstored : Host.Stored h c.config.wrapAlias _ _ _ :=
      Host.generateKeyPair_stored (generationError c.config.wrapAlias) c.config.wrapAlias spec
    simp only [Action.bind_apply]
    revert hstored
    generalize Host.request _ _ h = outcome
    intro hstored
    cases hstored with
    | refused hsure same around =>
      refine .refused (fun hready => hsure ⟨hready.accepts, ?_⟩) same around
      obtain ⟨spec', hsome, hadmit⟩ := hready.admitted htier
      rw [hspec] at hsome
      cases hsome
      exact hadmit
    | @stored pair _ h₁ hl he hentries hsettings around =>
      obtain ⟨secret, hpublic, rfl⟩ := he
      obtain ⟨material, h₂, key, hmaterial, hkey, same₂, around₂⟩ := material_ok hv h₁
      have hl₂ : ¬ h₂.vault.locked := by rwa [around₂.locked, around.locked]
      obtain ⟨bytes, h₃, hwrap, same₃, around₃, hopen⟩ :=
        Host.wrap_ok (h := h₂) c.config.wrapAlias secret key hl₂
      simp only [hmaterial, hkey, Action.ofExcept, Except.mapError, hpublic,
        hwrap, Action.pure_apply]
      refine .wrapped htier hl hspec hopen ?_ ?_ ((around.trans around₂).trans around₃)
      · rw [same₃.entries, same₂.entries, hentries]
      · rw [same₃.values, same₂.values, hsettings]

theorem mint_mints (hv : c.config.validate = .ok ()) (h : Host) : Mints c h (c.mint h) := by
  rw [mint_eq]
  split
  · next htier => exact mintDirect_mints hv htier
  · next htier => exact mintWrapped_mints hv htier

/-- What minting ends in. -/
inductive MintEnd (c : Custodian) (h : Host) (s : Holdings) :
    Except (Failure SealError) Minted × Host → Prop
  | refused {e : Failure SealError} {h' : Host} :
      ¬ c.Ready h → h'.Holds c.config s → h.Around h' → MintEnd c h s (.error e, h')
  | minted {m : Minted} {mid final : Holdings} {h' : Host} :
      Minting c h.machine.now s m mid final → h'.Holds c.config mid → h.Around h' →
        MintEnd c h s (.ok m, h')

theorem mint_end (hs : h.Holds c.config s) (hv : c.config.validate = .ok ()) :
    MintEnd c h s (c.mint h) := by
  have hne := (Config.validate_ok.mp hv).2.2.2
  have hmints := mint_mints hv h
  generalize c.mint h = outcome at hmints ⊢
  cases hmints with
  | refused hready same around => exact .refused hready (hs.of_same same) around
  | direct htier _ hentries hvalues around =>
    exact .minted (.direct _ htier) (hs.insert_direct hne hentries hvalues) around
  | wrapped htier _ hspec hopen hentries hvalues around =>
    exact .minted (.wrapped htier hspec hopen) (hs.insert_pair hne hentries hvalues) around

-- ----------------------------------------------------------------------------
-- Recording
-- ----------------------------------------------------------------------------

/-- What recording ends in. -/
inductive RecordEnd (c : Custodian) (h : Host) (m : Minted) (mid final : Holdings) :
    Except (Failure SealError) ContentKey × Host → Prop
  | refused {e : SettingsError} {h' : Host} :
      ¬ h.Accepts → h'.Holds c.config mid → h.Around h' →
        RecordEnd c h m mid final (.error (.error (.settings e)), h')
  | recorded {h' : Host} :
      h'.Holds c.config final → h.Around h' →
        RecordEnd c h m mid final (.ok (c.keyOf m.key c.platform.marker m.source), h')

theorem record_end {now : Time} {m : Minted} {mid final : Holdings}
    (hm : Minting c now s m mid final) (hmid : h.Holds c.config mid)
    (hne : c.config.wrappedKeySetting ≠ c.config.levelSetting) :
    RecordEnd c h m mid final (c.record m h) := by
  have hput := h.putAll_put m.record
  rw [record, Action.bind_apply]
  revert hput
  generalize Host.onSettings _ h = outcome
  intro hput
  cases hput with
  | refused haccepts same around => exact .refused haccepts (hmid.of_same same) around
  | put hentries hvalues around =>
    refine .recorded ?_ around
    cases hm with
    | direct key htier => exact hmid.record_level hne hentries hvalues
    | wrapped htier hspec hopen => exact hmid.record_wrapped hne hentries hvalues

-- ----------------------------------------------------------------------------
-- Looking up
-- ----------------------------------------------------------------------------

/-- What is found by a custodian on a host with these holdings. -/
def Finds (c : Custodian) (h : Host) (s : Holdings) : Except VaultError (Option SymmetricKey) :=
  s.found c.hostTier c.config.wrapAlias h.vault.locked h.machine.now

/-- What a look-up ends in: everything that it can do to the holdings, and when. -/
inductive LookUpEnd (c : Custodian) (h : Host) (s : Holdings) :
    Except (Failure SealError) ContentKey × Host → Prop
  | failed {e : VaultError} {h' : Host} :
      c.Finds h s = .error e → h'.Holds c.config s → h.Around h' →
        LookUpEnd c h s (.error (.error (.keyVault e)), h')
  | found {k : ContentKey} {h' : Host} :
      c.Finds h s = .ok (some k.key) → k.source = s.source c.hostTier → h'.Holds c.config s →
        h.Around h' → LookUpEnd c h s (.ok k, h')
  | refused {e : Failure SealError} {h' : Host} :
      c.Finds h s = .ok none → ¬ c.Ready h → h'.Holds c.config s → h.Around h' →
        LookUpEnd c h s (.error e, h')
  | unrecorded {e : SettingsError} {m : Minted} {mid final : Holdings} {h' : Host} :
      c.Finds h s = .ok none → Minting c h.machine.now s m mid final → ¬ h.Accepts →
        h'.Holds c.config mid → h.Around h' →
          LookUpEnd c h s (.error (.error (.settings e)), h')
  | generated {m : Minted} {mid final : Holdings} {h' : Host} :
      c.Finds h s = .ok none → Minting c h.machine.now s m mid final →
        h'.Holds c.config final → h.Around h' →
          LookUpEnd c h s (.ok (c.keyOf m.key c.platform.marker m.source), h')

variable (hs : h.Holds c.config s) (hv : c.config.validate = .ok ())

include hs hv

theorem lookUp_end (hne : c.config.wrappedKeySetting ≠ c.config.levelSetting)
    (hsupported : c.hostTier.isSupported) : LookUpEnd c h s (c.lookUp h) := by
  obtain ⟨level, requests, -, hsearch⟩ := search_of_holds hs
  have hs₁ : ({ h with requests } : Host).Holds c.config s := hs.of_same ⟨rfl, rfl⟩
  have around₁ : h.Around { h with requests } := ⟨rfl, rfl, rfl, rfl, id⟩
  rw [lookUp_eq hsupported, Action.bind_apply, hsearch]
  cases hfound : s.found c.hostTier c.config.wrapAlias h.vault.locked h.machine.now with
  | error e => exact .failed hfound hs₁ around₁
  | ok key =>
    cases key with
    | some key => exact .found hfound rfl hs₁ around₁
    | none =>
      have hmint := mint_end hs₁ hv
      simp only [Except.map, Option.map_none, Except.mapError, Action.bind_apply]
      revert hmint
      generalize c.mint { h with requests } = outcome
      intro hmint
      cases hmint with
      | refused hready hs₂ around₂ =>
        refine .refused hfound (fun r => hready ?_) hs₂ (around₁.trans around₂)
        exact ⟨around₁.accepts r.accepts, r.unlocked, r.admitted⟩
      | @minted m mid final h₂ hm hs₂ around₂ =>
        have hrecord := record_end hm hs₂ hne
        show LookUpEnd c h s (c.record m h₂)
        revert hrecord
        generalize c.record m h₂ = outcome
        intro hrecord
        cases hrecord with
        | refused haccepts hs₃ around₃ =>
          refine .unrecorded hfound hm (fun ha => haccepts ?_) hs₃
            ((around₁.trans around₂).trans around₃)
          exact around₂.accepts (around₁.accepts ha)
        | recorded hs₃ around₃ =>
          exact .generated hfound hm hs₃ ((around₁.trans around₂).trans around₃)

end Custodian

end SealedStream
