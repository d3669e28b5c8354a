import SealedStream.Proofs.Durable.Opening
import SealedStream.Proofs.Reports
import SealedStream.Proofs.Stream.Keyless
import SealedStream.Proofs.Unwrapping

/-!
# Errors of streams

A stream that cannot be begun is reported with what the stores, its sink or its source have
answered, with a wrapped key that is none, with a rejected generation, or with a header that
is none. The other errors guard steps that do not fail on keys and vectors of the right
length, and all that makes keys and vectors makes them in that length.
-/

namespace SealedStream

open SealedStream.Action (Raises)

namespace SealError

/-- What a key that cannot be resolved is reported with, where there is a key to be had at all. -/
inductive OfResolution : SealError → Prop
  | stores {e : SealError} : OfStores e → OfResolution e
  | keyGeneration {keyName : String} {e : VaultError} :
      e.isGenerationRejected → OfResolution (.keyGeneration keyName e)

/-- The errors that guard what cannot go wrong in a stream. -/
def isInternal : SealError → Bool
  | unsupportedPlatform _ => true
  | invalidKeySize _ => true
  | encryptionFailed _ => true
  | decryptionFailed _ => true
  | invalidConfig _ => true
  | _ => false

theorem OfResolution.external {e : SealError} (h : OfResolution e) :
    ¬ e.isInternal ∧ ¬ e.isCorruptHeader := by
  obtain ⟨⟨⟩⟩ | ⟨⟩ := h <;> exact ⟨Bool.false_ne_true, Bool.false_ne_true⟩

end SealError

open SealedStream.SealError (OfStores OfResolution)

-- ----------------------------------------------------------------------------
-- Generations
-- ----------------------------------------------------------------------------

theorem Vault.persist_raises (path? : Option Path) (entries : Dict VaultEntry) :
    Raises (¬ ·.isGenerationRejected) (Vault.persist path? entries) := by
  cases path? with
  | none => exact .pure ()
  | some path =>
    intro files e he
    rw [Vault.persist, Action.mapError_apply] at he
    obtain ⟨cause, -, rfl⟩ := mapError_eq_error.mp he
    exact Bool.false_ne_true

namespace VaultSite

variable {keyName : String} {site : VaultSite}

theorem store_raises (keyName : String) (entry : VaultEntry) :
    Raises (¬ ·.isGenerationRejected) (store keyName entry) := by
  have hreplace (entries : Dict VaultEntry) :
      Raises (¬ ·.isGenerationRejected) (replaceEntries entries) :=
    .bind (.of_ok fun _ => ⟨_, rfl⟩) fun _ => .bind (.zoom (.zoom (Vault.persist_raises _ _)))
      fun _ => .of_ok fun _ => ⟨_, rfl⟩
  intro site e he
  rw [store_eq] at he
  exact hreplace _ site e he

theorem wrap_raises (publicKey : PublicKeyHandle) (key : SymmetricKey) :
    Raises (¬ ·.isGenerationRejected) (wrap publicKey key) := by
  refine .bind (ask_raises fun site e he => ?_) fun _ => .bind (.of_ok fun _ => ⟨_, rfl⟩) fun _ =>
    .bind (.of_ok fun _ => ⟨_, rfl⟩) fun _ => .pure _
  rw [Vault.ensureUnlocked] at he
  split at he <;> cases he
  exact Bool.false_ne_true

/-- A pair is rejected for what is asked for, before anything is drawn or written. -/
theorem generateKeyPair_rejects_iff {spec : KeyPairSpec} {why : Rejection} :
    (generateKeyPair keyName spec site).1 = .error (.unsupportedSpec why) ↔
      site.vault.admitKeyPair keyName spec = .error (.unsupportedSpec why) := by
  have hrest : Raises (¬ ·.isGenerationRejected) (do
      let secret ← onMachine (Machine.draw SecretKey.draw)
      store keyName (.keyPair secret spec)
      return { publicKey := ⟨keyName, secret.publicKey⟩, privateKey := ⟨keyName⟩ } :
        Action VaultSite VaultError KeyPairHandle) :=
    .bind (.of_ok fun _ => ⟨_, rfl⟩) fun _ => .bind (store_raises _ _) fun _ => .pure _
  rw [generateKeyPair, Action.bind_fst_error, ask_apply]
  refine or_iff_left ?_
  rintro ⟨_, site', -, h⟩
  exact hrest site' _ h rfl

theorem generateSymmetricKey_raises {bits : Nat} {size : KeySize} (hname : keyName ≠ "")
    (hbits : KeySize.ofBits? bits = some size) :
    Raises (¬ ·.isGenerationRejected) (generateSymmetricKey keyName bits) := by
  refine .bind (ask_raises fun site e he => ?_) fun _ => .bind (.of_ok fun _ => ⟨_, rfl⟩) fun _ =>
    .bind (store_raises _ _) fun _ => .pure _
  rw [Vault.admitSymmetric_eq, if_neg hname, hbits] at he
  split at he <;> cases he
  exact Bool.false_ne_true

end VaultSite

namespace Custodian

variable {c : Custodian} {h : Host} {keyName : String} {e : VaultError}

theorem generationError_of_rejected (he : e.isGenerationRejected) :
    generationError keyName e = .keyGeneration keyName e := if_pos he

theorem generationError_of_stores (he : ¬ e.isGenerationRejected) :
    generationError keyName e = .keyVault e := if_neg he

theorem generationError_of_resolution (keyName : String) (e : VaultError) :
    OfResolution (generationError keyName e) := by
  by_cases he : e.isGenerationRejected
  · rw [generationError_of_rejected he]
    exact .keyGeneration he
  · rw [generationError_of_stores he]
    exact .stores (.keyVault he)

section

variable (hv : c.config.validate = .ok ())

include hv

/-- A vault does not reject to generate a symmetric key of a valid configuration. -/
theorem mintDirect_raises : Raises (Failure.Reported OfStores) c.mintDirect := by
  obtain ⟨hsize, -, ⟨hname, -⟩, -⟩ := Config.validate_ok.mp hv
  obtain ⟨size, hbits⟩ : ∃ size, KeySize.ofBits? c.config.keySizeBits.toNat = some size := by
    obtain hk | hk := hsize
    · exact ⟨.bits128, by rw [hk]; rfl⟩
    · exact ⟨.bits256, by rw [hk]; rfl⟩
  refine .bind (.lift (.zoom (VaultSite.generateSymmetricKey_raises hname hbits)) fun e he => ?_)
    fun _ => .pure _
  rw [generationError_of_stores he]
  exact .keyVault he

/-- The material of a valid configuration has the length of a key. -/
theorem mintFor_raises (publicKey : PublicKeyHandle) :
    Raises (Failure.Reported OfStores) (c.mintFor publicKey) := by
  intro h e he
  obtain ⟨material, h', key, hmaterial, hkey, -⟩ := material_ok hv h
  simp only [mintFor, Action.bind_apply, hmaterial, hkey, Except.mapError, Action.ofExcept] at he
  have hrest : Raises (Failure.Reported OfStores) (do
      let wrapped ← Host.onVault (VaultSite.wrap publicKey key)
      return ⟨key, .generatedLegacy,
        [(c.config.wrappedKeySetting, .string (Text.Base64.encode wrapped)),
          (c.config.levelSetting, .int c.platform.marker)]⟩ : HostAction Minted) :=
    .bind (Host.onVault_raises (VaultSite.wrap_raises publicKey key)) fun _ => .pure _
  exact hrest h' e he

/-- Beside these errors, only the end of the clock keeps a key from being generated. -/
theorem mint_error {e : SealError} (he : (c.mint h).1 = .error (.error e)) : OfResolution e := by
  rw [mint_eq] at he
  split at he
  · exact .stores (mintDirect_raises hv h _ he)
  · rw [mintWrapped_eq] at he
    obtain he | ⟨spec, h₁, -, he⟩ := Action.bind_fst_error.mp he
    · rw [newPairSpec_apply] at he
      split at he <;> cases he
    obtain he | ⟨pair, h₂, -, he⟩ := Action.bind_fst_error.mp he
    · rw [Host.request_apply] at he
      obtain ⟨cause, -, ⟨⟩⟩ := mapError_eq_error.mp he
      exact generationError_of_resolution _ cause
    · exact .stores (mintFor_raises hv _ h₂ _ he)

theorem lookUp_error {e : SealError} (hsupported : c.hostTier.isSupported)
    (he : (c.lookUp h).1 = .error (.error e)) : OfResolution e := by
  rw [lookUp_eq hsupported] at he
  obtain he | ⟨k?, h₁, -, he⟩ := Action.bind_fst_error.mp he
  · exact .stores (c.search_raises h _ he)
  cases k? with
  | some k => cases he
  | none =>
    obtain he | ⟨m, h₂, -, he⟩ := Action.bind_fst_error.mp he
    · exact mint_error hv he
    · exact .stores (c.record_raises m h₂ _ he)

end

end Custodian

-- ----------------------------------------------------------------------------
-- Rejected generations
-- ----------------------------------------------------------------------------

/-- Why no vault generates a pair of a configuration. -/
def Config.pairRejection? (config : Config) : Option Rejection :=
  if config.keyPairSizeBits ≠ 256 then some (.keyPairSize config.keyPairSizeBits.toNat)
  else if config.keyPairValidity.nanoseconds = 0 then some .emptyWindow
  else none

theorem Vault.admitKeyPair_rejects_iff {v : Vault} {keyName : String} {config : Config} {now : Time}
    {spec : KeyPairSpec} {why : Rejection} (hname : keyName ≠ "")
    (hspec : KeyPairSpec.validFor? config.keyPairSizeBits now config.keyPairValidity = some spec) :
    v.admitKeyPair keyName spec = .error (.unsupportedSpec why) ↔
      ¬ v.locked ∧ config.pairRejection? = some why := by
  obtain ⟨hsize, hbefore, hafter⟩ := KeyPairSpec.of_validFor hspec
  have hwindow : spec.notAfter ≤ spec.notBefore ↔ config.keyPairValidity.nanoseconds = 0 := by
    show spec.notAfter.nanoseconds ≤ spec.notBefore.nanoseconds ↔ _
    rw [hafter, hbefore]
    omega
  rw [admitKeyPair_eq, if_neg hname, hsize, Config.pairRejection?]
  by_cases hl : v.locked
  · simp [hl]
  · simp only [hl, Bool.false_eq_true, if_false, not_false_eq_true, true_and, hwindow]
    split
    · simp
    · split <;> simp

namespace Custodian

variable {c : Custodian} {h : Host} {keyName : String} {e : VaultError}

/-- A rejection is reported under the name of the key that was to be generated. -/
theorem request_rejects_iff {α : Type} {x : Action VaultSite VaultError α} {other : String} :
    (Host.request (generationError keyName) x h).1 = .error (.error (.keyGeneration other e)) ↔
      other = keyName ∧ e.isGenerationRejected ∧ (x h.vaultSite).1 = .error e := by
  rw [Host.request_apply, mapError_eq_error]
  constructor
  · rintro ⟨cause, hcause, hwording⟩
    by_cases hrejected : cause.isGenerationRejected
    · rw [generationError_of_rejected hrejected] at hwording
      cases hwording
      exact ⟨rfl, hrejected, hcause⟩
    · rw [generationError_of_stores hrejected] at hwording
      cases hwording
  · rintro ⟨rfl, hrejected, hcause⟩
    exact ⟨e, hcause, by rw [generationError_of_rejected hrejected]⟩

theorem not_keyGeneration {σ α : Type} {x : Action σ (Failure SealError) α} {s : σ}
    (hx : Raises (Failure.Reported OfStores) x) :
    (x s).1 ≠ .error (.error (.keyGeneration keyName e)) := by
  intro herror
  cases hx s _ herror

variable (hv : c.config.validate = .ok ())

include hv

theorem mintWrapped_rejects_iff :
    (c.mintWrapped h).1 = .error (.error (.keyGeneration keyName e)) ↔
      keyName = c.config.wrapAlias ∧ ¬ h.vault.locked ∧
        Time.InRange ⟨h.machine.now.nanoseconds + c.config.keyPairValidity.nanoseconds⟩ ∧
        ∃ why, c.config.pairRejection? = some why ∧ e = .unsupportedSpec why := by
  have hname := (Config.validate_ok.mp hv).2.2.1.2
  have hrange : KeyPairSpec.validFor? c.config.keyPairSizeBits h.machine.now
      c.config.keyPairValidity = none ↔ _ := KeyPairSpec.validFor?_eq_none
  rw [mintWrapped_eq, Action.bind_apply, newPairSpec_apply]
  cases hspec : KeyPairSpec.validFor? c.config.keyPairSizeBits h.machine.now
    c.config.keyPairValidity with
  | none =>
    have hout := hrange.mp hspec
    simp [hout]
  | some spec =>
    have hinRange : Time.InRange
        ⟨h.machine.now.nanoseconds + c.config.keyPairValidity.nanoseconds⟩ := by
      by_contra hout
      rw [hrange.mpr hout] at hspec
      cases hspec
    have hmintFor (pair : KeyPairHandle) (h' : Host) :
        (c.mintFor pair.publicKey h').1 ≠ .error (.error (.keyGeneration keyName e)) :=
      not_keyGeneration (mintFor_raises hv pair.publicKey)
    simp only [Action.bind_fst_error, hmintFor, and_false, exists_false, or_false,
      request_rejects_iff, hinRange, true_and]
    refine and_congr_right fun _ => ?_
    constructor
    · rintro ⟨hrejected, herror⟩
      cases e with
      | unsupportedSpec why =>
        rw [VaultSite.generateKeyPair_rejects_iff,
          Vault.admitKeyPair_rejects_iff hname hspec] at herror
        exact ⟨herror.1, why, herror.2, rfl⟩
      | _ => cases hrejected
    · rintro ⟨hl, why, hwhy, rfl⟩
      refine ⟨rfl, ?_⟩
      rw [VaultSite.generateKeyPair_rejects_iff, Vault.admitKeyPair_rejects_iff hname hspec]
      exact ⟨hl, hwhy⟩

theorem lookUp_rejects_iff :
    (c.lookUp h).1 = .error (.error (.keyGeneration keyName e)) ↔
      c.hostTier = .legacyWrapped ∧ c.Bare h ∧ keyName = c.config.wrapAlias ∧ ¬ h.vault.locked ∧
        Time.InRange ⟨h.machine.now.nanoseconds + c.config.keyPairValidity.nanoseconds⟩ ∧
        ∃ why, c.config.pairRejection? = some why ∧ e = .unsupportedSpec why := by
  cases htier : c.hostTier with
  | unsupported =>
    rw [lookUp_unsupported (by rw [htier]; exact Bool.false_ne_true)]
    simp
  | modernDirect =>
    -- A symmetric key of the configured size is one that no vault rejects.
    simp only [reduceCtorEq, false_and, iff_false]
    rw [lookUp_eq (by rw [htier]; rfl)]
    refine not_keyGeneration (.bind c.search_raises fun k? => ?_)
    cases k? with
    | some k => exact .pure k
    | none =>
      simp only [mint, htier]
      exact .bind (mintDirect_raises hv) c.record_raises
  | legacyWrapped =>
    have hmint (h' : Host) :
        ((c.mint >>= c.record) h').1 = .error (.error (.keyGeneration keyName e)) ↔
          (c.mintWrapped h').1 = .error (.error (.keyGeneration keyName e)) := by
      have hrecord (m : Minted) (h' : Host) :
          (c.record m h').1 ≠ .error (.error (.keyGeneration keyName e)) :=
        not_keyGeneration (c.record_raises m)
      simp only [Action.bind_fst_error, hrecord, and_false, exists_false, or_false, mint, htier]
    obtain ⟨requests, -, hasked⟩ := c.search_asks h
    rw [lookUp_eq (by rw [htier]; rfl), Action.bind_fst_error,
      or_iff_right (not_keyGeneration c.search_raises)]
    constructor
    · rintro ⟨k?, h', hsearch, herror⟩
      cases k? with
      | some k => cases herror
      | none =>
        obtain ⟨hbare, -⟩ := bare_of_search hsearch
        rw [hsearch] at hasked
        subst hasked
        have hminted := (hmint (h.asked requests)).mp herror
        exact ⟨rfl, hbare, (mintWrapped_rejects_iff (h := h.asked requests) hv).mp hminted⟩
    · rintro ⟨-, hbare, hrejected⟩
      have hnone := search_of_bare (by rw [htier]; decide) hbare fun hl => absurd hl hrejected.2.1
      have hminted := (mintWrapped_rejects_iff (h := h.asked requests) hv).mpr hrejected
      exact ⟨none, h.asked requests, Prod.ext hnone hasked, (hmint _).mpr hminted⟩

end Custodian

-- ----------------------------------------------------------------------------
-- Key lengths
-- ----------------------------------------------------------------------------

theorem KeySize.of_ofBits {bits : Nat} {size : KeySize} (h : ofBits? bits = some size) :
    size.bytes * 8 = bits := by
  unfold ofBits? at h
  split at h
  · cases h
    subst bits
    rfl
  · split at h
    · cases h
      subst bits
      rfl
    · cases h

theorem VaultSite.length_of_generateSymmetricKey {keyName : String} {bits : Nat}
    {site site' : VaultSite} {key : SymmetricKey}
    (h : generateSymmetricKey keyName bits site = (.ok key, site')) :
    key.bytes.length * 8 = bits := by
  obtain ⟨size, s₁, hask, h⟩ := Action.bind_ok.mp h
  obtain ⟨drawn, s₂, hdrawn, h⟩ := Action.bind_ok.mp h
  obtain ⟨_, _, -, h⟩ := Action.bind_ok.mp h
  cases h
  cases hdrawn
  rw [ask_apply, Prod.mk.injEq, Vault.admitSymmetric_ok] at hask
  rw [← KeySize.of_ofBits hask.1.2.2]
  exact congrArg (· * 8) (Entropy.length_draw ..)

/-- What unwraps to a key is longer than it by the parts around it. -/
theorem Vault.length_of_unwrap {v : Vault} {now : Time} {handle : PrivateKeyHandle} {bytes : Bytes}
    {key : SymmetricKey} (h : v.unwrap now handle bytes = .ok key) :
    bytes.length = 72 + key.bytes.length := by
  rw [unwrap, ensureUnlocked_bind] at h
  split at h
  · cases h
  · split at h
    · split at h
      · obtain ⟨ephemeral, nonce, hephemeral, hnonce, rfl⟩ :=
          unwrapped_eq_ok_iff.mp (mapError_eq_ok.mp h)
        simp only [List.length_append, hephemeral, hnonce, Cipher.Box.length_sealed,
          Cipher.Box.tagSize]
        omega
      · cases h
    · cases h

theorem Dict.mem_of_get? {α : Type} {d : Dict α} {name : String} {value : α}
    (h : d.get? name = some value) : (name, value) ∈ d.entries := by
  obtain ⟨before, after, hentries, -⟩ := List.lookup_eq_some_iff.mp h
  rw [hentries]
  exact List.mem_append_right _ List.mem_cons_self

/-- A symmetric key of a document is the material of one of its records. -/
theorem Vault.material_of_decode {document : Bytes} {entries : Dict VaultEntry} {keyName : String}
    {key : SymmetricKey} (h : decode document = .ok entries)
    (hkey : entries.get? keyName = some (.symmetric key)) :
    ∃ records encoded, records? document = some records ∧
      (keyName, .symmetric encoded) ∈ records.entries ∧
      Text.Base64.decode encoded = .ok key.bytes := by
  rw [decode_eq] at h
  split at h
  · cases h
  · next records hrecords =>
    obtain ⟨list, hmade, rfl⟩ := map_eq_ok.mp h
    have hmem := (Dict.mem_insertAll (Dict.mem_of_get? hkey)).resolve_right List.not_mem_nil
    obtain ⟨⟨name, record⟩, hrecord, hentry⟩ := mem_of_mapM_ok hmade hmem
    obtain ⟨entry, hentry, hname⟩ := map_eq_ok.mp hentry
    cases hname
    cases record with
    | symmetric encoded =>
      obtain ⟨bytes, hmaterial, hentry⟩ := bind_eq_ok.mp hentry
      split at hentry
      · next key' hkey =>
        cases hentry
        rw [← SymmetricKey.bytes_of_ofBytes hkey] at hmaterial
        exact ⟨records, encoded, hrecords, hrecord, mapError_eq_ok.mp hmaterial⟩
      · cases hentry
    | keyPair encoded sizeBits notBefore notAfter =>
      obtain ⟨bytes, -, hentry⟩ := bind_eq_ok.mp hentry
      split at hentry
      · cases hentry
      · obtain ⟨_, -, hentry⟩ := bind_eq_ok.mp hentry
        obtain ⟨_, -, hentry⟩ := bind_eq_ok.mp hentry
        cases hentry

theorem Vault.material_of_openAt {path : Path} {files : Files} {v : Vault} {keyName : String}
    {key : SymmetricKey} (h : (openAt path files).1 = .ok v)
    (hkey : v.entries.get? keyName = some (.symmetric key)) :
    ∃ document records encoded, files.found? path = some (.ok document) ∧
      records? document = some records ∧ (keyName, .symmetric encoded) ∈ records.entries ∧
      Text.Base64.decode encoded = .ok key.bytes := by
  rw [openAt_eq] at h
  obtain ⟨entries, hentries, rfl⟩ := map_eq_ok.mp h
  obtain ⟨-, rfl⟩ | ⟨document, hfound, hdecode⟩ := Format.opening_ok (Prod.ext hentries rfl)
  · cases hkey
  · rw [decode_format] at hdecode
    obtain ⟨records, encoded, hrest⟩ := material_of_decode (mapError_eq_ok.mp hdecode) hkey
    exact ⟨document, records, encoded, hfound, hrest⟩

namespace Custodian

variable {c : Custodian} {h h' : Host} {k : ContentKey}

theorem length_of_mint {m : Minted} (hv : c.config.validate = .ok ())
    (hmint : c.mint h = (.ok m, h')) : m.key.bytes.length * 8 = c.config.keySizeBits.toNat := by
  rw [mint_eq] at hmint
  split at hmint
  · obtain ⟨key, h₁, hrequest, hm⟩ := Action.bind_ok.mp hmint
    cases hm
    obtain ⟨site, hgenerate, -⟩ := Action.zoom_ok.mp (Action.mapError_ok.mp hrequest)
    exact VaultSite.length_of_generateSymmetricKey hgenerate
  · obtain ⟨spec, _, -, hmint⟩ := Action.bind_ok.mp hmint
    obtain ⟨pair, _, -, hmint⟩ := Action.bind_ok.mp hmint
    obtain ⟨material, _, hmaterial, hmint⟩ := Action.bind_ok.mp hmint
    obtain ⟨key, _, hkey, hmint⟩ := Action.bind_ok.mp hmint
    obtain ⟨_, _, -, hm⟩ := Action.bind_ok.mp hmint
    cases hm
    rw [Action.ofExcept, Prod.mk.injEq, mapError_eq_ok] at hkey
    have hlength : material.length = c.config.keySizeBits.toNat / 8 := by
      cases hmaterial
      exact RandomSource.length_bytes ..
    rw [SymmetricKey.bytes_of_ofBytes hkey.1, hlength]
    obtain hk | hk := (Config.validate_ok.mp hv).1 <;> rw [hk] <;> rfl

/-- A key that is made has the length that the configuration asks for. -/
theorem length_of_lookUp (hv : c.config.validate = .ok ()) (hlookUp : c.lookUp h = (.ok k, h'))
    (hk : k.source.isGenerated) : k.key.bytes.length * 8 = c.config.keySizeBits.toNat := by
  have hsupported : c.hostTier.isSupported := by
    by_contra hsupported
    rw [lookUp_unsupported hsupported] at hlookUp
    cases hlookUp
  rw [lookUp_eq hsupported] at hlookUp
  obtain ⟨k?, h₁, hsearch, hrest⟩ := Action.bind_ok.mp hlookUp
  cases k? with
  | some k' =>
    cases hrest
    exact absurd hk (kept_of_search hsearch).not_generated
  | none =>
    obtain ⟨m, h₂, hmint, hrecord⟩ := Action.bind_ok.mp hrest
    obtain ⟨_, _, -, hm⟩ := Action.bind_ok.mp hrecord
    cases hm
    exact length_of_mint hv hmint

end Custodian

-- ----------------------------------------------------------------------------
-- Streams
-- ----------------------------------------------------------------------------

/-- What a header is refused with: what is wrong with it, or the source's own error. -/
def SealError.OfHeader (e : SealError) : Prop := e.isCorruptHeader ∨ ∃ cause, e = .io cause

theorem Header.ofHeader_readError (e : IoError) : (readError e).OfHeader := by
  rw [readError]
  split
  · exact .inl rfl
  · exact .inr ⟨e, rfl⟩

theorem Header.read_raises : Raises SealError.OfHeader Header.read := by
  have hexact (n : Nat) : Raises SealError.OfHeader ((Source.readExact n).mapError readError) := by
    intro source e he
    rw [Action.mapError_apply] at he
    obtain ⟨cause, -, rfl⟩ := mapError_eq_error.mp he
    exact ofHeader_readError cause
  refine .bind (hexact 1) fun count => ?_
  simp only
  split
  · exact hexact ivSize
  · exact .throw (.inl rfl)

namespace Custody

variable {p : Custody} {e : SealError}

theorem resolve_error (hv : p.custodian.config.validate = .ok ()) (hp : p.isProtected)
    (he : (resolve p).1 = .error (.error e)) : OfResolution e := by
  cases hcached : p.custodian.cached with
  | some k =>
    rw [resolve_of_cached hcached] at he
    cases he
  | none =>
    rw [fst_resolve_of_uncached hcached] at he
    exact Custodian.lookUp_error hv hp he

/-- A stream is not begun for want of a key, or for what the sink answers to its header. -/
theorem start_error {sink : Sink} {out : Outgoing} (hv : p.custodian.config.validate = .ok ())
    (hstart : Outgoing.start ⟨p, sink⟩ = (.error (.error e), out)) :
    OfResolution e ∨ ∃ cause, e = .io cause := by
  by_cases hp : p.isProtected
  · rcases hresolve : resolve p with ⟨e' | k, p'⟩
    · rw [Outgoing.start_unresolved hp hresolve] at hstart
      cases hstart
      exact .inl (resolve_error hv hp (by rw [hresolve]))
    · obtain ⟨iv, host, hfresh, hiv⟩ := k.tier.freshIv_ok p'.host
      rw [Outgoing.start_resolved hp hresolve hfresh hiv] at hstart
      split at hstart
      · cases hstart
        exact .inr ⟨_, rfl⟩
      · cases hstart
  · rw [Outgoing.start_unprotected hp] at hstart
    cases hstart

theorem encrypt_error {text : Bytes} {p' : Custody} (hv : p.custodian.config.validate = .ok ())
    (hencrypt : encrypt text p = (.error (.error e), p')) :
    OfResolution e ∨ ∃ cause, e = .io cause := by
  by_cases hp : p.isProtected
  · rcases hresolve : resolve p with ⟨e' | k, p'⟩
    · rw [encrypt_of_resolve_error hp hresolve] at hencrypt
      cases hencrypt
      exact .inl (resolve_error hv hp (by rw [hresolve]))
    · obtain ⟨iv, host, -, -, hend⟩ := encrypt_of_resolve hp hresolve text
      rw [hend, Prod.mk.injEq, mapError_eq_error] at hencrypt
      obtain ⟨⟨_, -, ⟨⟩⟩, -⟩ := hencrypt
      exact .inr ⟨_, rfl⟩
  · rw [encrypt_unprotected hp] at hencrypt
    cases hencrypt

/-- A stream to be opened is not begun for want of a header, or of a key. -/
theorem opening_error {source : Source} {i : Incoming}
    (hv : p.custodian.config.validate = .ok ())
    (hstart : Incoming.start ⟨p, source⟩ = (.error (.error e), i)) :
    e.OfHeader ∨ OfResolution e := by
  by_cases hp : p.isProtected
  · rcases hread : Header.read source with ⟨e' | iv, rest⟩
    · rw [Incoming.start_unheaded hp hread] at hstart
      cases hstart
      exact .inl (Header.read_raises source e (by rw [hread]))
    · rcases hresolve : resolve p with ⟨e' | k, p'⟩
      · rw [Incoming.start_unresolved hp hread hresolve] at hstart
        cases hstart
        exact .inr (resolve_error hv hp (by rw [hresolve]))
      · rw [Incoming.start_headed hp hread hresolve] at hstart
        cases hstart
  · rw [Incoming.start_unprotected hp] at hstart
    cases hstart

theorem decrypt_error {bytes : Bytes} {p' : Custody} (hv : p.custodian.config.validate = .ok ())
    (hdecrypt : decrypt bytes p = (.error (.error e), p')) : e.OfHeader ∨ OfResolution e := by
  rw [decrypt] at hdecrypt
  rcases hstart : Incoming.start { custody := p, source := .ofBytes bytes } with ⟨e' | opening, i⟩
  · rw [hstart] at hdecrypt
    cases hdecrypt
    exact opening_error hv hstart
  · rw [hstart] at hdecrypt
    obtain ⟨hread, -⟩ := Prod.mk.inj hdecrypt
    obtain ⟨cause, -, ⟨⟩⟩ := mapError_eq_error.mp hread
    exact .inl (.inr ⟨cause, rfl⟩)

theorem resolve_rejects_iff {keyName : String} {e : VaultError}
    (hv : p.custodian.config.validate = .ok ()) :
    (resolve p).1 = .error (.error (.keyGeneration keyName e)) ↔
      p.custodian.cached = none ∧ p.custodian.hostTier = .legacyWrapped ∧
        p.custodian.Bare p.host ∧ keyName = p.custodian.config.wrapAlias ∧
        ¬ p.host.vault.locked ∧
        Time.InRange ⟨p.host.machine.now.nanoseconds +
          p.custodian.config.keyPairValidity.nanoseconds⟩ ∧
        ∃ why, p.custodian.config.pairRejection? = some why ∧ e = .unsupportedSpec why := by
  cases hcached : p.custodian.cached with
  | some k => simp [resolve_of_cached hcached]
  | none =>
    rw [fst_resolve_of_uncached hcached, Custodian.lookUp_rejects_iff hv]
    simp only [true_and]

theorem resolve_ne_unsupportedSpec (hv : p.custodian.config.validate = .ok ()) (why : Rejection) :
    (resolve p).1 ≠ .error (.error (.keyVault (.unsupportedSpec why))) := by
  intro he
  by_cases hp : p.isProtected
  · obtain ⟨hstores⟩ := resolve_error hv hp he
    cases hstores with
    | keyVault hrejected => exact hrejected rfl
  · cases hcached : p.custodian.cached with
    | some k =>
      rw [resolve_of_cached hcached] at he
      cases he
    | none =>
      rw [fst_resolve_of_uncached hcached, Custodian.lookUp_unsupported hp] at he
      cases he

/-- Under a valid configuration, neither sealing nor opening a stream is refused with an error that
guards its own steps, and a vault that rejects the generation of a key is reported as that alone: it
is the generation of a pair that no vault takes. Whatever makes a key makes it in the length that
it is asked for or finds, and for every key there is a cipher. -/
theorem internal_errors_unreachable {p : Custody} (hv : p.custodian.config.validate = .ok ()) :
    (∀ sink e out, Outgoing.start ⟨p, sink⟩ = (.error (.error e), out) →
      ¬ e.isInternal ∧ ¬ e.isCorruptHeader) ∧
    (∀ text e p', encrypt text p = (.error (.error e), p') →
      ¬ e.isInternal ∧ ¬ e.isCorruptHeader) ∧
    (∀ source e i, Incoming.start ⟨p, source⟩ = (.error (.error e), i) → ¬ e.isInternal) ∧
    (∀ bytes e p', decrypt bytes p = (.error (.error e), p') → ¬ e.isInternal) ∧
    (∀ why, (resolve p).1 ≠ .error (.error (.keyVault (.unsupportedSpec why)))) ∧
    (∀ keyName e, (resolve p).1 = .error (.error (.keyGeneration keyName e)) ↔
      p.custodian.cached = none ∧ p.custodian.hostTier = .legacyWrapped ∧
        p.custodian.Bare p.host ∧ keyName = p.custodian.config.wrapAlias ∧
        ¬ p.host.vault.locked ∧
        Time.InRange ⟨p.host.machine.now.nanoseconds +
          p.custodian.config.keyPairValidity.nanoseconds⟩ ∧
        ∃ why, p.custodian.config.pairRejection? = some why ∧ e = .unsupportedSpec why) ∧
    (∀ k p', p.custodian.cached = none → resolve p = (.ok k, p') → k.source.isGenerated →
      k.key.bytes.length * 8 = p.custodian.config.keySizeBits.toNat) ∧
    (∀ keyName bits site key site',
      VaultSite.generateSymmetricKey keyName bits site = (.ok key, site') →
        key.bytes.length * 8 = bits) ∧
    (∀ (v : Vault) now handle bytes key, v.unwrap now handle bytes = .ok key →
      bytes.length = 72 + key.bytes.length) ∧
    (∀ path files v keyName key, (Vault.openAt path files).1 = .ok v →
      v.symmetricKey keyName = .ok (some key) →
        ∃ document records encoded, files.found? path = some (.ok document) ∧
          Vault.records? document = some records ∧
          (keyName, .symmetric encoded) ∈ records.entries ∧
          Text.Base64.decode encoded = .ok key.bytes) ∧
    ∀ key : SymmetricKey, (key.bytes.length = 16 ∨ key.bytes.length = 32) ∧
      ∃ suite, key.suite = .ok suite := by
  have hsealing {e : SealError} (he : OfResolution e ∨ ∃ cause, e = .io cause) :
      ¬ e.isInternal ∧ ¬ e.isCorruptHeader := by
    obtain hresolution | ⟨cause, rfl⟩ := he
    · exact hresolution.external
    · exact ⟨Bool.false_ne_true, Bool.false_ne_true⟩
  have hopening {e : SealError} (he : e.OfHeader ∨ OfResolution e) : ¬ e.isInternal := by
    obtain (hheader | ⟨cause, rfl⟩) | hresolution := he
    · cases e <;> first | exact Bool.false_ne_true | cases hheader
    · exact Bool.false_ne_true
    · exact hresolution.external.1
  refine ⟨fun sink e out hstart => hsealing (start_error hv hstart),
    fun text e p' hencrypt => hsealing (encrypt_error hv hencrypt),
    fun source e i hstart => hopening (opening_error hv hstart),
    fun bytes e p' hdecrypt => hopening (decrypt_error hv hdecrypt),
    resolve_ne_unsupportedSpec hv, fun keyName e => resolve_rejects_iff hv,
    fun k p' hcached hresolve => ?_,
    fun keyName bits site key site' => VaultSite.length_of_generateSymmetricKey,
    fun v now handle bytes key => Vault.length_of_unwrap,
    fun path files v keyName key hopen hkey =>
      Vault.material_of_openAt hopen (Vault.get?_of_symmetricKey hkey),
    fun key => ⟨key.length_bytes, key.suite_ok⟩⟩
  exact Custodian.length_of_lookUp hv (lookUp_of_resolve hcached hresolve)

/-- A pair of another size than the vaults take, on a legacy host with nothing stored. -/
theorem internal_errors_unreachable_rejected :
    let p : Custody := ⟨{ platform := ⟨19⟩, config := { keyPairSizeBits := 512 } },
      .fresh { entropy := .ofSeed 7, now := .epoch }⟩
    p.custodian.config.validate = .ok () ∧
      (resolve p).1 = .error (.error (.keyGeneration "wrap_local_protection"
        (.unsupportedSpec (.keyPairSize 512)))) ∧
      ∀ text e p', encrypt text p = (.error (.error e), p') →
        ¬ e.isInternal ∧ ¬ e.isCorruptHeader := by
  intro p
  have hv : p.custodian.config.validate = .ok () := rfl
  have hbare : p.custodian.Bare p.host :=
    ⟨by rintro value ⟨⟩, by rintro value ⟨⟩, by rintro ⟨⟩, .inl rfl⟩
  obtain ⟨-, hencrypt, -, -, -, hrejects, -⟩ := internal_errors_unreachable hv
  refine ⟨hv, (hrejects _ _).mpr ?_, hencrypt⟩
  exact ⟨rfl, rfl, hbare, rfl, Bool.false_ne_true, by decide, _, rfl, rfl⟩

end Custody

end SealedStream
