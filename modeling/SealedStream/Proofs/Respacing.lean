import SealedStream.Proofs.KeptKey
import SealedStream.Proofs.Unwrapping
import SealedStream.StateDirectory

/-!
# Wrapped keys with blanks in them

The setting of the wrapped key may hold any text. Without its blanks it is what some
bytes are written as, or nothing can be recovered from it; and the bytes are sealed for
the pair's secret key, or they do not unwrap. `Respaced` puts blanks into a text
anywhere, of which a recovery sees nothing.
-/

namespace SealedStream

-- ----------------------------------------------------------------------------
-- Blanks
-- ----------------------------------------------------------------------------

namespace Text

/-- The second text is the first one with blanks put in anywhere. -/
inductive Respaced : List Char → List Char → Prop
  | nil : Respaced [] []
  | keep (c : Char) {text respaced : List Char} :
      Respaced text respaced → Respaced (c :: text) (c :: respaced)
  | blank {c : Char} {text respaced : List Char} :
      isBlank c → Respaced text respaced → Respaced text (c :: respaced)

theorem Respaced.refl (text : List Char) : Respaced text text := by
  induction text with
  | nil => exact .nil
  | cons c text ih => exact .keep c ih

theorem Respaced.filter_eq {text respaced : List Char} (h : Respaced text respaced) :
    respaced.filter (!isBlank ·) = text.filter (!isBlank ·) := by
  induction h with
  | nil => rfl
  | keep c h ih => simp only [List.filter_cons, ih]
  | blank hc h ih => simp only [List.filter_cons, hc, Bool.not_true, Bool.false_eq_true, if_false, ih]

theorem Respaced.withoutBlanks_eq {text respaced : String}
    (h : Respaced text.toList respaced.toList) : withoutBlanks respaced = withoutBlanks text := by
  rw [withoutBlanks, withoutBlanks, h.filter_eq]

end Text

open SealedStream.Text (withoutBlanks Respaced)
open SealedStream.Text.Base64 (encode)

-- ----------------------------------------------------------------------------
-- Recovering
-- ----------------------------------------------------------------------------

namespace Custodian

variable {c : Custodian} {h : Host} {blob : String} {bytes : Bytes} {secret : SecretKey}
  {spec : KeyPairSpec}

theorem blobBytes_eq_ok_iff : blobBytes blob = .ok bytes ↔ withoutBlanks blob = encode bytes := by
  rw [blobBytes, mapError_eq_ok, Text.Base64.decode_eq_ok_iff]

theorem blobBytes_unencoded (hnone : ∀ bytes, withoutBlanks blob ≠ encode bytes) :
    ∃ e, blobBytes blob = .error (.corruptWrappedKey (.encoding e)) := by
  cases hdecode : Text.Base64.decode (withoutBlanks blob) with
  | error e =>
    refine ⟨e, ?_⟩
    rw [blobBytes, hdecode]
    rfl
  | ok bytes => exact absurd (Text.Base64.decode_eq_ok_iff.mp hdecode) (hnone bytes)

section

variable (hl : ¬ h.vault.locked)
  (hblob : h.settings.get? c.config.wrappedKeySetting = some (.string blob))
  (hpair : h.vault.entries.get? c.config.wrapAlias = some (.keyPair secret spec))
  (hvalid : spec.IsValidAt h.machine.now)

include hl hblob hpair

theorem recovered_of_unencoded (hnone : ∀ bytes, withoutBlanks blob ≠ encode bytes) :
    ∃ e, (c.recoverWrapped h).1 = .error (.error (.corruptWrappedKey (.encoding e))) := by
  have hread : h.settings.getString? c.config.wrappedKeySetting = .ok (some blob) := by
    rw [Settings.getString?, hblob]
  obtain ⟨e, he⟩ := blobBytes_unencoded hnone
  refine ⟨e, ?_⟩
  rw [recoverWrapped_of_pair hl hread hpair, he]

include hvalid

theorem recovered_of_encoded (hbytes : withoutBlanks blob = encode bytes) :
    (c.recoverWrapped h).1 =
      ((Vault.unwrapped secret bytes).map some).mapError fun defect =>
        .error (.keyVault (.unwrap defect)) := by
  have hread : h.settings.getString? c.config.wrappedKeySetting = .ok (some blob) := by
    rw [Settings.getString?, hblob]
  rw [recoverWrapped_of_pair hl hread hpair, blobBytes_eq_ok_iff.mpr hbytes]
  simp only [Vault.unwrap_valid hl hpair hvalid]
  cases Vault.unwrapped secret bytes <;> rfl

/-- There is nothing between a text that is written in canonical form and one that is not. -/
theorem recovered_cases :
    (∃ bytes, withoutBlanks blob = encode bytes ∧ (c.recoverWrapped h).1 =
      ((Vault.unwrapped secret bytes).map some).mapError fun defect =>
        .error (.keyVault (.unwrap defect))) ∨
    ∃ e, (c.recoverWrapped h).1 = .error (.error (.corruptWrappedKey (.encoding e))) := by
  by_cases hcanonical : ∃ bytes, withoutBlanks blob = encode bytes
  · obtain ⟨bytes, hbytes⟩ := hcanonical
    exact .inl ⟨bytes, hbytes, recovered_of_encoded hl hblob hpair hvalid hbytes⟩
  · exact .inr (recovered_of_unencoded hl hblob hpair (not_exists.mp hcanonical))

theorem recovered_eq_ok_iff {key : SymmetricKey} : (c.recoverWrapped h).1 = .ok (some key) ↔
    ∃ bytes, withoutBlanks blob = encode bytes ∧ Vault.unwrapped secret bytes = .ok key := by
  constructor
  · intro hrecover
    obtain ⟨bytes, hbytes, hanswer⟩ | ⟨e, he⟩ := recovered_cases hl hblob hpair hvalid
    · rw [hanswer, mapError_eq_ok, map_eq_ok] at hrecover
      obtain ⟨_, hopen, ⟨⟩⟩ := hrecover
      exact ⟨bytes, hbytes, hopen⟩
    · rw [he] at hrecover
      cases hrecover
  · rintro ⟨bytes, hbytes, hopen⟩
    rw [recovered_of_encoded hl hblob hpair hvalid hbytes, hopen]
    rfl

theorem recovered_corrupt_iff :
    (∃ defect, (c.recoverWrapped h).1 = .error (.error (.corruptWrappedKey defect))) ↔
      ∀ bytes, withoutBlanks blob ≠ encode bytes := by
  constructor
  · rintro ⟨defect, hcorrupt⟩ bytes hbytes
    rw [recovered_of_encoded hl hblob hpair hvalid hbytes, mapError_eq_error] at hcorrupt
    obtain ⟨_, -, ⟨⟩⟩ := hcorrupt
  · intro hnone
    obtain ⟨e, he⟩ := recovered_of_unencoded hl hblob hpair hnone
    exact ⟨_, he⟩

theorem recovered_unwrap_iff :
    (∃ defect, (c.recoverWrapped h).1 = .error (.error (.keyVault (.unwrap defect)))) ↔
      ∃ bytes, withoutBlanks blob = encode bytes ∧
        ∃ defect, Vault.unwrapped secret bytes = .error defect := by
  constructor
  · rintro ⟨defect, hfails⟩
    obtain ⟨bytes, hbytes, hanswer⟩ | ⟨e, he⟩ := recovered_cases hl hblob hpair hvalid
    · rw [hanswer, mapError_eq_error] at hfails
      obtain ⟨_, hopen, -⟩ := hfails
      exact ⟨bytes, hbytes, _, map_eq_error.mp hopen⟩
    · rw [he] at hfails
      cases hfails
  · rintro ⟨bytes, hbytes, defect, hopen⟩
    refine ⟨defect, ?_⟩
    rw [recovered_of_encoded hl hblob hpair hvalid hbytes, hopen]
    rfl

theorem recovered_ne_none : (c.recoverWrapped h).1 ≠ .ok none := by
  intro hrecover
  obtain ⟨bytes, -, hanswer⟩ | ⟨e, he⟩ := recovered_cases hl hblob hpair hvalid
  · rw [hanswer, mapError_eq_ok, map_eq_ok] at hrecover
    obtain ⟨_, -, ⟨⟩⟩ := hrecover
  · rw [he] at hrecover
    cases hrecover

end

/-- What a look-up that made a wrapped key has written of it. -/
theorem written_of_lookUp {maker : Custodian} {h₀ h₁ : Host} {k : ContentKey} {written : String}
    (hv : maker.config.validate = .ok ()) (htier : maker.hostTier = .legacyWrapped)
    (hlookUp : maker.lookUp h₀ = (.ok k, h₁)) (hsource : k.source = .generatedLegacy)
    (hpair : h₁.vault.entries.get? maker.config.wrapAlias = some (.keyPair secret spec))
    (hwritten : h₁.settings.get? maker.config.wrappedKeySetting = some (.string written)) :
    ∃ bytes, written = encode bytes ∧ Vault.unwrapped secret bytes = .ok k.key := by
  have hlookedUp := lookedUp hv (by rw [htier]; rfl) hlookUp
  obtain ⟨made, spec', bytes, hmade⟩ := hlookedUp.madeWrapped hsource
  rw [hmade.pair] at hpair
  cases hpair
  rw [hmade.written] at hwritten
  split at hwritten
  · cases hwritten
  · cases hwritten
    exact ⟨bytes, rfl, hmade.opens⟩

/--
In front of an unlocked vault with a pair in its window, a text without its blanks that is what
some bytes are written as gives the key that they unwrap to. One that is not so written is a
corrupt wrapped key, and all else is an error of unwrapping: the text alone never makes it look
as if there were none. Blanks are nothing to it, those put into what a look-up wrote included.
-/
theorem recoverWrapped_exact (hl : ¬ h.vault.locked)
    (hblob : h.settings.get? c.config.wrappedKeySetting = some (.string blob))
    (hpair : h.vault.entries.get? c.config.wrapAlias = some (.keyPair secret spec))
    (hvalid : spec.IsValidAt h.machine.now) :
    (∀ key, (c.recoverWrapped h).1 = .ok (some key) ↔
      ∃ bytes, withoutBlanks blob = encode bytes ∧
        h.vault.unwrap h.machine.now ⟨c.config.wrapAlias⟩ bytes = .ok key) ∧
    ((∃ defect, (c.recoverWrapped h).1 = .error (.error (.corruptWrappedKey defect))) ↔
      ∀ bytes, withoutBlanks blob ≠ encode bytes) ∧
    ((∃ defect, (c.recoverWrapped h).1 = .error (.error (.keyVault (.unwrap defect)))) ↔
      ∃ bytes, withoutBlanks blob = encode bytes ∧
        ∀ key, h.vault.unwrap h.machine.now ⟨c.config.wrapAlias⟩ bytes ≠ .ok key) ∧
    (c.recoverWrapped h).1 ≠ .ok none ∧
    (∀ (h' : Host) (blob' : String), h'.vault = h.vault → h'.machine.now = h.machine.now →
      h'.settings.get? c.config.wrappedKeySetting = some (.string blob') →
      withoutBlanks blob' = withoutBlanks blob →
        (c.recoverWrapped h').1 = (c.recoverWrapped h).1) ∧
    ∀ (maker : Custodian) (h₀ h₁ : Host) (k : ContentKey) (written : String),
      maker.config = c.config → maker.config.validate = .ok () →
      maker.hostTier = .legacyWrapped → maker.lookUp h₀ = (.ok k, h₁) →
      k.source = .generatedLegacy →
      h₁.vault.entries.get? c.config.wrapAlias = h.vault.entries.get? c.config.wrapAlias →
      h₁.settings.get? c.config.wrappedKeySetting = some (.string written) →
      Respaced written.toList blob.toList → (c.recoverWrapped h).1 = .ok (some k.key) := by
  have hunwrap (bytes : Bytes) : h.vault.unwrap h.machine.now ⟨c.config.wrapAlias⟩ bytes =
      (Vault.unwrapped secret bytes).mapError .unwrap := Vault.unwrap_valid hl hpair hvalid
  refine ⟨fun key => ?key, recovered_corrupt_iff hl hblob hpair hvalid, ?fails,
    recovered_ne_none hl hblob hpair hvalid, ?alike, ?made⟩
  case key =>
    simp only [hunwrap, mapError_eq_ok]
    exact recovered_eq_ok_iff hl hblob hpair hvalid
  case fails =>
    rw [recovered_unwrap_iff hl hblob hpair hvalid]
    refine exists_congr fun bytes => and_congr_right fun _ => ?_
    rw [hunwrap]
    cases Vault.unwrapped secret bytes <;> simp [Except.mapError]
  case alike =>
    intro h' blob' hvault hnow hblob' hsame
    have hread : h.settings.getString? c.config.wrappedKeySetting = .ok (some blob) := by
      rw [Settings.getString?, hblob]
    have hread' : h'.settings.getString? c.config.wrappedKeySetting = .ok (some blob') := by
      rw [Settings.getString?, hblob']
    have hbytes : blobBytes blob' = blobBytes blob := by rw [blobBytes, hsame, blobBytes]
    rw [recoverWrapped_of_pair hl hread hpair,
      recoverWrapped_of_pair (hvault ▸ hl) hread' (hvault ▸ hpair), hbytes, hvault, hnow]
    cases blobBytes blob <;> rfl
  case made =>
    intro maker h₀ h₁ k written hconfig hv htier hlookUp hsource hkept hwritten hrespaced
    rw [← hconfig] at hkept hwritten
    obtain ⟨bytes, rfl, hopen⟩ := written_of_lookUp hv htier hlookUp hsource
      (hkept.trans (by rw [hconfig, hpair])) hwritten
    refine (recovered_eq_ok_iff hl hblob hpair hvalid).mpr ⟨bytes, ?_, hopen⟩
    rw [hrespaced.withoutBlanks_eq, Text.Base64.withoutBlanks_encode]

/-- A legacy custodian makes a key, and the line of its text is broken before the first symbol. -/
theorem recoverWrapped_exact_broken :
    ∃ (maker : Custodian) (h₀ h₁ : Host) (k : ContentKey) (written : String),
      maker.lookUp h₀ = (.ok k, h₁) ∧ k.source = .generatedLegacy ∧
      h₁.settings.get? maker.config.wrappedKeySetting = some (.string written) ∧
      let broken := String.ofList ('\n' :: written.toList)
      let values := h₁.settings.values.insert maker.config.wrappedKeySetting (.string broken)
      (maker.recoverWrapped { h₁ with settings := { values } }).1 = .ok (some k.key) := by
  let maker : Custodian := { platform := ⟨21⟩, config := {} }
  obtain ⟨h₀, hl, hgenerated⟩ : ∃ h₀ : Host, ¬ h₀.vault.locked ∧
      (maker.lookUp h₀).1.toOption.map ContentKey.source = some .generatedLegacy :=
    ⟨.fresh { entropy := .ofSeed 7, now := .epoch }, nofun, by decide +kernel⟩
  obtain ⟨k, hk, hsource⟩ := map_toOption_eq_some.mp hgenerated
  have hlookUp : maker.lookUp h₀ = (.ok k, (maker.lookUp h₀).2) := Prod.ext hk rfl
  generalize (maker.lookUp h₀).2 = h₁ at hlookUp
  obtain ⟨secret, spec, bytes, hmade⟩ := (lookedUp rfl rfl hlookUp).madeWrapped hsource
  have hwritten : h₁.settings.get? maker.config.wrappedKeySetting =
      some (.string (encode bytes)) := by
    rw [hmade.written, if_neg (by decide)]
  refine ⟨maker, h₀, h₁, k, encode bytes, hlookUp, hsource, hwritten, ?_⟩
  intro broken values
  have hbroken : Respaced (encode bytes).toList broken.toList := by
    rw [String.toList_ofList]
    exact .blank (by decide) (.refl _)
  have hblob : values.get? maker.config.wrappedKeySetting = some (.string broken) := by
    rw [Dict.get?_insert, if_pos rfl]
  obtain ⟨-, -, -, -, -, hsame⟩ :=
    recoverWrapped_exact (h := { h₁ with settings := { values } }) (hmade.around.locked ▸ hl) hblob
      hmade.pair (hmade.inWindow secret spec hmade.pair)
  exact hsame maker h₀ h₁ k (encode bytes) rfl rfl rfl hlookUp hsource rfl hwritten hbroken

end Custodian

end SealedStream
