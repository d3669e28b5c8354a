import SealedStream.Proofs.Holdings

/-!
# What unwraps to a key

A wrapped key is a public key, a nonce and a box, one behind the other. A text is
`SealedFor` a secret key in bytes that have these parts, where the box is the sealed
form of the text under what the secret key and that public key agree on. Bytes in
which no key is sealed do not unwrap, and the first defect is the one named.
-/

namespace SealedStream

namespace Vault

/-- The bytes are a public key, a nonce, and a box in which the text is sealed under what the
secret key and that public key agree on. -/
def SealedFor (secret : SecretKey) (text bytes : Bytes) : Prop :=
  ∃ ephemeral nonce, ephemeral.length = 32 ∧ nonce.length = 24 ∧
    bytes = ephemeral ++ nonce ++
      Cipher.Box.sealed (Cipher.Box.agreedKey secret.bytes ephemeral) nonce text

variable {secret : SecretKey} {bytes text : Bytes}

-- ----------------------------------------------------------------------------
-- Parts
-- ----------------------------------------------------------------------------

namespace Wrapped

theorem ofBytes?_eq_none : ofBytes? bytes = none ↔ bytes.length < 72 := by
  have hleast : leastSize = 72 := rfl
  by_cases h : bytes.length < 72 <;> simp [ofBytes?, hleast, h]

/-- Bytes that are long enough have each part in its full length. -/
theorem ofBytes?_eq_some_iff {w : Wrapped} :
    ofBytes? bytes = some w ↔ bytes = w.bytes ∧ w.ephemeral.length = 32 ∧ w.nonce.length = 24 ∧
      16 ≤ w.box.length := by
  constructor
  · intro h
    rw [ofBytes?] at h
    split at h
    · cases h
    · next hsize =>
      cases h
      have hleast : 72 ≤ bytes.length := Nat.le_of_not_lt hsize
      refine ⟨?_, ?_, ?_, ?_⟩
      · simp only [Wrapped.bytes, List.append_assoc, List.take_append_drop]
      · simp only [List.length_take, Cipher.Box.publicKeySize]
        omega
      · simp only [List.length_take, List.length_drop, Cipher.Box.publicKeySize,
          Cipher.Box.nonceSize]
        omega
      · simp only [List.length_drop, Cipher.Box.publicKeySize, Cipher.Box.nonceSize]
        omega
  · rintro ⟨rfl, hephemeral, hnonce, hbox⟩
    exact ofBytes?_bytes hephemeral hnonce hbox

end Wrapped

theorem sealedFor_iff : SealedFor secret text bytes ↔ ∃ w, Wrapped.ofBytes? bytes = some w ∧
    Cipher.Box.opened (Cipher.Box.agreedKey secret.bytes w.ephemeral) w.nonce w.box =
      some text := by
  constructor
  · rintro ⟨ephemeral, nonce, hephemeral, hnonce, rfl⟩
    have hbox : 16 ≤ (Cipher.Box.sealed (Cipher.Box.agreedKey secret.bytes ephemeral) nonce
        text).length := by
      rw [Cipher.Box.length_sealed]
      exact Nat.le_add_right ..
    exact ⟨⟨ephemeral, nonce, _⟩,
      Wrapped.ofBytes?_eq_some_iff.mpr ⟨rfl, hephemeral, hnonce, hbox⟩,
      Cipher.Box.opened_sealed ..⟩
  · rintro ⟨w, hparts, hopen⟩
    obtain ⟨rfl, hephemeral, hnonce, -⟩ := Wrapped.ofBytes?_eq_some_iff.mp hparts
    refine ⟨w.ephemeral, w.nonce, hephemeral, hnonce, ?_⟩
    rw [Wrapped.bytes, ← Cipher.Box.opened_eq_some_iff.mp hopen]

theorem SealedFor.length_le (h : SealedFor secret text bytes) : 72 ≤ bytes.length := by
  obtain ⟨w, hparts, -⟩ := sealedFor_iff.mp h
  refine Nat.le_of_not_lt fun hsize => ?_
  rw [Wrapped.ofBytes?_eq_none.mpr hsize] at hparts
  cases hparts

/-- A key is wrapped for a public key in bytes that are sealed for its secret. -/
theorem sealedFor_wrapped (ephemeral : SecretKey) {nonce : Bytes} (hnonce : nonce.length = 24)
    (key : SymmetricKey) :
    SealedFor secret key.bytes (wrapped ephemeral nonce secret.publicKey key).bytes := by
  refine ⟨ephemeral.publicKey, nonce, Cipher.X25519.length_publicKey _, hnonce, ?_⟩
  simp only [Wrapped.bytes, wrapped, SecretKey.publicKey]
  rw [Cipher.Box.agreedKey_publicKey]

-- ----------------------------------------------------------------------------
-- Opening
-- ----------------------------------------------------------------------------

theorem unwrapped_of_sealedFor (h : SealedFor secret text bytes) :
    unwrapped secret bytes = (SymmetricKey.ofBytes text).mapError .keyLength := by
  obtain ⟨w, hparts, hopen⟩ := sealedFor_iff.mp h
  simp only [unwrapped, hparts, hopen]

/-- A sealed text of another length than a key's does not unwrap to one. -/
theorem unwrapped_of_length (h : SealedFor secret text bytes)
    (hlength : ¬ (text.length = 16 ∨ text.length = 32)) :
    unwrapped secret bytes = .error (.keyLength text.length) := by
  rw [unwrapped_of_sealedFor h, SymmetricKey.ofBytes, dif_neg hlength]
  rfl

theorem unwrapped_of_not_sealedFor (h : ∀ text, ¬ SealedFor secret text bytes) :
    unwrapped secret bytes =
      .error (if bytes.length < 72 then .tooShort else .notAuthentic) := by
  cases hparts : Wrapped.ofBytes? bytes with
  | none =>
    rw [if_pos (Wrapped.ofBytes?_eq_none.mp hparts)]
    simp only [unwrapped, hparts]
  | some w =>
    have hsize : ¬ bytes.length < 72 := by
      rw [← Wrapped.ofBytes?_eq_none, hparts]
      exact Option.some_ne_none w
    have hclosed : Cipher.Box.opened (Cipher.Box.agreedKey secret.bytes w.ephemeral) w.nonce
        w.box = none := by
      rw [Option.eq_none_iff_forall_ne_some]
      exact fun text hopen => h text (sealedFor_iff.mpr ⟨w, hparts, hopen⟩)
    rw [if_neg hsize]
    simp only [unwrapped, hparts, hclosed]

/-- Only what is sealed for a secret key unwraps with it. -/
theorem unwrapped_eq_ok_iff {key : SymmetricKey} :
    unwrapped secret bytes = .ok key ↔ SealedFor secret key.bytes bytes := by
  constructor
  · intro hunwrap
    by_cases h : ∃ text, SealedFor secret text bytes
    · obtain ⟨text, htext⟩ := h
      rw [unwrapped_of_sealedFor htext, mapError_eq_ok] at hunwrap
      rwa [SymmetricKey.bytes_of_ofBytes hunwrap]
    · rw [unwrapped_of_not_sealedFor (not_exists.mp h)] at hunwrap
      cases hunwrap
  · intro hkey
    rw [unwrapped_of_sealedFor hkey, SymmetricKey.ofBytes_bytes]
    rfl

/-- There is a key to unwrap, or a defect that keeps every sealed text from being one. -/
theorem unwrapped_eq_error_iff : (∃ defect, unwrapped secret bytes = .error defect) ↔
    ∀ text, SealedFor secret text bytes → ¬ (text.length = 16 ∨ text.length = 32) := by
  constructor
  · rintro ⟨defect, hdefect⟩ text htext hlength
    have hkey : unwrapped secret bytes = .ok ⟨text, hlength⟩ := unwrapped_eq_ok_iff.mpr htext
    rw [hdefect] at hkey
    cases hkey
  · intro h
    cases hunwrap : unwrapped secret bytes with
    | error defect => exact ⟨defect, rfl⟩
    | ok key => exact absurd key.length_bytes (h key.bytes (unwrapped_eq_ok_iff.mp hunwrap))

-- ----------------------------------------------------------------------------
-- Requests
-- ----------------------------------------------------------------------------

variable {v : Vault} {now : Time} {keyName : String} {spec : KeyPairSpec}

theorem unwrap_noPair (hl : ¬ v.locked)
    (h : ∀ secret spec, v.entries.get? keyName ≠ some (.keyPair secret spec)) :
    v.unwrap now ⟨keyName⟩ bytes = .error (.keyNotFound keyName) := by
  rw [unwrap, ensureUnlocked, if_neg hl, ok_bind]
  split
  · next secret spec hpair => exact absurd hpair (h secret spec)
  · rfl

theorem unwrap_expired (hl : ¬ v.locked)
    (hpair : v.entries.get? keyName = some (.keyPair secret spec)) (h : ¬ spec.IsValidAt now) :
    v.unwrap now ⟨keyName⟩ bytes = .error (.keyExpired keyName) := by
  rw [unwrap_keyPair hpair, if_neg hl, if_neg h]

theorem unwrap_valid (hl : ¬ v.locked)
    (hpair : v.entries.get? keyName = some (.keyPair secret spec)) (h : spec.IsValidAt now) :
    v.unwrap now ⟨keyName⟩ bytes = (unwrapped secret bytes).mapError .unwrap := by
  rw [unwrap_keyPair hpair, if_neg hl, if_pos h]

/--
An unlocked vault misses a pair where its alias has none, and calls it expired outside its
window. Within it, what is sealed for the pair's secret key and is as long as a key is the answer,
and all else is an error of unwrapping. Bytes of any length are either too short or have all parts.
-/
theorem unwrap_exact (hl : ¬ v.locked) (now : Time) (keyName : String) (bytes : Bytes) :
    (v.unwrap now ⟨keyName⟩ bytes = .error (.keyNotFound keyName) ↔
      ∀ secret spec, v.entries.get? keyName ≠ some (.keyPair secret spec)) ∧
    (∀ secret spec, v.entries.get? keyName = some (.keyPair secret spec) →
      (v.unwrap now ⟨keyName⟩ bytes = .error (.keyExpired keyName) ↔
        ¬ (spec.notBefore ≤ now ∧ now ≤ spec.notAfter)) ∧
      (spec.notBefore ≤ now ∧ now ≤ spec.notAfter →
        (∀ text, (∃ key, v.unwrap now ⟨keyName⟩ bytes = .ok key ∧ key.bytes = text) ↔
          SealedFor secret text bytes ∧ (text.length = 16 ∨ text.length = 32)) ∧
        ((∃ defect, v.unwrap now ⟨keyName⟩ bytes = .error (.unwrap defect)) ↔
          ∀ text, SealedFor secret text bytes → ¬ (text.length = 16 ∨ text.length = 32)) ∧
        ∀ text, SealedFor secret text bytes → ¬ (text.length = 16 ∨ text.length = 32) →
          v.unwrap now ⟨keyName⟩ bytes = .error (.unwrap (.keyLength text.length)))) ∧
    (Wrapped.ofBytes? bytes = none ↔ bytes.length < 72) ∧
    ∀ w, Wrapped.ofBytes? bytes = some w → bytes = w.bytes ∧ w.ephemeral.length = 32 ∧
      w.nonce.length = 24 ∧ 16 ≤ w.box.length := by
  refine ⟨⟨fun hmissing secret spec hpair => ?missing, unwrap_noPair hl⟩,
    fun secret spec hpair => ⟨⟨fun hexpired hvalid => ?expired, unwrap_expired hl hpair⟩,
      fun hvalid => ⟨fun text => ?opens, ?fails, fun text htext hlength => ?length⟩⟩,
    Wrapped.ofBytes?_eq_none, fun w => Wrapped.ofBytes?_eq_some_iff.mp⟩
  case missing =>
    by_cases hvalid : spec.IsValidAt now
    · rw [unwrap_valid hl hpair hvalid, mapError_eq_error] at hmissing
      obtain ⟨defect, -, ⟨⟩⟩ := hmissing
    · rw [unwrap_expired hl hpair hvalid] at hmissing
      cases hmissing
  case expired =>
    rw [unwrap_valid hl hpair hvalid, mapError_eq_error] at hexpired
    obtain ⟨defect, -, ⟨⟩⟩ := hexpired
  case opens =>
    simp only [unwrap_valid hl hpair hvalid, mapError_eq_ok, unwrapped_eq_ok_iff]
    constructor
    · rintro ⟨key, hkey, rfl⟩
      exact ⟨hkey, key.length_bytes⟩
    · rintro ⟨htext, hlength⟩
      exact ⟨⟨text, hlength⟩, htext, rfl⟩
  case fails =>
    simp only [unwrap_valid hl hpair hvalid, mapError_eq_error, ← unwrapped_eq_error_iff,
      VaultError.unwrap.injEq, exists_eq_right]
  case length =>
    rw [unwrap_valid hl hpair hvalid, unwrapped_of_length htext hlength]
    rfl

/-- A key wrapped for a pair opens at the end of the pair's window, and neither later, nor under
another alias, nor without all of its bytes. -/
theorem unwrap_exact_wrapped :
    let secret : SecretKey := ⟨List.replicate 32 7, rfl⟩
    let v : Vault := { entries := Dict.empty.insert "pair" (.keyPair secret ⟨256, ⟨0⟩, ⟨10⟩⟩) }
    let key : SymmetricKey := ⟨List.replicate 16 5, .inl rfl⟩
    let bytes :=
      (wrapped ⟨List.replicate 32 1, rfl⟩ (List.replicate 24 2) secret.publicKey key).bytes
    ¬ v.locked ∧ v.unwrap ⟨10⟩ ⟨"pair"⟩ bytes = .ok key ∧
      v.unwrap ⟨11⟩ ⟨"pair"⟩ bytes = .error (.keyExpired "pair") ∧
      v.unwrap ⟨10⟩ ⟨"other"⟩ bytes = .error (.keyNotFound "other") ∧
      ∃ defect, v.unwrap ⟨10⟩ ⟨"pair"⟩ (bytes.take 71) = .error (.unwrap defect) := by
  intro secret v key bytes
  have hl : ¬ v.locked := Bool.false_ne_true
  have hentry (name : String) : v.entries.get? name =
      if name = "pair" then some (.keyPair secret ⟨256, ⟨0⟩, ⟨10⟩⟩) else none :=
    Dict.get?_insert ..
  have hpair : v.entries.get? "pair" = some (.keyPair secret ⟨256, ⟨0⟩, ⟨10⟩⟩) := hentry "pair"
  have hkey : SealedFor secret key.bytes bytes := sealedFor_wrapped _ rfl key
  refine ⟨hl, ?_, ?_, ?_, ?_⟩
  · obtain ⟨hopens, -⟩ :=
      ((unwrap_exact hl ⟨10⟩ "pair" bytes).2.1 secret _ hpair).2 ⟨by decide, by decide⟩
    obtain ⟨opened, hopened, hsame⟩ := (hopens key.bytes).mpr ⟨hkey, .inl rfl⟩
    rw [hopened]
    cases opened
    cases hsame
    rfl
  · exact ((unwrap_exact hl ⟨11⟩ "pair" bytes).2.1 secret _ hpair).1.mpr (by decide)
  · refine (unwrap_exact hl ⟨10⟩ "other" bytes).1.mpr fun _ _ hother => ?_
    rw [hentry "other"] at hother
    cases hother
  · obtain ⟨-, hfails, -⟩ :=
      ((unwrap_exact hl ⟨10⟩ "pair" (bytes.take 71)).2.1 secret _ hpair).2 ⟨by decide, by decide⟩
    refine hfails.mpr fun text htext => absurd htext.length_le ?_
    rw [List.length_take]
    omega

end Vault

end SealedStream
