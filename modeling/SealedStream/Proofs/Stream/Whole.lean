import SealedStream.Proofs.Stream.Pieces
import SealedStream.Proofs.Writes
import SealedStream.StateDirectory

/-!
# Whole streams

On a protected host a stream is a header and the sealed form of a text, and
nothing else is opened. The header of a stream to be opened is read before the
key is asked for, so its errors do not depend on the key.
-/

namespace SealedStream

theorem Tier.freshIv_around (tier : Tier) (h : Host) :
    h.SameStores (tier.freshIv h).2 ∧ h.Around (tier.freshIv h).2 := by
  cases tier <;> exact ⟨⟨rfl, rfl⟩, ⟨rfl, rfl, rfl, rfl, id⟩⟩

namespace Custody

variable {p p' : Custody} {k : ContentKey} {iv body text : Bytes}

-- ----------------------------------------------------------------------------
-- One call
-- ----------------------------------------------------------------------------

theorem decrypt_of_header_error {e : SealError} {stream : Bytes} {source : Source}
    (hp : p.isProtected) (h : Header.read (.ofBytes stream) = (.error e, source)) :
    decrypt stream p = (.error (.error e), p) := by
  simp [decrypt, Incoming.start_eq, Action.bind_apply, Action.get_apply, hp, Incoming.onSource,
    Failure.lift, Action.mapError_apply, Action.zoom_apply, h, Except.mapError]

theorem decrypt_of_resolve_error {e : Failure SealError} (hp : p.isProtected)
    (hiv : iv.length = Header.ivSize) (h : resolve p = (.error e, p')) :
    decrypt (Header.bytes iv ++ body) p = (.error e, p') := by
  simp [decrypt, Incoming.start_eq, Action.bind_apply, Action.get_apply, hp, Incoming.onSource,
    Failure.lift, Action.mapError_apply, Action.zoom_apply, Header.read_whole hiv,
    Except.mapError, Incoming.onCustody, h]

theorem decrypt_of_resolve (hp : p.isProtected) (hiv : iv.length = Header.ivSize)
    (h : resolve p = (.ok k, p')) :
    decrypt (Header.bytes iv ++ body) p =
      ((k.key.openText (k.tier.cipherParams iv) body).mapError fun e =>
        .error (.io (.custom .invalidData e.message)), p') := by
  have hread : (OpeningStream.readToEnd
      ⟨some { key := k.key, params := k.tier.cipherParams iv }, .ofBytes body⟩).1 =
        (k.key.openText (k.tier.cipherParams iv) body).mapError fun e =>
          .custom .invalidData e.message := by
    simp only [OpeningStream.readToEnd, Action.bind_apply, Action.get_apply,
      OpeningStream.available, Action.attempt_apply, OpeningStream.onSource, Action.zoom_apply,
      Opening.openRest, Source.readToEnd_ofBytes, Action.ofExcept]
    cases k.key.openText (k.tier.cipherParams iv) body <;> rfl
  simp only [decrypt, Incoming.start_eq, Action.bind_apply, Action.get_apply, hp, Incoming.onSource,
    Failure.lift, Action.mapError_apply, Action.zoom_apply, Header.read_whole hiv,
    Except.mapError, Incoming.onCustody, h, if_true, Action.pure_apply, hread]
  cases k.key.openText (k.tier.cipherParams iv) body <;> rfl

theorem encrypt_of_resolve_error {e : Failure SealError} (hp : p.isProtected)
    (h : resolve p = (.error e, p')) : encrypt text p = (.error e, p') := by
  simp [encrypt, Outgoing.start_eq, Action.bind_apply, Action.get_apply, hp, Outgoing.onCustody,
    Action.zoom_apply, h]

/-- The sealed form of a text stands behind the header with a fresh vector. -/
theorem encrypt_of_resolve (hp : p.isProtected) (h : resolve p = (.ok k, p')) (text : Bytes) :
    ∃ iv host, k.tier.freshIv p'.host = (.ok iv, host) ∧ iv.length = Header.ivSize ∧
      encrypt text p =
        (((k.key.sealText iv text).map (Header.bytes iv ++ ·)).mapError fun defect =>
          .error (.io (.custom .other (SealError.encryptionFailed defect).message)),
          { p' with host }) := by
  obtain ⟨iv, host, hiv, hlength⟩ := k.tier.freshIv_ok p'.host
  refine ⟨iv, host, hiv, hlength, ?_⟩
  obtain ⟨headed, hwrite, hheaded, hcontent⟩ := Sink.writeAll_endless Sink.endless_empty
    (Header.bytes iv)
  have hstart : Outgoing.start { custody := p, sink := {} } =
      (.ok (some { key := k.key, iv }), ⟨{ p' with host }, headed⟩) := by
    simp [Outgoing.start_eq, Action.bind_apply, Action.get_apply, hp, Outgoing.onCustody,
      Action.zoom_apply, h, onHost, hiv, Outgoing.onSink, Failure.lift, Action.mapError_apply,
      Header.write_apply hlength, hwrite, Except.mapError, Action.pure_apply]
  simp only [encrypt, hstart, Action.bind_apply, SealingStream.writeAll_sealing]
  cases hseal : k.key.sealText iv text with
  | error defect =>
    have hfinish :
        (SealingStream.finish ⟨some { key := k.key, iv, buffer := text }, headed⟩).1 = _ :=
      SealingStream.finish_of_seal_error hseal
    split
    · next hok => 
      rw [hok] at hfinish
      cases hfinish
    · next herror =>
      rw [herror] at hfinish
      cases hfinish
      rfl
  | ok body =>
    obtain ⟨stream, hfinish, hbody⟩ := SealingStream.finish_of_seal hheaded hseal
    simp [hfinish, hbody, hcontent, Except.map, Except.mapError]

/-- A key that has been resolved is cached, and nothing else of the custodian changes. -/
theorem custodian_of_resolve (h : resolve p = (.ok k, p')) :
    p'.custodian = { p.custodian with cached := some k } := by
  rw [resolve, Action.bind_apply, Action.get_apply] at h
  cases hcached : p.custodian.cached with
  | some key =>
    simp only [hcached, Action.pure_apply] at h
    cases h
    rw [← hcached]
  | none =>
    simp only [hcached, onHost, Action.bind_apply, Action.zoom_apply] at h
    split at h
    · next heq =>
      cases h
      rw [← (Prod.mk.inj heq).2]
    · cases h

theorem resolve_of_cached (h : p.custodian.cached = some k) : resolve p = (.ok k, p) := by
  simp [resolve, Action.bind_apply, Action.get_apply, h, Action.pure_apply]

theorem resolve_of_uncached (h : p.custodian.cached = none) :
    resolve p = match p.custodian.lookUp p.host with
      | (.ok k, host) => (.ok k, ⟨{ p.custodian with cached := some k }, host⟩)
      | (.error e, host) => (.error e, { p with host }) := by
  simp only [resolve, Action.bind_apply, Action.get_apply, h, onHost, Action.zoom_apply,
    Action.modify_apply]
  rcases p.custodian.lookUp p.host with ⟨_ | _, _⟩ <;> rfl

theorem fst_resolve_of_uncached (h : p.custodian.cached = none) :
    (resolve p).1 = (p.custodian.lookUp p.host).1 := by
  rw [resolve_of_uncached h]
  rcases p.custodian.lookUp p.host with ⟨_ | _, _⟩ <;> rfl

theorem lookUp_of_resolve (hcached : p.custodian.cached = none) (h : resolve p = (.ok k, p')) :
    p.custodian.lookUp p.host = (.ok k, p'.host) := by
  rw [resolve_of_uncached hcached] at h
  rcases hlookUp : p.custodian.lookUp p.host with ⟨e | k', host⟩
  all_goals
    rw [hlookUp] at h
    cases h
  rfl

-- ----------------------------------------------------------------------------
-- Sealed streams
-- ----------------------------------------------------------------------------

/-- A header, and behind it the sealed form of a text. -/
def IsSealed (key : SymmetricKey) (text stream : Bytes) : Prop :=
  ∃ iv body, iv.length = Header.ivSize ∧ key.sealText iv text = .ok body ∧
    stream = Header.bytes iv ++ body

theorem IsSealed.length {key : SymmetricKey} {text stream : Bytes} (h : IsSealed key text stream) :
    stream.length = 29 + text.length := by
  obtain ⟨iv, body, hiv, hseal, rfl⟩ := h
  have hbody : body.length = text.length + Cipher.Gcm.tagSize := by
    rw [SymmetricKey.sealText] at hseal
    split at hseal
    · cases hseal
      rw [Cipher.Gcm.length_sealed]
    · cases hseal
  simp only [Header.bytes, List.cons_append, List.length_cons, List.length_append, hiv, hbody,
    Header.ivSize, Cipher.Gcm.tagSize]
  omega

theorem IsSealed.text_le {key : SymmetricKey} {text stream : Bytes}
    (h : IsSealed key text stream) : text.length ≤ SymmetricKey.longestText := by
  obtain ⟨iv, body, -, hseal, -⟩ := h
  rw [SymmetricKey.sealText] at hseal
  split at hseal
  · next ht => exact ht
  · cases hseal

/-- The longest stream, in bytes. -/
def longestStream : Nat := 1 + Header.ivSize + SymmetricKey.longestText + Cipher.Gcm.tagSize

theorem IsSealed.length_le {key : SymmetricKey} {text stream : Bytes}
    (h : IsSealed key text stream) : stream.length ≤ longestStream := by
  have := h.text_le
  rw [h.length, longestStream, Header.ivSize, Cipher.Gcm.tagSize]
  omega

theorem decrypt_eq_ok_iff {stream : Bytes} (hp : p.isProtected) (hk : resolve p = (.ok k, p'))
    (hs : stream.length ≤ longestStream) :
    (decrypt stream p).1 = .ok text ↔ IsSealed k.key text stream := by
  cases Header.front stream with
  | empty =>
    rw [decrypt_of_header_error hp Header.read_empty]
    refine ⟨nofun, ?_⟩
    rintro ⟨iv, body, -, -, hstream⟩
    cases hstream
  | other count rest hc =>
    rw [decrypt_of_header_error hp (Header.read_other hc rest)]
    refine ⟨nofun, ?_⟩
    rintro ⟨iv, body, -, -, hstream⟩
    exact absurd (List.cons.inj hstream).1 hc
  | cut rest hr =>
    rw [decrypt_of_header_error hp (Header.read_cut hr)]
    refine ⟨nofun, ?_⟩
    rintro ⟨iv, body, hiv, -, hstream⟩
    have hrest : rest = iv ++ body := (List.cons.inj hstream).2
    rw [hrest, List.length_append, hiv] at hr
    omega
  | whole iv body hiv =>
    have hb : body.length ≤ SymmetricKey.longestText + Cipher.Gcm.tagSize := by
      simp only [longestStream, Header.bytes, List.cons_append, List.length_cons,
        List.length_append, hiv] at hs
      omega
    have hiff : k.key.openText (k.tier.cipherParams iv) body = .ok text ↔
        k.key.sealText iv text = .ok body := SymmetricKey.openText_eq_ok_iff k.tier hb
    rw [decrypt_of_resolve hp hiv hk]
    constructor
    · intro h
      refine ⟨iv, body, hiv, hiff.mp ?_, rfl⟩
      cases hopen : k.key.openText (k.tier.cipherParams iv) body with
      | error e =>
        rw [hopen] at h
        cases h
      | ok t =>
        rw [hopen] at h
        cases h
        rfl
    · rintro ⟨iv', body', hiv', hseal, hstream⟩
      obtain ⟨rfl, rfl⟩ := List.append_inj (List.cons.inj hstream).2 (hiv.trans hiv'.symm)
      rw [hiff.mpr hseal]
      rfl

-- ----------------------------------------------------------------------------
-- What a call ends in
-- ----------------------------------------------------------------------------

inductive EncryptEnd (p : Custody) (text : Bytes) :
    Except (Failure SealError) Bytes × Custody → Prop
  | failed {e : Failure SealError} {p' : Custody} :
      resolve p = (.error e, p') → EncryptEnd p text (.error e, p')
  | sealed {k : ContentKey} {p' : Custody} {host : Host} {stream : Bytes} :
      resolve p = (.ok k, p') → IsSealed k.key text stream → p'.host.SameStores host →
        p'.host.Around host → EncryptEnd p text (.ok stream, { p' with host })
  | tooLong {k : ContentKey} {p' : Custody} {host : Host} {e : Failure SealError} :
      resolve p = (.ok k, p') → SymmetricKey.longestText < text.length →
        p'.host.SameStores host → p'.host.Around host →
          EncryptEnd p text (.error e, { p' with host })

theorem encrypt_end (hp : p.isProtected) (text : Bytes) : EncryptEnd p text (encrypt text p) := by
  rcases hresolve : resolve p with ⟨e | k, p'⟩
  · rw [encrypt_of_resolve_error hp hresolve]
    exact .failed hresolve
  · obtain ⟨iv, host, hfresh, hiv, hencrypt⟩ := encrypt_of_resolve hp hresolve text
    obtain ⟨same, around⟩ := k.tier.freshIv_around p'.host
    rw [hfresh] at same around
    rw [hencrypt]
    by_cases ht : text.length ≤ SymmetricKey.longestText
    · obtain ⟨body, hseal, -⟩ := k.key.sealText_ok iv ht
      rw [hseal]
      exact .sealed hresolve ⟨iv, body, hiv, hseal, rfl⟩ same around
    · rw [SymmetricKey.sealText, if_neg ht]
      exact .tooLong hresolve (Nat.lt_of_not_le ht) same around

theorem encrypt_ok (hp : p.isProtected) (hk : resolve p = (.ok k, p')) (text : Bytes)
    (ht : text.length ≤ SymmetricKey.longestText) :
    ∃ stream, (encrypt text p).1 = .ok stream := by
  have hend := encrypt_end hp text
  generalize encrypt text p = outcome at hend ⊢
  cases hend with
  | failed hfailed =>
    rw [hk] at hfailed
    cases hfailed
  | sealed _ _ _ _ => exact ⟨_, rfl⟩
  | tooLong _ hlong _ _ => exact absurd ht (Nat.not_le.mpr hlong)

theorem sealed_of_encrypt {text stream : Bytes} (hp : p.isProtected)
    (h : (encrypt text p).1 = .ok stream) :
    ∃ k, (resolve p).1 = .ok k ∧ IsSealed k.key text stream := by
  have hend := encrypt_end hp text
  generalize encrypt text p = outcome at hend h
  cases hend with
  | failed _ => cases h
  | sealed hk hsealed _ _ =>
    cases h
    exact ⟨_, by rw [hk], hsealed⟩
  | tooLong _ _ _ _ => cases h

inductive DecryptEnd (p : Custody) (stream : Bytes) :
    Except (Failure SealError) Bytes × Custody → Prop
  | unheaded {e : Failure SealError} :
      ¬ Header.Begins stream → DecryptEnd p stream (.error e, p)
  | failed {e : Failure SealError} {p' : Custody} :
      Header.Begins stream → resolve p = (.error e, p') → DecryptEnd p stream (.error e, p')
  | answered {k : ContentKey} {p' : Custody} {answer : Except (Failure SealError) Bytes} :
      Header.Begins stream → resolve p = (.ok k, p') →
        (stream.length ≤ longestStream → ∀ text, answer = .ok text ↔ IsSealed k.key text stream) →
          DecryptEnd p stream (answer, p')

theorem IsSealed.begins {key : SymmetricKey} {text stream : Bytes}
    (h : IsSealed key text stream) : Header.Begins stream := by
  obtain ⟨iv, body, hiv, -, rfl⟩ := h
  exact Header.begins_whole hiv body

theorem decrypt_end (hp : p.isProtected) (stream : Bytes) :
    DecryptEnd p stream (decrypt stream p) := by
  by_cases hb : Header.Begins stream
  · obtain ⟨iv, body, hiv, hstream⟩ := Header.whole_of_begins hb
    rcases hresolve : resolve p with ⟨e | k, p'⟩
    · have hdecrypt : decrypt stream p = (.error e, p') :=
        hstream ▸ decrypt_of_resolve_error hp hiv hresolve
      rw [hdecrypt]
      exact .failed hb hresolve
    · have hstate : (decrypt stream p).2 = p' := by
        rw [hstream, decrypt_of_resolve hp hiv hresolve]
      rw [← Prod.mk.eta (p := decrypt stream p), hstate]
      exact .answered hb hresolve fun hs text => decrypt_eq_ok_iff hp hresolve hs
  · obtain ⟨e, source, hread⟩ := Header.read_of_not_begins hb
    rw [decrypt_of_header_error hp hread]
    exact .unheaded hb

/-- Where the content key can be had, the streams that open are the headed sealed texts, every
other stream is refused for what its front or its body shows, and a sealed text comes back. -/
theorem decrypt_exactly_sealed {p p' : Custody} {k : ContentKey} (hp : p.isProtected)
    (hk : resolve p = (.ok k, p')) :
    (∀ stream text, stream.length ≤ longestStream →
      ((decrypt stream p).1 = .ok text ↔
        ∃ iv body, iv.length = 12 ∧ k.key.sealText iv text = .ok body ∧
          stream = 12 :: iv ++ body)) ∧
    (∀ count rest, count ≠ 12 →
      (decrypt (count :: rest) p).1 = .error (.error (.invalidIvLength 12 count.toNat))) ∧
    (∀ stream, stream = [] ∨ (stream.head? = some 12 ∧ stream.length < 13) →
      (decrypt stream p).1 = .error (.error .truncatedHeader)) ∧
    (∀ iv body, iv.length = 12 → body.length < 16 ∨ ¬ k.key.Authentic iv body →
      (decrypt (12 :: iv ++ body) p).1 =
        .error (.error (.io (.custom .invalidData (SealError.decryptionFailed
          (if body.length < 16 then .tooShort else .notAuthentic)).message)))) ∧
    (∀ text, text.length ≤ SymmetricKey.longestText →
      ∃ stream p₂, encrypt text p = (.ok stream, p₂) ∧ stream.length = 29 + text.length ∧
        (decrypt stream p₂).1 = .ok text) := by
  refine ⟨fun stream text hs => decrypt_eq_ok_iff hp hk hs, fun count rest hc => ?_,
    fun stream hs => ?_, fun iv body hiv hbody => ?_, fun text ht => ?_⟩
  · rw [decrypt_of_header_error hp (Header.read_other hc rest)]
    rfl
  · obtain rfl | ⟨hhead, hlength⟩ := hs
    · rw [decrypt_of_header_error hp Header.read_empty]
    · obtain ⟨rest, rfl⟩ := List.head?_eq_some_iff.mp hhead
      have hrest : rest.length < Header.ivSize := Nat.lt_of_succ_lt_succ hlength
      rw [decrypt_of_header_error hp (Header.read_cut hrest)]
  · have hopen : k.key.openText (k.tier.cipherParams iv) body =
        .error (.decryptionFailed (if body.length < 16 then .tooShort else .notAuthentic)) := by
      by_cases hshort : body.length < 16
      · rw [if_pos hshort, SymmetricKey.openText_of_short k.tier hshort]
      · rw [if_neg hshort, SymmetricKey.openText_of_not_authentic k.tier (Nat.not_lt.mp hshort)
          (hbody.resolve_left hshort)]
    have hstream : (12 :: iv ++ body : Bytes) = Header.bytes iv ++ body := rfl
    rw [hstream, decrypt_of_resolve hp hiv hk, hopen]
    rfl
  · obtain ⟨iv, host, -, hiv, hencrypt⟩ := encrypt_of_resolve hp hk text
    obtain ⟨body, hseal, -⟩ := k.key.sealText_ok iv ht
    rw [hseal] at hencrypt
    have hsealed : IsSealed k.key text (Header.bytes iv ++ body) := ⟨iv, body, hiv, hseal, rfl⟩
    have hcustodian := custodian_of_resolve hk
    have hp₂ : ({ p' with host } : Custody).isProtected := by
      rw [isProtected, hcustodian]
      exact hp
    have hk₂ : resolve { p' with host } = (.ok k, { p' with host }) :=
      resolve_of_cached (by rw [hcustodian])
    exact ⟨_, _, hencrypt, hsealed.length,
      (decrypt_eq_ok_iff hp₂ hk₂ hsealed.length_le).mpr hsealed⟩

/-- On a modern host with nothing stored, a key is generated and a text comes back. -/
theorem decrypt_exactly_sealed_fresh :
    ∃ p : Custody, p.isProtected ∧ p.host.vault.size = 0 ∧ ∃ stream p₂,
      encrypt [1, 2, 3] p = (.ok stream, p₂) ∧ stream.length = 32 ∧
        (decrypt stream p₂).1 = .ok [1, 2, 3] := by
  let p : Custody :=
    ⟨{ platform := ⟨23⟩, config := {} }, .fresh { entropy := .ofSeed 0, now := .epoch }⟩
  refine ⟨p, rfl, rfl, ?_⟩
  exact (decrypt_exactly_sealed (p := p) rfl rfl).2.2.2.2 [1, 2, 3] (by decide)

end Custody

end SealedStream
