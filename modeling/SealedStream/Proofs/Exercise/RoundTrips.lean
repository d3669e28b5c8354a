import SealedStream.Exercise.Workload
import SealedStream.Proofs.Epochs
import SealedStream.Proofs.Stream.Keyless

/-!
# Round trips, step by step

A round trip resolves the key, seals under it, and opens what was sealed; between two of these
steps others may take theirs. Whoever takes the first step resolves the key for all. From then
on it stays in the cache, and no step of another comes between a text and its return.
-/

namespace SealedStream

open SealedStream.Exercise

namespace Custody

variable {p p' : Custody} {k : ContentKey}

-- ----------------------------------------------------------------------------
-- The steps of a round trip
-- ----------------------------------------------------------------------------

/-- A stream that is begun has its key resolved, and is begun under it. -/
theorem start_of_resolve (hp : p.isProtected) (h : resolve p = (.ok k, p')) (sink : Sink) :
    Outgoing.start ⟨p, sink⟩ =
      ((Workload.beginUnder k ⟨p', sink⟩).1.map some, (Workload.beginUnder k ⟨p', sink⟩).2) := by
  simp only [Outgoing.start_eq, Workload.beginUnder_eq, Action.bind_apply, Action.get_apply, hp,
    if_true, Outgoing.onCustody, Action.zoom_apply, h]
  rcases (onHost k.tier.freshIv p') with ⟨_ | iv, q⟩
  · rfl
  · simp only
    rcases Outgoing.onSink (Header.write iv) ⟨q, sink⟩ with ⟨_ | _, _⟩ <;> rfl

theorem encrypt_eq_sealUnder (hp : p.isProtected) (h : resolve p = (.ok k, p')) (text : Bytes) :
    encrypt text p = Workload.sealUnder k text p' := by
  rw [encrypt, Workload.sealUnder, start_of_resolve hp h]
  rcases Workload.beginUnder k ⟨p', {}⟩ with ⟨_ | _, _⟩ <;> rfl

end Custody

namespace Exercise.Workload

open Custody (resolve encrypt decrypt)

variable {p p' : Custody} {k : ContentKey} {requests : List Request} {text : Bytes}

/-- A step that fails with an error settles its round trip. -/
def settled : Except (Failure SealError) Progress × Custody →
    Except (Failure SealError) Progress × Custody
  | (.error (.error _), p) => (.ok (.judged false), p)
  | outcome => outcome

theorem orFailed_apply (x : CustodyAction Progress) (p : Custody) : orFailed x p = settled (x p) := by
  simp only [orFailed, Action.bind_apply, Action.attempt_apply]
  rcases x p with ⟨(_ | _) | _, _⟩ <;> rfl

section

variable (text : Bytes) (p : Custody)

theorem next_idle (hp : p.isProtected) :
    Progress.idle.next text p = ((resolve p).1.map .keyed, (resolve p).2) := by
  simp only [Progress.next, Action.bind_apply, Action.get_apply, hp, if_true]
  rcases resolve p with ⟨_ | _, _⟩ <;> rfl

theorem next_idle_unprotected (hp : ¬ p.isProtected) :
    Progress.idle.next text p = (.ok (.sealed text), p) := by
  simp only [Progress.next, Action.bind_apply, Action.get_apply, if_neg hp]
  rfl

theorem next_keyed (key : ContentKey) :
    (Progress.keyed key).next text p =
      ((sealUnder key text p).1.map .sealed, (sealUnder key text p).2) := by
  simp only [Progress.next, Action.bind_apply]
  rcases sealUnder key text p with ⟨_ | _, _⟩ <;> rfl

theorem next_sealed (stream : Bytes) :
    (Progress.sealed stream).next text p =
      ((decrypt stream p).1.map fun opened => .judged (opened = text), (decrypt stream p).2) := by
  simp only [Progress.next, Action.bind_apply]
  rcases decrypt stream p with ⟨_ | _, _⟩ <;> rfl

theorem next_judged (succeeded : Bool) :
    (Progress.judged succeeded).next text p = (.ok (.judged succeeded), p) := rfl

end

/-- The text has come back, as far as that is known. -/
def Progress.succeeded : Progress → Bool
  | .judged succeeded => succeeded
  | _ => false

/-- Without others, the steps are a round trip. -/
theorem roundTrip_eq_steps (text : Bytes) : roundTrip text = (do
    let first ← orFailed (Progress.idle.next text)
    let second ← orFailed (first.next text)
    let third ← orFailed (second.next text)
    return third.succeeded) := by
  funext p
  simp only [roundTrip, Action.bind_apply, Action.attempt_apply, orFailed_apply]
  by_cases hp : p.isProtected
  · rw [next_idle text p hp]
    rcases hresolve : resolve p with ⟨(e | why) | k, p'⟩
    · rw [Custody.encrypt_of_resolve_error hp hresolve]
      rfl
    · rw [Custody.encrypt_of_resolve_error hp hresolve]
      rfl
    · rw [Custody.encrypt_eq_sealUnder hp hresolve]
      simp only [Except.map, next_keyed, settled]
      rcases sealUnder k text p' with ⟨(e | why) | stream, q⟩
      · rfl
      · rfl
      · simp only [Except.map, next_sealed]
        rcases decrypt stream q with ⟨(e | why) | opened, r⟩ <;> rfl
  · rw [next_idle_unprotected text p hp, Custody.encrypt_unprotected hp]
    simp [settled, next_sealed, next_judged, Custody.decrypt_unprotected hp, Except.map,
      Progress.succeeded]

-- ----------------------------------------------------------------------------
-- Under one key
-- ----------------------------------------------------------------------------

/-- The key can be had, and the vault has been asked so much by then. -/
structure Resolves (k : ContentKey) (requests : List Request) (p : Custody) : Prop where
  isProtected : p.isProtected
  resolve : ∃ p', resolve p = (.ok k, p') ∧ p'.host.requests = requests

/-- The key has been had. -/
structure Keyed (k : ContentKey) (requests : List Request) (p : Custody) : Prop where
  isProtected : p.isProtected
  cached : p.custodian.cached = some k
  requests : p.host.requests = requests

theorem Keyed.resolves (h : Keyed k requests p) : Resolves k requests p :=
  ⟨h.isProtected, p, Custody.resolve_of_cached h.cached, h.requests⟩

theorem keyed_of_resolve (hp : p.isProtected) (h : resolve p = (.ok k, p')) :
    Keyed k p'.host.requests p' where
  isProtected := by
    rw [Custody.isProtected, Custody.custodian_of_resolve h]
    exact hp
  cached := by rw [Custody.custodian_of_resolve h]
  requests := rfl

theorem requests_freshIv (tier : Tier) (host : Host) :
    (tier.freshIv host).2.requests = host.requests := by
  cases tier <;> rfl

/-- What is sealed under the key is a sealed stream, unless it is too long for one. -/
theorem Keyed.sealUnder (h : Keyed k requests p) (text : Bytes) :
    ∃ answer p', sealUnder k text p = (answer, p') ∧ Keyed k requests p' ∧
      if text.length ≤ SymmetricKey.longestText then
        ∃ stream, answer = .ok stream ∧ Custody.IsSealed k.key text stream
      else ∃ e, answer = .error (.error e) := by
  have hresolve := Custody.resolve_of_cached h.cached
  obtain ⟨iv, host, hfresh, hiv, hencrypt⟩ := Custody.encrypt_of_resolve h.isProtected hresolve text
  have hrequests := requests_freshIv k.tier p.host
  rw [hfresh] at hrequests
  rw [Custody.encrypt_eq_sealUnder h.isProtected hresolve] at hencrypt
  refine ⟨_, _, hencrypt, ⟨h.isProtected, h.cached, hrequests.trans h.requests⟩, ?_⟩
  split
  · next htext =>
    obtain ⟨body, hseal, -⟩ := k.key.sealText_ok iv htext
    exact ⟨_, by rw [hseal]; rfl, iv, body, hiv, hseal, rfl⟩
  · next htext =>
    rw [SymmetricKey.sealText, if_neg htext]
    exact ⟨_, rfl⟩

theorem Keyed.decrypt {stream : Bytes} (h : Keyed k requests p)
    (hs : Custody.IsSealed k.key text stream) : decrypt stream p = (.ok text, p) := by
  have hresolve := Custody.resolve_of_cached h.cached
  have hopen := (Custody.decrypt_eq_ok_iff h.isProtected hresolve hs.length_le).mpr hs
  obtain ⟨iv, body, hiv, -, rfl⟩ := hs
  rw [Custody.decrypt_of_resolve h.isProtected hiv hresolve] at hopen ⊢
  exact Prod.ext hopen rfl

/-- How far a round trip may have come under a key. Nothing but the length of its text tells how it
is judged. -/
inductive Progress.Sound (k : ContentKey) (text : Bytes) : Progress → Prop
  | idle : Sound k text .idle
  | keyed : Sound k text (.keyed k)
  | sealed {stream : Bytes} : Custody.IsSealed k.key text stream → Sound k text (.sealed stream)
  | judged : Sound k text (.judged (text.length ≤ SymmetricKey.longestText))

/-- How many steps it takes at most until a round trip is counted. -/
def Progress.left : Progress → Nat
  | .idle => 4
  | .keyed _ => 3
  | .sealed _ => 2
  | .judged _ => 1

theorem Progress.left_pos (progress : Progress) : 0 < progress.left := by
  cases progress <;> simp [Progress.left]

theorem Progress.two_le_left (progress : Progress)
    (h : ∀ succeeded, progress ≠ .judged succeeded) : 2 ≤ progress.left := by
  cases progress with
  | judged succeeded => exact absurd rfl (h succeeded)
  | _ => simp [Progress.left]

/-- Each step brings a round trip on, and leaves the key in the cache. -/
theorem orFailed_next {progress : Progress} (hs : progress.Sound k text)
    (hp : Keyed k requests p ∨ Resolves k requests p ∧ progress = .idle) :
    ∃ progress' p', orFailed (progress.next text) p = (.ok progress', p') ∧
      progress'.Sound k text ∧ Keyed k requests p' ∧
        progress'.left ≤ max 1 (progress.left - 1) := by
  rw [orFailed_apply]
  have hresolves : Resolves k requests p := hp.elim Keyed.resolves And.left
  have hkeyed (hne : progress ≠ .idle) : Keyed k requests p := hp.resolve_right fun h => hne h.2
  cases hs with
  | idle =>
    obtain ⟨hprotected, p', hresolve, hrequests⟩ := hresolves
    have hp' : Keyed k requests p' := hrequests ▸ keyed_of_resolve hprotected hresolve
    refine ⟨.keyed k, p', ?_, .keyed, hp', by simp [Progress.left]⟩
    rw [next_idle text p hprotected, hresolve]
    rfl
  | keyed =>
    obtain ⟨answer, p', hseal, hp', hanswer⟩ := (hkeyed nofun).sealUnder text
    rw [next_keyed, hseal]
    split at hanswer
    · obtain ⟨stream, rfl, hstream⟩ := hanswer
      exact ⟨.sealed stream, p', rfl, .sealed hstream, hp', by simp [Progress.left]⟩
    · next htext =>
      obtain ⟨e, rfl⟩ := hanswer
      refine ⟨.judged false, p', rfl, ?_, hp', by simp [Progress.left]⟩
      rw [← decide_eq_false htext]
      exact .judged
  | sealed hstream =>
    refine ⟨.judged true, p, ?_, ?_, hkeyed nofun, by simp [Progress.left]⟩
    · rw [next_sealed, (hkeyed nofun).decrypt hstream]
      simp [Except.map, settled]
    · rw [← decide_eq_true hstream.text_le]
      exact .judged
  | judged => exact ⟨_, p, rfl, .judged, hkeyed nofun, Nat.le_max_left ..⟩

theorem judged_of_left {progress : Progress} (hs : progress.Sound k text) (h : progress.left ≤ 1) :
    progress = .judged (text.length ≤ SymmetricKey.longestText) := by
  cases hs with
  | judged => rfl
  | _ => simp [Progress.left] at h

/-- A text comes back unless it is too long to be sealed. -/
theorem roundTrip_ok (h : Resolves k requests p) (text : Bytes) :
    ∃ p', roundTrip text p = (.ok (text.length ≤ SymmetricKey.longestText), p') ∧
      Keyed k requests p' := by
  have hs₀ : Progress.idle.Sound k text := .idle
  obtain ⟨first, p₁, hfirst, hs₁, hp₁, hleft₁⟩ := orFailed_next hs₀ (.inr ⟨h, rfl⟩)
  obtain ⟨second, p₂, hsecond, hs₂, hp₂, hleft₂⟩ := orFailed_next hs₁ (.inl hp₁)
  obtain ⟨third, p₃, hthird, hs₃, hp₃, hleft₃⟩ := orFailed_next hs₂ (.inl hp₂)
  have hidle : Progress.idle.left = 4 := rfl
  obtain rfl := judged_of_left hs₃ (by omega)
  refine ⟨p₃, ?_, hp₃⟩
  rw [roundTrip_eq_steps]
  simp only [Action.bind_apply, hfirst, hsecond, hthird]
  rfl

end Exercise.Workload

-- ----------------------------------------------------------------------------
-- Healthy hosts
-- ----------------------------------------------------------------------------

namespace Custody

variable {p p' : Custody} {k : ContentKey}

/-- A custodian that works under a good configuration, on a protected host, and whose key can be
had. -/
structure Healthy (p : Custody) : Prop where
  valid : p.custodian.config.validate = .ok ()
  isProtected : p.isProtected
  resolves : ∃ k p', resolve p = (.ok k, p')

/-- Between the two, the vault was asked for one new key at most. -/
def GeneratesOnce (p p' : Custody) : Prop :=
  ∃ asked, p'.host.requests = p.host.requests ++ asked ∧ asked.countP (·.isGeneration) ≤ 1

theorem generatesOnce_refl (p : Custody) : GeneratesOnce p p :=
  ⟨[], (List.append_nil _).symm, Nat.zero_le _⟩

theorem generatesOnce_of_resolve (hv : p.custodian.config.validate = .ok ()) (hp : p.isProtected)
    (h : resolve p = (.ok k, p')) : GeneratesOnce p p' := by
  cases hcached : p.custodian.cached with
  | some key =>
    rw [resolve_of_cached hcached] at h
    cases h
    exact generatesOnce_refl p
  | none =>
    obtain ⟨asked, hfrugal⟩ := Custodian.lookUp_frugal hv hp p.host
    rw [lookUp_of_resolve hcached h] at hfrugal
    refine ⟨asked, hfrugal.requests, ?_⟩
    rw [List.countP_eq_length_filter]
    obtain hnone | ⟨-, hone⟩ := hfrugal.once
    · rw [List.filter_eq_nil_iff.mpr hnone]
      exact Nat.zero_le _
    · rw [hone]
      exact Nat.le_refl _

/-- A custodian may begin on a host that holds nothing for it. -/
theorem healthy_of_ready {c : Custodian} {h : Host} (hv : c.config.validate = .ok ())
    (hsupported : c.hostTier.isSupported) (hready : c.Ready h) (hcached : c.cached = none)
    (hentries : h.vault.entries = .empty) (hvalues : h.settings.values = .empty) :
    Healthy ⟨c, h⟩ where
  valid := hv
  isProtected := hsupported
  resolves := by
    have hs : h.Holds c.config {} := .of_empty hentries hvalues
    have hmarker : h.settings.getInt c.config.levelSetting c.platform.marker =
        .ok c.platform.marker := by
      rw [Settings.getInt, Settings.get?, hvalues, Dict.get?_empty]
    have hblob : h.settings.getString? c.config.wrappedKeySetting = .ok none := by
      rw [Settings.getString?, hs.blob]
      rfl
    obtain ⟨k, h', hlookUp, -⟩ :=
      Custodian.lookUp_of_ready hv hsupported hready (fun _ => hs.direct) hmarker hblob
    exact ⟨k, _, by rw [resolve_of_uncached hcached, hlookUp]⟩

/-- So may one under the default configuration on a new host. -/
theorem healthy_fresh {platform : Platform} {machine : Machine}
    (hsupported : (Custodian.hostTier { platform, config := {} }).isSupported)
    (hreaches : (machine.now.add? ({} : Config).keyPairValidity).isSome) :
    Healthy ⟨{ platform, config := {} }, .fresh machine⟩ :=
  healthy_of_ready Config.usable_default.valid hsupported
    (Custodian.ready_of_usable Config.usable_default nofun (writable_memory _) hreaches) rfl rfl rfl

end Custody

end SealedStream
