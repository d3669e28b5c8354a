import SealedStream.Proofs.Documents
import SealedStream.Proofs.Durable.KeyMap
import SealedStream.Proofs.Stores

/-!
# Calls of a vault with a document

A vault is documented where its document holds the keys that it holds. Each call
leaves such a vault as its map of keys says, or is refused and changes nothing.
-/

namespace SealedStream

-- ----------------------------------------------------------------------------
-- Documents of vaults
-- ----------------------------------------------------------------------------

namespace Vault

variable {files files' : Files} {path : Path} {entries : Dict VaultEntry}

theorem held_cut (entries : Dict VaultEntry) :
    (entries.map VaultEntry.cut).map VaultEntry.held = entries.map VaultEntry.held := by
  rw [Dict.map_map]
  refine congrArg (entries.map ·) (funext fun entry => ?_)
  cases entry <;> rfl

def format (visit : Visit := .byName) :
    Format (Failure VaultError) (Dict VaultEntry) (Dict HeldKey) where
  nothing := .empty
  told := fun e => .error (.io e)
  decode := fun document => (decode document visit).mapError fun e => e.map .corrupted
  kept := (·.map VaultEntry.held)

theorem decode_format (visit : Visit) (document : Bytes) :
    (format visit).decode document =
      (decode document visit).mapError fun e => e.map .corrupted := rfl

theorem openVisiting_eq (visit : Visit) (path : Path) (files : Files) :
    openVisiting visit path files =
      (((format visit).opening path files).1.map fun entries => { entries, path := some path },
        ((format visit).opening path files).2) := by
  cases hfound : files.found? path with
  | none =>
    rw [openVisiting, Action.bind_apply, Action.get_apply, Format.opening_missing hfound]
    simp only [Files.exists?_eq, hfound]
    rfl
  | some answer =>
    rw [openVisiting, Action.bind_apply, Action.get_apply, Format.opening_present hfound]
    simp only [Files.exists?_eq, hfound, Option.isSome_some, if_true, Action.bind_apply,
      Failure.lift, Action.mapError_apply, Files.read_apply hfound]
    rcases files.met answer with e | document
    · rfl
    · cases hdecode : decode document visit <;>
        simp only [Except.mapError, ok_bind, Action.ofExcept, decode_format, hdecode] <;> rfl

theorem openAt_eq (path : Path) (files : Files) :
    openAt path files =
      ((format.opening path files).1.map fun entries => { entries, path := some path },
        (format.opening path files).2) := openVisiting_eq .byName path files

theorem inRange_opening {stored : Dict VaultEntry}
    (h : format.opening path files = (.ok stored, files')) : InRange stored := by
  obtain ⟨-, rfl⟩ | ⟨document, -, hdecode⟩ := Format.opening_ok h
  · nofun
  · exact inRange_decode (mapError_eq_ok.mp hdecode)

theorem openAt_end (hs : files.Steady path) (h : format.Shows (files.found? path) entries) :
    ∃ files', Files.Spares path files files' ∧
      ((∃ stored, openAt path files = (.ok { entries := stored, path := some path }, files') ∧
          InRange stored ∧ format.Shows (files'.found? path) stored ∧
            stored.map VaultEntry.held = entries.map VaultEntry.held) ∨
        ∃ e, (Files.read path files).1 = .error e ∧
          openAt path files = (.error (.error (.io e)), files')) := by
  refine ⟨_, format.spares_opening hs, ?_⟩
  rw [openAt_eq]
  obtain ⟨stored, hopen, hkept⟩ | ⟨e, hread, hopen⟩ := Format.opening_end h
  · have hopening : format.opening path files = (.ok stored, (format.opening path files).2) :=
      Prod.ext hopen rfl
    refine .inl ⟨stored, ?_, inRange_opening hopening, Format.shows_opening hopening, hkept⟩
    rw [hopen]
    rfl
  · rw [hopen]
    exact .inr ⟨e, hread, rfl⟩

theorem openAt_calm (h : format.Shows (files.found? path) entries) :
    ∃ opened, (openAt path (files.facing [])).1 = .ok opened ∧
      opened.entries.map VaultEntry.held = entries.map VaultEntry.held := by
  obtain ⟨stored, hopen, hkept⟩ := Format.opening_calm h
  rw [openAt_eq, hopen]
  exact ⟨_, rfl, hkept⟩

end Vault

/-- A vault whose document holds the keys that it holds. -/
structure VaultSite.Documented (path : Path) (site : VaultSite) : Prop where
  steady : site.machine.files.Steady path
  kept : site.vault.path = some path
  inRange : Vault.InRange site.vault.entries
  document : Vault.format.Shows (site.machine.files.found? path) site.vault.entries

theorem Vault.documented_of_openAt {files files' : Files} {path : Path} {vault : Vault}
    (hs : files.Steady path) (h : Vault.openAt path files = (.ok vault, files'))
    (requests : List Request) (entropy : Entropy) (now : Time) :
    VaultSite.Documented path ⟨vault, requests, ⟨files', entropy, now⟩⟩ := by
  have hspared := format.spares_opening hs
  rw [openAt_eq] at h
  obtain ⟨hopen, rfl⟩ := Prod.mk.inj h
  obtain ⟨entries, hentries, rfl⟩ := map_eq_ok.mp hopen
  have hopening : format.opening path files = (.ok entries, (format.opening path files).2) :=
    Prod.ext hentries rfl
  exact ⟨hspared.steady, rfl, inRange_opening hopening, Format.shows_opening hopening⟩

-- ----------------------------------------------------------------------------
-- Calls
-- ----------------------------------------------------------------------------

namespace Vault

theorem ensureUnlocked_bind {α : Type} (v : Vault) (rest : Except VaultError α) :
    (v.ensureUnlocked >>= fun _ => rest) = if v.locked then .error .locked else rest := by
  unfold ensureUnlocked
  split <;> rfl

theorem admitSymmetric_eq (v : Vault) (keyName : String) (bits : Nat) :
    v.admitSymmetric keyName bits =
      if v.locked then .error .locked
      else if keyName = "" then .error (.unsupportedSpec .emptyAlias)
      else match KeySize.ofBits? bits with
      | some size => .ok size
      | none => .error (.unsupportedSpec (.symmetricSize bits)) := by
  unfold admitSymmetric
  rw [ensureUnlocked_bind]
  rfl

theorem admitKeyPair_eq (v : Vault) (keyName : String) (spec : KeyPairSpec) :
    v.admitKeyPair keyName spec =
      if v.locked then .error .locked
      else if keyName = "" then .error (.unsupportedSpec .emptyAlias)
      else if spec.sizeBits ≠ 256 then
        .error (.unsupportedSpec (.keyPairSize spec.sizeBits.toNat))
      else if spec.notAfter ≤ spec.notBefore then .error (.unsupportedSpec .emptyWindow)
      else .ok () := by
  unfold admitKeyPair
  rw [ensureUnlocked_bind]
  rfl

end Vault

namespace VaultSite

variable {path : Path} {site site' : VaultSite}

theorem Documented.of_spares (hd : site.Documented path) (hvault : site'.vault = site.vault)
    (hspared : Files.Spares path site.machine.files site'.machine.files) :
    site'.Documented path := by
  refine ⟨hspared.steady, hvault ▸ hd.kept, hvault ▸ hd.inRange, ?_⟩
  rw [hspared.found, hvault]
  exact hd.document

inductive Updated (path : Path) (site : VaultSite) (entries : Dict VaultEntry) :
    Except VaultError Unit × VaultSite → Prop
  | done {files : Files} :
      Documented path ⟨{ site.vault with entries }, site.requests, { site.machine with files }⟩ →
        Updated path site entries
          (.ok (), ⟨{ site.vault with entries }, site.requests, { site.machine with files }⟩)
  | refused {e : IoError} {files : Files} : Files.Spares path site.machine.files files →
      (Files.replace path (Vault.encode entries) site.machine.files).1 = .error e →
        Updated path site entries
          (.error (.io e), ⟨site.vault, site.requests, { site.machine with files }⟩)

theorem replaceEntries_end (hd : site.Documented path) (hext : path.extension? ≠ some "tmp")
    {entries : Dict VaultEntry} (hrange : Vault.InRange entries) :
    Updated path site entries (replaceEntries entries site) := by
  have hreplaced := Files.replace_end hd.steady hext (Vault.encode entries)
  rw [replaceEntries_apply, hd.kept, Vault.persist, Action.mapError_apply]
  rcases hend : Files.replace path (Vault.encode entries) site.machine.files with ⟨e | _, files⟩
  · rw [hend] at hreplaced
    cases hreplaced with
    | failed hspared => exact .refused hspared (by rw [hend])
  · rw [hend] at hreplaced
    cases hreplaced with
    | done hsteady hfound =>
      refine .done ⟨hsteady, hd.kept, hrange, ?_⟩
      rw [hfound]
      have hdecode : Vault.format.decode (Vault.encode entries) =
          .ok (entries.map VaultEntry.cut) := by
        rw [Vault.decode_format, Vault.decode_encode hrange]
        rfl
      exact .present hdecode (Vault.held_cut entries)

/-- The site after a request that has drawn from the entropy. -/
def drawn (site : VaultSite) (r : Request) (entropy : Entropy) : VaultSite :=
  ⟨site.vault, site.requests ++ [r], { site.machine with entropy }⟩

theorem keys_keyMap {keyName : String} {entry : Option VaultEntry}
    (h : site.vault.entries.get? keyName = entry) :
    site.keyMap.keys keyName = entry.map VaultEntry.held := by
  rw [← h, keyMap]

theorem keyMap_insert (site : VaultSite) (keyName : String) (entry : VaultEntry) (files : Files) :
    keyMap ⟨{ site.vault with entries := site.vault.entries.insert keyName entry }, site.requests,
      { site.machine with files }⟩ = site.keyMap.set keyName (some entry.held) := by
  have hkeys (other : String) :
      ((site.vault.entries.insert keyName entry).get? other).map VaultEntry.held =
        if other = keyName then some entry.held else site.keyMap.keys other := by
    rw [Dict.get?_insert]
    split <;> rfl
  unfold keyMap KeyMap.set
  simp only [hkeys]
  rfl

theorem keyMap_erase (site : VaultSite) (keyName : String) (files : Files) :
    keyMap ⟨{ site.vault with entries := site.vault.entries.erase keyName }, site.requests,
      { site.machine with files }⟩ = site.keyMap.set keyName none := by
  have hkeys (other : String) :
      ((site.vault.entries.erase keyName).get? other).map VaultEntry.held =
        if other = keyName then none else site.keyMap.keys other := by
    rw [Dict.get?_erase]
    split <;> rfl
  unfold keyMap KeyMap.set
  simp only [hkeys]
  rfl

end VaultSite

/-- What the surroundings of a vault have refused: a file, or a key outside of its times. -/
def refusalOf : Except VaultError VaultAnswer → Option VaultError
  | .error (.io e) => some (.io e)
  | .error (.keyExpired keyName) => some (.keyExpired keyName)
  | _ => none

/-- A request that the vault rejects before it does anything for it. -/
def VaultError.IsRejection (e : VaultError) : Prop := e = .locked ∨ ∃ why, e = .unsupportedSpec why

namespace VaultCall

variable {path : Path} {site site' : VaultSite} {call : VaultCall}
  {reply : Except VaultError VaultAnswer}

/-- What a call leaves of a vault whose document holds the keys that it holds. -/
structure Ends (path : Path) (site : VaultSite) (call : VaultCall)
    (reply : Except VaultError VaultAnswer) (site' : VaultSite) : Prop where
  documented : site'.Documented path
  mapped : site.keyMap.ask (refusalOf reply) call = (reply, site'.keyMap)
  unchanged : ∀ e, reply = .error e → site'.vault = site.vault ∧
    site'.machine.files.found? path = site.machine.files.found? path
  undrawn : ∀ e, reply = .error e → e.IsRejection →
    site'.machine.entropy = site.machine.entropy
  refused : ∀ e, reply = .error (.io e) →
    (Files.replace path (Vault.encode (call.wanted site)) site.machine.files).1 = .error e
  expired : ∀ keyName, reply = .error (.keyExpired keyName) → ∃ secret spec,
    site.vault.entries.get? keyName = some (.keyPair secret spec) ∧
      ¬ spec.IsValidAt site.machine.now

theorem Ends.of_reading (hd : site.Documented path) (hvault : site'.vault = site.vault)
    (hfiles : site'.machine.files = site.machine.files)
    (hentropy : ∀ e, reply = .error e → site'.machine.entropy = site.machine.entropy)
    (hmapped : site.keyMap.ask (refusalOf reply) call = (reply, site'.keyMap))
    (hio : ∀ e, reply ≠ .error (.io e))
    (hexpired : ∀ keyName, reply = .error (.keyExpired keyName) → ∃ secret spec,
      site.vault.entries.get? keyName = some (.keyPair secret spec) ∧
        ¬ spec.IsValidAt site.machine.now) :
    Ends path site call reply site' where
  documented := hd.of_spares hvault (by rw [hfiles]; exact .refl hd.steady)
  mapped := hmapped
  unchanged e _ := ⟨hvault, by rw [hfiles]⟩
  undrawn e he _ := hentropy e he
  refused e he := absurd he (hio e)
  expired := hexpired

/-- A call that changes an entry, from a site that has moved on in its requests and its entropy. -/
theorem Ends.of_update (hd : site.Documented path) (hext : path.extension? ≠ some "tmp")
    (r : Request) (entropy : Entropy) (keyName : String) (held? : Option HeldKey)
    (answer : VaultAnswer) (hrange : Vault.InRange (call.wanted site))
    (hmapped : ∀ refusal?, site.keyMap.ask refusal? call =
      (site.drawn r entropy).keyMap.change refusal? keyName held? answer)
    (hset : ∀ files, VaultSite.keyMap
      ⟨{ site.vault with entries := call.wanted site }, site.requests ++ [r],
        ⟨files, entropy, site.machine.now⟩⟩ = (site.drawn r entropy).keyMap.set keyName held?)
    (hask : call.ask site =
      ((VaultSite.replaceEntries (call.wanted site) (site.drawn r entropy)).1.map fun _ => answer,
        (VaultSite.replaceEntries (call.wanted site) (site.drawn r entropy)).2))
    (h : call.ask site = (reply, site')) : Ends path site call reply site' := by
  have hdrawn : (site.drawn r entropy).Documented path := hd.of_spares rfl (.refl hd.steady)
  have hupdated := VaultSite.replaceEntries_end hdrawn hext hrange
  rw [h] at hask
  generalize VaultSite.replaceEntries (call.wanted site) (site.drawn r entropy) = ending
    at hupdated hask
  cases hupdated with
  | done hdocumented =>
    cases hask
    refine ⟨hdocumented, ?_, nofun, nofun, nofun, nofun⟩
    rw [hmapped]
    exact congrArg (Except.ok answer, ·) (hset _).symm
  | @refused e files hspared hreplace =>
    cases hask
    refine ⟨hdrawn.of_spares rfl hspared, hmapped _, fun e he => ⟨rfl, hspared.found⟩, ?_, ?_,
      nofun⟩
    · rintro e he (rfl | ⟨why, rfl⟩) <;> cases he
    · intro e he
      cases he
      exact hreplace

/-- The answer to a request, told in the words of a call. -/
theorem ask_reading {α : Type} (r : Request) (answer : VaultSite → Except VaultError α)
    (f : α → VaultAnswer) (site : VaultSite) :
    (VaultSite.ask r answer >>= fun a => pure (f a)) site =
      ((answer (site.noted r)).map f, site.noted r) := by
  rw [Action.bind_apply, VaultSite.ask_apply]
  cases answer (site.noted r) <;> rfl

/-- A request that is answered from an unlocked vault as it is. -/
theorem Ends.of_request (hd : site.Documented path) {α : Type} (r : Request)
    (answer : VaultSite → Except VaultError α) (f : α → VaultAnswer)
    {unlocked : Except VaultError α}
    (hanswer : answer (site.noted r) = if site.vault.locked then .error .locked else unlocked)
    (hmapped : site.keyMap.answer (refusalOf (unlocked.map f)) call =
      (unlocked.map f, site.keyMap))
    (hio : ∀ e, unlocked ≠ .error (.io e))
    (hexpired : ∀ keyName, unlocked = .error (.keyExpired keyName) → ∃ secret spec,
      site.vault.entries.get? keyName = some (.keyPair secret spec) ∧
        ¬ spec.IsValidAt site.machine.now)
    (h : (VaultSite.ask r answer >>= fun a => pure (f a)) site = (reply, site')) :
    Ends path site call reply site' := by
  rw [ask_reading, hanswer] at h
  obtain ⟨rfl, rfl⟩ := Prod.mk.inj h
  by_cases hl : site.vault.locked
  · rw [if_pos hl]
    exact .of_reading hd rfl rfl (fun _ _ => rfl) (KeyMap.ask_locked hl _ _)
      (by rintro _ ⟨⟩) (by rintro _ ⟨⟩)
  · rw [if_neg hl]
    exact .of_reading hd rfl rfl (fun _ _ => rfl) ((KeyMap.ask_unlocked hl _ _).trans hmapped)
      (fun e he => hio e (map_eq_error.mp he))
      fun keyName he => hexpired keyName (map_eq_error.mp he)

theorem ends_hasKey (hd : site.Documented path) {keyName : String}
    (h : (hasKey keyName).ask site = (reply, site')) :
    Ends path site (.hasKey keyName) reply site' := by
  have hanswer : site.vault.hasKey keyName = _ :=
    Vault.ensureUnlocked_bind site.vault (.ok (site.vault.entries.contains keyName))
  refine .of_request hd .hasKey (·.vault.hasKey keyName) .known hanswer ?_
    (by rintro _ ⟨⟩) (by rintro _ ⟨⟩) h
  rw [Dict.contains, ← Option.isSome_map]
  rfl

theorem ends_symmetricKey (hd : site.Documented path) {keyName : String}
    (h : (symmetricKey keyName).ask site = (reply, site')) :
    Ends path site (.symmetricKey keyName) reply site' := by
  have hanswer : site.vault.symmetricKey keyName = _ := Vault.ensureUnlocked_bind site.vault _
  rcases hget : site.vault.entries.get? keyName with _ | key | ⟨secret, spec⟩
  all_goals
    rw [hget] at hanswer
    refine .of_request hd .getSymmetricKey (·.vault.symmetricKey keyName) .symmetricKey hanswer
      ?_ (by rintro _ ⟨⟩) (by rintro _ ⟨⟩) h
    rw [KeyMap.answer, VaultSite.keys_keyMap hget]
    rfl

theorem ends_privateKey (hd : site.Documented path) {keyName : String}
    (h : (privateKey keyName).ask site = (reply, site')) :
    Ends path site (.privateKey keyName) reply site' := by
  have hanswer : site.vault.privateKey keyName = _ := Vault.ensureUnlocked_bind site.vault _
  rcases hget : site.vault.entries.get? keyName with _ | key | ⟨secret, spec⟩
  all_goals
    rw [hget] at hanswer
    refine .of_request hd .privateKey (·.vault.privateKey keyName) .privateKey hanswer
      ?_ (by rintro _ ⟨⟩) (by rintro _ ⟨⟩) h
    rw [KeyMap.answer, VaultSite.keys_keyMap hget]
    rfl

theorem ends_unwrap (hd : site.Documented path) {handle : PrivateKeyHandle} {bytes : Bytes}
    (h : (unwrap handle bytes).ask site = (reply, site')) :
    Ends path site (.unwrap handle bytes) reply site' := by
  let answer (site : VaultSite) := site.vault.unwrap site.machine.now handle bytes
  have hanswer : site.vault.unwrap site.machine.now handle bytes = _ :=
    Vault.ensureUnlocked_bind site.vault _
  rcases hget : site.vault.entries.get? handle.keyName with _ | key | ⟨secret, spec⟩
  · rw [hget] at hanswer
    refine .of_request hd .unwrap answer .key hanswer ?_
      (by rintro _ ⟨⟩) (by rintro _ ⟨⟩) h
    unfold KeyMap.answer
    simp only [VaultSite.keys_keyMap hget]
    rfl
  · rw [hget] at hanswer
    refine .of_request hd .unwrap answer .key hanswer ?_
      (by rintro _ ⟨⟩) (by rintro _ ⟨⟩) h
    unfold KeyMap.answer
    simp only [VaultSite.keys_keyMap hget]
    rfl
  · rw [hget] at hanswer
    -- the map has no times: that a pair has expired is for it a refusal from outside
    by_cases hvalid : spec.IsValidAt site.machine.now
    · simp only [if_pos hvalid] at hanswer
      refine .of_request hd .unwrap answer .key hanswer ?_ ?_ ?_ h
      · have hrefusal : refusalOf (((Vault.unwrapped secret bytes).mapError .unwrap).map .key) =
            none := by
          cases Vault.unwrapped secret bytes <;> rfl
        unfold KeyMap.answer
        simp only [VaultSite.keys_keyMap hget, hrefusal]
        rfl
      · intro e
        cases Vault.unwrapped secret bytes <;> rintro ⟨⟩
      · intro keyName
        cases Vault.unwrapped secret bytes <;> rintro ⟨⟩
    · simp only [if_neg hvalid] at hanswer
      refine .of_request hd .unwrap answer .key hanswer ?_ (by rintro _ ⟨⟩) ?_ h
      · unfold KeyMap.answer
        simp only [VaultSite.keys_keyMap hget]
        rfl
      · intro keyName hexpired
        cases hexpired
        exact ⟨secret, spec, hget, hvalid⟩

theorem ends_wrap (hd : site.Documented path) {publicKey : PublicKeyHandle} {key : SymmetricKey}
    (h : (wrap publicKey key).ask site = (reply, site')) :
    Ends path site (.wrap publicKey key) reply site' := by
  rw [ask, VaultSite.wrap, Action.bind_apply, Action.bind_apply] at h
  simp only [VaultSite.ask, VaultSite.note, Action.bind_apply, Action.modify_apply, Action.reads,
    Vault.ensureUnlocked] at h
  by_cases hl : site.vault.locked
  · simp only [hl, if_true] at h
    cases h
    exact .of_reading hd rfl rfl (fun _ _ => rfl) (KeyMap.ask_locked hl _ _)
      (by rintro _ ⟨⟩) (by rintro _ ⟨⟩)
  · simp only [hl] at h
    cases h
    exact .of_reading hd rfl rfl (by rintro _ ⟨⟩) (KeyMap.ask_unlocked hl _ _)
      (by rintro _ ⟨⟩) (by rintro _ ⟨⟩)

theorem Ends.of_rejection (hd : site.Documented path) {e : VaultError} (he : e.IsRejection)
    (hmapped : site.keyMap.ask none call = (.error e, site.keyMap)) (r : Request) :
    Ends path site call (.error e) (site.noted r) := by
  have hrefusal : refusalOf (.error e) = none := by
    obtain rfl | ⟨why, rfl⟩ := he <;> rfl
  refine .of_reading hd rfl rfl (fun _ _ => rfl) (hrefusal ▸ hmapped) ?_ ?_
  · rintro io h
    obtain rfl | ⟨why, rfl⟩ := he <;> cases h
  · rintro keyName h
    obtain rfl | ⟨why, rfl⟩ := he <;> cases h

theorem ask_generateSymmetricKey_error {keyName : String} {bits : Nat} {e : VaultError}
    (hready : site.vault.admitSymmetric keyName bits = .error e) :
    e.IsRejection ∧
      site.keyMap.ask none (.generateSymmetricKey keyName bits) = (.error e, site.keyMap) := by
  rw [Vault.admitSymmetric_eq] at hready
  split at hready
  · next hl =>
    cases hready
    exact ⟨.inl rfl, KeyMap.ask_locked hl _ _⟩
  · next hl =>
    rw [KeyMap.ask_unlocked hl, KeyMap.answer]
    split at hready
    · next hname =>
      cases hready
      exact ⟨.inr ⟨_, rfl⟩, if_pos hname⟩
    · next hname =>
      split at hready
      · cases hready
      · next hsize =>
        cases hready
        rw [if_neg hname, hsize]
        exact ⟨.inr ⟨_, rfl⟩, rfl⟩

theorem ask_generateKeyPair_error {keyName : String} {spec : KeyPairSpec} {e : VaultError}
    (hready : site.vault.admitKeyPair keyName spec = .error e) :
    e.IsRejection ∧
      site.keyMap.ask none (.generateKeyPair keyName spec) = (.error e, site.keyMap) := by
  rw [Vault.admitKeyPair_eq] at hready
  split at hready
  · next hl =>
    cases hready
    exact ⟨.inl rfl, KeyMap.ask_locked hl _ _⟩
  · next hl =>
    rw [KeyMap.ask_unlocked hl, KeyMap.answer]
    split at hready
    · next hname =>
      cases hready
      exact ⟨.inr ⟨_, rfl⟩, if_pos hname⟩
    · next hname =>
      rw [if_neg hname]
      split at hready
      · next hbits =>
        cases hready
        exact ⟨.inr ⟨_, rfl⟩, if_pos hbits⟩
      · next hbits =>
        rw [if_neg hbits]
        split at hready
        · next hempty =>
          cases hready
          exact ⟨.inr ⟨_, rfl⟩, if_pos hempty⟩
        · cases hready

/-- A request that is not rejected draws a key and stores it. -/
theorem ask_storing {α β γ : Type} (r : Request) (answer : VaultSite → Except VaultError α) {a : α}
    (hready : answer (site.noted r) = .ok a) (draw : α → Entropy → β × Entropy)
    (keyName : String) (entry : β → VaultEntry) (g : β → γ) (f : γ → VaultAnswer) :
    let drawn := draw a site.machine.entropy
    let written := VaultSite.replaceEntries
      (site.vault.entries.insert keyName (entry drawn.1)) (site.drawn r drawn.2)
    let store : Action VaultSite VaultError γ := do
      let a ← VaultSite.ask r answer
      let key ← VaultSite.onMachine (Machine.draw (draw a))
      VaultSite.store keyName (entry key)
      return g key
    (do return f (← store)) site = (written.1.map fun _ => f (g drawn.1), written.2) := by
  intro drawn written store
  have hdraw : VaultSite.onMachine (Machine.draw (draw a)) (site.noted r) =
      ((.ok drawn.1 : Except VaultError β), site.drawn r drawn.2) := rfl
  have hstore : VaultSite.store keyName (entry drawn.1) (site.drawn r drawn.2) = written :=
    VaultSite.store_eq ..
  simp only [store, Action.bind_apply, VaultSite.ask_apply, hready, hdraw, hstore]
  rcases written with ⟨_ | _, _⟩ <;> rfl

theorem ask_generateSymmetricKey {keyName : String} {bits : Nat} {size : KeySize}
    (hready : site.vault.admitSymmetric keyName bits = .ok size) :
    let draw := SymmetricKey.draw size site.machine.entropy
    let written := VaultSite.replaceEntries
      (site.vault.entries.insert keyName (.symmetric draw.1))
      (site.drawn .generateSymmetricKey draw.2)
    (generateSymmetricKey keyName bits).ask site =
      (written.1.map fun _ => .key draw.1, written.2) :=
  ask_storing .generateSymmetricKey (·.vault.admitSymmetric keyName bits) hready SymmetricKey.draw
    keyName .symmetric id .key

theorem ask_generateKeyPair {keyName : String} {spec : KeyPairSpec}
    (hready : site.vault.admitKeyPair keyName spec = .ok ()) :
    let draw := SecretKey.draw site.machine.entropy
    let written := VaultSite.replaceEntries
      (site.vault.entries.insert keyName (.keyPair draw.1 spec))
      (site.drawn .generateKeyPair draw.2)
    (generateKeyPair keyName spec).ask site =
      (written.1.map fun _ => .keyPair ⟨⟨keyName, draw.1.publicKey⟩, ⟨keyName⟩⟩, written.2) :=
  let handles (secret : SecretKey) : KeyPairHandle := ⟨⟨keyName, secret.publicKey⟩, ⟨keyName⟩⟩
  ask_storing .generateKeyPair (·.vault.admitKeyPair keyName spec) hready (fun _ => SecretKey.draw)
    keyName (.keyPair · spec) handles .keyPair

theorem ask_deleteKey_known {keyName : String} (hknown : site.vault.hasKey keyName = .ok true) :
    let written := VaultSite.replaceEntries (site.vault.entries.erase keyName)
      (site.noted .deleteKey)
    (deleteKey keyName).ask site = (written.1.map fun _ => .known true, written.2) := by
  dsimp only
  rw [ask, Action.bind_apply, VaultSite.deleteKey_apply, hknown]
  simp only [Action.bind_apply]
  rcases VaultSite.replaceEntries _ (site.noted .deleteKey) with ⟨_ | _, _⟩ <;> rfl

theorem ask_deleteKey_unknown {keyName : String}
    (hknown : site.vault.hasKey keyName = .ok false) :
    (deleteKey keyName).ask site = (.ok (.known false), site.noted .deleteKey) := by
  rw [ask, Action.bind_apply, VaultSite.deleteKey_apply, hknown]
  rfl

theorem ask_deleteKey_rejected {keyName : String} {e : VaultError}
    (hknown : site.vault.hasKey keyName = .error e) :
    (deleteKey keyName).ask site = (.error e, site.noted .deleteKey) := by
  rw [ask, Action.bind_apply, VaultSite.deleteKey_apply, hknown]

/-- A request that is rejected stops before anything is drawn. -/
theorem ask_rejected {α β : Type} {r : Request} {answer : VaultSite → Except VaultError α}
    {rest : α → Action VaultSite VaultError β} {f : β → VaultAnswer} {e : VaultError}
    (h : answer (site.noted r) = .error e) :
    (do return f (← VaultSite.ask r answer >>= rest)) site = (.error e, site.noted r) := by
  rw [Action.bind_apply, Action.bind_apply, VaultSite.ask_apply, h]

theorem ends_generateSymmetricKey (hd : site.Documented path)
    (hext : path.extension? ≠ some "tmp") {keyName : String} {bits : Nat}
    (h : (generateSymmetricKey keyName bits).ask site = (reply, site')) :
    Ends path site (.generateSymmetricKey keyName bits) reply site' := by
  cases hready : site.vault.admitSymmetric keyName bits with
  | error e =>
    obtain ⟨rfl, rfl⟩ := Prod.mk.inj (h.symm.trans (ask_rejected hready))
    obtain ⟨hrejection, hmapped⟩ := ask_generateSymmetricKey_error hready
    exact .of_rejection hd hrejection hmapped _
  | ok size =>
    obtain ⟨hl, hname, hsize⟩ := Vault.admitSymmetric_ok.mp hready
    let draw := SymmetricKey.draw size site.machine.entropy
    have hwanted : wanted site (.generateSymmetricKey keyName bits) =
        site.vault.entries.insert keyName (.symmetric draw.1) := by
      rw [wanted, hsize]
    have hrange : Vault.InRange (wanted site (.generateSymmetricKey keyName bits)) := by
      rw [hwanted]
      exact hd.inRange.insert trivial
    refine .of_update hd hext .generateSymmetricKey draw.2 keyName (some (.symmetric draw.1))
      (.key draw.1) hrange (fun refusal? => ?_) (fun files => ?_) ?_ h
    · rw [KeyMap.ask_unlocked hl, KeyMap.answer, if_neg hname, hsize]
      rfl
    · rw [hwanted]
      exact VaultSite.keyMap_insert (site.drawn .generateSymmetricKey draw.2) keyName _ files
    · rw [hwanted]
      exact ask_generateSymmetricKey hready

theorem ends_generateKeyPair (hd : site.Documented path) (hext : path.extension? ≠ some "tmp")
    {keyName : String} {spec : KeyPairSpec}
    (hspec : spec.notBefore.InRange ∧ spec.notAfter.InRange)
    (h : (generateKeyPair keyName spec).ask site = (reply, site')) :
    Ends path site (.generateKeyPair keyName spec) reply site' := by
  cases hready : site.vault.admitKeyPair keyName spec with
  | error e =>
    obtain ⟨rfl, rfl⟩ := Prod.mk.inj (h.symm.trans (ask_rejected hready))
    obtain ⟨hrejection, hmapped⟩ := ask_generateKeyPair_error hready
    exact .of_rejection hd hrejection hmapped _
  | ok _ =>
    obtain ⟨hl, hname, hbits, hlasting⟩ := Vault.admitKeyPair_ok.mp hready
    let draw := SecretKey.draw site.machine.entropy
    refine .of_update hd hext .generateKeyPair draw.2 keyName (some (.pair draw.1 spec.sizeBits))
      (.keyPair ⟨⟨keyName, draw.1.publicKey⟩, ⟨keyName⟩⟩) (hd.inRange.insert hspec)
      (fun refusal? => ?_) (fun files => ?_) (ask_generateKeyPair hready) h
    · have hwindow : ¬ spec.notAfter ≤ spec.notBefore := Int.not_le.mpr hlasting
      rw [KeyMap.ask_unlocked hl, KeyMap.answer, if_neg hname, if_neg (not_not.mpr hbits),
        if_neg hwindow]
      rfl
    · exact VaultSite.keyMap_insert (site.drawn .generateKeyPair draw.2) keyName _ files

theorem ends_deleteKey (hd : site.Documented path) (hext : path.extension? ≠ some "tmp")
    {keyName : String} (h : (deleteKey keyName).ask site = (reply, site')) :
    Ends path site (.deleteKey keyName) reply site' := by
  have hknown : site.vault.hasKey keyName = _ :=
    Vault.ensureUnlocked_bind site.vault (.ok (site.vault.entries.contains keyName))
  have hheld : (site.keyMap.keys keyName).isSome = site.vault.entries.contains keyName :=
    Option.isSome_map
  by_cases hl : site.vault.locked
  · rw [if_pos hl] at hknown
    obtain ⟨rfl, rfl⟩ := Prod.mk.inj (h.symm.trans (ask_deleteKey_rejected hknown))
    exact .of_rejection hd (.inl rfl) (KeyMap.ask_locked hl _ _) _
  · rw [if_neg hl] at hknown
    cases hcontains : site.vault.entries.contains keyName with
    | true =>
      rw [hcontains] at hknown hheld
      refine .of_update hd hext .deleteKey site.machine.entropy keyName none (.known true)
        (hd.inRange.erase keyName) (fun refusal? => ?_) (fun files => ?_)
        (ask_deleteKey_known hknown) h
      · rw [KeyMap.ask_unlocked hl, KeyMap.answer, if_pos hheld]
        rfl
      · exact VaultSite.keyMap_erase (site.noted .deleteKey) keyName files
    | false =>
      rw [hcontains] at hknown hheld
      obtain ⟨rfl, rfl⟩ := Prod.mk.inj (h.symm.trans (ask_deleteKey_unknown hknown))
      refine .of_reading hd rfl rfl nofun ?_ nofun nofun
      rw [KeyMap.ask_unlocked hl, KeyMap.answer, hheld]
      rfl

theorem ask_ends (hd : site.Documented path) (hext : path.extension? ≠ some "tmp")
    (hrange : call.InRange) (h : call.ask site = (reply, site')) :
    Ends path site call reply site' := by
  cases call with
  | hasKey keyName => exact ends_hasKey hd h
  | symmetricKey keyName => exact ends_symmetricKey hd h
  | privateKey keyName => exact ends_privateKey hd h
  | generateSymmetricKey keyName bits => exact ends_generateSymmetricKey hd hext h
  | generateKeyPair keyName spec => exact ends_generateKeyPair hd hext hrange h
  | wrap publicKey key => exact ends_wrap hd h
  | unwrap handle bytes => exact ends_unwrap hd h
  | deleteKey keyName => exact ends_deleteKey hd hext h

end VaultCall

end SealedStream
