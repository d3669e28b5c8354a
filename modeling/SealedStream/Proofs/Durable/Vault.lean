import SealedStream.Proofs.Durable.VaultCalls

/-!
# A vault that is opened again

A vault with a document answers as a map from names to keys does, over any run
of requests, failing writes and openings. What fails changes neither memory nor
document, and at every moment the document holds the keys that memory holds.
-/

namespace SealedStream

-- ----------------------------------------------------------------------------
-- Runs
-- ----------------------------------------------------------------------------

abbrev VaultMoment := Moment VaultSite VaultEvent (Failure VaultError) VaultAnswer

namespace VaultMoment

variable {path : Path} {m : VaultMoment}

/-- What the surroundings refused at a moment, if they did. -/
def refusal? (m : VaultMoment) : Option VaultError :=
  match m.reply with
  | .error (.error e) => refusalOf (.error e)
  | _ => none

/-- A call of the file system that failed, and for which there is an error. -/
def Refused (path : Path) (m : VaultMoment) (e : IoError) : Prop :=
  match m.event with
  | .asked call faults _ =>
    (Files.replace path (Vault.encode (call.wanted m.before))
      (m.before.machine.files.facing faults)).1 = .error e
  | .setLocked _ => False
  | .opened faults => (Files.read path (m.before.machine.files.facing faults)).1 = .error e

/-- A key pair that was asked for outside of its times. -/
def Expired (m : VaultMoment) (keyName : String) : Prop :=
  match m.event with
  | .asked _ _ now => ∃ secret spec,
    m.before.vault.entries.get? keyName = some (.keyPair secret spec) ∧ ¬ spec.IsValidAt now
  | _ => False

structure Faithful (path : Path) (m : VaultMoment) : Prop where
  /-- An opening that meets no faults gives the keys that memory holds. -/
  durable : ∃ opened, (Vault.openAt path (m.after.machine.files.facing [])).1 = .ok opened ∧
    ∀ keyName, (opened.entries.get? keyName).map VaultEntry.held =
      (m.after.vault.entries.get? keyName).map VaultEntry.held
  /-- Whoever is told of an error finds vault and document as they were. -/
  unchanged : ∀ e, m.reply = .error e → m.after.vault = m.before.vault ∧
    m.after.machine.files.found? path = m.before.machine.files.found? path
  /-- For a request that is rejected nothing is drawn. -/
  undrawn : ∀ e, m.reply = .error (.error e) → e.IsRejection →
    m.after.machine.entropy = m.before.machine.entropy
  refused : ∀ e, m.reply = .error (.error (.io e)) → m.Refused path e
  expired : ∀ keyName, m.reply = .error (.error (.keyExpired keyName)) → m.Expired keyName

structure Lasts (path : Path) (m : VaultMoment) : Prop extends m.Faithful path where
  documented : m.after.Documented path
  mapped : ∃ reply, m.reply = reply.mapError .error ∧
    m.before.keyMap.meet m.refusal? m.event = (reply, m.after.keyMap)

theorem durable_of_documented {site : VaultSite} (hd : site.Documented path) :
    ∃ opened, (Vault.openAt path (site.machine.files.facing [])).1 = .ok opened ∧
      ∀ keyName, (opened.entries.get? keyName).map VaultEntry.held =
        (site.vault.entries.get? keyName).map VaultEntry.held := by
  obtain ⟨opened, hopen, hheld⟩ := Vault.openAt_calm hd.document
  refine ⟨opened, hopen, fun keyName => ?_⟩
  rw [← Dict.get?_map, hheld, Dict.get?_map]

theorem cause_eq {α : Type} {answer : Except VaultError α} {e : VaultError}
    (h : answer.mapError Failure.error = .error (.error e)) : answer = .error e := by
  obtain ⟨cause, hcause, hsame⟩ := mapError_eq_error.mp h
  cases hsame
  exact hcause

theorem lasts_asked (hext : path.extension? ≠ some "tmp") {site site' : VaultSite}
    (hd : site.Documented path) {call : VaultCall} (hrange : call.InRange)
    {faults : List (Option Fault)} {now : Time} {reply : Except (Failure VaultError) VaultAnswer}
    (h : (VaultEvent.asked call faults now).act path site = (reply, site')) :
    Lasts path ⟨site, .asked call faults now, reply, site'⟩ := by
  let met : VaultSite :=
    ⟨site.vault, site.requests, ⟨site.machine.files.facing faults, site.machine.entropy, now⟩⟩
  have hmet : met.Documented path := hd.of_spares rfl ⟨hd.steady.facing faults, rfl⟩
  rcases hask : call.ask met with ⟨answer, after⟩
  have hends := VaultCall.ask_ends hmet hext hrange hask
  have hact : (VaultEvent.asked call faults now).act path site =
      (answer.mapError .error, after) := by
    show Failure.lift id call.ask met = _
    rw [Failure.lift, Action.mapError_apply, hask]
    rfl
  rw [hact] at h
  obtain ⟨rfl, rfl⟩ := Prod.mk.inj h
  have hwanted : call.wanted met = call.wanted site := by cases call <;> rfl
  have hrefusal : refusal? ⟨site, .asked call faults now, answer.mapError .error, after⟩ =
      refusalOf answer := by
    cases answer <;> rfl
  refine ⟨⟨durable_of_documented hends.documented, ?_, ?_, ?_, ?_⟩, hends.documented,
    answer, rfl, ?_⟩
  · intro e he
    obtain ⟨cause, hcause, -⟩ := mapError_eq_error.mp he
    exact hends.unchanged cause hcause
  · intro e he hrejection
    exact hends.undrawn e (cause_eq he) hrejection
  · intro e he
    have hreplace := hends.refused e (cause_eq he)
    rw [hwanted] at hreplace
    exact hreplace
  · intro keyName he
    exact hends.expired keyName (cause_eq he)
  · rw [hrefusal]
    exact hends.mapped

theorem lasts_setLocked {site : VaultSite} (hd : site.Documented path) (locked : Bool) :
    Lasts path ⟨site, .setLocked locked, .ok .done,
      { site with vault := { site.vault with locked } }⟩ := by
  have hdocumented : VaultSite.Documented path
      { site with vault := { site.vault with locked } } :=
    ⟨hd.steady, hd.kept, hd.inRange, hd.document⟩
  exact ⟨⟨durable_of_documented hdocumented, nofun, nofun, nofun, nofun⟩, hdocumented,
    .ok .done, rfl, rfl⟩

theorem lasts_opened {site site' : VaultSite} (hd : site.Documented path)
    {faults : List (Option Fault)} {reply : Except (Failure VaultError) VaultAnswer}
    (h : (VaultEvent.opened faults).act path site = (reply, site')) :
    Lasts path ⟨site, .opened faults, reply, site'⟩ := by
  obtain ⟨files, hspared, ⟨stored, hopen, hrange, hshows, hheld⟩ | ⟨e, hread, hopen⟩⟩ :=
    Vault.openAt_end (hd.steady.facing faults) hd.document
  · rw [VaultEvent.opened_apply, hopen] at h
    cases h
    have hdocumented : VaultSite.Documented path
        ⟨{ entries := stored, path := some path }, site.requests, { site.machine with files }⟩ :=
      ⟨hspared.steady, rfl, hrange, hshows⟩
    refine ⟨⟨durable_of_documented hdocumented, nofun, nofun, nofun, nofun⟩, hdocumented,
      .ok .done, rfl, ?_⟩
    -- the entries are opened without the parts of a second, but with the same keys
    have hkeys (keyName : String) : (stored.get? keyName).map VaultEntry.held =
        (site.vault.entries.get? keyName).map VaultEntry.held := by
      rw [← Dict.get?_map, hheld, Dict.get?_map]
    unfold VaultSite.keyMap
    simp only [hkeys]
    rfl
  · rw [VaultEvent.opened_apply, hopen] at h
    cases h
    have hdocumented : VaultSite.Documented path
        ⟨site.vault, site.requests, { site.machine with files }⟩ :=
      hd.of_spares rfl ⟨hspared.steady, hspared.found⟩
    refine ⟨⟨durable_of_documented hdocumented, fun e he => ⟨rfl, hspared.found⟩, ?_, ?_, ?_⟩,
      hdocumented, .error (.io e), rfl, rfl⟩
    · rintro e he (rfl | ⟨why, rfl⟩) <;> cases he
    · intro e he
      cases he
      exact hread
    · intro keyName he
      cases he

theorem lasts (hext : path.extension? ≠ some "tmp") {site site' : VaultSite}
    (hd : site.Documented path) {event : VaultEvent} (hrange : event.InRange)
    {reply : Except (Failure VaultError) VaultAnswer} (h : event.act path site = (reply, site')) :
    Lasts path ⟨site, event, reply, site'⟩ := by
  cases event with
  | asked call faults now => exact lasts_asked hext hd hrange h
  | setLocked locked =>
    cases h
    exact lasts_setLocked hd locked
  | opened faults => exact lasts_opened hd h

theorem replies_mapped (hext : path.extension? ≠ some "tmp") {site : VaultSite}
    (hd : site.Documented path) {events : List VaultEvent}
    (hrange : ∀ event ∈ events, event.InRange) :
    let run := moments (VaultEvent.act path) events site
    run.map Moment.reply =
      (KeyMap.replies (run.map fun m => (m.event, refusal? m)) site.keyMap).map
        (·.mapError .error) := by
  induction events generalizing site with
  | nil => rfl
  | cons event rest ih =>
    rcases hact : event.act path site with ⟨reply, site'⟩
    have hlasts := lasts hext hd (hrange event List.mem_cons_self) hact
    have hrest := ih hlasts.documented fun other hother =>
      hrange other (List.mem_cons_of_mem _ hother)
    obtain ⟨answer, hanswer, hmeet⟩ := hlasts.mapped
    simp only [moments_cons hact, List.map_cons, KeyMap.replies, hmeet]
    exact congrArg₂ List.cons hanswer hrest

end VaultMoment

namespace Vault

variable {files files' : Files} {path : Path} {vault : Vault}

/--
A vault with a document answers as a map from names to keys does, in which every
request that is refused leaves the keys as they are; and the document always holds
the keys of the map. All of that as long as the draft is not another name of the
document.
-/
theorem answers_like_map (hs : files.Steady path) (hext : path.extension? ≠ some "tmp")
    (hopen : openAt path files = (.ok vault, files')) (entropy : Entropy) (now : Time)
    {events : List VaultEvent} (hrange : ∀ event ∈ events, event.InRange) :
    let site : VaultSite := ⟨vault, [], ⟨files', entropy, now⟩⟩
    let run := moments (VaultEvent.act path) events site
    run.map Moment.reply =
        (KeyMap.replies (run.map fun m => (m.event, VaultMoment.refusal? m)) site.keyMap).map
          (·.mapError .error) ∧
      ∀ m ∈ run, VaultMoment.Faithful path m := by
  have hd := documented_of_openAt hs hopen [] entropy now
  refine ⟨VaultMoment.replies_mapped hext hd hrange, fun m hm => ?_⟩
  have hstep : ∀ event ∈ events, ∀ site : VaultSite,
      site.Documented path → (event.act path site).2.Documented path :=
    fun event hevent site hd => (VaultMoment.lasts hext hd (hrange event hevent) rfl).documented
  obtain ⟨hbefore, hevent, hact⟩ := of_mem_moments hstep hd hm
  exact (VaultMoment.lasts hext hbefore (hrange _ hevent) hact).toFaithful

/-- A pair that cannot be written, a locked vault and an opening that fails. -/
theorem answers_like_map_new :
    let path : Path := ⟨false, ["new", "vault.json"]⟩
    let start : Time := .of 1700000000 5
    let events := [
      .asked (.generateSymmetricKey "content" 128) [] start,
      .asked (.generateKeyPair "content" ⟨256, start, .of 1700000009 0⟩)
        [none, none, some ⟨.system .storageFull, 3⟩] start,
      .setLocked true,
      .asked (.hasKey "content") [] start,
      .opened [some ⟨.system .permissionDenied, 0⟩],
      .opened [],
      .asked (.symmetricKey "content") [] start,
      .asked (.deleteKey "content") [] start]
    let site : VaultSite := ⟨{ path := some path }, [], ⟨{}, .ofSeed 7, start⟩⟩
    let run := moments (VaultEvent.act path) events site
    run.map Moment.reply =
        (KeyMap.replies (run.map fun m => (m.event, VaultMoment.refusal? m)) site.keyMap).map
          (·.mapError .error) ∧
      ∀ m ∈ run, VaultMoment.Faithful path m := by
  refine answers_like_map (Files.wellFormed_empty.steady (Files.direct_of_up (by decide))) (by decide) rfl
    (.ofSeed 7) _ fun event hevent => ?_
  simp only [List.mem_cons, List.not_mem_nil, or_false] at hevent
  rcases hevent with rfl | rfl | rfl | rfl | rfl | rfl | rfl | rfl
  · exact trivial
  · exact ⟨by decide, by decide⟩
  all_goals exact trivial

/-- A vault that is opened at a path answers as a map from names to keys does. -/
def AnswersAlike (path : Path) (files : Files) : Prop :=
  ∀ (files' : Files) (vault : Vault) (entropy : Entropy) (now : Time) (events : List VaultEvent),
    openAt path files = (.ok vault, files') → (∀ event ∈ events, event.InRange) →
      let site : VaultSite := ⟨vault, [], ⟨files', entropy, now⟩⟩
      let run := moments (VaultEvent.act path) events site
      run.map Moment.reply =
        (KeyMap.replies (run.map fun m => (m.event, VaultMoment.refusal? m)) site.keyMap).map
          (·.mapError .error)

/-- A key that is not written is drawn all the same. -/
theorem act_generateSymmetricKey_refused {keyName : String} {bits : Nat} {size : KeySize}
    {requests : List Request} {faults : List (Option Fault)} {entropy : Entropy} {now t : Time}
    {e : IoError} (hpath : vault.path = some path)
    (hready : vault.admitSymmetric keyName bits = .ok size) :
    let draw := SymmetricKey.draw size entropy
    Files.replace path (encode (vault.entries.insert keyName (.symmetric draw.1)))
        (files.facing faults) = (.error e, files') →
      (VaultEvent.asked (.generateSymmetricKey keyName bits) faults now).act path
        ⟨vault, requests, ⟨files, entropy, t⟩⟩ =
          (.error (.error (.io e)),
            ⟨vault, requests ++ [.generateSymmetricKey], ⟨files', draw.2, now⟩⟩) := by
  intro draw hreplace
  let site : VaultSite := ⟨vault, requests, ⟨files.facing faults, entropy, now⟩⟩
  let drawn := site.drawn .generateSymmetricKey draw.2
  let written :=
    VaultSite.replaceEntries (vault.entries.insert keyName (.symmetric draw.1)) drawn
  have hwritten : written = (.error (.io e),
      ⟨vault, requests ++ [.generateSymmetricKey], ⟨files', draw.2, now⟩⟩) := by
    have hdrawn : drawn.vault.path = some path := hpath
    have hfiles : drawn.machine.files = files.facing faults := rfl
    simp only [written, VaultSite.replaceEntries_apply, hdrawn, hfiles, persist,
      Action.mapError_apply, hreplace]
    rfl
  have hask : (VaultCall.generateSymmetricKey keyName bits).ask site =
      (written.1.map fun _ => .key draw.1, written.2) :=
    VaultCall.ask_generateSymmetricKey hready
  rw [hwritten] at hask
  show Failure.lift id (VaultCall.ask _) site = _
  rw [Failure.lift, Action.mapError_apply, hask]
  rfl

/-- A key that cannot be written can bring others to light that memory has never held. -/
theorem not_answersAlike_obstructed {entries : Dict VaultEntry} (hrange : InRange entries)
    (hheld : entries.contains "k") :
    ¬ AnswersAlike ⟨false, ["new", "..", "store.json"]⟩ (Files.obstructed (encode entries)) := by
  intro h
  let path : Path := ⟨false, ["new", "..", "store.json"]⟩
  let files := Files.obstructed (encode entries)
  let entropy := Entropy.ofSeed 7
  let now : Time := .of 1700000000 0
  let draw := SymmetricKey.draw .bits128 entropy
  let opened := entries.map VaultEntry.cut
  obtain ⟨hmissing, files', hreplace, hfound⟩ := Files.replace_obstructed (encode entries)
    (encode (Dict.empty.insert "a" (.symmetric draw.1)))
  have hopen : openAt path files = (.ok { path := some path }, files) := by
    rw [openAt_eq, Format.opening_missing hmissing]
    rfl
  have hgenerate : (VaultEvent.asked (.generateSymmetricKey "a" 128) [] now).act path
      ⟨{ path := some path }, [], ⟨files, entropy, now⟩⟩ =
        (.error (.error (.io (.system .isADirectory))),
          ⟨{ path := some path }, [.generateSymmetricKey], ⟨files', draw.2, now⟩⟩) :=
    act_generateSymmetricKey_refused rfl rfl hreplace
  have hopen' : (VaultEvent.opened []).act path
      ⟨{ path := some path }, [.generateSymmetricKey], ⟨files', draw.2, now⟩⟩ =
        (.ok .done, ⟨{ entries := opened, path := some path }, [.generateSymmetricKey],
          ⟨files'.facing [], draw.2, now⟩⟩) := by
    have hshown : (files'.facing []).found? path = some (.ok (encode entries)) := hfound
    rw [VaultEvent.opened_apply, openAt_eq, Format.opening_present hshown, Files.met_calm,
      Except.mapError, ok_bind, decode_format, decode_encode hrange]
    rfl
  have hknown : opened.contains "k" := by
    rw [Dict.contains, Dict.get?_map, Option.isSome_map]
    exact hheld
  have hhas : (VaultEvent.asked (.hasKey "k") [] now).act path
      ⟨{ entries := opened, path := some path }, [.generateSymmetricKey],
        ⟨files'.facing [], draw.2, now⟩⟩ =
          (.ok (.known true),
            ⟨{ entries := opened, path := some path }, [.generateSymmetricKey, .hasKey],
              ⟨files'.facing [], draw.2, now⟩⟩) := by
    rw [← hknown]
    rfl
  have hrange : ∀ event ∈ [VaultEvent.asked (.generateSymmetricKey "a" 128) [] now, .opened [],
      .asked (.hasKey "k") [] now], event.InRange := by
    intro event hevent
    simp only [List.mem_cons, List.not_mem_nil, or_false] at hevent
    rcases hevent with rfl | rfl | rfl <;> exact trivial
  have halike : AnswersAlike path files := h
  have hreplies := halike files _ entropy now _ hopen hrange
  simp only [moments_cons hgenerate, moments_cons hopen', moments_cons hhas] at hreplies
  have hlast : some (Except.ok (VaultAnswer.known true)) =
      some (.ok (.known false) : Except (Failure VaultError) VaultAnswer) :=
    congrArg List.getLast? hreplies
  cases hlast

/-- A key that cannot be written can leave a document that cannot be opened. -/
theorem not_answersAlike_linked {entries : Dict VaultEntry} (hrange : InRange entries) :
    ¬ AnswersAlike ⟨false, ["store.json"]⟩ (Files.linked (encode entries)) := by
  intro h
  let path : Path := ⟨false, ["store.json"]⟩
  let files := Files.linked (encode entries)
  let full : List (Option Fault) := [none, none, some ⟨.system .storageFull, 0⟩]
  let entropy := Entropy.ofSeed 7
  let now : Time := .of 1700000000 0
  let draw := SymmetricKey.draw .bits128 entropy
  let vault : Vault := { entries := entries.map VaultEntry.cut, path := some path }
  have hcalm : files.facing [] = files := rfl
  have hopen : openAt path files = (.ok vault, files) := by
    have hfound : (files.facing []).found? path = some (.ok (encode entries)) := rfl
    rw [← hcalm, openAt_eq, Format.opening_present hfound, Files.met_calm, Except.mapError,
      ok_bind, decode_format, decode_encode hrange]
    rfl
  have hgenerate : (VaultEvent.asked (.generateSymmetricKey "a" 128) full now).act path
      ⟨vault, [], ⟨files, entropy, now⟩⟩ =
        (.error (.error (.io (.system .storageFull))),
          ⟨vault, [.generateSymmetricKey], ⟨Files.linked [], draw.2, now⟩⟩) :=
    act_generateSymmetricKey_refused rfl rfl (Files.replace_linked _ _)
  have hopen' : (VaultEvent.opened []).act path
      ⟨vault, [.generateSymmetricKey], ⟨Files.linked [], draw.2, now⟩⟩ =
        (.error (.error (.corrupted .malformed)),
          ⟨vault, [.generateSymmetricKey], ⟨Files.linked [], draw.2, now⟩⟩) := by
    have hshown : ((Files.linked []).facing []).found? path = some (.ok []) := rfl
    rw [VaultEvent.opened_apply, openAt_eq, Format.opening_present hshown, Files.met_calm]
    rfl
  have hrange : ∀ event ∈ [VaultEvent.asked (.generateSymmetricKey "a" 128) full now, .opened []],
      event.InRange := by
    intro event hevent
    simp only [List.mem_cons, List.not_mem_nil, or_false] at hevent
    rcases hevent with rfl | rfl <;> exact trivial
  have halike : AnswersAlike path files := h
  have hreplies := halike files _ entropy now _ hopen hrange
  simp only [moments_cons hgenerate, moments_cons hopen'] at hreplies
  have hlast : some (Except.error (Failure.error (.corrupted .malformed))) =
      some (.ok .done : Except (Failure VaultError) VaultAnswer) :=
    congrArg List.getLast? hreplies
  cases hlast

/--
Where the path leads up from a directory that is not there yet, a key that cannot be
written can bring others to light that memory has never held. Where the draft is
another name of the document, all keys can be lost with it.
-/
theorem answers_unlike_map :
    (¬ ∀ (path : Path) (files : Files), files.WellFormed → path.extension? ≠ some "tmp" →
      AnswersAlike path files) ∧
    ¬ ∀ (path : Path) (files : Files), files.IsTree → files.Direct path →
      path.extension? ≠ some "tmp" → AnswersAlike path files := by
  let entries : Dict VaultEntry :=
    Dict.empty.insert "k" (.symmetric ⟨List.replicate 16 0, .inl rfl⟩)
  have hrange : InRange entries := Vault.InRange.insert (List.forall_mem_nil _) trivial
  constructor
  · exact fun h => not_answersAlike_obstructed hrange rfl
      (h _ _ (Files.wellFormed_obstructed _) (by decide))
  · exact fun h => not_answersAlike_linked hrange
      (h _ _ (Files.isTree_linked _) (Files.direct_of_up (by decide)) (by decide))

end Vault

end SealedStream
