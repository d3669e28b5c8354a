import SealedStream.Proofs.KeptKey
import SealedStream.Proofs.Lifetime

/-!
# A wrapped key is shared

A key that a legacy custodian has wrapped is kept for custodians of every level,
as long as the vault has no key of its own under the alias where modern ones look
first. None of them then writes anything: a modern custodian takes the wrapped key
over as it is, and a legacy one goes on finding it. The invariant is `Shares`, the
stores being those that the key was made in.
-/

namespace SealedStream

/-- The key as a later custodian finds it: wrapped, with the tier and level of its generation. -/
def ContentKey.migrated (k : ContentKey) : ContentKey := { k with source := .migratedLegacy }

/-- The stores keep one and the same key for custodians of all levels. -/
def Host.KeepsForAll (h : Host) (config : Config) (k : ContentKey) : Prop :=
  ∀ platform, Custodian.Kept { platform, config } h.vault h.settings k

namespace Custodian

variable {c : Custodian} {h h' : Host} {k : ContentKey}

theorem Kept.of_same (hkept : c.Kept h.vault h.settings k) (same : h.SameStores h') :
    c.Kept h'.vault h'.settings k := by
  cases hkept with
  | direct htier hkey hmarker =>
    refine .direct htier (same.entries ▸ hkey) ?_
    simpa [Settings.getInt, Settings.get?, same.values] using hmarker
  | wrapped hnone hblob hbytes hpair hopen hmarker =>
    refine .wrapped (same.entries ▸ hnone) ?_ hbytes (same.entries ▸ hpair) hopen ?_
    · simpa [Settings.getString?, Settings.get?, same.values] using hblob
    · simpa [Settings.getInt, Settings.get?, same.values] using hmarker

/-- What is kept depends on the cached key of no one. -/
theorem Kept.with_cached (hkept : c.Kept h.vault h.settings k) (cached : Option ContentKey) :
    { c with cached }.Kept h.vault h.settings k := by
  cases hkept with
  | direct htier hkey hmarker => exact .direct htier hkey hmarker
  | wrapped hnone hblob hbytes hpair hopen hmarker =>
    exact .wrapped hnone hblob hbytes hpair hopen hmarker

/-- A key that has just been wrapped, beside no key of the vault's own, is kept for all. -/
theorem LookedUp.keepsForAll (hlookedUp : c.LookedUp h k h')
    (hne : c.config.wrappedKeySetting ≠ c.config.levelSetting)
    (hsource : k.source = .generatedLegacy)
    (hnone : h'.vault.entries.get? c.config.symmetricAlias = none) :
    h'.KeepsForAll c.config k.migrated := by
  intro platform
  obtain ⟨secret, spec, bytes, hmade⟩ := hlookedUp.madeWrapped hsource
  have hkey : k.migrated = c.keyOf k.key c.platform.marker .migratedLegacy := by
    rw [hmade.key]
    rfl
  rw [hkey]
  refine .wrapped (fun _ => hnone) ?_ (blobBytes_encode bytes) hmade.pair hmade.opens ?_
  · rw [Settings.getString?, hmade.written, if_neg hne]
  · rw [Settings.getInt, hmade.level]

end Custodian

/-- No key is deleted, and the vault is open at times when a pair made at `since` is valid. -/
def Event.Undisturbed (config : Config) (since : Time) : Event → Prop
  | .start level => (config.thresholds.tierAt level).isSupported
  | .delete _ => False
  | .surround s => ¬ s.locked ∧ since ≤ s.machine.now ∧
      s.machine.now.nanoseconds ≤ since.nanoseconds + config.keyPairValidity.nanoseconds
  | _ => True

namespace Custody

/-- A custody over stores with the contents of `origin`, in which the pair is valid from `since` on.
Its custodian has cached none but `known` keys. -/
structure Shares (config : Config) (origin : Host) (since : Time) (known : List ContentKey)
    (level : UInt32) (p : Custody) : Prop extends Under config level p where
  same : origin.SameStores p.host
  unlocked : ¬ p.host.vault.locked
  started : since ≤ p.host.machine.now
  lasting : p.host.machine.now.nanoseconds ≤
    since.nanoseconds + config.keyPairValidity.nanoseconds
  cached : ∀ k, p.custodian.cached = some k → k ∈ known

/-- What a custodian answers under the shared key. -/
def AnswersUnder (key : SymmetricKey) (known : List ContentKey) : Outcome → Prop
  | .resolved answer => ∃ k ∈ known, answer = .ok k
  | .encrypted text answer => ∀ stream, answer = .ok stream → IsSealed key text stream
  | .decrypted stream answer => ∀ text, IsSealed key text stream → answer = .ok text
  | .quiet => True

variable {config : Config} {origin : Host} {since : Time} {known : List ContentKey}
  {level : UInt32} {p p' : Custody} {k : ContentKey}

namespace Shares

theorem of_around (hp : Shares config origin since known level p)
    (hc : p'.custodian = p.custodian) (same : p.host.SameStores p'.host)
    (around : p.host.Around p'.host) : Shares config origin since known level p' where
  toUnder := hp.toUnder.of_custodian hc
  same := ⟨same.entries.trans hp.same.entries, same.values.trans hp.same.values⟩
  unlocked := by
    rw [around.locked]
    exact hp.unlocked
  started := by
    rw [around.now]
    exact hp.started
  lasting := by
    rw [around.now]
    exact hp.lasting
  cached := hc ▸ hp.cached

/-- A custodian that starts knows no key yet. -/
theorem start (hv : config.validate = .ok ()) (hp : Shares config origin since known level p)
    {other : UInt32} (hsupported : (config.thresholds.tierAt other).isSupported)
    (known' : List ContentKey) : ∃ p', Custody.step (.start other) p = (.quiet, p') ∧
      Shares config origin since known' other p' := by
  exact ⟨_, hp.step_start hv other, ⟨rfl, rfl, hsupported⟩, hp.same, hp.unlocked, hp.started,
    hp.lasting, nofun⟩

theorem resolved (hp : Shares config origin since known level p) {k' : ContentKey}
    (hk : k' ∈ known) (requests : List Request) : Shares config origin since known level
      ⟨{ p.custodian with cached := some k' }, { p.host with requests }⟩ where
  toUnder := hp.toUnder.with_cached _ _
  same := ⟨hp.same.entries, hp.same.values⟩
  unlocked := hp.unlocked
  started := hp.started
  lasting := hp.lasting
  cached := by
    rintro _ ⟨⟩
    exact hk

section

variable (hkeeps : origin.KeepsForAll config k) (hpair : ∀ secret spec,
    origin.vault.entries.get? config.wrapAlias = some (.keyPair secret spec) →
      spec.notBefore = since ∧ spec.notAfter.nanoseconds =
        since.nanoseconds + config.keyPairValidity.nanoseconds)

include hkeeps hpair

theorem kept (hp : Shares config origin since known level p) :
    p.custodian.Kept p.host.vault p.host.settings k ∧ p.custodian.InWindow p.host := by
  obtain ⟨⟨platform, config', cached⟩, host⟩ := p
  obtain rfl : config' = config := hp.config_eq
  refine ⟨((hkeeps platform).of_same hp.same).with_cached cached, fun secret spec hentry => ?_⟩
  rw [hp.same.entries] at hentry
  obtain ⟨hbefore, hafter⟩ := hpair secret spec hentry
  exact ⟨hbefore ▸ hp.started, Int.le_trans hp.lasting (Int.le_of_eq hafter.symm)⟩

/-- A resolution leaves everything but the custodian's cache and the notes of its requests. -/
theorem resolve (hp : Shares config origin since known level p) (hk : k ∈ known) :
    ∃ k' ∈ known, ∃ requests, Custody.resolve p =
      (.ok k', ⟨{ p.custodian with cached := some k' }, { p.host with requests }⟩) := by
  cases hcached : p.custodian.cached with
  | some k' =>
    refine ⟨k', hp.cached k' hcached, p.host.requests, ?_⟩
    rw [resolve_of_cached hcached, ← hcached]
  | none =>
    obtain ⟨hkept, hwindow⟩ := hp.kept hkeeps hpair
    obtain ⟨requests, hlookUp⟩ :=
      Custodian.lookUp_of_kept hp.isProtected hkept hp.unlocked hwindow
    exact ⟨k, hk, requests, by rw [resolve_of_uncached hcached, hlookUp]⟩

/-- Nothing comes of a resolution that is broken off: it would not have written anything. -/
theorem stop (hp : Shares config origin since known level p) :
    Shares config origin since known level (Custody.step .stop p).2 := by
  cases hcached : p.custodian.cached with
  | some k' =>
    simp only [step_stop, hcached]
    exact hp
  | none =>
    obtain ⟨hkept, hwindow⟩ := hp.kept hkeeps hpair
    have hstopped : (p.custodian.lookUpStopped p.host).2 =
        p.host.asked (p.custodian.searchRequests k.source) := by
      rw [Custodian.lookUpStopped, Action.bind_apply,
        Custodian.search_of_kept hkept hp.unlocked hwindow]
      rfl
    simp only [step_stop, hcached, hstopped]
    exact hp.of_around rfl ⟨rfl, rfl⟩ ⟨rfl, rfl, rfl, rfl, id⟩

theorem step (hv : config.validate = .ok ()) (hk : k ∈ known)
    (hknown : ∀ k' ∈ known, k'.key = k.key) (e : Event)
    (hp : Shares config origin since known level p) (he : e.Undisturbed config since) :
    Shares config origin since known (e.levelAfter level) (Custody.step e p).2 ∧
      AnswersUnder k.key known (Custody.step e p).1 := by
  cases e with
  | start other =>
    obtain ⟨p', hstep, hp'⟩ := hp.start hv he known
    rw [hstep]
    exact ⟨hp', trivial⟩
  | resolve =>
    obtain ⟨k', hk', requests, hresolve⟩ := hp.resolve hkeeps hpair hk
    rw [step_resolve, hresolve]
    exact ⟨hp.resolved hk' requests, k', hk', rfl⟩
  | stop =>
    refine ⟨hp.stop hkeeps hpair, ?_⟩
    rw [step_stop]
    trivial
  | invalidate =>
    exact ⟨⟨hp.toUnder.with_cached _ _, hp.same, hp.unlocked, hp.started, hp.lasting, nofun⟩,
      trivial⟩
  | encrypt text =>
    obtain ⟨k', hk', requests, hresolve⟩ := hp.resolve hkeeps hpair hk
    have hend := encrypt_end hp.isProtected text
    rw [step_encrypt]
    generalize Custody.encrypt text p = outcome at hend ⊢
    cases hend with
    | failed hfailed =>
      rw [hresolve] at hfailed
      cases hfailed
    | sealed hsame hsealed same around =>
      rw [hresolve] at hsame
      cases hsame
      refine ⟨(hp.resolved hk' requests).of_around rfl same around, ?_⟩
      rintro _ ⟨⟩
      exact hknown k' hk' ▸ hsealed
    | tooLong hsame _ same around =>
      rw [hresolve] at hsame
      cases hsame
      exact ⟨(hp.resolved hk' requests).of_around rfl same around, nofun⟩
  | decrypt stream =>
    obtain ⟨k', hk', requests, hresolve⟩ := hp.resolve hkeeps hpair hk
    have hend := decrypt_end hp.isProtected stream
    rw [step_decrypt]
    generalize Custody.decrypt stream p = outcome at hend ⊢
    cases hend with
    | unheaded hb => exact ⟨hp, fun text hsealed => absurd hsealed.begins hb⟩
    | failed _ hfailed =>
      rw [hresolve] at hfailed
      cases hfailed
    | answered _ hsame hanswer =>
      rw [hresolve] at hsame
      cases hsame
      refine ⟨hp.resolved hk' requests, fun text hsealed => ?_⟩
      exact (hanswer hsealed.length_le text).mpr (hknown k' hk' ▸ hsealed)
  | delete keyName => exact he.elim
  | surround s =>
    obtain ⟨hl, hstarted, hlasting⟩ := he
    exact ⟨⟨hp.toUnder.of_custodian rfl, ⟨hp.same.entries, hp.same.values⟩, hl, hstarted, hlasting,
      hp.cached⟩, trivial⟩

theorem run (hv : config.validate = .ok ()) (hk : k ∈ known)
    (hknown : ∀ k' ∈ known, k'.key = k.key) {events : List Event}
    (hp : Shares config origin since known level p)
    (hevents : ∀ e ∈ events, e.Undisturbed config since) :
    (∃ level', Shares config origin since known level' (Custody.run events p).2) ∧
      ∀ entry ∈ (Custody.run events p).1, AnswersUnder k.key known entry.outcome := by
  induction events generalizing level p with
  | nil => exact ⟨⟨level, hp⟩, fun _ h => nomatch h⟩
  | cons e rest ih =>
    obtain ⟨he, hrest⟩ := List.forall_mem_cons.mp hevents
    obtain ⟨hp', hanswer⟩ := hp.step hkeeps hpair hv hk hknown e he
    obtain ⟨hlast, hanswers⟩ := ih hp' hrest
    exact ⟨hlast, List.forall_mem_cons.mpr ⟨hanswer, hanswers⟩⟩

end

end Shares

theorem run_append (earlier later : List Event) (p : Custody) :
    run (earlier ++ later) p =
      ((run earlier p).1 ++ (run later (run earlier p).2).1, (run later (run earlier p).2).2) := by
  induction earlier generalizing p with
  | nil => rfl
  | cons e rest ih => simp only [List.cons_append, run, ih]

theorem length_run (events : List Event) (p : Custody) :
    (run events p).1.length = events.length := by
  induction events generalizing p with
  | nil => rfl
  | cons e rest ih => simp only [run, List.length_cons, ih]

/-- The state in which a custodian has just made a wrapped key is one that its key is shared in. -/
theorem shares_of_generated {p₀ p₁ : Custody} (hv : p₀.custodian.config.validate = .ok ())
    (hnames : p₀.custodian.config.wrappedKeySetting ≠ p₀.custodian.config.levelSetting)
    (htier : p₀.custodian.hostTier = .legacyWrapped) (huncached : p₀.custodian.cached = none)
    (hresolve : resolve p₀ = (.ok k, p₁)) (hsource : k.source = .generatedLegacy)
    (hnone : p₁.host.vault.entries.get? p₀.custodian.config.symmetricAlias = none) :
    p₁.host.KeepsForAll p₀.custodian.config k.migrated ∧
      (∀ secret spec, p₁.host.vault.entries.get? p₀.custodian.config.wrapAlias =
        some (.keyPair secret spec) → spec.notBefore = p₀.host.machine.now ∧
          spec.notAfter.nanoseconds = p₀.host.machine.now.nanoseconds +
            p₀.custodian.config.keyPairValidity.nanoseconds) ∧
      Shares p₀.custodian.config p₁.host p₀.host.machine.now [k.migrated, k]
        p₀.custodian.platform.level p₁ := by
  have hsupported : p₀.custodian.hostTier.isSupported := by rw [htier]; rfl
  rw [resolve_of_uncached huncached] at hresolve
  rcases hlookUp : p₀.custodian.lookUp p₀.host with ⟨e | k', host⟩
  · rw [hlookUp] at hresolve
    cases hresolve
  · rw [hlookUp] at hresolve
    cases hresolve
    have hlookedUp := Custodian.lookedUp hv hsupported hlookUp
    refine ⟨hlookedUp.keepsForAll hnames hsource hnone, ?_⟩
    obtain ⟨secret, spec, bytes, hmade⟩ := hlookedUp.madeWrapped hsource
    have around := hmade.around
    obtain ⟨-, hbefore, hafter⟩ := KeyPairSpec.of_validFor hmade.window
    constructor
    · intro secret' spec' hentry
      rw [hmade.pair] at hentry
      cases hentry
      exact ⟨hbefore, hafter⟩
    · refine ⟨⟨rfl, rfl, hsupported⟩, ⟨rfl, rfl⟩, ?_, ?_, ?_, ?_⟩
      · rw [around.locked]
        exact hmade.unlocked
      · rw [around.now]
        exact Int.le_refl _
      · rw [around.now]
        exact Int.le_add_of_nonneg_right (Int.natCast_nonneg _)
      · rintro _ ⟨⟩
        exact List.mem_cons_of_mem _ List.mem_cons_self

/-- Once a legacy custodian has made a key, beside no key of the vault's own, every custodian that
starts later finds it as a migrated one, on whatever tier, and writes nothing; every stream that one
of them seals, the first included, any other opens. -/
theorem wrapped_key_shared {p₀ p₁ : Custody} (hv : p₀.custodian.config.validate = .ok ())
    (hnames : p₀.custodian.config.wrappedKeySetting ≠ p₀.custodian.config.levelSetting)
    (htier : p₀.custodian.hostTier = .legacyWrapped) (huncached : p₀.custodian.cached = none)
    (hresolve : resolve p₀ = (.ok k, p₁)) (hsource : k.source = .generatedLegacy)
    (hnone : p₁.host.vault.entries.get? p₀.custodian.config.symmetricAlias = none)
    {own later : List Event} {level : UInt32}
    (hevents : ∀ e ∈ own ++ .start level :: later,
      e.Undisturbed p₀.custodian.config p₀.host.machine.now) :
    let history := run (own ++ .start level :: later) p₁
    let p := history.2
    (∃ requests, resolve p = (.ok k.migrated,
      ⟨{ p.custodian with cached := some k.migrated }, { p.host with requests }⟩)) ∧
    (∀ entry ∈ history.1.drop own.length, ∀ answer, entry.outcome = .resolved answer →
      answer = .ok k.migrated) ∧
    (∀ sealing ∈ history.1, ∀ opening ∈ history.1, ∀ text stream answer,
      sealing.outcome = .encrypted text (.ok stream) →
        opening.outcome = .decrypted stream answer → answer = .ok text) ∧
    p.host.vault.entries = p₁.host.vault.entries ∧
    p.host.settings.values = p₁.host.settings.values := by
  intro history p
  obtain ⟨hkeeps, hpair, hp₁⟩ :=
    shares_of_generated hv hnames htier huncached hresolve hsource hnone
  have hkeys : ∀ k' ∈ [k.migrated, k], k'.key = k.migrated.key := by simp [ContentKey.migrated]
  have hanswers := (hp₁.run hkeeps hpair hv List.mem_cons_self hkeys hevents).2
  -- The first custodian is the only one that knows its key as a generated one.
  obtain ⟨hown, hrest⟩ := List.forall_mem_append.mp hevents
  obtain ⟨hstart, hlater⟩ := List.forall_mem_cons.mp hrest
  obtain ⟨⟨level', hp'⟩, -⟩ := hp₁.run hkeeps hpair hv List.mem_cons_self hkeys hown
  obtain ⟨p₂, hstep, hp₂⟩ := hp'.start hv hstart [k.migrated]
  obtain ⟨⟨last, hp⟩, hmigrated⟩ :=
    hp₂.run hkeeps hpair hv List.mem_cons_self (by simp) hlater
  have hhistory : history = ((run own p₁).1 ++
      ⟨(run own p₁).2.custodian.platform.level, .quiet⟩ :: (run later p₂).1, (run later p₂).2) := by
    simp only [history, run_append, run, hstep]
  rw [show p = (run later p₂).2 by simp only [p, hhistory]]
  refine ⟨?_, fun entry hentry answer hanswer => ?_, ?_, hp.same.entries, hp.same.values⟩
  · obtain ⟨k', hk', requests, hresolve⟩ := hp.resolve hkeeps hpair List.mem_cons_self
    obtain rfl := List.mem_singleton.mp hk'
    exact ⟨requests, hresolve⟩
  · rw [hhistory, ← length_run own p₁, List.drop_left] at hentry
    obtain rfl | hentry := List.mem_cons.mp hentry
    · cases hanswer
    · have htold := hmigrated entry hentry
      rw [hanswer] at htold
      obtain ⟨k', hk', rfl⟩ := htold
      rw [List.mem_singleton.mp hk']
  · intro sealing hsealing opening hopening text stream answer hsealed hopened
    have hseals := hanswers sealing hsealing
    have hopens := hanswers opening hopening
    rw [hsealed] at hseals
    rw [hopened] at hopens
    exact hopens text (hseals stream rfl)

/-- A legacy custodian makes the key and seals; a modern one seals too and opens what the first one
sealed; an older one comes back and opens what the modern one sealed. -/
theorem wrapped_key_shared_both_ways :
    ∃ p₀ k p₁ older newer, resolve p₀ = (.ok k, p₁) ∧ k.source = .generatedLegacy ∧
      let history := run ([.encrypt [1]] ++ .start 25 :: [.encrypt [2], .decrypt older, .start 19,
        .decrypt newer, .resolve]) p₁
      let p := history.2
      (∃ requests, resolve p = (.ok k.migrated,
        ⟨{ p.custodian with cached := some k.migrated }, { p.host with requests }⟩)) ∧
      history.1.map Entry.outcome =
        [.encrypted [1] (.ok older), .quiet, .encrypted [2] (.ok newer), .decrypted older (.ok [1]),
          .quiet, .decrypted newer (.ok [2]), .resolved (.ok k.migrated)] := by
  obtain ⟨p₀, hconfig, htier, huncached, hnow, hgenerated, hnone, holder, hmodern⟩ :
      ∃ p₀ : Custody, p₀.custodian.config = {} ∧ p₀.custodian.hostTier = .legacyWrapped ∧
        p₀.custodian.cached = none ∧ p₀.host.machine.now = .epoch ∧
        (resolve p₀).1.toOption.map ContentKey.source = some .generatedLegacy ∧
        ((resolve p₀).2.host.vault.entries.get? "aes_local_protection").isNone ∧
        (encrypt [1] (resolve p₀).2).1.toOption.isSome ∧
        (run [.encrypt [1], .start 25] (resolve p₀).2).2.isProtected :=
    ⟨⟨{ platform := ⟨21⟩, config := {} }, .fresh { entropy := .ofSeed 7, now := .epoch }⟩,
      rfl, by decide, rfl, rfl, by decide +kernel, by decide +kernel, by decide +kernel,
      by decide +kernel⟩
  obtain ⟨k, hk, hsource⟩ := map_toOption_eq_some.mp hgenerated
  have hresolve : resolve p₀ = (.ok k, (resolve p₀).2) := Prod.ext hk rfl
  generalize (resolve p₀).2 = p₁ at *
  obtain ⟨older, holder⟩ := isSome_toOption.mp holder
  have hevents (later : List Event) (hlater : ∀ e ∈ later, e.Undisturbed {} .epoch) :
      ∀ e ∈ [.encrypt [1]] ++ .start 25 :: later,
        e.Undisturbed p₀.custodian.config p₀.host.machine.now := by
    rw [hconfig, hnow]
    exact List.forall_mem_append.mpr
      ⟨List.forall_mem_singleton.mpr trivial, List.forall_mem_cons.mpr ⟨rfl, hlater⟩⟩
  have hshared (later : List Event) (hlater : ∀ e ∈ later, e.Undisturbed {} .epoch) :=
    wrapped_key_shared (by rw [hconfig]; rfl) (by rw [hconfig]; decide) htier huncached hresolve
      hsource (by rw [hconfig]; exact Option.isNone_iff_eq_none.mp hnone) (hevents later hlater)
  -- The modern custodian has the key, so that it can seal.
  obtain ⟨⟨requests, hfound⟩, -⟩ := hshared [] nofun
  obtain ⟨newer, hnewer⟩ := encrypt_ok hmodern hfound [2] (by decide)
  obtain ⟨hlast, hresolved, hopens, -⟩ := hshared
    [.encrypt [2], .decrypt older, .start 19, .decrypt newer, .resolve] (by
      simp only [List.forall_mem_cons, List.not_mem_nil, Event.Undisturbed, false_imp_iff,
        implies_true]
      decide)
  refine ⟨p₀, k, p₁, older, newer, hresolve, hsource, hlast, ?_⟩
  have houtcomes : ∃ first second third,
      (run ([.encrypt [1]] ++ .start 25 :: [.encrypt [2], .decrypt older, .start 19,
        .decrypt newer, .resolve]) p₁).1.map Entry.outcome =
          [.encrypted [1] (.ok older), .quiet, .encrypted [2] (.ok newer),
            .decrypted older first, .quiet, .decrypted newer second, .resolved third] := by
    simp only [run, step_encrypt, Prod.map_snd, id] at hnewer
    simp only [List.cons_append, List.nil_append, run, List.map_cons, List.map_nil, fst_step_start,
      step_resolve, step_encrypt, step_decrypt, Prod.map_fst, Prod.map_snd, id, holder, hnewer]
    exact ⟨_, _, _, rfl⟩
  generalize run _ p₁ = history at hresolved hopens houtcomes ⊢
  obtain ⟨first, second, third, houtcomes⟩ := houtcomes
  replace hresolved : ∀ outcome ∈ (history.1.map Entry.outcome).drop 1, ∀ answer,
      outcome = .resolved answer → answer = .ok k.migrated := by
    rw [← List.map_drop]
    exact List.forall_mem_map.mpr hresolved
  replace hopens : ∀ sealing ∈ history.1.map Entry.outcome,
      ∀ opening ∈ history.1.map Entry.outcome, ∀ text stream answer,
        sealing = .encrypted text (.ok stream) → opening = .decrypted stream answer →
          answer = .ok text := by
    simpa only [List.forall_mem_map] using hopens
  rw [houtcomes] at hresolved hopens ⊢
  have hfirst := hopens (.encrypted [1] (.ok older)) (by simp) (.decrypted older first) (by simp)
  have hsecond := hopens (.encrypted [2] (.ok newer)) (by simp) (.decrypted newer second) (by simp)
  rw [hfirst _ _ _ rfl rfl, hsecond _ _ _ rfl rfl, hresolved (.resolved third) (by simp) _ rfl]

end Custody

end SealedStream
