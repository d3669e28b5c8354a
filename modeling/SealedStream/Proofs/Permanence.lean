import SealedStream.Proofs.Migration

/-!
# The content key is permanent

Once a key could be had, every later custodian of no lower tier has the same
one, however often writes fail or a process ends between two of them. The
invariant is `Commits`: what the stores hold gives one key to whoever looks, or
none to anyone. A generation that is broken off leaves the second case as it
was, or turns it into the first.
-/

namespace SealedStream

namespace Holdings

/-- The one key that the holdings give, if they give one: a direct key to a modern custodian, a
wrapped key to all as long as there is no direct one. -/
inductive Commits (tier : Tier) : Holdings → Option SymmetricKey → Prop
  | blank (pair : Option (SecretKey × KeyPairSpec)) : Commits tier ⟨none, pair, none⟩ none
  | wrapped {secret : SecretKey} {blob : Bytes} {key : SymmetricKey} (spec : KeyPairSpec) :
      Vault.unwrapped secret blob = .ok key →
        Commits tier ⟨none, some (secret, spec), some blob⟩ (some key)
  | direct (key : SymmetricKey) (pair : Option (SecretKey × KeyPairSpec)) (blob : Option Bytes) :
      tier = .modernDirect → Commits tier ⟨some key, pair, blob⟩ (some key)

/-- A higher tier finds what a lower one left. -/
theorem Commits.climb {tier higher : Tier} {s : Holdings} {key? : Option SymmetricKey}
    (h : s.Commits tier key?) (hle : tier = .modernDirect → higher = .modernDirect) :
    s.Commits higher key? := by
  cases h with
  | blank pair => exact .blank pair
  | wrapped spec hopen => exact .wrapped spec hopen
  | direct key pair blob htier => exact .direct key pair blob (hle htier)

end Holdings

/-- Why a key that exists cannot be had now. -/
inductive Withheld (config : Config) : Failure SealError → Prop
  | locked : Withheld config (.error (.keyVault .locked))
  | expired : Withheld config (.error (.keyVault (.keyExpired config.wrapAlias)))

namespace Custodian

variable {c : Custodian} {h : Host} {s : Holdings}

theorem finds_of_commits {key : SymmetricKey} (hc : s.Commits c.hostTier (some key)) :
    c.Finds h s = .ok (some key) ∨
      ∃ e, c.Finds h s = .error e ∧ Withheld c.config (.error (.keyVault e)) := by
  cases hc with
  | wrapped spec hopen =>
    by_cases hl : h.vault.locked
    · refine .inr ⟨.locked, ?_, .locked⟩
      cases htier : c.hostTier <;> simp [Finds, Holdings.found, Holdings.recovered, htier, hl]
    · by_cases hv : spec.IsValidAt h.machine.now
      · refine .inl ?_
        cases htier : c.hostTier <;>
          simp [Finds, Holdings.found, Holdings.recovered, htier, hl, hv, hopen, Except.map,
            Except.mapError]
      · refine .inr ⟨.keyExpired c.config.wrapAlias, ?_, .expired⟩
        cases htier : c.hostTier <;>
          simp [Finds, Holdings.found, Holdings.recovered, htier, hl, hv]
  | direct key pair blob htier =>
    by_cases hl : h.vault.locked
    · exact .inr ⟨.locked, by simp [Finds, Holdings.found, htier, hl], .locked⟩
    · exact .inl (by simp [Finds, Holdings.found, htier, hl])

/-- Minting over holdings that give no key leaves none, and recording then gives the key; a
direct key is given from the first write on. -/
theorem commits_of_minting {now : Time} {m : Minted} {mid final : Holdings}
    (hc : s.Commits c.hostTier none) (hm : Minting c now s m mid final) :
    (mid.Commits c.hostTier none ∨ mid.Commits c.hostTier (some m.key)) ∧
      final.Commits c.hostTier (some m.key) := by
  cases hc with
  | blank pair =>
    cases hm with
    | direct key htier =>
      exact ⟨.inr (.direct key pair none htier), .direct key pair none htier⟩
    | @wrapped key secret spec bytes htier hspec hopen =>
      exact ⟨.inl (.blank _), .wrapped spec hopen⟩

theorem finds_of_blank (hc : s.Commits c.hostTier none) :
    c.Finds h s = .ok none ∨ c.Finds h s = .error .locked := by
  cases hc with
  | blank pair =>
    by_cases hl : h.vault.locked
    · cases htier : c.hostTier <;> simp [Finds, Holdings.found, Holdings.recovered, htier, hl]
    · refine .inl ?_
      cases htier : c.hostTier <;> simp [Finds, Holdings.found, Holdings.recovered, htier, hl]

theorem lookUp_commits {key? : Option SymmetricKey} (hv : c.config.validate = .ok ())
    (hne : c.config.wrappedKeySetting ≠ c.config.levelSetting)
    (hsupported : c.hostTier.isSupported) (hs : h.Holds c.config s)
    (hc : s.Commits c.hostTier key?) :
    ∃ s' key?', (c.lookUp h).2.Holds c.config s' ∧ s'.Commits c.hostTier key?' ∧
      (∀ key, key? = some key → key?' = some key) ∧
      (∀ k, (c.lookUp h).1 = .ok k → key?' = some k.key) ∧
      (∀ e, (c.lookUp h).1 = .error e → key?.isSome → Withheld c.config e) := by
  have hend := lookUp_end hs hv hne hsupported
  generalize c.lookUp h = outcome at hend ⊢
  cases key? with
  | some key =>
    obtain hfinds | ⟨e, hfinds, hwithheld⟩ := finds_of_commits (h := h) hc
    · cases hend with
      | failed hf hs' _ => rw [hfinds] at hf; cases hf
      | found hf _ hs' _ =>
        rw [hfinds] at hf
        cases hf
        exact ⟨s, some _, hs', hc, fun _ => id, fun k hk => (by cases hk; rfl),
          fun e he => (by cases he)⟩
      | refused hf _ _ _ => rw [hfinds] at hf; cases hf
      | unrecorded hf _ _ _ _ => rw [hfinds] at hf; cases hf
      | generated hf _ _ _ => rw [hfinds] at hf; cases hf
    · cases hend with
      | failed hf hs' _ =>
        rw [hfinds] at hf
        cases hf
        exact ⟨s, some key, hs', hc, fun _ => id, fun k hk => (by cases hk),
          fun e he _ => by cases he; exact hwithheld⟩
      | found hf _ _ _ => rw [hfinds] at hf; cases hf
      | refused hf _ _ _ => rw [hfinds] at hf; cases hf
      | unrecorded hf _ _ _ _ => rw [hfinds] at hf; cases hf
      | generated hf _ _ _ => rw [hfinds] at hf; cases hf
  | none =>
    have hnothing : ∀ e, outcome.1 = .error e → (none : Option SymmetricKey).isSome →
        Withheld c.config e := fun _ _ h => by cases h
    cases hend with
    | failed _ hs' _ => exact ⟨s, none, hs', hc, nofun, fun k hk => (by cases hk), hnothing⟩
    | found hf _ _ _ =>
      obtain hfinds | hfinds := finds_of_blank (h := h) hc
      · rw [hfinds] at hf
        cases hf
      · rw [hfinds] at hf
        cases hf
    | refused _ _ hs' _ => exact ⟨s, none, hs', hc, nofun, fun k hk => (by cases hk), hnothing⟩
    | unrecorded _ hm _ hs' _ =>
      obtain hmid | hmid := (commits_of_minting hc hm).1
      · exact ⟨_, none, hs', hmid, nofun, fun k hk => (by cases hk), hnothing⟩
      · exact ⟨_, _, hs', hmid, nofun, fun k hk => (by cases hk), hnothing⟩
    | generated _ hm hs' _ =>
      refine ⟨_, _, hs', (commits_of_minting hc hm).2, nofun, fun k hk => ?_, hnothing⟩
      cases hk
      rfl

theorem lookUpStopped_commits {key? : Option SymmetricKey} (hv : c.config.validate = .ok ())
    (hs : h.Holds c.config s) (hc : s.Commits c.hostTier key?) :
    ∃ s' key?', (c.lookUpStopped h).2.Holds c.config s' ∧ s'.Commits c.hostTier key?' ∧
      ∀ key, key? = some key → key?' = some key := by
  have hend := lookUpStopped_end hs hv
  generalize (c.lookUpStopped h).2 = host at hend ⊢
  cases hend with
  | idle hs' _ => exact ⟨s, key?, hs', hc, fun _ => id⟩
  | minted hf hm hs' _ =>
    cases key? with
    | some key =>
      obtain hfinds | ⟨e, hfinds, -⟩ := finds_of_commits (h := h) hc
      · rw [hf] at hfinds
        cases hfinds
      · rw [hf] at hfinds
        cases hfinds
    | none =>
      obtain hmid | hmid := (commits_of_minting hc hm).1
      · exact ⟨_, none, hs', hmid, nofun⟩
      · exact ⟨_, _, hs', hmid, nofun⟩

end Custodian

/-- Tiers in their order. -/
def Tier.rank : Tier → Nat
  | .unsupported => 0
  | .legacyWrapped => 1
  | .modernDirect => 2

namespace Custody

/-- A custody under which the stores commit to a key, or to none yet. -/
structure Keeps (config : Config) (level : UInt32) (p : Custody) (key? : Option SymmetricKey) :
    Prop extends Under config level p where
  holds : ∃ s, p.host.Holds config s ∧ s.Commits (config.thresholds.tierAt level) key?
  cached : ∀ k, p.custodian.cached = some k → key? = some k.key

variable {config : Config} {level : UInt32} {p p' : Custody} {key? : Option SymmetricKey}

/-- Whatever leaves the custodian and the contents of the stores alone. -/
theorem Keeps.of_same (hp : Keeps config level p key?) (hc : p'.custodian = p.custodian)
    (same : p.host.SameStores p'.host) : Keeps config level p' key? := by
  obtain ⟨s, hs, hcommits⟩ := hp.holds
  exact ⟨hp.of_custodian hc, ⟨s, hs.of_same same, hcommits⟩, hc ▸ hp.cached⟩

/-- What an answered event tells of the key that it was answered under. -/
def Fits (config : Config) (key : SymmetricKey) : Outcome → Prop
  | .resolved answer =>
    (∃ k, answer = .ok k ∧ k.key = key) ∨ ∃ e, answer = .error e ∧ Withheld config e
  | .decrypted stream answer => ∀ text, IsSealed key text stream →
    answer = .ok text ∨ ∃ e, answer = .error e ∧ Withheld config e
  | _ => True

/-- What an answered event shows of the key that is committed to from then on. -/
def Shows (key? : Option SymmetricKey) : Outcome → Prop
  | .resolved (.ok k) => key? = some k.key
  | .encrypted text (.ok stream) => ∃ key, key? = some key ∧ IsSealed key text stream
  | _ => True

theorem start_keeps (higher : UInt32) (hp : Keeps config level p key?)
    (hle : (config.thresholds.tierAt level).rank ≤ (config.thresholds.tierAt higher).rank) :
    Keeps config higher ⟨{ platform := ⟨higher⟩, config }, p.host⟩ key? := by
  have hsupported := hp.supported
  obtain ⟨s, hs, hcommits⟩ := hp.holds
  refine ⟨⟨rfl, rfl, ?_⟩, ⟨s, hs, hcommits.climb fun hmodern => ?_⟩, nofun⟩
  · revert hle hsupported
    cases config.thresholds.tierAt level <;> cases config.thresholds.tierAt higher <;> decide
  · revert hle
    rw [hmodern]
    cases config.thresholds.tierAt higher <;> decide

theorem stop_keeps (hv : config.validate = .ok ()) (hp : Keeps config level p key?) :
    ∃ key?', Keeps config level (step .stop p).2 key?' ∧
      ∀ key, key? = some key → key?' = some key := by
  cases hcached : p.custodian.cached with
  | some k =>
    simp only [step_stop, hcached]
    exact ⟨key?, hp, fun _ => id⟩
  | none =>
    obtain ⟨s, hs, hcommits⟩ := hp.holds
    obtain ⟨s', key?', hs', hcommits', hgrows⟩ :=
      Custodian.lookUpStopped_commits (c := p.custodian) (hp.config_eq ▸ hv) (hp.config_eq ▸ hs)
        (hp.tier_eq ▸ hcommits)
    rw [hp.config_eq] at hs'
    rw [hp.tier_eq] at hcommits'
    simp only [step_stop, hcached]
    exact ⟨key?', ⟨hp.of_custodian rfl, ⟨s', hs', hcommits'⟩,
      fun k hk => hgrows _ (hp.cached k hk)⟩, hgrows⟩

section Step

variable (hv : config.validate = .ok ()) (hne : config.wrappedKeySetting ≠ config.levelSetting)

include hv hne

theorem resolve_keeps (hp : Keeps config level p key?) :
    ∃ key?', Keeps config level (resolve p).2 key?' ∧ (∀ key, key? = some key → key?' = some key) ∧
      (∀ k, (resolve p).1 = .ok k → key?' = some k.key) ∧
      (∀ e, (resolve p).1 = .error e → key?.isSome → Withheld config e) := by
  cases hcached : p.custodian.cached with
  | some k =>
    rw [resolve_of_cached hcached]
    exact ⟨key?, hp, fun _ => id, fun k' hk => by cases hk; exact hp.cached k hcached, nofun⟩
  | none =>
    obtain ⟨s, hs, hcommits⟩ := hp.holds
    obtain ⟨s', key?', hs', hcommits', hgrows, hok, herror⟩ :=
      Custodian.lookUp_commits (c := p.custodian) (hp.config_eq ▸ hv) (hp.config_eq ▸ hne)
        hp.isProtected (hp.config_eq ▸ hs) (hp.tier_eq ▸ hcommits)
    rw [hp.config_eq] at hs' herror
    rw [hp.tier_eq] at hcommits'
    rw [resolve_of_uncached hcached]
    generalize p.custodian.lookUp p.host = outcome at hs' hok herror ⊢
    obtain ⟨answer, host⟩ := outcome
    cases answer with
    | error e =>
      exact ⟨key?', ⟨hp.of_custodian rfl, ⟨s', hs', hcommits'⟩,
        fun k hk => hgrows _ (hp.cached k hk)⟩, hgrows, hok, herror⟩
    | ok k =>
      refine ⟨key?', ⟨hp.with_cached _ _, ⟨s', hs', hcommits'⟩, fun k' hk => ?_⟩, hgrows, hok,
        herror⟩
      cases hk
      exact hok k rfl

theorem encrypt_keeps (text : Bytes) (hp : Keeps config level p key?) :
    ∃ key?', Keeps config level (encrypt text p).2 key?' ∧
      (∀ key, key? = some key → key?' = some key) ∧
      Shows key?' (.encrypted text (encrypt text p).1) := by
  obtain ⟨key?', hp', hgrows, hok, -⟩ := resolve_keeps hv hne hp
  refine ⟨key?', ?_⟩
  have hend := encrypt_end hp.isProtected text
  generalize encrypt text p = outcome at hend ⊢
  cases hend with
  | failed hresolve =>
    rw [hresolve] at hp'
    exact ⟨hp', hgrows, trivial⟩
  | @sealed k _ _ _ hresolve hsealed same _ =>
    rw [hresolve] at hp' hok
    exact ⟨hp'.of_same rfl same, hgrows, k.key, hok k rfl, hsealed⟩
  | tooLong hresolve _ same _ =>
    rw [hresolve] at hp'
    exact ⟨hp'.of_same rfl same, hgrows, trivial⟩

theorem decrypt_keeps (stream : Bytes) (hp : Keeps config level p key?) :
    ∃ key?', Keeps config level (decrypt stream p).2 key?' ∧
      (∀ key, key? = some key → key?' = some key) ∧
      ∀ key, key? = some key → Fits config key (.decrypted stream (decrypt stream p).1) := by
  have hend := decrypt_end hp.isProtected stream
  generalize decrypt stream p = outcome at hend ⊢
  cases hend with
  | unheaded hb =>
    exact ⟨key?, hp, fun _ => id, fun key _ text hsealed => absurd hsealed.begins hb⟩
  | failed _ hresolve =>
    obtain ⟨key?', hp', hgrows, -, herror⟩ := resolve_keeps hv hne hp
    rw [hresolve] at hp' herror
    refine ⟨key?', hp', hgrows, fun key hkey text _ => .inr ⟨_, rfl, herror _ rfl ?_⟩⟩
    rw [hkey]
    rfl
  | @answered k _ _ _ hresolve hanswer =>
    obtain ⟨key?', hp', hgrows, hok, -⟩ := resolve_keeps hv hne hp
    rw [hresolve] at hp' hok
    refine ⟨key?', hp', hgrows, fun key hkey text hsealed => .inl ?_⟩
    have hk : some key = some k.key := (hgrows key hkey).symm.trans (hok k rfl)
    exact (hanswer hsealed.length_le text).mpr (Option.some.inj hk ▸ hsealed)

/-- Nobody deletes a key, and no tier is below one before it. -/
def Admits (config : Config) (level : UInt32) : Event → Prop
  | .start higher =>
    (config.thresholds.tierAt level).rank ≤ (config.thresholds.tierAt higher).rank
  | .delete _ => False
  | _ => True

theorem step_keeps (e : Event) (hp : Keeps config level p key?) (he : Admits config level e) :
    ∃ key?', Keeps config (e.levelAfter level) (step e p).2 key?' ∧
      (∀ key, key? = some key → key?' = some key) ∧ Shows key?' (step e p).1 ∧
      ∀ key, key? = some key → Fits config key (step e p).1 := by
  cases e with
  | start higher =>
    rw [hp.step_start hv]
    exact ⟨key?, start_keeps higher hp he, fun _ => id, trivial, fun _ _ => trivial⟩
  | resolve =>
    obtain ⟨key?', hp', hgrows, hok, herror⟩ := resolve_keeps hv hne hp
    refine ⟨key?', hp', hgrows, ?_, fun key hkey => ?_⟩
    · rcases hresolve : resolve p with ⟨e | k, p'⟩
      · rw [step_resolve, hresolve]
        trivial
      · rw [step_resolve, hresolve]
        exact hok k (by rw [hresolve])
    · rcases hresolve : resolve p with ⟨e | k, p'⟩
      · rw [step_resolve, hresolve]
        exact .inr ⟨e, rfl, herror e (by rw [hresolve]) (by rw [hkey]; rfl)⟩
      · rw [step_resolve, hresolve]
        have hk : some key = some k.key :=
          (hgrows key hkey).symm.trans (hok k (by rw [hresolve]))
        exact .inl ⟨k, rfl, (Option.some.inj hk).symm⟩
  | stop =>
    obtain ⟨key?', hp', hgrows⟩ := stop_keeps hv hp
    refine ⟨key?', hp', hgrows, ?_⟩
    rw [step_stop]
    exact ⟨trivial, fun _ _ => trivial⟩
  | invalidate =>
    exact ⟨key?, ⟨hp.with_cached _ _, hp.holds, nofun⟩, fun _ => id, trivial, fun _ _ => trivial⟩
  | encrypt text =>
    obtain ⟨key?', hp', hgrows, hshows⟩ := encrypt_keeps hv hne text hp
    exact ⟨key?', hp', hgrows, hshows, fun _ _ => trivial⟩
  | decrypt stream =>
    obtain ⟨key?', hp', hgrows, hfits⟩ := decrypt_keeps hv hne stream hp
    exact ⟨key?', hp', hgrows, trivial, hfits⟩
  | delete keyName => exact he.elim
  | surround s => exact ⟨key?, hp.of_same rfl (p.host.within_same s), fun _ => id, trivial,
      fun _ _ => trivial⟩

/-- What an earlier answer says of a later one: a key that was had is the key that is had, and a
stream that was sealed gives back its text, unless the key is withheld. -/
def Agree (config : Config) (earlier later : Entry) : Prop :=
  (∀ k k', earlier.outcome = .resolved (.ok k) → later.outcome = .resolved (.ok k') →
    k'.key = k.key) ∧
    ∀ text stream answer, earlier.outcome = .encrypted text (.ok stream) →
      later.outcome = .decrypted stream answer →
        answer = .ok text ∨ ∃ e, answer = .error e ∧ Withheld config e

omit hv hne in
/-- What one outcome shows of a key is what all fit to. -/
theorem agree_of_shows {earlier later : Entry} (hshows : Shows key? earlier.outcome)
    (hfits : ∀ key, key? = some key → Fits config key later.outcome) :
    Agree config earlier later := by
  obtain ⟨_, earlier⟩ := earlier
  obtain ⟨_, later⟩ := later
  constructor
  · rintro k k' rfl rfl
    obtain ⟨_, hk, hkey⟩ | ⟨_, hk, -⟩ := hfits k.key hshows
    · cases hk
      exact hkey
    · cases hk
  · rintro text stream answer rfl rfl
    obtain ⟨key, hkey, hsealed⟩ := hshows
    exact hfits key hkey text hsealed

theorem run_keeps {events : List Event} (hp : Keeps config level p key?)
    (hlevels : (level :: events.filterMap Event.level?).Pairwise fun a b =>
      (config.thresholds.tierAt a).rank ≤ (config.thresholds.tierAt b).rank)
    (hdelete : ∀ keyName, .delete keyName ∉ events) :
    (run events p).1.Pairwise (Agree config) ∧
      ∀ key, key? = some key → ∀ entry ∈ (run events p).1, Fits config key entry.outcome := by
  induction events generalizing level p key? with
  | nil => exact ⟨.nil, fun _ _ _ h => nomatch h⟩
  | cons e rest ih =>
    have he : Admits config level e := by
      cases e with
      | start higher => exact (List.pairwise_cons.mp hlevels).1 higher (List.mem_cons_self ..)
      | delete keyName => exact hdelete keyName (List.mem_cons_self ..)
      | _ => trivial
    have hrest : (e.levelAfter level :: rest.filterMap Event.level?).Pairwise fun a b =>
        (config.thresholds.tierAt a).rank ≤ (config.thresholds.tierAt b).rank := by
      cases e with
      | start higher => exact (List.pairwise_cons.mp hlevels).2
      | _ => exact hlevels
    obtain ⟨key?', hp', hgrows, hshows, hfits⟩ := step_keeps hv hne e hp he
    obtain ⟨hagree, hlater⟩ := ih hp' hrest fun keyName hmem =>
      hdelete keyName (List.mem_cons_of_mem e hmem)
    refine ⟨List.pairwise_cons.mpr ⟨fun entry hmem => ?_, hagree⟩, fun key hkey => ?_⟩
    · exact agree_of_shows hshows fun key hkey => hlater key hkey entry hmem
    · intro entry hmem
      obtain rfl | hmem := List.mem_cons.mp hmem
      · exact hfits key hkey
      · exact hlater key (hgrows key hkey) entry hmem

end Step

/-- Over the whole of a lifetime that begins with nothing stored, all keys that are had are one key,
and what was sealed under it is opened, unless the key is withheld. -/
theorem key_permanent {config : Config} {level : UInt32} {host : Host} {p : Custody}
    {events : List Event} (hbegin : begin config level host = .ok p)
    (hentries : host.vault.entries = .empty) (hvalues : host.settings.values = .empty)
    (hnames : config.wrappedKeySetting ≠ config.levelSetting)
    (hsupported : (config.thresholds.tierAt level).isSupported)
    (hlevels : (level :: events.filterMap Event.level?).Pairwise fun a b =>
      (config.thresholds.tierAt a).rank ≤ (config.thresholds.tierAt b).rank)
    (hdelete : ∀ keyName, .delete keyName ∉ events) :
    (run events p).1.Pairwise (Agree config) := by
  obtain ⟨hv, rfl⟩ := begin_ok.mp hbegin
  have hkeeps : Keeps config level ⟨{ platform := ⟨level⟩, config }, host⟩ none :=
    ⟨⟨rfl, rfl, hsupported⟩, ⟨{}, .of_empty hentries hvalues, .blank none⟩, nofun⟩
  exact (run_keeps hv hnames hkeeps hlevels hdelete).1

/-- A first resolution is broken off; a second legacy custodian makes the key and seals, and after
the upgrade a modern one has the same key and opens the stream. -/
theorem key_permanent_upgrade :
    ∃ p k k' stream, begin {} 19 (.fresh { entropy := .ofSeed 7, now := .epoch }) = .ok p ∧
      let history := (run [.stop, .start 22, .resolve, .encrypt [1, 2], .start 23, .resolve,
        .invalidate, .decrypt stream] p).1
      history.Pairwise (Agree {}) ∧ k'.key = k.key ∧
      history.map Entry.outcome =
        [.quiet, .quiet, .resolved (.ok k), .encrypted [1, 2] (.ok stream), .quiet,
          .resolved (.ok k'), .quiet, .decrypted stream (.ok [1, 2])] := by
  obtain ⟨p, hbegin, hconfig, htier, huncached, hnow, hgenerated, hnone, hseals⟩ : ∃ p : Custody,
      begin {} 19 (.fresh { entropy := .ofSeed 7, now := .epoch }) = .ok p ∧
        let p₀ := (run [.stop, .start 22] p).2
        p₀.custodian.config = {} ∧ p₀.custodian.hostTier = .legacyWrapped ∧
        p₀.custodian.cached = none ∧ p₀.host.machine.now = .epoch ∧
        (resolve p₀).1.toOption.map ContentKey.source = some .generatedLegacy ∧
        ((resolve p₀).2.host.vault.entries.get? "aes_local_protection").isNone ∧
        (encrypt [1, 2] (resolve p₀).2).1.toOption.isSome :=
    ⟨⟨{ platform := ⟨19⟩, config := {} }, .fresh { entropy := .ofSeed 7, now := .epoch }⟩, rfl,
      rfl, by decide +kernel, by decide +kernel, by decide +kernel, by decide +kernel,
      by decide +kernel, by decide +kernel⟩
  simp only [run] at hconfig htier huncached hnow hgenerated hnone hseals
  generalize hstarted : (step (.start 22) (step .stop p).2).2 = p₀ at *
  obtain ⟨k, hk, hsource⟩ := map_toOption_eq_some.mp hgenerated
  obtain ⟨stream, hseals⟩ := isSome_toOption.mp hseals
  have hresolve : resolve p₀ = (.ok k, (resolve p₀).2) := Prod.ext hk rfl
  have hlevels : (19 :: [.stop, .start 22, .resolve, .encrypt [1, 2], .start 23, .resolve,
      .invalidate, .decrypt stream].filterMap Event.level?).Pairwise fun a b =>
        ((({} : Config).thresholds.tierAt a).rank ≤ (({} : Config).thresholds.tierAt b).rank) := by
    show ([19, 22, 23] : List UInt32).Pairwise _
    decide
  have hagree := key_permanent hbegin rfl rfl (by decide) (by decide) hlevels (by simp)
  -- That the key is not withheld is another matter: it is shared, and valid for long.
  obtain ⟨hkeeps, hpair, hp₁⟩ := shares_of_generated (by rw [hconfig]; rfl)
    (by rw [hconfig]; decide) htier huncached hresolve hsource
    (by rw [hconfig]; exact Option.isNone_iff_eq_none.mp hnone)
  have hevents : ∀ e ∈ [Event.encrypt [1, 2], .start 23, .resolve, .invalidate, .decrypt stream],
      e.Undisturbed p₀.custodian.config p₀.host.machine.now := by
    rw [hconfig, hnow]
    simp only [List.forall_mem_cons, List.not_mem_nil, Event.Undisturbed, false_imp_iff,
      implies_true]
    decide
  obtain ⟨-, hanswers⟩ := hp₁.run hkeeps hpair (by rw [hconfig]; rfl) List.mem_cons_self
    (by simp [ContentKey.migrated]) hevents
  simp only [run, List.forall_mem_cons, step_resolve, step_encrypt, step_decrypt, Prod.map_fst,
    Prod.map_snd, id, hseals, AnswersUnder] at hanswers
  obtain ⟨hsealed, -, ⟨k', -, hk'⟩, -, hopened, -⟩ := hanswers
  refine ⟨p, k, k', stream, hbegin, hagree, ?_, ?_⟩
  · have hkeys :=
      List.pairwise_iff_getElem.mp hagree 2 5 (by simp [run]) (by simp [run]) (by decide)
    simp only [run, hstarted, List.getElem_cons_succ, List.getElem_cons_zero, step_resolve,
      step_encrypt, Prod.map_fst, Prod.map_snd, id, hk, hk'] at hkeys
    exact hkeys.1 k k' rfl rfl
  · simp only [run, hstarted, List.map_cons, List.map_nil, fst_step_start, step_resolve,
      step_encrypt, step_decrypt, Prod.map_fst, Prod.map_snd, id, hk, hseals, hk',
      hopened [1, 2] (hsealed stream rfl)]
    rw [step_stop, step_invalidate]

end Custody

end SealedStream
