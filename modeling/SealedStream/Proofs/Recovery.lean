import SealedStream.Proofs.Lifetime

/-!
# Recovery

A generation over stored things writes a key pair first and the wrapped key
after it. If the second write is refused where the first took the place of a
lost pair, the old wrapped key stays beside a pair that does not open it, and
whoever reads it fails from then on, whatever becomes of the surroundings. This
is the one way to a state that no resolution recovers from.
-/

namespace SealedStream

namespace Holdings

/-- There is a wrapped key, and a pair that does not open it. -/
def Mismatched (s : Holdings) : Prop :=
  ∃ secret spec blob, s.pair = some (secret, spec) ∧ s.blob = some blob ∧
    ∀ key, Vault.unwrapped secret blob ≠ .ok key

/-- Beside a wrapped key, a new pair is in the place of a lost one. -/
structure Orphans (s s' : Holdings) : Prop where
  lost : s.pair = none
  replaced : s'.pair.isSome
  stored : s.blob.isSome
  kept : s'.blob = s.blob

theorem Mismatched.of_without {s : Holdings} {config : Config} {keyName : String}
    (h : (s.without config keyName).Mismatched) : s.Mismatched := by
  obtain ⟨secret, spec, blob, hpair, hblob, hclosed⟩ := h
  replace hpair : (if config.wrapAlias = keyName then none else s.pair) = some (secret, spec) :=
    hpair
  split at hpair
  · cases hpair
  · exact ⟨secret, spec, blob, hpair, hblob, hclosed⟩

end Holdings

namespace Custodian

variable {c : Custodian} {h : Host} {s : Holdings}

/-- Where the pair is valid, only a mismatch stands in the way of reading what is wrapped, and a key
is read if there is a wrapped one with its pair. -/
theorem recovered_ok_iff {locked : Bool} {now : Time} {p : Option SymmetricKey → Prop}
    (wrapAlias : String) (hl : ¬ locked)
    (hpair : ∀ secret spec, s.pair = some (secret, spec) → spec.IsValidAt now)
    (hp : ∀ key, p (some key)) :
    (∃ found, s.recovered wrapAlias locked now = .ok found ∧ p found) ↔
      ¬ s.Mismatched ∧ (s.pair.isSome ∧ s.blob.isSome ∨ p none) := by
  obtain ⟨direct, pair, blob⟩ := s
  cases blob with
  | none =>
    constructor
    · rintro ⟨found, hfound, h⟩
      cases hfound
      refine ⟨?_, .inr h⟩
      rintro ⟨_, _, _, -, ⟨⟩, -⟩
    · rintro ⟨-, ⟨-, ⟨⟩⟩ | h⟩
      exact ⟨none, rfl, h⟩
  | some blob =>
    cases pair with
    | none =>
      have hrecovered : Holdings.recovered ⟨direct, none, some blob⟩ wrapAlias locked now =
          .ok none := by simp [Holdings.recovered, hl]
      rw [hrecovered]
      constructor
      · rintro ⟨found, hfound, h⟩
        cases hfound
        refine ⟨?_, .inr h⟩
        rintro ⟨_, _, _, ⟨⟩, -, -⟩
      · rintro ⟨-, ⟨⟨⟩, -⟩ | h⟩
        exact ⟨none, rfl, h⟩
    | some pair =>
      obtain ⟨secret, spec⟩ := pair
      have hrecovered : Holdings.recovered ⟨direct, some (secret, spec), some blob⟩ wrapAlias locked
          now = ((Vault.unwrapped secret blob).mapError .unwrap).map some := by
        simp only [Holdings.recovered, hl, hpair secret spec rfl, if_true]
        rfl
      rw [hrecovered]
      cases hopen : Vault.unwrapped secret blob with
      | ok key =>
        constructor
        · rintro -
          refine ⟨?_, .inl ⟨rfl, rfl⟩⟩
          rintro ⟨_, _, _, ⟨⟩, ⟨⟩, hclosed⟩
          exact hclosed key hopen
        · rintro -
          exact ⟨some key, rfl, hp key⟩
      | error defect =>
        constructor
        · rintro ⟨found, hfound, -⟩
          cases hfound
        · rintro ⟨hmatched, -⟩
          refine absurd ⟨secret, spec, blob, rfl, rfl, fun key hkey => ?_⟩ hmatched
          rw [hopen] at hkey
          cases hkey

/-- A mismatch stands in the way of every search but that for a direct key. -/
theorem finds_ok_iff {p : Option SymmetricKey → Prop} (hl : ¬ h.vault.locked)
    (hpair : ∀ secret spec, s.pair = some (secret, spec) → spec.IsValidAt h.machine.now)
    (hp : ∀ key, p (some key)) :
    (∃ found, c.Finds h s = .ok found ∧ p found) ↔
      c.hostTier = .modernDirect ∧ s.direct.isSome ∨
        ¬ s.Mismatched ∧ (s.pair.isSome ∧ s.blob.isSome ∨ p none) := by
  rw [← recovered_ok_iff c.config.wrapAlias hl hpair hp, Finds]
  cases c.hostTier with
  | modernDirect => cases hdirect : s.direct <;> simp [Holdings.found, hdirect, hl, hp]
  | legacyWrapped => simp [Holdings.found]
  | unsupported => simp [Holdings.found]

theorem direct_of_finds_none (hfinds : c.Finds h s = .ok none)
    (htier : c.hostTier = .modernDirect) : s.direct = none := by
  rw [Finds, htier, Holdings.found] at hfinds
  split at hfinds
  · cases hfinds
  · cases hdirect : s.direct with
    | none => rfl
    | some key =>
      rw [hdirect] at hfinds
      cases hfinds

/-- Without a key of the vault's own where it looks for one, a custodian finds what is recovered. -/
theorem recovered_of_finds {found : Option SymmetricKey} (hfinds : c.Finds h s = .ok found)
    (hnone : c.hostTier = .modernDirect → s.direct = none) :
    s.recovered c.config.wrapAlias h.vault.locked h.machine.now = .ok found := by
  rw [Finds] at hfinds
  cases htier : c.hostTier with
  | modernDirect =>
    rw [htier, Holdings.found, hnone htier] at hfinds
    split at hfinds
    · cases hfinds
    · exact hfinds
  | legacyWrapped => rwa [htier] at hfinds
  | unsupported => rwa [htier] at hfinds

/-- If nothing is found, a wrapped key has lost its pair. -/
theorem pair_of_finds_none (hfinds : c.Finds h s = .ok none) (hblob : s.blob.isSome) :
    s.pair = none := by
  have hrecovered := recovered_of_finds hfinds (direct_of_finds_none hfinds)
  obtain ⟨blob, hblob⟩ := Option.isSome_iff_exists.mp hblob
  cases hpair : s.pair with
  | none => rfl
  | some pair =>
    simp only [Holdings.recovered, hblob, hpair] at hrecovered
    split at hrecovered
    · cases hrecovered
    · split at hrecovered
      · cases hopen : Vault.unwrapped pair.1 blob <;> rw [hopen] at hrecovered <;> cases hrecovered
      · cases hrecovered

/-- The writes of a generation leave no mismatch, except where the first of them replaces a lost
pair. -/
theorem mismatched_of_minting {m : Minted} {mid final : Holdings}
    (hfinds : c.Finds h s = .ok none) (hm : Minting c h.machine.now s m mid final) :
    (mid.Mismatched → s.Mismatched ∨ s.Orphans mid) ∧ (final.Mismatched → s.Mismatched) := by
  cases hm with
  | direct key htier => exact ⟨.inl, id⟩
  | @wrapped key secret spec bytes htier hspec hopen =>
    constructor
    · -- What is stored was there before, and then its pair was not.
      rintro ⟨_, _, blob, -, hblob, -⟩
      have hstored : s.blob.isSome := Option.isSome_of_eq_some hblob
      exact .inr ⟨pair_of_finds_none hfinds hstored, rfl, hstored, rfl⟩
    · rintro ⟨_, _, _, ⟨⟩, ⟨⟩, hclosed⟩
      exact absurd hopen (hclosed key)

/-- Where every write is taken, a custodian has a key or makes one, unless the search fails or a new
key pair would be valid for longer than the clock goes. -/
theorem lookUp_ok_iff (hs : h.Holds c.config s) (hu : c.config.Usable)
    (hsupported : c.hostTier.isSupported) (hl : ¬ h.vault.locked) (haccepts : h.Accepts) :
    (∃ k h', c.lookUp h = (.ok k, h')) ↔ ∃ found, c.Finds h s = .ok found ∧
      (found.isSome ∨ c.hostTier = .modernDirect ∨
        (h.machine.now.add? c.config.keyPairValidity).isSome) := by
  have hend := lookUp_end hs hu.valid hu.apart hsupported
  generalize c.lookUp h = outcome at hend ⊢
  cases hend with
  | failed hf _ _ => simp [hf]
  | found hf _ _ _ => simp [hf]
  | refused hf hnot _ _ =>
    constructor
    · rintro ⟨k, h', ⟨⟩⟩
    · rintro ⟨found, hfound, hready⟩
      rw [hf] at hfound
      cases hfound
      obtain ⟨⟨⟩⟩ | htier | hreaches := hready
      · exact absurd ⟨haccepts, hl, fun hne => absurd htier hne⟩ hnot
      · exact absurd (ready_of_usable hu hl haccepts hreaches) hnot
  | unrecorded _ _ hnot _ _ => exact absurd haccepts hnot
  | generated hf hm _ _ =>
    refine ⟨fun _ => ⟨none, hf, .inr ?_⟩, fun _ => ⟨_, _, rfl⟩⟩
    cases hm with
    | direct key htier => exact .inl htier
    | wrapped htier hspec hopen =>
      rw [KeyPairSpec.validFor?] at hspec
      obtain ⟨notAfter, hadd, -⟩ := Option.map_eq_some_iff.mp hspec
      exact .inr (Option.isSome_of_eq_some hadd)

end Custodian

/-- The last write of a generation is not made where an event breaks it off. -/
def Event.Breaks (h : Host) : Event → Prop
  | .stop => True
  | _ => ¬ h.Accepts

namespace Custody

variable {config : Config} {level : UInt32} {p : Custody} {s : Holdings}

/-- The holdings after something has been done, and how they can have come to a mismatch: only where
the last write of a generation is not made. -/
def Ends (config : Config) (s : Holdings) (broken : Prop) (h : Host) : Prop :=
  ∃ s', h.Holds config s' ∧ (s'.Mismatched → s.Mismatched ∨ broken ∧ s.Orphans s')

theorem Ends.of_same {broken : Prop} {h h' : Host} (he : Ends config s broken h)
    (same : h.SameStores h') : Ends config s broken h' := by
  obtain ⟨s', hs', horigin⟩ := he
  exact ⟨s', hs'.of_same same, horigin⟩

theorem resolve_fresh_iff {h : Host} (hu : config.Usable) (hs : h.Holds config s)
    (hsupported : (config.thresholds.tierAt level).isSupported) (hl : ¬ h.vault.locked)
    (haccepts : h.Accepts)
    (hpair : ∀ secret spec, s.pair = some (secret, spec) → spec.IsValidAt h.machine.now) :
    (∃ k p', resolve ⟨{ platform := ⟨level⟩, config }, h⟩ = (.ok k, p')) ↔
      config.thresholds.tierAt level = .modernDirect ∧ s.direct.isSome ∨
        ¬ s.Mismatched ∧ (s.pair.isSome ∧ s.blob.isSome ∨
          config.thresholds.tierAt level = .modernDirect ∨
          (h.machine.now.add? config.keyPairValidity).isSome) := by
  let c : Custodian := { platform := ⟨level⟩, config }
  have hlookUp : (∃ k p', resolve ⟨c, h⟩ = (.ok k, p')) ↔ ∃ k h', c.lookUp h = (.ok k, h') := by
    rw [resolve_of_uncached rfl]
    rcases c.lookUp h with ⟨_ | _, _⟩ <;> simp
  rw [hlookUp, c.lookUp_ok_iff hs hu hsupported hl haccepts,
    Custodian.finds_ok_iff hl hpair fun key => .inl rfl]
  simp only [Option.isSome_none, Bool.false_eq_true, false_or]
  rfl

section Step

variable (hv : config.validate = .ok ()) (hne : config.wrappedKeySetting ≠ config.levelSetting)
  (hp : Under config level p) (hs : p.host.Holds config s)

include hv hne hp hs

theorem resolve_ends :
    Ends config s (¬ p.host.Accepts) (resolve p).2.host ∧ Under config level (resolve p).2 := by
  cases hcached : p.custodian.cached with
  | some k =>
    rw [resolve_of_cached hcached]
    exact ⟨⟨s, hs, .inl⟩, hp⟩
  | none =>
    have hend := Custodian.lookUp_end (c := p.custodian) (hp.config_eq ▸ hs) (hp.config_eq ▸ hv)
      (hp.config_eq ▸ hne) (by rw [hp.tier_eq]; exact hp.supported)
    rw [resolve_of_uncached hcached]
    generalize p.custodian.lookUp p.host = outcome at hend ⊢
    cases hend with
    | failed _ hs' _ => exact ⟨⟨s, hp.config_eq ▸ hs', .inl⟩, hp.of_custodian rfl⟩
    | found _ _ hs' _ => exact ⟨⟨s, hp.config_eq ▸ hs', .inl⟩, hp.with_cached _ _⟩
    | refused _ _ hs' _ => exact ⟨⟨s, hp.config_eq ▸ hs', .inl⟩, hp.of_custodian rfl⟩
    | unrecorded hf hm hrefused hs' _ =>
      refine ⟨⟨_, hp.config_eq ▸ hs', fun h => ?_⟩, hp.of_custodian rfl⟩
      exact ((Custodian.mismatched_of_minting hf hm).1 h).imp id fun horphans =>
        ⟨hrefused, horphans⟩
    | generated hf hm hs' _ =>
      exact ⟨⟨_, hp.config_eq ▸ hs', fun h => .inl ((Custodian.mismatched_of_minting hf hm).2 h)⟩,
        hp.with_cached _ _⟩

theorem step_ends (e : Event) (he : ∀ higher, e.level? = some higher →
    (config.thresholds.tierAt higher).isSupported) :
    Ends config s (e.Breaks p.host) (step e p).2.host ∧
      Under config (e.levelAfter level) (step e p).2 := by
  cases e with
  | start higher =>
    rw [hp.step_start hv]
    exact ⟨⟨s, hs, .inl⟩, rfl, rfl, he higher rfl⟩
  | resolve => exact resolve_ends hv hne hp hs
  | stop =>
    cases hcached : p.custodian.cached with
    | some k =>
      simp only [step_stop, hcached]
      exact ⟨⟨s, hs, .inl⟩, hp⟩
    | none =>
      have hend := Custodian.lookUpStopped_end (c := p.custodian) (hp.config_eq ▸ hs)
        (hp.config_eq ▸ hv)
      simp only [step_stop, hcached]
      refine ⟨?_, hp.of_custodian rfl⟩
      generalize (p.custodian.lookUpStopped p.host).2 = host at hend ⊢
      cases hend with
      | idle hs' _ => exact ⟨s, hp.config_eq ▸ hs', .inl⟩
      | minted hf hm hs' _ =>
        refine ⟨_, hp.config_eq ▸ hs', fun h => ?_⟩
        exact ((Custodian.mismatched_of_minting hf hm).1 h).imp id fun horphans =>
          ⟨trivial, horphans⟩
  | invalidate => exact ⟨⟨s, hs, .inl⟩, hp.with_cached _ _⟩
  | encrypt text =>
    obtain ⟨hends, hp'⟩ := resolve_ends hv hne hp hs
    have hend := encrypt_end hp.isProtected text
    rw [step_encrypt]
    generalize encrypt text p = outcome at hend ⊢
    cases hend with
    | failed hresolve =>
      rw [hresolve] at hends hp'
      exact ⟨hends, hp'⟩
    | sealed hresolve _ same _ =>
      rw [hresolve] at hends hp'
      exact ⟨hends.of_same same, hp'.of_custodian rfl⟩
    | tooLong hresolve _ same _ =>
      rw [hresolve] at hends hp'
      exact ⟨hends.of_same same, hp'.of_custodian rfl⟩
  | decrypt stream =>
    obtain ⟨hends, hp'⟩ := resolve_ends hv hne hp hs
    have hend := decrypt_end hp.isProtected stream
    rw [step_decrypt]
    generalize decrypt stream p = outcome at hend ⊢
    cases hend with
    | unheaded _ => exact ⟨⟨s, hs, .inl⟩, hp⟩
    | failed _ hresolve =>
      rw [hresolve] at hends hp'
      exact ⟨hends, hp'⟩
    | answered _ hresolve _ =>
      rw [hresolve] at hends hp'
      exact ⟨hends, hp'⟩
  | delete keyName =>
    refine ⟨?_, hp.of_custodian rfl⟩
    obtain same | ⟨hentries, hsettings⟩ := Host.deleteKey_end keyName p.host
    · exact ⟨s, hs.of_same same, .inl⟩
    · exact ⟨_, hs.erase hentries hsettings, fun h => .inl h.of_without⟩
  | surround around =>
    exact ⟨⟨s, hs.of_same (p.host.within_same around), .inl⟩, hp.of_custodian rfl⟩

end Step

/-- An event in which a generation is broken off, and that leaves a new pair in the place of a lost
one, beside the wrapped key that the lost one was for. -/
def Orphaning (config : Config) (e : Event) (p : Custody) : Prop :=
  ∃ s s', p.host.Holds config s ∧ (step e p).2.host.Holds config s' ∧ e.Breaks p.host ∧
    s.Orphans s'

theorem run_ends {events : List Event} (hv : config.validate = .ok ())
    (hne : config.wrappedKeySetting ≠ config.levelSetting) (hp : Under config level p)
    (hs : p.host.Holds config s)
    (hlevels : ∀ higher ∈ events.filterMap Event.level?,
      (config.thresholds.tierAt higher).isSupported) :
    ∃ s', (run events p).2.host.Holds config s' ∧
      (s'.Mismatched → s.Mismatched ∨ ∃ before e after, events = before ++ e :: after ∧
        Orphaning config e (run before p).2) := by
  induction events generalizing level p s with
  | nil => exact ⟨s, hs, .inl⟩
  | cons e rest ih =>
    have he : ∀ higher, e.level? = some higher → (config.thresholds.tierAt higher).isSupported :=
      fun higher hl => hlevels higher (List.mem_filterMap.mpr ⟨e, List.mem_cons_self .., hl⟩)
    have hrest : ∀ higher ∈ rest.filterMap Event.level?,
        (config.thresholds.tierAt higher).isSupported := by
      intro higher hmem
      obtain ⟨e', hmem', hl⟩ := List.mem_filterMap.mp hmem
      exact hlevels higher (List.mem_filterMap.mpr ⟨e', List.mem_cons_of_mem e hmem', hl⟩)
    obtain ⟨⟨s₁, hs₁, horigin⟩, hp₁⟩ := step_ends hv hne hp hs e he
    obtain ⟨s', hs', hlater⟩ := ih hp₁ hs₁ hrest
    refine ⟨s', hs', fun hm => ?_⟩
    -- A mismatch at the end comes of the rest, of this event, or was there from the beginning.
    obtain hm₁ | ⟨before, e', after, rfl, horphaning⟩ := hlater hm
    · obtain hm | horphans := horigin hm₁
      · exact .inl hm
      · exact .inr ⟨[], e, rest, rfl, s, s₁, hs, hs₁, horphans⟩
    · exact .inr ⟨e :: before, e', after, rfl, horphaning⟩

/-- Once writes are taken again, a new custodian has a key, except where the key pair does not open
the wrapped key and there is no direct key to be had, or where a new key pair would be valid for
longer than the clock goes. The first comes only of an event that replaced a lost pair and did not
get as far as the wrapped key. -/
theorem recovers_iff {level fresh : UInt32} {host final : Host} {p p' : Custody}
    {events : List Event} (hbegin : begin {} level host = .ok p)
    (hentries : host.vault.entries = .empty) (hvalues : host.settings.values = .empty)
    (hlevels : ∀ l ∈ level :: fresh :: events.filterMap Event.level?,
      (({} : Config).thresholds.tierAt l).isSupported)
    (hfinal : (run events p).2.host = final) (hfresh : begin {} fresh final = .ok p')
    (hl : ¬ final.vault.locked) (haccepts : final.Accepts)
    (hwindow : ∀ secret spec, final.vault.entries.get? ({} : Config).wrapAlias =
      some (.keyPair secret spec) → spec.IsValidAt final.machine.now) :
    ∃ s, final.Holds {} s ∧
      ((∃ k p'', resolve p' = (.ok k, p'')) ↔
        ({} : Config).thresholds.tierAt fresh = .modernDirect ∧ s.direct.isSome ∨
          ¬ s.Mismatched ∧ (s.pair.isSome ∧ s.blob.isSome ∨
            ({} : Config).thresholds.tierAt fresh = .modernDirect ∨
            (final.machine.now.add? ({} : Config).keyPairValidity).isSome)) ∧
      (s.Mismatched → ∃ before e after, events = before ++ e :: after ∧
        Orphaning {} e (run before p).2) := by
  have hu := Config.usable_default
  obtain ⟨-, rfl⟩ := begin_ok.mp hbegin
  obtain ⟨-, rfl⟩ := begin_ok.mp hfresh
  obtain ⟨hlevel, hlevels⟩ := List.forall_mem_cons.mp hlevels
  obtain ⟨hsupported, hlevels⟩ := List.forall_mem_cons.mp hlevels
  have hp : Under {} level ⟨{ platform := ⟨level⟩, config := {} }, host⟩ := ⟨rfl, rfl, hlevel⟩
  have hs : host.Holds {} {} := .of_empty hentries hvalues
  obtain ⟨s, hs', horigin⟩ := run_ends hu.valid hu.apart hp hs hlevels
  rw [hfinal] at hs'
  refine ⟨s, hs', ?_, fun hm => (horigin hm).resolve_left ?_⟩
  · have hpair : ∀ secret spec, s.pair = some (secret, spec) →
        spec.IsValidAt final.machine.now := by
      intro secret spec hpair
      exact hwindow secret spec (by rw [hs'.pair, hpair]; rfl)
    exact resolve_fresh_iff hu hs' hsupported hl haccepts hpair
  · rintro ⟨_, _, _, ⟨⟩, -, -⟩

/-- A custodian starts after another one's key pair was deleted. -/
theorem recovers_iff_deleted :
    ∃ p p', begin {} 19 (.fresh { entropy := .ofSeed 7, now := .epoch }) = .ok p ∧
      begin {} 22 (run [.resolve, .delete "wrap_local_protection"] p).2.host = .ok p' ∧
      ∃ s, p'.host.Holds {} s ∧
        ((∃ k p'', resolve p' = (.ok k, p'')) ↔
          ({} : Config).thresholds.tierAt 22 = .modernDirect ∧ s.direct.isSome ∨
            ¬ s.Mismatched ∧ (s.pair.isSome ∧ s.blob.isSome ∨
              ({} : Config).thresholds.tierAt 22 = .modernDirect ∨
              (p'.host.machine.now.add? ({} : Config).keyPairValidity).isSome)) := by
  let p : Custody :=
    ⟨{ platform := ⟨19⟩, config := {} }, .fresh { entropy := .ofSeed 7, now := .epoch }⟩
  have hbegin : begin {} 19 (.fresh { entropy := .ofSeed 7, now := .epoch }) = .ok p := rfl
  obtain ⟨final, hfinal, hl, hpath, hbacking, hlost⟩ :
      ∃ final, (run [.resolve, .delete "wrap_local_protection"] p).2.host = final ∧
        ¬ final.vault.locked ∧ final.vault.path.isNone ∧ final.settings.backing = .memory ∧
        (final.vault.entries.get? ({} : Config).wrapAlias).isNone :=
    ⟨_, rfl, by decide +kernel⟩
  have hlevels : ∀ l ∈ [(19 : UInt32), 22], (({} : Config).thresholds.tierAt l).isSupported := by
    simp only [List.mem_cons, List.not_mem_nil, or_false]
    rintro l (rfl | rfl) <;> decide
  have hfresh : begin {} 22 final = .ok ⟨{ platform := ⟨22⟩, config := {} }, final⟩ := rfl
  have haccepts : final.Accepts := by
    rw [Host.Accepts, Option.isNone_iff_eq_none.mp hpath, hbacking]
    exact writable_memory _
  obtain ⟨s, hs, hiff, -⟩ := recovers_iff hbegin rfl rfl hlevels hfinal hfresh hl haccepts
    fun secret spec hpair => by rw [hpair] at hlost; cases hlost
  exact ⟨p, _, hbegin, hfinal ▸ hfresh, s, hs, hiff⟩

/-- A key pair is deleted, and the settings refuse the wrapped key for the pair that replaces it.
When they take writes again, no key is to be had. -/
theorem unrecovered_after_refusal :
    let around (backing : Backing) (seed : UInt64) : Surroundings :=
      { locked := false, path := none, backing, random := { seed := .replicate 32 0 }
        machine := { entropy := .ofSeed seed, now := .epoch } }
    let events : List Event := [.resolve, .delete "wrap_local_protection",
      .surround (around (.guarded true) 8), .start 19, .resolve, .surround (around .memory 9)]
    ∃ p p', begin {} 19 (.fresh { entropy := .ofSeed 7, now := .epoch }) = .ok p ∧
      begin {} 19 (run events p).2.host = .ok p' ∧ ¬ p'.host.vault.locked ∧ p'.host.Accepts ∧
      (∀ secret spec, p'.host.vault.entries.get? ({} : Config).wrapAlias =
        some (.keyPair secret spec) → spec.IsValidAt p'.host.machine.now) ∧
      ¬ ∃ k p'', resolve p' = (.ok k, p'') := by
  intro around events
  let p : Custody :=
    ⟨{ platform := ⟨19⟩, config := {} }, .fresh { entropy := .ofSeed 7, now := .epoch }⟩
  obtain ⟨final, hfinal, hl, hpath, hbacking, hwindow, hfails⟩ :
      ∃ final, (run events p).2.host = final ∧
        ¬ final.vault.locked ∧ final.vault.path.isNone ∧ final.settings.backing = .memory ∧
        (final.vault.entries.get? ({} : Config).wrapAlias).all (fun
          | .keyPair _ spec => decide (spec.IsValidAt final.machine.now)
          | .symmetric _ => true) ∧
        (resolve ⟨{ platform := ⟨19⟩, config := {} }, final⟩).1.isOk = false :=
    ⟨_, rfl, by decide +kernel⟩
  have haccepts : final.Accepts := by
    rw [Host.Accepts, Option.isNone_iff_eq_none.mp hpath, hbacking]
    exact writable_memory _
  refine ⟨p, ⟨{ platform := ⟨19⟩, config := {} }, final⟩, rfl, hfinal ▸ rfl, hl, haccepts, ?_, ?_⟩
  · intro secret spec hpair
    rw [hpair] at hwindow
    exact of_decide_eq_true hwindow
  · rintro ⟨k, p'', hresolve⟩
    rw [hresolve] at hfails
    cases hfails

end Custody

end SealedStream
