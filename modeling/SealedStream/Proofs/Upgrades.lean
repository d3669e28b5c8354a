import SealedStream.Proofs.Lifetime

/-!
# Upgrades and downgrades

In a lifetime without faults a modern custodian always finds one key and a legacy
custodian always finds one key. They are the same if a legacy custodian was the
first to look, since a modern one takes over what it finds. If a modern custodian
was first, the vault holds its key where a legacy one does not look: the legacy
custodian makes a key of its own, and what it seals only its own tier opens.
-/

namespace SealedStream

/-- The key is one that the vault holds as it is. -/
def KeySource.isDirect : KeySource → Bool
  | .vaultDirect => true
  | .generatedModern => true
  | _ => false

/-- The keys that the two tiers find, and the tier that was the first to look. -/
structure TierKeys where
  founder : Option Tier := none
  modern : Option SymmetricKey := none
  legacy : Option SymmetricKey := none

namespace TierKeys

def forTier (ks : TierKeys) : Tier → Option SymmetricKey
  | .modernDirect => ks.modern
  | _ => ks.legacy

theorem forTier_congr {ks : TierKeys} (h : ks.modern = ks.legacy) (tier tier' : Tier) :
    ks.forTier tier = ks.forTier tier' := by
  cases tier <;> cases tier' <;> simp [forTier, h]

/-- The key of a tier. A tier that no one looked for a key on has none, and any does for it. -/
def keyFor (ks : TierKeys) (tier : Tier) : SymmetricKey :=
  (ks.forTier tier).getD ⟨.replicate 32 0, .inr rfl⟩

theorem keyFor_eq {ks : TierKeys} {tier : Tier} {key : SymmetricKey}
    (h : ks.forTier tier = some key) : ks.keyFor tier = key := by
  rw [keyFor, h, Option.getD_some]

/-- A custodian of the tier has this key. It is a direct one only where the tier and the first one
are modern. -/
def Gives (ks : TierKeys) (tier : Tier) (k : ContentKey) : Prop :=
  ks.forTier tier = some k.key ∧ ∃ first, ks.founder = some first ∧
    (k.source.isDirect ↔ tier = .modernDirect ∧ first = .modernDirect)

/-- Whoever has a key is not the first to look. -/
theorem Gives.founder_or {ks : TierKeys} {tier : Tier} {k : ContentKey} (h : ks.Gives tier k)
    (other : Option Tier) : ks.founder.or other = ks.founder := by
  obtain ⟨-, first, hfirst, -⟩ := h
  rw [hfirst, Option.some_or]

/-- No key is lost or exchanged, and the first tier stays the first. -/
structure Grows (ks ks' : TierKeys) : Prop where
  founder : ∀ tier, ks.founder = some tier → ks'.founder = some tier
  key : ∀ tier key, ks.forTier tier = some key → ks'.forTier tier = some key

namespace Grows

variable {ks ks' ks'' : TierKeys}

theorem refl (ks : TierKeys) : ks.Grows ks := ⟨fun _ => id, fun _ _ => id⟩

theorem trans (h : ks.Grows ks') (h' : ks'.Grows ks'') : ks.Grows ks'' where
  founder tier hfounder := h'.founder tier (h.founder tier hfounder)
  key tier key hkey := h'.key tier key (h.key tier key hkey)

theorem gives {tier : Tier} {k : ContentKey} (h : ks.Grows ks') (hk : ks.Gives tier k) :
    ks'.Gives tier k := by
  obtain ⟨hkey, first, hfirst, hdirect⟩ := hk
  exact ⟨h.key tier k.key hkey, first, h.founder first hfirst, hdirect⟩

end Grows

end TierKeys

namespace Holdings

/-- What the holdings of a lifetime without faults give to either tier. -/
inductive Serves : Holdings → TierKeys → Prop
  | blank : Serves {} {}
  | wrapped {secret : SecretKey} {blob : Bytes} {key : SymmetricKey} (spec : KeyPairSpec) :
      Vault.unwrapped secret blob = .ok key →
        Serves ⟨none, some (secret, spec), some blob⟩ ⟨some .legacyWrapped, some key, some key⟩
  | direct (key : SymmetricKey) :
      Serves ⟨some key, none, none⟩ ⟨some .modernDirect, some key, none⟩
  | both {secret : SecretKey} {blob : Bytes} {key' : SymmetricKey} (key : SymmetricKey)
      (spec : KeyPairSpec) : Vault.unwrapped secret blob = .ok key' →
        Serves ⟨some key, some (secret, spec), some blob⟩
          ⟨some .modernDirect, some key, some key'⟩

variable {s : Holdings} {ks : TierKeys}

/-- A tier finds a key only where one of the tiers has looked before, and then it is a direct key
where both are modern. -/
theorem Serves.gives {tier : Tier} {k : ContentKey} (h : s.Serves ks)
    (hkey : ks.forTier tier = some k.key) (hsource : k.source = s.source tier) :
    ks.Gives tier k := by
  refine ⟨hkey, ?_⟩
  rw [hsource]
  cases h with
  | blank => cases tier <;> cases hkey
  | wrapped spec hopen => cases tier <;> exact ⟨_, rfl, by simp [source, KeySource.isDirect]⟩
  | direct key => cases tier <;> exact ⟨_, rfl, by simp [source, KeySource.isDirect]⟩
  | both key spec hopen => cases tier <;> exact ⟨_, rfl, by simp [source, KeySource.isDirect]⟩

theorem Serves.shared (h : s.Serves ks) (hf : ks.founder = some .legacyWrapped) :
    ks.modern = ks.legacy := by
  cases h with
  | blank => rfl
  | wrapped spec hopen => rfl
  | direct key => cases hf
  | both key spec hopen => cases hf

end Holdings

namespace Custodian

variable {c : Custodian} {h : Host} {s : Holdings} {ks : TierKeys}

theorem finds_of_serves (hl : ¬ h.vault.locked) (hc : s.Serves ks)
    (hpair : ∀ secret spec, s.pair = some (secret, spec) → spec.IsValidAt h.machine.now) :
    c.Finds h s = .ok (ks.forTier c.hostTier) := by
  cases hc with
  | blank =>
    cases htier : c.hostTier <;>
      simp [Finds, Holdings.found, Holdings.recovered, htier, hl, TierKeys.forTier]
  | wrapped spec hopen =>
    have hv := hpair _ spec rfl
    cases htier : c.hostTier <;>
      simp [Finds, Holdings.found, Holdings.recovered, htier, hl, hv, hopen, TierKeys.forTier,
        Except.map, Except.mapError]
  | direct key =>
    cases htier : c.hostTier <;>
      simp [Finds, Holdings.found, Holdings.recovered, htier, hl, TierKeys.forTier]
  | both key spec hopen =>
    have hv := hpair _ spec rfl
    cases htier : c.hostTier <;>
      simp [Finds, Holdings.found, Holdings.recovered, htier, hl, hv, hopen, TierKeys.forTier,
        Except.map, Except.mapError]

/-- A generation gives its tier a key, and the other tier too if it was the first to look. -/
theorem serves_of_minting {now : Time} {m : Minted} {mid final : Holdings} {marker : Int64}
    (hsupported : c.hostTier.isSupported) (hc : s.Serves ks)
    (hnone : ks.forTier c.hostTier = none) (hm : Minting c now s m mid final) :
    ∃ ks', final.Serves ks' ∧ ks'.founder = ks.founder.or (some c.hostTier) ∧ ks.Grows ks' ∧
      ks'.Gives c.hostTier (c.keyOf m.key marker m.source) := by
  cases hm with
  | direct key htier =>
    rw [htier] at hnone ⊢
    cases hc with
    | blank =>
      refine ⟨_, .direct key, rfl, ⟨nofun, nofun⟩, rfl, _, rfl, ?_⟩
      simp [keyOf, KeySource.isDirect]
    | wrapped spec hopen => cases hnone
    | direct key' => cases hnone
    | both key' spec hopen => cases hnone
  | @wrapped key secret spec bytes hne hspec hopen =>
    have htier : c.hostTier = .legacyWrapped := by
      revert hne hsupported
      cases c.hostTier <;> decide
    rw [htier] at hnone ⊢
    cases hc with
    | blank =>
      refine ⟨_, .wrapped spec hopen, rfl, ⟨nofun, nofun⟩, rfl, _, rfl, ?_⟩
      simp [keyOf, KeySource.isDirect]
    | wrapped spec' hopen' => cases hnone
    | direct key' =>
      -- The modern tier goes on with its own key, and the wrapped one is another.
      refine ⟨_, .both key' spec hopen, rfl, ⟨fun _ => id, ?_⟩, rfl, _, rfl, ?_⟩
      · rintro (_ | _ | _) key hkey
        · cases hkey
        · cases hkey
        · exact hkey
      · simp [keyOf, KeySource.isDirect]
    | both key' spec' hopen' => cases hnone

end Custodian

-- ----------------------------------------------------------------------------
-- Quiet surroundings
-- ----------------------------------------------------------------------------

/-- Nothing around the stores stands in the way, and the clock is before a point that any key pair
made now is still valid at. -/
structure Host.Calm (config : Config) (last : Time) (h : Host) : Prop where
  unlocked : ¬ h.vault.locked
  accepts : h.Accepts
  now_le : h.machine.now ≤ last
  last_le : last.nanoseconds ≤ h.machine.now.nanoseconds + config.keyPairValidity.nanoseconds
  reaches : (h.machine.now.add? config.keyPairValidity).isSome

theorem Host.Calm.of_around {config : Config} {last : Time} {h h' : Host} (hc : h.Calm config last)
    (around : h.Around h') : h'.Calm config last where
  unlocked := by rw [around.locked]; exact hc.unlocked
  accepts := around.accepts hc.accepts
  now_le := by rw [around.now]; exact hc.now_le
  last_le := by rw [around.now]; exact hc.last_le
  reaches := by rw [around.now]; exact hc.reaches

/-- The pair among the holdings is valid now and up to the last point. -/
def Holdings.Lasts (s : Holdings) (now last : Time) : Prop :=
  ∀ secret spec, s.pair = some (secret, spec) → spec.notBefore ≤ now ∧ last ≤ spec.notAfter

namespace Custodian

variable {c : Custodian} {h : Host} {s : Holdings} {ks : TierKeys}

theorem lasts_of_minting {last : Time} {m : Minted} {mid final : Holdings}
    (hcalm : h.Calm c.config last) (hlasts : s.Lasts h.machine.now last)
    (hm : Minting c h.machine.now s m mid final) : final.Lasts h.machine.now last := by
  cases hm with
  | direct key htier => exact hlasts
  | wrapped htier hspec hopen =>
    obtain ⟨spec, hspec', -, hbefore, hafter⟩ := validFor_of_reaches hcalm.reaches
    rw [hspec'] at hspec
    cases hspec
    rintro _ _ ⟨⟩
    have := hcalm.last_le
    refine ⟨Int.le_of_eq (by rw [hbefore]), ?_⟩
    show last.nanoseconds ≤ _
    omega

/-- In quiet surroundings a look-up gives the key of its tier, which it makes if there is none. -/
theorem lookUp_serves {last : Time} (hu : c.config.Usable) (hsupported : c.hostTier.isSupported)
    (hcalm : h.Calm c.config last) (hs : h.Holds c.config s) (hserves : s.Serves ks)
    (hlasts : s.Lasts h.machine.now last) :
    ∃ k h' s' ks', c.lookUp h = (.ok k, h') ∧ h'.Holds c.config s' ∧ h.Around h' ∧
      s'.Serves ks' ∧ s'.Lasts h.machine.now last ∧
      ks'.founder = ks.founder.or (some c.hostTier) ∧ ks.Grows ks' ∧ ks'.Gives c.hostTier k := by
  have hend := lookUp_end hs hu.valid hu.apart hsupported
  have hfinds := finds_of_serves (c := c) (h := h) hcalm.unlocked hserves fun secret spec hpair =>
    ⟨(hlasts secret spec hpair).1, Int.le_trans hcalm.now_le (hlasts secret spec hpair).2⟩
  generalize hlookUp : c.lookUp h = outcome at hend
  cases hend with
  | failed hf _ _ => rw [hfinds] at hf; cases hf
  | found hf hsource hs' around =>
    rw [hfinds] at hf
    have hgives := hserves.gives (Except.ok.inj hf) hsource
    exact ⟨_, _, s, ks, rfl, hs', around, hserves, hlasts, (hgives.founder_or _).symm, .refl ks,
      hgives⟩
  | refused _ hready _ _ =>
    exact absurd (ready_of_usable hu hcalm.unlocked hcalm.accepts hcalm.reaches) hready
  | unrecorded _ _ haccepts _ _ => exact absurd hcalm.accepts haccepts
  | generated hf hm hs' around =>
    rw [hfinds] at hf
    obtain ⟨ks', hserves', hfounder, hgrows, hgives⟩ :=
      serves_of_minting hsupported hserves (Except.ok.inj hf) hm
    exact ⟨_, _, _, ks', rfl, hs', around, hserves', lasts_of_minting hcalm hlasts hm, hfounder,
      hgrows, hgives⟩

end Custodian

-- ----------------------------------------------------------------------------
-- Lifetimes without faults
-- ----------------------------------------------------------------------------

namespace Event

/-- The event asks for the key. -/
def looks : Event → Bool
  | .resolve => true
  | .encrypt _ => true
  | .decrypt stream => Header.Begins stream
  | _ => false

/-- The time after an event. -/
def timeAfter (now : Time) : Event → Time
  | .surround s => s.machine.now
  | _ => now

/-- No fault, no deletion, and a clock that does not go back or past the last point. -/
def IsCalm (config : Config) (last now : Time) : Event → Prop
  | .start level => (config.thresholds.tierAt level).isSupported
  | .stop => False
  | .delete _ => False
  | .surround s => ¬ s.locked ∧ Writable s.path s.backing s.machine.files ∧
      now ≤ s.machine.now ∧ s.machine.now ≤ last ∧
      (s.machine.now.add? config.keyPairValidity).isSome
  | _ => True

end Event

def Calm (config : Config) (last : Time) : Time → List Event → Prop
  | _, [] => True
  | now, e :: rest => e.IsCalm config last now ∧ Calm config last (e.timeAfter now) rest

/-- The tier of the custodian that is the first to look for the key. -/
def founder (config : Config) : UInt32 → List Event → Option Tier
  | _, [] => none
  | level, e :: rest =>
    if e.looks then some (config.thresholds.tierAt level)
    else founder config (e.levelAfter level) rest

namespace Custody

/-- A custody whose stores serve the tiers with their keys, in quiet surroundings. -/
structure Serving (config : Config) (level : UInt32) (last : Time) (p : Custody) (ks : TierKeys) :
    Prop extends Under config level p where
  calm : p.host.Calm config last
  holds : ∃ s, p.host.Holds config s ∧ s.Serves ks ∧ s.Lasts p.host.machine.now last
  cached : ∀ k, p.custodian.cached = some k → ks.Gives (config.thresholds.tierAt level) k

/-- What an answer tells of the keys of the two tiers. -/
def Tells (config : Config) (ks : TierKeys) (entry : Entry) : Prop :=
  match entry.outcome with
  | .resolved answer => ∃ k, answer = .ok k ∧ ks.Gives (config.thresholds.tierAt entry.level) k
  | .encrypted text answer => ∀ stream, answer = .ok stream →
    ∃ key, ks.forTier (config.thresholds.tierAt entry.level) = some key ∧ IsSealed key text stream
  | .decrypted stream answer => Header.Begins stream → stream.length ≤ longestStream →
    ∃ key, ks.forTier (config.thresholds.tierAt entry.level) = some key ∧
      ∀ text, answer = .ok text ↔ IsSealed key text stream
  | .quiet => True

variable {config : Config} {level : UInt32} {last : Time} {p p' : Custody} {ks ks' : TierKeys}

theorem Tells.mono {entry : Entry} (h : Tells config ks entry) (hgrows : ks.Grows ks') :
    Tells config ks' entry := by
  obtain ⟨level, outcome⟩ := entry
  cases outcome with
  | resolved answer =>
    obtain ⟨k, hanswer, hk⟩ := h
    exact ⟨k, hanswer, hgrows.gives hk⟩
  | encrypted text answer =>
    intro stream hanswer
    obtain ⟨key, hkey, hsealed⟩ := h stream hanswer
    exact ⟨key, hgrows.key _ _ hkey, hsealed⟩
  | decrypted stream answer =>
    intro hb hs
    obtain ⟨key, hkey, hanswer⟩ := h hb hs
    exact ⟨key, hgrows.key _ _ hkey, hanswer⟩
  | quiet => trivial

namespace Serving

theorem of_around (hp : Serving config level last p ks)
    (hc : p'.custodian = p.custodian) (same : p.host.SameStores p'.host)
    (around : p.host.Around p'.host) : Serving config level last p' ks where
  toUnder := hp.toUnder.of_custodian hc
  calm := hp.calm.of_around around
  holds := by
    obtain ⟨s, hs, hserves, hlasts⟩ := hp.holds
    exact ⟨s, hs.of_same same, hserves, around.now ▸ hlasts⟩
  cached := hc ▸ hp.cached

theorem resolve (hu : config.Usable) (hp : Serving config level last p ks) :
    ∃ k p' ks', Custody.resolve p = (.ok k, p') ∧ Serving config level last p' ks' ∧
      ks'.founder = ks.founder.or (some (config.thresholds.tierAt level)) ∧ ks.Grows ks' ∧
      ks'.Gives (config.thresholds.tierAt level) k ∧
      p'.host.machine.now = p.host.machine.now := by
  obtain ⟨s, hs, hserves, hlasts⟩ := hp.holds
  cases hcached : p.custodian.cached with
  | some k =>
    have hgives := hp.cached k hcached
    exact ⟨k, p, ks, resolve_of_cached hcached, hp, (hgives.founder_or _).symm, .refl ks, hgives,
      rfl⟩
  | none =>
    have htier := hp.tier_eq
    obtain ⟨k, host, s', ks', hlookUp, hs', around, hserves', hlasts', hfounder, hgrows, hgives⟩ :=
      Custodian.lookUp_serves (c := p.custodian) (hp.config_eq ▸ hu) (htier ▸ hp.supported)
        (hp.config_eq ▸ hp.calm) (hp.config_eq ▸ hs) hserves hlasts
    rw [htier] at hfounder hgives
    rw [hp.config_eq] at hs'
    refine ⟨k, _, ks', by rw [resolve_of_uncached hcached, hlookUp], ?_, hfounder, hgrows, hgives,
      around.now⟩
    exact ⟨hp.toUnder.with_cached _ _, hp.calm.of_around around,
      ⟨s', hs', hserves', around.now ▸ hlasts'⟩, fun k' hk' => by cases hk'; exact hgives⟩

theorem step (hu : config.Usable) (e : Event) (hp : Serving config level last p ks)
    (he : e.IsCalm config last p.host.machine.now) :
    ∃ ks', Serving config (e.levelAfter level) last (Custody.step e p).2 ks' ∧
      ks'.founder =
        ks.founder.or (if e.looks then some (config.thresholds.tierAt level) else none) ∧
      ks.Grows ks' ∧ Tells config ks' ⟨level, (Custody.step e p).1⟩ ∧
      (Custody.step e p).2.host.machine.now = e.timeAfter p.host.machine.now := by
  have hfounder : ks.founder = ks.founder.or none := Option.or_none.symm
  cases e with
  | start higher =>
    rw [hp.step_start hu.valid]
    exact ⟨ks, ⟨⟨rfl, rfl, he⟩, hp.calm, hp.holds, nofun⟩, hfounder, .refl ks, trivial, rfl⟩
  | resolve =>
    obtain ⟨k, p', ks', hresolve, hp', hfounder, hgrows, hgives, hnow⟩ := hp.resolve hu
    rw [step_resolve, hresolve]
    exact ⟨ks', hp', hfounder, hgrows, ⟨k, rfl, hgives⟩, hnow⟩
  | stop => exact he.elim
  | invalidate =>
    exact ⟨ks, ⟨hp.toUnder.with_cached _ _, hp.calm, hp.holds, nofun⟩, hfounder, .refl ks, trivial,
      rfl⟩
  | encrypt text =>
    obtain ⟨k, p', ks', hresolve, hp', hfounder, hgrows, hgives, hnow⟩ := hp.resolve hu
    have hend := encrypt_end hp.isProtected text
    rw [step_encrypt]
    generalize Custody.encrypt text p = outcome at hend ⊢
    cases hend with
    | failed hfailed =>
      rw [hresolve] at hfailed
      cases hfailed
    | sealed hsame hsealed same around =>
      rw [hresolve] at hsame
      cases hsame
      refine ⟨ks', hp'.of_around rfl same around, hfounder, hgrows, fun stream hs => ?_,
        around.now.trans hnow⟩
      cases hs
      exact ⟨k.key, hgives.1, hsealed⟩
    | tooLong hsame hlong same around =>
      rw [hresolve] at hsame
      cases hsame
      exact ⟨ks', hp'.of_around rfl same around, hfounder, hgrows, nofun, around.now.trans hnow⟩
  | decrypt stream =>
    obtain ⟨k, p', ks', hresolve, hp', hfounder', hgrows, hgives, hnow⟩ := hp.resolve hu
    have hend := decrypt_end hp.isProtected stream
    rw [step_decrypt]
    generalize Custody.decrypt stream p = outcome at hend ⊢
    cases hend with
    | unheaded hb =>
      simp only [Event.looks, hb, decide_false, Bool.false_eq_true, if_false]
      exact ⟨ks, hp, hfounder, .refl ks, fun hbegins => absurd hbegins hb, rfl⟩
    | failed _ hfailed =>
      rw [hresolve] at hfailed
      cases hfailed
    | answered hb hsame hanswer =>
      rw [hresolve] at hsame
      cases hsame
      simp only [Event.looks, hb, decide_true, if_true]
      exact ⟨ks', hp', hfounder', hgrows, fun _ hs => ⟨k.key, hgives.1, hanswer hs⟩, hnow⟩
  | delete keyName => exact he.elim
  | surround s =>
    obtain ⟨hl, hwritable, hnow, hlast, hreaches⟩ := he
    obtain ⟨s', hs, hserves, hlasts⟩ := hp.holds
    refine ⟨ks, ⟨hp.toUnder.of_custodian rfl, ⟨hl, hwritable, hlast, ?_, hreaches⟩,
      ⟨s', hs.of_same (p.host.within_same s), hserves, fun secret spec hpair => ?_⟩, hp.cached⟩,
      hfounder, .refl ks, trivial, rfl⟩
    · exact Int.le_trans hp.calm.last_le (Int.add_le_add_right hnow _)
    · exact ⟨Int.le_trans (hlasts secret spec hpair).1 hnow, (hlasts secret spec hpair).2⟩

/-- The answers of a lifetime are told from one key for either tier. -/
theorem run (hu : config.Usable) {events : List Event} (hp : Serving config level last p ks)
    (hcalm : Calm config last p.host.machine.now events) :
    ∃ ks', ks.Grows ks' ∧ ks'.founder = ks.founder.or (founder config level events) ∧
      (ks'.founder = some .legacyWrapped → ks'.modern = ks'.legacy) ∧
      ∀ entry ∈ (Custody.run events p).1, Tells config ks' entry := by
  induction events generalizing level p ks with
  | nil =>
    obtain ⟨s, -, hserves, -⟩ := hp.holds
    exact ⟨ks, .refl ks, Option.or_none.symm, hserves.shared, fun _ h => nomatch h⟩
  | cons e rest ih =>
    obtain ⟨he, hrest⟩ := hcalm
    obtain ⟨ks', hp', hfounder, hgrows, htells, hnow⟩ := hp.step hu e he
    obtain ⟨ks'', hgrows', hfounder', hshared, hlater⟩ := ih hp' (hnow ▸ hrest)
    refine ⟨ks'', hgrows.trans hgrows', ?_, hshared, fun entry hmem => ?_⟩
    · rw [hfounder', hfounder, Option.or_assoc, founder]
      cases e.looks <;> rfl
    · obtain rfl | hmem := List.mem_cons.mp hmem
      · rw [hp.platform_eq]
        exact htells.mono hgrows'
      · exact hlater entry hmem

end Serving

/-- What was sealed earlier opens later if the tiers are the same, or a legacy custodian was the
first to look. Else the two tiers have each drawn a key, and it opens only by the accident that the
other key opens it too. -/
def OpensLater (config : Config) (keyOf : Tier → SymmetricKey) (founder? : Option Tier)
    (earlier later : Entry) : Prop :=
  ∀ text stream answer, earlier.outcome = .encrypted text (.ok stream) →
    later.outcome = .decrypted stream answer →
      let sealer := config.thresholds.tierAt earlier.level
      let opener := config.thresholds.tierAt later.level
      (answer = .ok text ↔ sealer = opener ∨ founder? = some .legacyWrapped ∨
        IsSealed (keyOf opener) text stream)

/-- A lifetime without faults has a key for each tier, which custodians of the tier have and no
others: the direct one for a modern tier that was the first to look, the wrapped one else. It is the
first tier that settles what opens. -/
theorem decrypts_iff_same_key {level : UInt32} {host : Host} {p : Custody} {last : Time}
    {events : List Event} (hbegin : begin {} level host = .ok p)
    (hentries : host.vault.entries = .empty) (hvalues : host.settings.values = .empty)
    (hsupported : (({} : Config).thresholds.tierAt level).isSupported)
    (hhost : host.Calm {} last) (hcalm : Calm {} last host.machine.now events) :
    ∃ keyOf : Tier → SymmetricKey,
      (∀ entry ∈ (run events p).1, ∀ answer, entry.outcome = .resolved answer →
        let tier := ({} : Config).thresholds.tierAt entry.level
        ∃ k, answer = .ok k ∧ k.key = keyOf tier ∧ (k.source.isDirect ↔
          tier = .modernDirect ∧ founder {} level events = some .modernDirect)) ∧
      (run events p).1.Pairwise (OpensLater {} keyOf (founder {} level events)) := by
  obtain ⟨-, rfl⟩ := begin_ok.mp hbegin
  have hserving : Serving {} level last ⟨{ platform := ⟨level⟩, config := {} }, host⟩ {} :=
    ⟨⟨rfl, rfl, hsupported⟩, hhost, ⟨{}, .of_empty hentries hvalues, .blank, nofun⟩, nofun⟩
  obtain ⟨ks, -, hfounder, hshared, htells⟩ := hserving.run Config.usable_default hcalm
  rw [Option.none_or] at hfounder
  refine ⟨ks.keyFor, ?_, ?_⟩
  · intro entry hmem answer hanswer tier
    have htell := htells entry hmem
    rw [Tells, hanswer] at htell
    obtain ⟨k, hk, hkey, first, hfirst, hdirect⟩ := htell
    refine ⟨k, hk, (TierKeys.keyFor_eq hkey).symm, ?_⟩
    rw [hdirect, ← hfounder, hfirst, Option.some.injEq]
  · refine List.pairwise_of_forall_mem_list fun earlier hearlier later hlater => ?_
    intro text stream answer hsealed hdecrypted sealer opener
    have htell := htells _ hearlier
    rw [Tells, hsealed] at htell
    obtain ⟨key, hkey, hseal⟩ := htell stream rfl
    have htell' := htells _ hlater
    rw [Tells, hdecrypted] at htell'
    obtain ⟨key', hkey', hopens⟩ := htell' hseal.begins hseal.length_le
    rw [hopens text, TierKeys.keyFor_eq hkey']
    constructor
    · exact fun h => .inr (.inr h)
    · rintro (hsame | hlegacy | h)
      · have hkeys : some key = some key' :=
          hkey.symm.trans ((congrArg ks.forTier hsame).trans hkey')
        exact Option.some.inj hkeys ▸ hseal
      · have hsame := TierKeys.forTier_congr (hshared (hfounder.trans hlegacy)) sealer opener
        have hkeys : some key = some key' := hkey.symm.trans (hsame.trans hkey')
        exact Option.some.inj hkeys ▸ hseal
      · exact h

/-- What the first custodian seals on a legacy host opens after an upgrade. -/
theorem decrypts_iff_same_key_upgrade :
    ∃ p stream, begin {} 19 (.fresh { entropy := .ofSeed 7, now := .epoch }) = .ok p ∧
      (run [.encrypt [1, 2], .start 23, .decrypt stream] p).1.map Entry.outcome =
        [.encrypted [1, 2] (.ok stream), .quiet, .decrypted stream (.ok [1, 2])] := by
  obtain ⟨p, hbegin, hseals⟩ : ∃ p,
      begin {} 19 (.fresh { entropy := .ofSeed 7, now := .epoch }) = .ok p ∧
        (encrypt [1, 2] p).1.toOption.isSome :=
    ⟨⟨{ platform := ⟨19⟩, config := {} }, .fresh { entropy := .ofSeed 7, now := .epoch }⟩, rfl,
      by decide +kernel⟩
  obtain ⟨stream, hseals⟩ := isSome_toOption.mp hseals
  have hhost : (Host.fresh { entropy := .ofSeed 7, now := .epoch }).Calm {} .epoch :=
    ⟨by decide, writable_memory _, by decide, by decide, by decide⟩
  have hcalm : Calm {} .epoch .epoch [.encrypt [1, 2], .start 23, .decrypt stream] := by
    simp only [Calm, Event.IsCalm]
    decide
  obtain ⟨keyOf, -, hopens⟩ := decrypts_iff_same_key hbegin rfl rfl (by decide) hhost hcalm
  simp only [run, List.pairwise_cons, List.forall_mem_cons, step_encrypt, step_decrypt,
    Prod.map_fst, Prod.map_snd, id, hseals] at hopens
  have hopened := (hopens.1.2.1 [1, 2] stream _ rfl rfl).mpr (.inr (.inl rfl))
  refine ⟨p, stream, hbegin, ?_⟩
  simp only [run, List.map_cons, List.map_nil, fst_step_start, step_encrypt, step_decrypt,
    Prod.map_fst, Prod.map_snd, id, hseals, hopened]

/-- Where a modern custodian is first and then a legacy one seals, the key that an upgraded one is
to open with is not the one that sealed. -/
theorem other_key_after_downgrade :
    ∃ p k k' stream answer, begin {} 23 (.fresh { entropy := .ofSeed 7, now := .epoch }) = .ok p ∧
      (run [.resolve, .start 19, .encrypt [1, 2], .start 23, .decrypt stream] p).1.map
        Entry.outcome = [.resolved (.ok k), .quiet, .encrypted [1, 2] (.ok stream), .quiet,
          .decrypted stream answer] ∧
      (resolve (run [.resolve, .start 19] p).2).1 = .ok k' ∧ k'.key ≠ k.key ∧
      IsSealed k'.key [1, 2] stream ∧ ∀ text, answer = .ok text ↔ IsSealed k.key text stream := by
  obtain ⟨p, hbegin, hk, hlegacy, hseals, hother, hmodern, hsame⟩ : ∃ p : Custody,
      begin {} 23 (.fresh { entropy := .ofSeed 7, now := .epoch }) = .ok p ∧
        (resolve p).1.toOption.isSome ∧ (run [.resolve, .start 19] p).2.isProtected ∧
        (encrypt [1, 2] (run [.resolve, .start 19] p).2).1.toOption.isSome ∧
        (resolve (run [.resolve, .start 19] p).2).1.toOption.map ContentKey.key ≠
          (resolve p).1.toOption.map ContentKey.key ∧
        (run [.resolve, .start 19, .encrypt [1, 2], .start 23] p).2.isProtected ∧
        (resolve (run [.resolve, .start 19, .encrypt [1, 2], .start 23] p).2).1.toOption.map
          ContentKey.key = (resolve p).1.toOption.map ContentKey.key :=
    ⟨⟨{ platform := ⟨23⟩, config := {} }, .fresh { entropy := .ofSeed 7, now := .epoch }⟩, rfl,
      by decide +kernel⟩
  obtain ⟨k, hk⟩ := isSome_toOption.mp hk
  obtain ⟨stream, hseals⟩ := isSome_toOption.mp hseals
  rw [hk] at hother hsame
  refine ⟨p, k, ?_⟩
  simp only [run, List.map_cons, List.map_nil, fst_step_start, step_resolve, step_encrypt,
    step_decrypt, Prod.map_fst, Prod.map_snd, id, hk]
    at hlegacy hseals hother hmodern hsame ⊢
  generalize (step (.start 19) (resolve p).2).2 = q at *
  generalize (step (.start 23) (encrypt [1, 2] q).2).2 = r at *
  obtain ⟨k', hk', hsealed⟩ := sealed_of_encrypt hlegacy hseals
  have hne : k'.key ≠ k.key := by simpa [hk', Except.toOption] using hother
  refine ⟨k', stream, (decrypt stream r).1, hbegin, ?_, hk', hne, hsealed, ?_⟩
  · rw [hseals]
  · obtain ⟨k'', hk'', hkey⟩ := map_toOption_eq_some.mp hsame
    have hopener : resolve r = (.ok k'', (resolve r).2) := Prod.ext hk'' rfl
    exact fun text => hkey ▸ decrypt_eq_ok_iff hmodern hopener hsealed.length_le

end Custody

end SealedStream
