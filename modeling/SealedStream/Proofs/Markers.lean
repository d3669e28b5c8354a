import SealedStream.Proofs.Generation
import SealedStream.Proofs.Upgrades

/-!
# The level recorded for a key

There is one setting for the level, and every generation writes it. It tells where
the latest key was made. A direct key stays in the vault when a legacy custodian makes
a wrapped one after it, and from then on it is told with the level of that custodian;
in all other cases the level told is that of the custodian which had the key made.
-/

namespace SealedStream

-- ----------------------------------------------------------------------------
-- Levels
-- ----------------------------------------------------------------------------

theorem Platform.toInt_marker (p : Platform) : p.marker.toInt = p.level.toNat := by
  refine Int64.toInt_ofNat_of_lt ?_
  have := p.level.toNat_lt
  omega

theorem Platform.marker_inj {p q : Platform} (h : p.marker = q.marker) : p.level = q.level := by
  have hlevel : (p.level.toNat : Int) = q.level.toNat := by
    rw [← toInt_marker, ← toInt_marker, h]
  exact UInt32.toNat_inj.mp (Int.ofNat_inj.mp hlevel)

/-- The tier told by a recorded level is that of the level. -/
theorem Thresholds.keyTier_marker {t : Thresholds} {level : UInt32}
    (h : (t.tierAt level).isSupported) : t.keyTier (Platform.mk level).marker = t.tierAt level := by
  have hmodern :
      (t.modern.toNat : Int) ≤ (Platform.mk level).marker.toInt ↔ ¬ level < t.modern := by
    rw [Platform.toInt_marker, Int.ofNat_le, UInt32.not_lt, UInt32.le_iff_toNat_le]
  unfold tierAt at h ⊢
  rw [keyTier]
  by_cases hbaseline : level < t.baseline
  · rw [if_pos hbaseline] at h
    cases h
  · by_cases hlevel : level < t.modern <;> simp [hbaseline, hmodern, hlevel]

-- ----------------------------------------------------------------------------
-- Keys that were made
-- ----------------------------------------------------------------------------

/-- A generated key, and the level of the custodian that had it generated. -/
structure Made where
  level : UInt32
  key : ContentKey
  deriving DecidableEq

namespace Made

def isDirect (m : Made) : Bool := m.key.source.isDirect

/-- The level as it is recorded. -/
def marker (m : Made) : Int64 := (Platform.mk m.level).marker

/-- The latest key that is one of the vault's own, or the latest that is not. -/
def latest? (direct : Bool) (past : List Made) : Option Made :=
  (past.filter (·.isDirect == direct)).getLast?

theorem latest?_concat (direct : Bool) (past : List Made) (m : Made) :
    latest? direct (past ++ [m]) = if m.isDirect = direct then some m else latest? direct past := by
  rw [latest?, List.filter_append]
  by_cases h : m.isDirect = direct
  · simp [h]
  · simp [h, latest?]

theorem of_latest? {direct : Bool} {past : List Made} {m : Made}
    (h : latest? direct past = some m) :
    m ∈ past ∧ m.isDirect = direct := by
  have hmem := List.mem_filter.mp (List.mem_of_getLast? h)
  exact ⟨hmem.1, eq_of_beq hmem.2⟩

/-- The last key of all is the latest of its kind. -/
theorem latest?_getLast {past : List Made} {m : Made} (h : past.getLast? = some m) :
    latest? m.isDirect past = some m := by
  obtain ⟨earlier, rfl⟩ := List.getLast?_eq_some_iff.mp h
  rw [latest?_concat, if_pos rfl]

end Made

/-- The stores of a past without faults: the level of the last custodian that had a key made, the
latest direct key, and the latest wrapped one. -/
structure Marked (config : Config) (past : List Made) (h : Host) : Prop where
  level : h.settings.get? config.levelSetting = past.getLast?.map fun m => .int m.marker
  direct : h.vault.entries.get? config.symmetricAlias =
    (Made.latest? true past).map fun m => .symmetric m.key.key
  unwrapped : Made.latest? false past = none → h.settings.get? config.wrappedKeySetting = none
  wrapped : ∀ m, Made.latest? false past = some m → ∃ blob bytes secret spec,
    h.settings.get? config.wrappedKeySetting = some (.string blob) ∧
      Custodian.blobBytes blob = .ok bytes ∧
      h.vault.entries.get? config.wrapAlias = some (.keyPair secret spec) ∧
      Vault.unwrapped secret bytes = .ok m.key.key
  /-- No key is made once there is a wrapped one, which any custodian can find. -/
  ordered : ∀ m, Made.latest? false past = some m → past.getLast? = some m
  tiers : ∀ m ∈ past, (config.thresholds.tierAt m.level = .modernDirect ↔ m.isDirect) ∧
    (config.thresholds.tierAt m.level).isSupported

/-- A key as it is told: the bytes are those of the latest key of its kind, the level and the tier
those of the last custodian that had any key made. -/
structure Told (config : Config) (past : List Made) (k : ContentKey) (maker last : Made) :
    Prop where
  made : Made.latest? k.source.isDirect past = some maker
  latest : past.getLast? = some last
  key : k.key = maker.key.key
  level : k.platformLevel = last.marker
  tier : k.tier = config.thresholds.tierAt last.level

namespace Told

variable {config : Config} {past : List Made} {k : ContentKey} {maker last : Made} {h : Host}

theorem kinds (hk : Told config past k maker last) :
    maker = last ↔ last.isDirect = maker.isDirect := by
  constructor
  · rintro rfl
    rfl
  · intro hkind
    have hmade := hk.made
    rw [← (Made.of_latest? hmade).2, ← hkind, Made.latest?_getLast hk.latest] at hmade
    exact (Option.some.inj hmade).symm

/-- Only a direct key can be told with a level that is not its own. -/
theorem last_iff (hm : Marked config past h) (hk : Told config past k maker last) :
    maker = last ↔ (k.source.isDirect → last.isDirect) := by
  obtain ⟨-, hkind⟩ := Made.of_latest? hk.made
  constructor
  · rintro rfl hdirect
    rwa [hkind]
  · intro hdirect
    cases hsource : k.source.isDirect with
    | true => exact hk.kinds.mpr (by rw [hkind, hsource, hdirect hsource])
    | false =>
      have hmade := hk.made
      rw [hsource] at hmade
      exact Option.some.inj ((hm.ordered maker hmade).symm.trans hk.latest)

theorem level_iff (hm : Marked config past h) (hk : Told config past k maker last) :
    k.platformLevel = maker.marker ↔ maker = last := by
  rw [hk.level]
  constructor
  · intro hlevel
    have hlast := (hm.tiers last (List.mem_of_getLast? hk.latest)).1
    have hmaker := (hm.tiers maker (Made.of_latest? hk.made).1).1
    have hsame : last.level = maker.level := Platform.marker_inj hlevel
    rw [hsame] at hlast
    exact hk.kinds.mpr (Bool.eq_iff_iff.mpr (hlast.symm.trans hmaker))
  · rintro rfl
    rfl

theorem tier_iff (hm : Marked config past h) (hk : Told config past k maker last) :
    k.tier = config.thresholds.tierAt maker.level ↔ maker = last := by
  rw [hk.tier]
  constructor
  · intro htier
    have hlast := (hm.tiers last (List.mem_of_getLast? hk.latest)).1
    have hmaker := (hm.tiers maker (Made.of_latest? hk.made).1).1
    rw [htier] at hlast
    exact hk.kinds.mpr (Bool.eq_iff_iff.mpr (hlast.symm.trans hmaker))
  · rintro rfl
    rfl

end Told

-- ----------------------------------------------------------------------------
-- Look-ups
-- ----------------------------------------------------------------------------

namespace Marked

variable {config : Config} {past : List Made} {h h' : Host}

theorem of_empty (hentries : h.vault.entries = .empty) (hvalues : h.settings.values = .empty) :
    Marked config [] h where
  level := by rw [Settings.get?, hvalues]; rfl
  direct := by rw [hentries]; rfl
  unwrapped _ := by rw [Settings.get?, hvalues]; rfl
  wrapped := nofun
  ordered := nofun
  tiers := nofun

theorem of_same (hm : Marked config past h) (same : h.SameStores h') : Marked config past h' where
  level := by rw [Settings.get?, same.values]; exact hm.level
  direct := by rw [same.entries]; exact hm.direct
  unwrapped hnone := by rw [Settings.get?, same.values]; exact hm.unwrapped hnone
  wrapped m hmade := by rw [Settings.get?, same.values, same.entries]; exact hm.wrapped m hmade
  ordered := hm.ordered
  tiers := hm.tiers

/-- The recorded level is that of the last custodian that had a key made. -/
theorem told {c : Custodian} {key : SymmetricKey} {marker : Int64} {source : KeySource}
    {maker : Made} (hm : Marked config past h) (hconfig : c.config = config)
    (hmarker : h.settings.getInt c.config.levelSetting c.platform.marker = .ok marker)
    (hmade : Made.latest? source.isDirect past = some maker) (hkey : key = maker.key.key) :
    ∃ last, Told config past (c.keyOf key marker source) maker last := by
  have hne : past ≠ [] := List.ne_nil_of_mem (Made.of_latest? hmade).1
  obtain ⟨last, hlast⟩ : ∃ last, past.getLast? = some last := ⟨_, List.getLast?_eq_some_getLast hne⟩
  have hlevel := hm.level
  rw [hlast, Option.map_some] at hlevel
  rw [hconfig, Settings.getInt, hlevel] at hmarker
  cases hmarker
  refine ⟨last, hmade, hlast, hkey, rfl, ?_⟩
  rw [Custodian.keyOf, hconfig]
  exact Thresholds.keyTier_marker (hm.tiers last (List.mem_of_getLast? hlast)).2

theorem tiers_concat {m : Made} (hm : Marked config past h)
    (htier : config.thresholds.tierAt m.level = .modernDirect ↔ m.isDirect)
    (hsupported : (config.thresholds.tierAt m.level).isSupported) :
    ∀ m' ∈ past ++ [m], (config.thresholds.tierAt m'.level = .modernDirect ↔ m'.isDirect) ∧
      (config.thresholds.tierAt m'.level).isSupported := by
  intro m' hmem
  obtain hmem | hmem := List.mem_append.mp hmem
  · exact hm.tiers m' hmem
  · cases List.mem_singleton.mp hmem
    exact ⟨htier, hsupported⟩

variable {c : Custodian} {k : ContentKey}

theorem found (hm : Marked config past h) (hconfig : c.config = config)
    (hkept : c.Kept h.vault h.settings k) : ∃ maker last, Told config past k maker last := by
  cases hkept with
  | direct htier hentry hmarker =>
    have hdirect := hm.direct
    rw [← hconfig, hentry] at hdirect
    obtain ⟨maker, hmade, hkey⟩ := Option.map_eq_some_iff.mp hdirect.symm
    cases hkey
    exact ⟨maker, hm.told hconfig hmarker hmade rfl⟩
  | wrapped hnone hblob hbytes hpair hopen hmarker =>
    have hblob := Settings.get?_of_getString?_some hblob
    obtain ⟨maker, hmade⟩ : ∃ maker, Made.latest? false past = some maker := by
      refine Option.ne_none_iff_exists'.mp fun hnone => ?_
      rw [hconfig, hm.unwrapped hnone] at hblob
      cases hblob
    obtain ⟨_, bytes, secret, spec, hblob', hbytes', hpair', hopen'⟩ := hm.wrapped maker hmade
    rw [← hconfig, hblob] at hblob'
    cases hblob'
    rw [hbytes] at hbytes'
    cases hbytes'
    rw [← hconfig, hpair] at hpair'
    cases hpair'
    rw [hopen] at hopen'
    cases hopen'
    exact ⟨maker, hm.told hconfig hmarker hmade rfl⟩

/-- A key made just now is the latest of all, and of its kind. -/
theorem told_made {m : Made} {source : KeySource} {key : SymmetricKey}
    (hconfig : c.config = config) (hsupported : c.hostTier.isSupported)
    (hm : m = ⟨c.platform.level, c.keyOf key c.platform.marker source⟩) :
    Told config (past ++ [m]) m.key m m where
  made := by rw [Made.latest?_concat]; exact if_pos rfl
  latest := List.getLast?_concat
  key := rfl
  level := by rw [hm]; rfl
  tier := by
    subst hm hconfig
    exact Thresholds.keyTier_marker hsupported

variable (hm : Marked config past h) (hconfig : c.config = config)
  (hv : config.validate = .ok ()) (hapart : config.wrappedKeySetting ≠ config.levelSetting)

include hm hconfig hv hapart

theorem made_direct {key : SymmetricKey} (hbare : c.Bare h) (htier : c.hostTier = .modernDirect)
    (hentries : h'.vault.entries = h.vault.entries.insert c.config.symmetricAlias (.symmetric key))
    (hvalues : h'.settings.values =
      h.settings.values.insertAll [(c.config.levelSetting, .int c.platform.marker)]) :
    Marked config
      (past ++ [⟨c.platform.level, c.keyOf key c.platform.marker .generatedModern⟩]) h' := by
  have hlevel : config.thresholds.tierAt c.platform.level = .modernDirect := hconfig ▸ htier
  have hget (name : String) : h'.settings.get? name =
      if name = c.config.levelSetting then some (.int c.platform.marker)
      else h.settings.get? name := by
    rw [Settings.get?, hvalues]
    exact Dict.get?_insert ..
  subst hconfig
  have hnone : Made.latest? false past = none := by
    refine Option.eq_none_iff_forall_ne_some.mpr fun m hmade => ?_
    obtain ⟨_, _, secret, spec, hblob, -, hpair, -⟩ := hm.wrapped m hmade
    obtain habsent | habsent := hbare.wrapped
    · rw [habsent] at hblob
      cases hblob
    · exact habsent secret spec hpair
  have hnone' : Made.latest? false
      (past ++ [⟨c.platform.level, c.keyOf key c.platform.marker .generatedModern⟩]) = none := by
    rw [Made.latest?_concat]
    exact hnone
  refine ⟨?_, ?_, fun _ => ?_, fun m hmade => ?_, fun m hmade => ?_,
    hm.tiers_concat ?_ (hlevel ▸ rfl)⟩
  · rw [hget, if_pos rfl, List.getLast?_concat]
    rfl
  · rw [hentries, Dict.get?_insert, if_pos rfl, Made.latest?_concat]
    rfl
  · rw [hget, if_neg hapart]
    exact hm.unwrapped hnone
  · rw [hnone'] at hmade
    cases hmade
  · rw [hnone'] at hmade
    cases hmade
  · simp [hlevel, Made.isDirect, Custodian.keyOf, KeySource.isDirect]

theorem made_wrapped {key : SymmetricKey} {secret : SecretKey} {spec : KeyPairSpec} {bytes : Bytes}
    (hsupported : c.hostTier.isSupported) (htier : c.hostTier ≠ .modernDirect)
    (hopen : Vault.unwrapped secret bytes = .ok key)
    (hentries : h'.vault.entries =
      h.vault.entries.insert c.config.wrapAlias (.keyPair secret spec))
    (hvalues : h'.settings.values = h.settings.values.insertAll
      [(c.config.wrappedKeySetting, .string (Text.Base64.encode bytes)),
        (c.config.levelSetting, .int c.platform.marker)]) :
    Marked config
      (past ++ [⟨c.platform.level, c.keyOf key c.platform.marker .generatedLegacy⟩]) h' := by
  have hne := (Config.validate_ok.mp hv).2.2.2
  have hlevel : config.thresholds.tierAt c.platform.level ≠ .modernDirect := hconfig ▸ htier
  have hget (name : String) : h'.settings.get? name =
      if name = c.config.levelSetting then some (.int c.platform.marker)
      else if name = c.config.wrappedKeySetting then some (.string (Text.Base64.encode bytes))
      else h.settings.get? name := by
    rw [Settings.get?, hvalues]
    simp only [Dict.insertAll, List.foldl_cons, List.foldl_nil, Dict.get?_insert]
    rfl
  subst hconfig
  have hmade : Made.latest? false
      (past ++ [⟨c.platform.level, c.keyOf key c.platform.marker .generatedLegacy⟩]) =
        some ⟨c.platform.level, c.keyOf key c.platform.marker .generatedLegacy⟩ := by
    rw [Made.latest?_concat]
    rfl
  refine ⟨?_, ?_, fun hnone => ?_, fun m hm' => ?_, fun m hm' => ?_,
    hm.tiers_concat ?_ hsupported⟩
  · rw [hget, if_pos rfl, List.getLast?_concat]
    rfl
  · rw [hentries, Dict.get?_insert, if_neg hne, Made.latest?_concat]
    exact hm.direct
  · rw [hmade] at hnone
    cases hnone
  · rw [hmade] at hm'
    cases hm'
    refine ⟨_, bytes, secret, spec, ?_, Custodian.blobBytes_encode bytes, ?_, hopen⟩
    · rw [hget, if_neg hapart, if_pos rfl]
    · rw [hentries, Dict.get?_insert, if_pos rfl]
  · rw [hmade] at hm'
    cases hm'
    exact List.getLast?_concat
  · simp [hlevel, Made.isDirect, Custodian.keyOf, KeySource.isDirect]

end Marked

/-- The key that a custodian came by, if it was made for it. -/
def Custodian.made? (c : Custodian) (k : ContentKey) : Option Made :=
  if k.source.isGenerated then some ⟨c.platform.level, k⟩ else none

/-- A look-up that gives a key tells it by the last key that was made, itself included. -/
theorem Marked.lookedUp {config : Config} {past : List Made} {h h' : Host} {c : Custodian}
    {k : ContentKey} (hm : Marked config past h) (hconfig : c.config = config)
    (hv : config.validate = .ok ()) (hapart : config.wrappedKeySetting ≠ config.levelSetting)
    (hsupported : c.hostTier.isSupported) (hbare : k.source.isGenerated → c.Bare h)
    (hlookedUp : c.LookedUp h k h') :
    Marked config (past ++ (c.made? k).toList) h' ∧
      ∃ maker last, Told config (past ++ (c.made? k).toList) k maker last := by
  cases hlookedUp with
  | found hkept =>
    have hnone : c.made? k = none := if_neg hkept.not_generated
    rw [hnone, Option.toList_none, List.append_nil]
    exact ⟨hm.of_same ⟨rfl, rfl⟩, hm.found hconfig hkept⟩
  | direct htier hentries hvalues _ =>
    exact ⟨hm.made_direct hconfig hv hapart (hbare rfl) htier hentries hvalues, _, _,
      Marked.told_made hconfig hsupported rfl⟩
  | wrapped htier _ _ hopen hentries hvalues _ =>
    exact ⟨hm.made_wrapped hconfig hv hapart hsupported htier hopen hentries hvalues, _, _,
      Marked.told_made hconfig hsupported rfl⟩

theorem Custodian.bare_of_generated {c : Custodian} {h h' : Host} {k : ContentKey}
    (hv : c.config.validate = .ok ()) (hsupported : c.hostTier.isSupported)
    (hlookUp : c.lookUp h = (.ok k, h')) (hk : k.source.isGenerated) : c.Bare h := by
  obtain ⟨asked, hfrugal⟩ := lookUp_frugal hv hsupported h
  rw [hlookUp] at hfrugal
  obtain ⟨r, hr, hgeneration⟩ := (hfrugal.generated k rfl).mp hk
  obtain hnone | ⟨hbare, -⟩ := hfrugal.once
  · exact absurd hgeneration (hnone r hr)
  · exact hbare

/-- Where every write goes through, a look-up that fails leaves the stores as they were. -/
theorem Custodian.sameStores_of_lookUp {c : Custodian} {h h' : Host} {e : Failure SealError}
    (hv : c.config.validate = .ok ()) (hsupported : c.hostTier.isSupported) (ha : h.Accepts)
    (hlookUp : c.lookUp h = (.error e, h')) : h.SameStores h' ∧ h.Around h' := by
  obtain ⟨requests, -, hasked⟩ := c.search_asks h
  have around : h.Around (h.asked requests) := ⟨rfl, rfl, rfl, rfl, id⟩
  rw [lookUp_eq hsupported] at hlookUp
  obtain hsearch | ⟨k?, h₁, hsearch, hrest⟩ := Action.bind_error.mp hlookUp
  all_goals
    rw [hsearch] at hasked
    subst hasked
  · exact ⟨⟨rfl, rfl⟩, around⟩
  · cases k? with
    | some k => cases hrest
    | none =>
      have hmints := mint_mints hv (h.asked requests)
      obtain hmint | ⟨m, h₂, hmint, hrecord⟩ := Action.bind_error.mp hrest
      all_goals rw [hmint] at hmints
      · obtain ⟨same, around₂⟩ := hmints.of_error
        exact ⟨⟨same.entries, same.values⟩, around.trans around₂⟩
      · have hput := h₂.putAll_put m.record
        obtain hrefused | ⟨_, _, -, hk⟩ := Action.bind_error.mp hrecord
        · rw [hrefused] at hput
          cases hput with
          | refused haccepts _ _ =>
            obtain ⟨-, -, -, -, around₂⟩ := hmints.placed
            exact absurd (around₂.accepts ha) haccepts
        · cases hk

-- ----------------------------------------------------------------------------
-- Lifetimes
-- ----------------------------------------------------------------------------

/-- Every write goes through, and nothing is deleted. -/
def Event.IsFaultless (config : Config) : Event → Prop
  | .start level => (config.thresholds.tierAt level).isSupported
  | .stop => False
  | .delete _ => False
  | .surround s => Writable s.path s.backing s.machine.files
  | _ => True

namespace Custody

/-- The key that was made between two states of a custody: the one that is cached only now, and
was not there before. -/
def made? (p p' : Custody) : Option Made :=
  match p.custodian.cached, p'.custodian.cached with
  | none, some k => p.custodian.made? k
  | _, _ => none

/-- The keys that are made in a lifetime. -/
def makers : List Event → Custody → List Made
  | [], _ => []
  | e :: rest, p =>
    let p' := (step e p).2
    (made? p p').toList ++ makers rest p'

theorem makers_append (earlier later : List Event) (p : Custody) :
    makers (earlier ++ later) p = makers earlier p ++ makers later (run earlier p).2 := by
  induction earlier generalizing p with
  | nil => rfl
  | cons e rest ih => simp only [List.cons_append, makers, ih, run, List.append_assoc]

theorem made?_same (p : Custody) : made? p p = none := by
  unfold made?
  cases p.custodian.cached <;> rfl

/-- A custody whose stores, and whose cached key, are as the keys made in the past leave them. -/
structure Marking (config : Config) (level : UInt32) (past : List Made) (p : Custody) : Prop
    extends Under config level p where
  accepts : p.host.Accepts
  marked : Marked config past p.host
  cached : ∀ k, p.custodian.cached = some k → ∃ maker last, Told config past k maker last

variable {config : Config} {level : UInt32} {past : List Made} {p p' : Custody} {k : ContentKey}

namespace Marking

theorem of_around (hp : Marking config level past p) (hc : p'.custodian = p.custodian)
    (same : p.host.SameStores p'.host) (around : p.host.Around p'.host) :
    Marking config level past p' where
  toUnder := hp.toUnder.of_custodian hc
  accepts := around.accepts hp.accepts
  marked := hp.marked.of_same same
  cached := hc ▸ hp.cached

variable (hv : config.validate = .ok ()) (hapart : config.wrappedKeySetting ≠ config.levelSetting)

include hv hapart

theorem resolve (hp : Marking config level past p) :
    let p' := (Custody.resolve p).2
    Marking config level (past ++ (made? p p').toList) p' ∧ ∀ k, (Custody.resolve p).1 = .ok k →
      ∃ maker last, Told config (past ++ (made? p p').toList) k maker last := by
  have htier : p.custodian.hostTier.isSupported := hp.tier_eq ▸ hp.supported
  have hvalid : p.custodian.config.validate = .ok () := hp.config_eq ▸ hv
  cases hcached : p.custodian.cached with
  | some k =>
    simp only [resolve_of_cached hcached, made?_same, Option.toList_none, List.append_nil]
    refine ⟨hp, ?_⟩
    rintro _ ⟨⟩
    exact hp.cached k hcached
  | none =>
    rw [resolve_of_uncached hcached]
    rcases hlookUp : p.custodian.lookUp p.host with ⟨e | k, host⟩
    · obtain ⟨same, around⟩ :=
        Custodian.sameStores_of_lookUp hvalid htier hp.accepts hlookUp
      have hnone : made? p { p with host } = none := by simp only [made?, hcached]
      simp only [hnone, Option.toList_none, List.append_nil]
      exact ⟨hp.of_around rfl same around, by rintro _ ⟨⟩⟩
    · have hlookedUp := Custodian.lookedUp hvalid htier hlookUp
      have hmade : made? p ⟨{ p.custodian with cached := some k }, host⟩ = p.custodian.made? k := by
        simp only [made?, hcached]
      have hbare := Custodian.bare_of_generated hvalid htier hlookUp
      obtain ⟨hmarked, htold⟩ :=
        hp.marked.lookedUp hp.config_eq hv hapart htier hbare hlookedUp
      simp only [hmade]
      refine ⟨⟨hp.toUnder.with_cached _ _, hlookedUp.around.accepts hp.accepts, hmarked, ?_⟩, ?_⟩
      · rintro _ ⟨⟩
        exact htold
      · rintro _ ⟨⟩
        exact htold

theorem step (hp : Marking config level past p) (e : Event) (he : e.IsFaultless config) :
    Marking config (e.levelAfter level) (past ++ (made? p (Custody.step e p).2).toList)
      (Custody.step e p).2 := by
  have hresolve := hp.resolve hv hapart
  cases e with
  | start other =>
    have hnone (q : Custody) (hq : q.custodian.cached = none) : made? p q = none := by
      unfold made?
      rw [hq]
      cases p.custodian.cached <;> rfl
    rw [hp.step_start hv, hnone _ rfl, Option.toList_none, List.append_nil]
    exact ⟨⟨rfl, rfl, he⟩, hp.accepts, hp.marked, by rintro _ ⟨⟩⟩
  | resolve => exact hresolve.1
  | stop => exact he.elim
  | invalidate =>
    have hnone : made? p (Custody.invalidate p).2 = none := by
      unfold made?
      cases p.custodian.cached <;> rfl
    rw [step_invalidate, hnone, Option.toList_none, List.append_nil]
    exact ⟨hp.toUnder.with_cached _ _, hp.accepts, hp.marked, by rintro _ ⟨⟩⟩
  | encrypt text =>
    have hend := encrypt_end hp.isProtected text
    rw [step_encrypt]
    generalize Custody.encrypt text p = outcome at hend ⊢
    cases hend with
    | failed hfailed =>
      rw [hfailed] at hresolve
      exact hresolve.1
    | sealed hsame _ same around =>
      rw [hsame] at hresolve
      exact hresolve.1.of_around rfl same around
    | tooLong hsame _ same around =>
      rw [hsame] at hresolve
      exact hresolve.1.of_around rfl same around
  | decrypt stream =>
    have hend := decrypt_end hp.isProtected stream
    rw [step_decrypt]
    generalize Custody.decrypt stream p = outcome at hend ⊢
    cases hend with
    | unheaded _ =>
      show Marking config level (past ++ (made? p p).toList) p
      rw [made?_same, Option.toList_none, List.append_nil]
      exact hp
    | failed _ hfailed =>
      rw [hfailed] at hresolve
      exact hresolve.1
    | answered _ hsame _ =>
      rw [hsame] at hresolve
      exact hresolve.1
  | delete keyName => exact he.elim
  | surround s =>
    have hnone : made? p { p with host := p.host.within s } = none := made?_same p
    show Marking config level (past ++ (made? p { p with host := p.host.within s }).toList) _
    rw [hnone, Option.toList_none, List.append_nil]
    exact ⟨hp.toUnder.of_custodian rfl, he, hp.marked.of_same (p.host.within_same s), hp.cached⟩

theorem run {events : List Event} (hp : Marking config level past p)
    (hevents : ∀ e ∈ events, e.IsFaultless config) :
    ∃ level', Marking config level' (past ++ makers events p) (Custody.run events p).2 := by
  induction events generalizing level past p with
  | nil => exact ⟨level, by rwa [makers, List.append_nil]⟩
  | cons e rest ih =>
    obtain ⟨he, hrest⟩ := List.forall_mem_cons.mp hevents
    obtain ⟨level', hp'⟩ := ih (hp.step hv hapart e he) hrest
    exact ⟨level', by rwa [makers, ← List.append_assoc]⟩

end Marking

/-- A resolved key is told with the level and the tier of the custodian for which the last key was
made, and these are its own unless it is a direct key and a wrapped one has been made since. -/
theorem told_by_last_made {level : UInt32} {host : Host} {events : List Event}
    (hbegin : begin config level host = .ok p)
    (hapart : config.wrappedKeySetting ≠ config.levelSetting)
    (hentries : host.vault.entries = .empty) (hvalues : host.settings.values = .empty)
    (hsupported : (config.thresholds.tierAt level).isSupported) (haccepts : host.Accepts)
    (hevents : ∀ e ∈ events, e.IsFaultless config)
    (hresolve : resolve (run events p).2 = (.ok k, p')) :
    ∃ maker last, Told config (makers (events ++ [.resolve]) p) k maker last ∧
      (k.platformLevel = maker.marker ↔ maker = last) ∧
      (k.tier = config.thresholds.tierAt maker.level ↔ maker = last) ∧
      (maker = last ↔ (k.source.isDirect → last.isDirect)) := by
  obtain ⟨hv, rfl⟩ := begin_ok.mp hbegin
  have hp : Marking config level [] ⟨{ platform := ⟨level⟩, config }, host⟩ :=
    ⟨⟨rfl, rfl, hsupported⟩, haccepts, .of_empty hentries hvalues, nofun⟩
  obtain ⟨level', hp'⟩ := hp.run hv hapart hevents
  obtain ⟨hmarking, htold⟩ := hp'.resolve hv hapart
  rw [hresolve] at hmarking htold
  obtain ⟨maker, last, hk⟩ := htold k rfl
  have hpast : makers (events ++ [.resolve]) ⟨{ platform := ⟨level⟩, config }, host⟩ = _ :=
    makers_append events [.resolve] _
  simp only [makers, step_resolve, hresolve, Prod.map_snd, id, List.append_nil] at hpast
  rw [hpast]
  exact ⟨maker, last, hk, hk.level_iff hmarking.marked, hk.tier_iff hmarking.marked,
    hk.last_iff hmarking.marked⟩

theorem told_by_last_made_downgrade :
    ∃ k p', resolve (run [.resolve, .start 19] ⟨{ platform := ⟨23⟩, config := {} },
        .fresh { entropy := .ofSeed 7, now := .epoch }⟩).2 = (.ok k, p') ∧
      ∃ maker last, Told {} (makers [.resolve, .start 19, .resolve]
        ⟨{ platform := ⟨23⟩, config := {} }, .fresh { entropy := .ofSeed 7, now := .epoch }⟩)
        k maker last := by
  let p : Custody :=
    ⟨{ platform := ⟨23⟩, config := {} }, .fresh { entropy := .ofSeed 7, now := .epoch }⟩
  have hbegin : begin {} 23 (.fresh { entropy := .ofSeed 7, now := .epoch }) = .ok p := rfl
  have haccepts : (Host.fresh { entropy := .ofSeed 7, now := .epoch }).Accepts := writable_memory _
  have hevents : ∀ e ∈ [Event.resolve, .start 19], e.IsFaultless {} := by
    rintro e hmem
    obtain rfl | hmem := List.mem_cons.mp hmem
    · trivial
    · cases List.mem_singleton.mp hmem
      rfl
  have hok : (resolve (run [.resolve, .start 19] p).2).1.isOk = true := by decide +kernel
  rcases hresolve : resolve (run [.resolve, .start 19] p).2 with ⟨e | k, p'⟩
  · rw [hresolve] at hok
    cases hok
  · obtain ⟨maker, last, htold, -⟩ := told_by_last_made hbegin (by decide) rfl rfl rfl haccepts
      hevents hresolve
    exact ⟨k, p', rfl, maker, last, htold⟩

/-- A modern custodian has a direct key made. After a legacy custodian has come by, the same bytes
are told with the level and the tier of that. -/
theorem direct_key_told_as_wrapped :
    let p : Custody :=
      ⟨{ platform := ⟨23⟩, config := {} }, .fresh { entropy := .ofSeed 7, now := .epoch }⟩
    let later := (run [.resolve, .start 19, .resolve, .start 23] p).2
    ∃ first k, (resolve p).1 = .ok first ∧ (resolve later).1 = .ok k ∧ k.key = first.key ∧
      first.source = .generatedModern ∧ first.tier = .modernDirect ∧ first.platformLevel = 23 ∧
      k.source = .vaultDirect ∧ k.tier = .legacyWrapped ∧ k.platformLevel = 19 := by
  intro p later
  have hkeys : ((resolve p).1.toOption.bind fun first => (resolve later).1.toOption.map fun k =>
      decide (k.key = first.key ∧
        first.source = .generatedModern ∧ first.tier = .modernDirect ∧ first.platformLevel = 23 ∧
        k.source = .vaultDirect ∧ k.tier = .legacyWrapped ∧ k.platformLevel = 19)) = some true := by
    decide +kernel
  obtain ⟨first, hfirst, hkey⟩ := Option.bind_eq_some_iff.mp hkeys
  obtain ⟨k, hk, htold⟩ := Option.map_eq_some_iff.mp hkey
  exact ⟨first, k, toOption_eq_some.mp hfirst, toOption_eq_some.mp hk, of_decide_eq_true htold⟩

end Custody

end SealedStream
