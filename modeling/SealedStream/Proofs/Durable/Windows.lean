import SealedStream.Proofs.Durable.Wrapping

/-!
# Windows of key pairs in a document

A document tells of times in whole seconds since the epoch. A vault that has generated a pair goes
by the window that was asked for, one that is opened from its document by the window cut to such
seconds. `reopened_agrees_iff` says at which times the two agree, and for which windows they always
do.
-/

namespace SealedStream

-- ----------------------------------------------------------------------------
-- Times that are cut
-- ----------------------------------------------------------------------------

namespace Time

variable {t s : Time}

/-- A whole second since the epoch. -/
def IsSecond (t : Time) : Prop :=
  epoch ≤ t ∧ (Duration.nanosecondsPerSecond : Int) ∣ t.nanoseconds

theorem le_antisymm (h : t ≤ s) (h' : s ≤ t) : t = s := by
  cases t
  cases s
  exact congrArg mk (Int.le_antisymm h h')

theorem epoch_le_cut (t : Time) : epoch ≤ t.cut := by
  show (0 : Int) ≤ (t.epochSeconds : Int) * (Duration.nanosecondsPerSecond : Int) + (0 : Nat)
  positivity

theorem seconds_mono (h : t ≤ s) : t.seconds ≤ s.seconds := by
  rw [seconds, seconds, Int.fdiv_eq_ediv_of_nonneg _ (by decide),
    Int.fdiv_eq_ediv_of_nonneg _ (by decide)]
  exact Int.ediv_le_ediv (by decide) h

theorem cut_mono (h : t ≤ s) : t.cut ≤ s.cut := by
  have hseconds := seconds_mono h
  have hepochSeconds : t.epochSeconds ≤ s.epochSeconds := by
    rw [epochSeconds, epochSeconds]
    omega
  show (t.epochSeconds : Int) * (Duration.nanosecondsPerSecond : Int) + (0 : Nat) ≤
    (s.epochSeconds : Int) * (Duration.nanosecondsPerSecond : Int) + (0 : Nat)
  gcongr

/-- A document can tell of whole seconds since the epoch and of no other times. -/
theorem cut_eq_iff : t.cut = t ↔ t.IsSecond := by
  constructor
  · intro h
    refine ⟨h ▸ t.epoch_le_cut, ?_⟩
    rw [← h]
    exact ⟨t.epochSeconds, by simp [cut, of, mul_comm]⟩
  · rintro ⟨hepoch, seconds, hseconds⟩
    have hnonneg : 0 ≤ seconds := by
      have hepoch : (0 : Int) ≤ t.nanoseconds := hepoch
      have hseconds : t.nanoseconds = 1000000000 * seconds := hseconds
      omega
    obtain ⟨seconds, rfl⟩ := Int.eq_ofNat_of_zero_le hnonneg
    have hof : t = of seconds 0 := by
      cases t
      simpa [of, mul_comm] using hseconds
    rw [cut, epochSeconds, hof, seconds_of, Int.toNat_natCast]

end Time

/-- A pair that has been written is valid at the same times exactly if its window runs from one
whole second since the epoch to another. -/
theorem KeyPairSpec.valid_same_iff {spec : KeyPairSpec} (hlasting : spec.notBefore < spec.notAfter)
    (hrange : spec.notBefore.InRange ∧ spec.notAfter.InRange) :
    (∀ t : Time, t.InRange → (spec.IsValidAt t ↔ spec.cut.IsValidAt t)) ↔
      spec.notBefore.IsSecond ∧ spec.notAfter.IsSecond := by
  have hwindow : spec.notBefore ≤ spec.notAfter := Int.le_of_lt hlasting
  constructor
  · intro hsame
    -- A bound that is not what is written of it is itself a time at which the two differ, or the
    -- written one is.
    have hbefore : spec.notBefore.cut = spec.notBefore := by
      have hstart := (hsame _ hrange.1).mp ⟨Int.le_refl _, hwindow⟩
      have hcut := (hsame _ (Time.inRange_cut hrange.1)).mpr
        ⟨Int.le_refl _, Time.cut_mono hwindow⟩
      exact Time.le_antisymm hstart.1 hcut.1
    have hepoch : Time.epoch ≤ spec.notAfter :=
      Int.le_trans (hbefore ▸ Time.epoch_le_cut _) hwindow
    have hafter : spec.notAfter.cut = spec.notAfter := by
      have hend := (hsame _ hrange.2).mp ⟨hwindow, Int.le_refl _⟩
      exact Time.le_antisymm (Time.cut_le hepoch (Int.le_refl _)) hend.2
    exact ⟨Time.cut_eq_iff.mp hbefore, Time.cut_eq_iff.mp hafter⟩
  · rintro ⟨hbefore, hafter⟩ t -
    rw [cut, Time.cut_eq_iff.mpr hbefore, Time.cut_eq_iff.mpr hafter]

-- ----------------------------------------------------------------------------
-- Verdicts
-- ----------------------------------------------------------------------------

/-- On whatever is wrapped for a pair, two unlocked vaults that hold it give the same verdict at
the times at which both windows are open, or neither. -/
theorem Vault.unwrap_same_iff {v w : Vault} {keyName : String} {secret : SecretKey}
    {spec spec' : KeyPairSpec} (hv : v.entries.get? keyName = some (.keyPair secret spec))
    (hw : w.entries.get? keyName = some (.keyPair secret spec')) (hvl : ¬ v.locked)
    (hwl : ¬ w.locked) (t : Time) (bytes : Bytes) :
    v.unwrap t ⟨keyName⟩ bytes = w.unwrap t ⟨keyName⟩ bytes ↔
      (spec.IsValidAt t ↔ spec'.IsValidAt t) := by
  have hopened : (unwrapped secret bytes).mapError VaultError.unwrap ≠
      .error (.keyExpired keyName) := by
    cases unwrapped secret bytes <;> rintro ⟨⟩
  rw [unwrap_keyPair hv, unwrap_keyPair hw, if_neg hvl, if_neg hwl]
  by_cases hs : spec.IsValidAt t <;> by_cases hs' : spec'.IsValidAt t
  · rw [if_pos hs, if_pos hs']
    exact iff_of_true rfl (iff_of_true hs hs')
  · rw [if_pos hs, if_neg hs']
    exact iff_of_false hopened fun h => hs' (h.mp hs)
  · rw [if_neg hs, if_pos hs']
    exact iff_of_false hopened.symm fun h => hs (h.mpr hs')
  · rw [if_neg hs, if_neg hs']
    exact iff_of_true rfl (iff_of_false hs hs')

namespace VaultSite

variable {path : Path} {keyName : String} {secret : SecretKey} {spec : KeyPairSpec}
  {site site₁ site' : VaultSite}

/-- Memory holds a pair with the times that were asked for, and the document with these times
cut. -/
structure Recalls (path : Path) (keyName : String) (secret : SecretKey) (spec : KeyPairSpec)
    (site : VaultSite) : Prop where
  guards : Guards (some path) keyName secret spec site
  held : site.vault.entries.get? keyName = some (.keyPair secret spec)

theorem Written.openAt_ok {files files' : Files} {vault : Vault}
    (hw : Written path keyName secret spec files)
    (h : Vault.openAt path files = (.ok vault, files')) :
    ¬ vault.locked ∧ vault.entries.get? keyName = some (.keyPair secret spec.cut) := by
  obtain ⟨document, entries, hfound, hdecode, hentry⟩ := hw.found
  rw [Vault.openAt_eq] at h
  obtain ⟨stored, hstored, rfl⟩ := map_eq_ok.mp (Prod.mk.inj h).1
  refine ⟨Bool.false_ne_true, ?_⟩
  obtain ⟨hnone, -⟩ | ⟨document', hfound', hdecode'⟩ := Format.opening_ok (Prod.ext hstored rfl)
  · rw [hfound] at hnone
    cases hnone
  · rw [hfound] at hfound'
    cases hfound'
    rw [Vault.decode_format, hdecode] at hdecode'
    cases hdecode'
    exact hentry

theorem Written.openAt_calm {files : Files} (hw : Written path keyName secret spec files) :
    ∃ vault, (Vault.openAt path (files.facing [])).1 = .ok vault := by
  obtain ⟨document, entries, hfound, hdecode, -⟩ := hw.found
  have hfound' : (files.facing []).found? path = some (.ok document) := hfound
  rw [Vault.openAt_eq, Format.opening_present hfound', Files.met_calm, Except.mapError, ok_bind,
    Vault.decode_format, hdecode]
  exact ⟨_, rfl⟩

/-- A call that succeeds at changing no entry of the pair leaves it in memory as it is. -/
theorem held_ask {entry : VaultEntry} {call : VaultCall}
    (hheld : site.vault.entries.get? keyName = some entry)
    (hkept : call.changed? = some keyName → ∃ e, (call.ask site).1 = .error e) :
    (call.ask site).2.vault.entries.get? keyName = some entry := by
  have hdoes := call.ask_does site
  generalize call.ask site = ending at hkept hdoes
  cases hdoes with
  | asks hvault _ => exact hvault ▸ hheld
  | writes other r entropy answer hchanged hending =>
    subst hending
    rw [replaceEntries_apply] at hkept ⊢
    split
    · next hwritten =>
      rw [hwritten] at hkept
      refine (VaultCall.get?_wanted (fun hname => ?_) site).trans hheld
      obtain ⟨e, he⟩ := hkept hname
      cases he
    · exact hheld

namespace Recalls

/-- What one event does to a vault, other than opening it again, it still recalls the pair. -/
theorem befall (hr : Recalls path keyName secret spec site) {event : VaultEvent}
    (hrange : event.InRange) (hcalm : path.extension? = some "tmp" → event.faults = [])
    (hopen : ∀ faults, event ≠ .opened faults)
    (hkept : event.changed? = some keyName → ∃ e, (event.befall site).1 = .error e) :
    Recalls path keyName secret spec (event.befall site).2 := by
  refine ⟨hr.guards.befall hrange (fun _ hpath => Option.some.inj hpath ▸ hcalm) hkept, ?_⟩
  cases event with
  | opened faults => exact absurd rfl (hopen faults)
  | setLocked locked =>
    unfold VaultEvent.befall
    cases site.vault.path <;> exact hr.held
  | asked call faults now =>
    have hmet : (VaultEvent.met faults now site).vault.entries.get? keyName =
        some (.keyPair secret spec) := hr.held
    rw [VaultEvent.befall_asked] at hkept ⊢
    refine held_ask hmet fun hchanged => ?_
    obtain ⟨e, he⟩ := hkept hchanged
    obtain ⟨cause, hcause, -⟩ := mapError_eq_error.mp he
    exact ⟨cause, hcause⟩

theorem of_mem_moments (hr : Recalls path keyName secret spec site) {events : List VaultEvent}
    (hrange : ∀ event ∈ events, event.InRange)
    (hcalm : path.extension? = some "tmp" → ∀ event ∈ events, event.faults = [])
    (hopen : ∀ event ∈ events, ∀ faults, event ≠ .opened faults)
    (hkept : ∀ m ∈ moments VaultEvent.befall events site,
      m.event.changed? = some keyName → ∃ e, m.reply = .error e)
    {m : VaultMoment} (hm : m ∈ moments VaultEvent.befall events site) :
    Recalls path keyName secret spec m.after := by
  refine kept_of_mem_moments (fun m hm hbefore => ?_) hr hm
  obtain ⟨hevent, hact⟩ := act_of_mem_moments hm
  have hreply : (m.event.befall m.before).1 = m.reply := by rw [hact]
  have hafter : (m.event.befall m.before).2 = m.after := by rw [hact]
  rw [← hafter]
  exact hbefore.befall (hrange _ hevent) (fun hext => hcalm hext _ hevent) (hopen _ hevent)
    fun hchanged => hreply ▸ hkept m hm hchanged

/-- What is opened from the document agrees with memory at the times at which the windows do. -/
theorem reopened_same_iff (hr : Recalls path keyName secret spec site) (hl : ¬ site.vault.locked)
    {faults : List (Option Fault)} {reopened : Vault}
    (hopened : (Vault.openAt path (site.machine.files.facing faults)).1 = .ok reopened)
    (t : Time) (wrapped : Bytes) :
    site.vault.unwrap t ⟨keyName⟩ wrapped = reopened.unwrap t ⟨keyName⟩ wrapped ↔
      (spec.IsValidAt t ↔ spec.cut.IsValidAt t) := by
  have hw := (hr.guards.written path rfl).of_spares
    ⟨(hr.guards.written path rfl).steady.facing faults, rfl⟩
  obtain ⟨hlocked, hheld⟩ := hw.openAt_ok (Prod.ext hopened rfl)
  exact Vault.unwrap_same_iff hr.held hheld hl hlocked t wrapped

end Recalls

theorem held_of_generateKeyPair {pair : KeyPairHandle}
    (h : generateKeyPair keyName spec site = (.ok pair, site₁)) :
    pair.privateKey = ⟨keyName⟩ ∧ spec.notBefore < spec.notAfter ∧
      ∃ secret, site₁.vault.entries.get? keyName = some (.keyPair secret spec) := by
  have hask : (VaultCall.generateKeyPair keyName spec).ask site = (.ok (.keyPair pair), site₁) := by
    rw [VaultCall.ask, Action.bind_apply, h]
    rfl
  cases hready : site.vault.admitKeyPair keyName spec with
  | error e =>
    have hrejected : (VaultCall.generateKeyPair keyName spec).ask site = _ :=
      VaultCall.ask_rejected hready
    rw [hrejected] at hask
    cases hask
  | ok _ =>
    obtain ⟨-, -, -, hlasting⟩ := Vault.admitKeyPair_ok.mp hready
    rw [VaultCall.ask_generateKeyPair hready, replaceEntries_apply] at hask
    split at hask
    · cases hask
      exact ⟨rfl, hlasting, _, by rw [Dict.get?_insert, if_pos rfl]⟩
    · cases hask

theorem recalls_of_generateKeyPair (hpath : site.vault.path = some path)
    (hw : site.machine.files.WellFormed) (hrange : Vault.InRange site.vault.entries)
    (hspec : spec.notBefore.InRange ∧ spec.notAfter.InRange) {pair : KeyPairHandle}
    (h : generateKeyPair keyName spec site = (.ok pair, site₁)) :
    ∃ secret, pair.publicKey.bytes = secret.publicKey ∧
      Recalls path keyName secret spec site₁ := by
  obtain ⟨secret, hpublic, hg⟩ := guards_of_generateKeyPair hw hrange hspec h
  obtain ⟨-, -, secret', hheld⟩ := held_of_generateKeyPair h
  obtain ⟨s, -, hs⟩ := hg.held
  rw [hheld] at hs
  cases hs
  rw [hpath] at hg
  exact ⟨secret, hpublic, hg, hheld⟩

/--
A vault that has generated a pair, whatever has been asked of it since, and a vault that is opened
from its document give the same verdict on what is wrapped for the pair exactly at the times at
which the window that was asked for and the same window cut to whole seconds are both open or both
closed. They agree at all times exactly if the window runs from one whole second since the epoch to
another. The files are such that none has two names.
-/
theorem reopened_agrees_iff {pair : KeyPairHandle} {events : List VaultEvent}
    (hpath : site.vault.path = some path) (hw : site.machine.files.WellFormed)
    (hentries : Vault.InRange site.vault.entries)
    (hspec : spec.notBefore.InRange ∧ spec.notAfter.InRange)
    (hpair : generateKeyPair keyName spec site = (.ok pair, site₁))
    (hrange : ∀ event ∈ events, event.InRange)
    (hcalm : path.extension? = some "tmp" → ∀ event ∈ events, event.faults = [])
    (hopen : ∀ event ∈ events, ∀ faults, event ≠ .opened faults)
    (hkept : ∀ m ∈ moments VaultEvent.befall events site₁,
      m.event.changed? = some keyName → ∃ e, m.reply = .error e) :
    ∀ site' ∈ site₁ :: (moments VaultEvent.befall events site₁).map Moment.after,
      ¬ site'.vault.locked →
        (∃ reopened, (Vault.openAt path (site'.machine.files.facing [])).1 = .ok reopened) ∧
          ∀ faults reopened,
            (Vault.openAt path (site'.machine.files.facing faults)).1 = .ok reopened →
              (∀ t wrapped, site'.vault.unwrap t pair.privateKey wrapped =
                  reopened.unwrap t pair.privateKey wrapped ↔
                    (spec.IsValidAt t ↔ spec.cut.IsValidAt t)) ∧
              ((∀ t : Time, t.InRange → ∀ wrapped,
                  site'.vault.unwrap t pair.privateKey wrapped =
                    reopened.unwrap t pair.privateKey wrapped) ↔
                      spec.notBefore.IsSecond ∧ spec.notAfter.IsSecond) := by
  obtain ⟨hhandle, hlasting, -⟩ := held_of_generateKeyPair hpair
  obtain ⟨secret, -, hr⟩ := recalls_of_generateKeyPair hpath hw hentries hspec hpair
  intro site' hsite' hl
  have hr' : Recalls path keyName secret spec site' := by
    obtain rfl | hsite' := List.mem_cons.mp hsite'
    · exact hr
    · obtain ⟨m, hm, rfl⟩ := List.mem_map.mp hsite'
      exact hr.of_mem_moments hrange hcalm hopen hkept hm
  refine ⟨(hr'.guards.written path rfl).openAt_calm, fun faults reopened hopened => ?_⟩
  have hsame := hr'.reopened_same_iff hl hopened
  rw [hhandle]
  refine ⟨hsame, ?_⟩
  rw [← KeyPairSpec.valid_same_iff hlasting hspec]
  exact ⟨fun h t ht => (hsame t []).mp (h t ht []),
    fun h t ht wrapped => (hsame t wrapped).mpr (h t ht)⟩

/-- A window between two whole seconds, in a vault that is given another key and locked for a
while. -/
theorem reopened_agrees_iff_whole :
    let spec : KeyPairSpec := ⟨256, .of 1700000000 0, .of 1700000009 0⟩
    let path : Path := ⟨false, ["state", "vault.json"]⟩
    let site : VaultSite := ⟨{ path := some path }, [], ⟨{}, .ofSeed 7, .of 1700000000 5⟩⟩
    let events := [
      .setLocked true,
      .setLocked false,
      .asked (.generateSymmetricKey "content" 128) [] (.of 1700000001 5),
      .asked (.deleteKey "content") [] (.of 1700000002 5)]
    ∃ pair site₁, generateKeyPair "pair" spec site = (.ok pair, site₁) ∧
      ∀ site' ∈ site₁ :: (moments VaultEvent.befall events site₁).map Moment.after,
        ¬ site'.vault.locked →
          ∃ reopened, (Vault.openAt path (site'.machine.files.facing [])).1 = .ok reopened ∧
            ∀ t : Time, t.InRange → ∀ wrapped, site'.vault.unwrap t pair.privateKey wrapped =
              reopened.unwrap t pair.privateKey wrapped := by
  intro spec path site events
  have hok : ((generateKeyPair "pair" spec site).1.toOption.isSome) = true := by decide +kernel
  obtain ⟨pair, hpair⟩ := isSome_toOption.mp hok
  have hgenerate : generateKeyPair "pair" spec site =
      (.ok pair, (generateKeyPair "pair" spec site).2) := by
    rw [← hpair]
  have hentries : Vault.InRange site.vault.entries := fun _ => nofun
  have hrange : ∀ event ∈ events, event.InRange := by
    simp only [events, List.forall_mem_cons]
    exact ⟨trivial, trivial, trivial, trivial, List.forall_mem_nil _⟩
  have hopen : ∀ event ∈ events, ∀ faults, event ≠ .opened faults := by
    simp only [events, List.forall_mem_cons]
    exact ⟨nofun, nofun, nofun, nofun, List.forall_mem_nil _⟩
  have hchanged : ∀ event ∈ events, event.changed? ≠ some "pair" := by decide
  refine ⟨pair, _, hgenerate, fun site' hsite' hl => ?_⟩
  obtain ⟨⟨reopened, hopened⟩, hagrees⟩ := reopened_agrees_iff rfl Files.wellFormed_empty hentries
    ⟨by decide, by decide⟩ hgenerate hrange (fun hext => absurd hext (by decide)) hopen
    (fun m hm h => absurd h (hchanged _ (act_of_mem_moments hm).1)) site' hsite' hl
  have hwhole : spec.notBefore.IsSecond ∧ spec.notAfter.IsSecond :=
    ⟨⟨by decide, by decide⟩, by decide, by decide⟩
  exact ⟨reopened, hopened, (hagrees [] reopened hopened).2.mpr hwhole⟩

/-- A window of half a second is closed for whoever opens the vault again. -/
theorem reopened_disagrees :
    let spec : KeyPairSpec := ⟨256, .of 10 0, .of 10 500000000⟩
    let path : Path := ⟨false, ["vault.json"]⟩
    let site : VaultSite := ⟨{ path := some path }, [], ⟨{}, .ofSeed 7, .of 10 0⟩⟩
    let key : SymmetricKey := ⟨List.replicate 16 0, .inl rfl⟩
    ∃ pair site₁ wrapped sender reopened, generateKeyPair "pair" spec site = (.ok pair, site₁) ∧
      wrap pair.publicKey key site = (.ok wrapped, sender) ∧
        (Vault.openAt path (site₁.machine.files.facing [])).1 = .ok reopened ∧
          site₁.vault.unwrap (.of 10 200000000) pair.privateKey wrapped = .ok key ∧
            reopened.unwrap (.of 10 200000000) pair.privateKey wrapped =
              .error (.keyExpired "pair") := by
  intro spec path site key
  have hentries : Vault.InRange site.vault.entries := fun _ => nofun
  have hok : ((generateKeyPair "pair" spec site).1.toOption.isSome) = true := by decide +kernel
  have hl : ¬ (generateKeyPair "pair" spec site).2.vault.locked := by decide +kernel
  obtain ⟨pair, hpair⟩ := isSome_toOption.mp hok
  have hgenerate : generateKeyPair "pair" spec site =
      (.ok pair, (generateKeyPair "pair" spec site).2) := by
    rw [← hpair]
  generalize (generateKeyPair "pair" spec site).2 = site₁ at hl hgenerate
  obtain ⟨wrapped, sender, hwrap⟩ : ∃ wrapped sender,
    wrap pair.publicKey key site = (.ok wrapped, sender) := ⟨_, _, rfl⟩
  obtain ⟨hhandle, -, -⟩ := held_of_generateKeyPair hgenerate
  have hpath : site.vault.path = some path := rfl
  obtain ⟨secret, hpublic, hr⟩ := recalls_of_generateKeyPair hpath Files.wellFormed_empty hentries
    ⟨by decide, by decide⟩ hgenerate
  obtain ⟨-, hopens⟩ := unwrapped_of_wrap hpublic hwrap
  have hw := hr.guards.written path rfl
  obtain ⟨reopened, hopened⟩ := hw.openAt_calm
  obtain ⟨hlocked, hreopened⟩ :=
    (hw.of_spares ⟨hw.steady.facing [], rfl⟩).openAt_ok (Prod.ext hopened rfl)
  have hvalid : spec.IsValidAt (.of 10 200000000) := by decide
  have hexpired : ¬ spec.cut.IsValidAt (.of 10 200000000) := by decide
  refine ⟨pair, site₁, wrapped, sender, reopened, hgenerate, hwrap, hopened, ?_, ?_⟩
  · rw [hhandle, Vault.unwrap_keyPair hr.held, if_neg hl, if_pos hvalid, hopens]
    rfl
  · rw [hhandle, Vault.unwrap_keyPair hreopened, if_neg hlocked, if_neg hexpired]

end VaultSite

end SealedStream
