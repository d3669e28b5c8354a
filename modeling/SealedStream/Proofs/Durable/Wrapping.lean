import SealedStream.Proofs.Durable.Vault
import SealedStream.Proofs.Files.Rewriting
import SealedStream.Proofs.Holdings

/-!
# Wrapped keys open later

What was wrapped for a key pair opens with it, whatever else has been asked of the
vault in the meantime and however often it has been opened again from its document.
The invariant is `Guards`: memory and document hold the secret key of the pair, with
its times as they were asked for or cut to whole seconds.
-/

namespace SealedStream

-- ----------------------------------------------------------------------------
-- Times in a document
-- ----------------------------------------------------------------------------

/-- A key pair as its document tells of it. -/
def KeyPairSpec.cut (spec : KeyPairSpec) : KeyPairSpec :=
  ⟨spec.sizeBits, spec.notBefore.cut, spec.notAfter.cut⟩

namespace Time

theorem epochSeconds_cut (t : Time) : t.cut.epochSeconds = t.epochSeconds := by
  rw [cut, epochSeconds, seconds_of, Int.toNat_natCast]

theorem cut_cut (t : Time) : t.cut.cut = t.cut := by
  rw [cut, epochSeconds_cut, cut]

/-- A time without the parts of its last second. -/
def whole (t : Time) : Time := of t.seconds 0

theorem whole_le (t : Time) : t.whole ≤ t := by
  show t.seconds * Duration.nanosecondsPerSecond + _ ≤ t.nanoseconds
  have hdiv := Int.mul_fdiv_add_fmod t.nanoseconds Duration.nanosecondsPerSecond
  have hmod := Int.fmod_nonneg_of_pos t.nanoseconds (b := Duration.nanosecondsPerSecond) (by decide)
  rw [seconds, Int.mul_comm]
  omega

/-- Not before the epoch, the last whole second is what is written. -/
theorem whole_le_cut (t : Time) : t.whole ≤ t.cut := by
  show t.seconds * _ + _ ≤ (t.epochSeconds : Int) * _ + _
  have hseconds : t.seconds ≤ t.epochSeconds := Int.self_le_toNat _
  have := Int.mul_le_mul_of_nonneg_right hseconds
    (show (0 : Int) ≤ Duration.nanosecondsPerSecond by decide)
  omega

theorem cut_le {t s : Time} (hepoch : epoch ≤ t) (h : s ≤ t) : s.cut ≤ t := by
  by_cases hs : 0 ≤ s.seconds
  · have hwhole : s.cut = s.whole := by
      rw [cut, whole, epochSeconds, Int.toNat_of_nonneg hs]
    exact hwhole ▸ Int.le_trans s.whole_le h
  · have hzero : s.cut = epoch := by
      rw [cut, epochSeconds, Int.toNat_of_nonpos (by omega)]
      rfl
    exact hzero ▸ hepoch

end Time

/-- A pair is valid in the whole seconds that it was asked for, also once it has been written. -/
theorem KeyPairSpec.isValidAt_of_whole {spec s : KeyPairSpec} (hs : s = spec ∨ s = spec.cut)
    {t : Time} (hepoch : .epoch ≤ t) (hbefore : spec.notBefore ≤ t)
    (hafter : t ≤ spec.notAfter.whole) : s.IsValidAt t := by
  obtain rfl | rfl := hs
  · exact ⟨hbefore, Int.le_trans hafter s.notAfter.whole_le⟩
  · exact ⟨Time.cut_le hepoch hbefore, Int.le_trans hafter spec.notAfter.whole_le_cut⟩

-- ----------------------------------------------------------------------------
-- What a call touches
-- ----------------------------------------------------------------------------

namespace VaultCall

variable {site : VaultSite} {call : VaultCall}

/-- The name whose entry a call changes, if it changes one. -/
def changed? : VaultCall → Option String
  | generateSymmetricKey keyName _ => some keyName
  | generateKeyPair keyName _ => some keyName
  | deleteKey keyName => some keyName
  | _ => none

theorem get?_wanted {keyName : String} (h : call.changed? ≠ some keyName) (site : VaultSite) :
    (call.wanted site).get? keyName = site.vault.entries.get? keyName := by
  cases call with
  | generateSymmetricKey other bits =>
    have hne : keyName ≠ other := fun he => h (congrArg some he.symm)
    rw [wanted]
    cases KeySize.ofBits? bits <;> simp [Dict.get?_insert, hne]
  | generateKeyPair other spec =>
    have hne : keyName ≠ other := fun he => h (congrArg some he.symm)
    simp [wanted, Dict.get?_insert, hne]
  | deleteKey other =>
    have hne : keyName ≠ other := fun he => h (congrArg some he.symm)
    simp [wanted, Dict.get?_erase, hne]
  | _ => rfl

theorem inRange_wanted (hrange : call.InRange) (hentries : Vault.InRange site.vault.entries) :
    Vault.InRange (call.wanted site) := by
  cases call with
  | generateSymmetricKey keyName bits =>
    rw [wanted]
    cases KeySize.ofBits? bits with
    | none => exact hentries
    | some size => exact hentries.insert trivial
  | generateKeyPair keyName spec => exact hentries.insert hrange
  | deleteKey keyName => exact hentries.erase keyName
  | _ => exact hentries

/-- A call only asks, or it writes the entries that are wanted. -/
inductive Does (site : VaultSite) (call : VaultCall) :
    Except VaultError VaultAnswer × VaultSite → Prop
  | asks {reply : Except VaultError VaultAnswer} {site' : VaultSite} :
      site'.vault = site.vault → site'.machine.files = site.machine.files →
        Does site call (reply, site')
  | writes (keyName : String) (r : Request) (entropy : Entropy) (answer : VaultAnswer)
      {ending : Except VaultError Unit × VaultSite} : call.changed? = some keyName →
        ending = VaultSite.replaceEntries (call.wanted site) (site.drawn r entropy) →
          Does site call (ending.1.map fun _ => answer, ending.2)

theorem does_asking {α : Type} (r : Request) (answer : VaultSite → Except VaultError α)
    (f : α → VaultAnswer) (site : VaultSite) :
    Does site call ((VaultSite.ask r answer >>= fun a => pure (f a)) site) := by
  rw [ask_reading]
  exact .asks rfl rfl

theorem does_wrap (publicKey : PublicKeyHandle) (key : SymmetricKey) (site : VaultSite) :
    Does site (.wrap publicKey key) ((wrap publicKey key).ask site) := by
  rw [ask, VaultSite.wrap, Action.bind_apply, Action.bind_apply, VaultSite.ask_apply]
  cases (site.noted .wrap).vault.ensureUnlocked with
  | error e => exact .asks rfl rfl
  | ok _ => exact .asks rfl rfl

theorem does_generateSymmetricKey (keyName : String) (bits : Nat) (site : VaultSite) :
    Does site (.generateSymmetricKey keyName bits) ((generateSymmetricKey keyName bits).ask site) := by
  cases hready : site.vault.admitSymmetric keyName bits with
  | error e =>
    have hask : (generateSymmetricKey keyName bits).ask site = _ := ask_rejected hready
    rw [hask]
    exact .asks rfl rfl
  | ok size =>
    obtain ⟨-, -, hsize⟩ := Vault.admitSymmetric_ok.mp hready
    let draw := SymmetricKey.draw size site.machine.entropy
    rw [ask_generateSymmetricKey hready]
    refine .writes keyName .generateSymmetricKey draw.2 _ rfl ?_
    rw [wanted, hsize]

theorem does_generateKeyPair (keyName : String) (spec : KeyPairSpec) (site : VaultSite) :
    Does site (.generateKeyPair keyName spec) ((generateKeyPair keyName spec).ask site) := by
  cases hready : site.vault.admitKeyPair keyName spec with
  | error e =>
    have hask : (generateKeyPair keyName spec).ask site = _ := ask_rejected hready
    rw [hask]
    exact .asks rfl rfl
  | ok _ =>
    rw [ask_generateKeyPair hready]
    exact .writes keyName .generateKeyPair _ _ rfl rfl

theorem does_deleteKey (keyName : String) (site : VaultSite) :
    Does site (.deleteKey keyName) ((deleteKey keyName).ask site) := by
  cases hknown : site.vault.hasKey keyName with
  | error e =>
    rw [ask_deleteKey_rejected hknown]
    exact .asks rfl rfl
  | ok known =>
    cases known with
    | true =>
      rw [ask_deleteKey_known hknown]
      exact .writes keyName .deleteKey site.machine.entropy _ rfl rfl
    | false =>
      rw [ask_deleteKey_unknown hknown]
      exact .asks rfl rfl

theorem ask_does (call : VaultCall) (site : VaultSite) : Does site call (call.ask site) := by
  cases call with
  | hasKey keyName => exact does_asking .hasKey (·.vault.hasKey keyName) .known site
  | symmetricKey keyName =>
    exact does_asking .getSymmetricKey (·.vault.symmetricKey keyName) .symmetricKey site
  | privateKey keyName =>
    exact does_asking .privateKey (·.vault.privateKey keyName) .privateKey site
  | generateSymmetricKey keyName bits => exact does_generateSymmetricKey keyName bits site
  | generateKeyPair keyName spec => exact does_generateKeyPair keyName spec site
  | wrap publicKey key => exact does_wrap publicKey key site
  | unwrap handle bytes =>
    exact does_asking .unwrap (fun site => site.vault.unwrap site.machine.now handle bytes) .key site
  | deleteKey keyName => exact does_deleteKey keyName site

end VaultCall

namespace VaultEvent

def changed? : VaultEvent → Option String
  | asked call _ _ => call.changed?
  | _ => none

def faults : VaultEvent → List (Option Fault)
  | asked _ faults _ => faults
  | setLocked _ => []
  | opened faults => faults

/-- An event at a vault wherever it is kept; one without a document is not opened again. -/
def befall (event : VaultEvent) : Action VaultSite (Failure VaultError) VaultAnswer := fun site =>
  match site.vault.path, event with
  | none, opened _ => (.ok .done, site)
  | path?, event => event.act (path?.getD ⟨false, []⟩) site

/-- The site at which a call meets these faults, at this time. -/
def met (faults : List (Option Fault)) (now : Time) (site : VaultSite) : VaultSite :=
  { site with machine := { site.machine with files := site.machine.files.facing faults, now } }

theorem befall_asked (call : VaultCall) (faults : List (Option Fault)) (now : Time)
    (site : VaultSite) :
    (asked call faults now).befall site =
      ((call.ask (met faults now site)).1.mapError .error, (call.ask (met faults now site)).2) := by
  unfold befall
  cases site.vault.path <;> exact Action.mapError_apply _ _ _

end VaultEvent

-- ----------------------------------------------------------------------------
-- A secret key that stays
-- ----------------------------------------------------------------------------

namespace VaultSite

variable {path? : Option Path} {keyName : String} {secret : SecretKey} {spec : KeyPairSpec}
  {site : VaultSite}

/-- The document at a path holds the pair, with its times cut. -/
structure Written (path : Path) (keyName : String) (secret : SecretKey) (spec : KeyPairSpec)
    (files : Files) : Prop where
  steady : files.Steady path
  found : ∃ document entries, files.found? path = some (.ok document) ∧
    Vault.decode document = .ok entries ∧
      entries.get? keyName = some (.keyPair secret spec.cut)

/-- Memory holds the secret key of a pair, and so does the document if there is one. -/
structure Guards (path? : Option Path) (keyName : String) (secret : SecretKey)
    (spec : KeyPairSpec) (site : VaultSite) : Prop where
  kept : site.vault.path = path?
  inRange : Vault.InRange site.vault.entries
  held : ∃ s, (s = spec ∨ s = spec.cut) ∧
    site.vault.entries.get? keyName = some (.keyPair secret s)
  written : ∀ path ∈ path?, Written path keyName secret spec site.machine.files

namespace Written

variable {path : Path} {files files' : Files}

theorem of_spares (hw : Written path keyName secret spec files)
    (hspared : Files.Spares path files files') : Written path keyName secret spec files' :=
  ⟨hspared.steady, hspared.found ▸ hw.found⟩

theorem of_encode {entries : Dict VaultEntry} (hs : files.Steady path)
    (hfound : files.found? path = some (.ok (Vault.encode entries)))
    (hrange : Vault.InRange entries) {s : KeyPairSpec} (hspec : s = spec ∨ s = spec.cut)
    (hheld : entries.get? keyName = some (.keyPair secret s)) :
    Written path keyName secret spec files := by
  refine ⟨hs, _, _, hfound, Vault.decode_encode hrange, ?_⟩
  have hcut : s.cut = spec.cut := by
    obtain rfl | rfl := hspec
    · rfl
    · simp [KeyPairSpec.cut, Time.cut_cut]
  rw [Dict.get?_map, hheld, Option.map_some, VaultEntry.cut, ← hcut]
  rfl

end Written

namespace Guards

/-- Entries that keep the pair may be written, and entries that do not if that fails. -/
theorem replaceEntries (hg : Guards path? keyName secret spec site) {entries : Dict VaultEntry}
    (hrange : Vault.InRange entries)
    (hcalm : ∀ path ∈ path?, path.extension? = some "tmp" → site.machine.files.faults = [])
    (hheld : (VaultSite.replaceEntries entries site).1 = .ok () →
      entries.get? keyName = site.vault.entries.get? keyName) :
    Guards path? keyName secret spec (VaultSite.replaceEntries entries site).2 := by
  obtain ⟨s, hspec, hs⟩ := hg.held
  rw [replaceEntries_apply, hg.kept] at hheld ⊢
  cases path? with
  | none => exact ⟨hg.kept, hrange, ⟨s, hspec, (hheld rfl).trans hs⟩, nofun⟩
  | some path =>
    have hw := hg.written path rfl
    obtain ⟨old, -, hfound, -⟩ := hw.found
    have hreplaced := Files.replace_safe hw.steady hfound (hcalm path rfl) (Vault.encode entries)
    rw [Vault.persist, Action.mapError_apply] at hheld ⊢
    rcases hend : Files.replace path (Vault.encode entries) site.machine.files with ⟨e | _, files⟩
    all_goals
      rw [hend] at hreplaced hheld
    · cases hreplaced with
      | failed hspared =>
        refine ⟨hg.kept, hg.inRange, hg.held, fun path' hpath => ?_⟩
        cases hpath
        exact hw.of_spares hspared
    · cases hreplaced with
      | done hsteady hfound =>
        have hkept := (hheld rfl).trans hs
        refine ⟨hg.kept, hrange, ⟨s, hspec, hkept⟩, fun path' hpath => ?_⟩
        cases hpath
        exact .of_encode hsteady hfound hrange hspec hkept

theorem of_same {site' : VaultSite} (hg : Guards path? keyName secret spec site)
    (hvault : site'.vault = site.vault) (hfiles : site'.machine.files = site.machine.files) :
    Guards path? keyName secret spec site' :=
  ⟨hvault ▸ hg.kept, hvault ▸ hg.inRange, hvault ▸ hg.held, hfiles ▸ hg.written⟩

theorem ask (hg : Guards path? keyName secret spec site) {call : VaultCall}
    (hrange : call.InRange)
    (hcalm : ∀ path ∈ path?, path.extension? = some "tmp" → site.machine.files.faults = [])
    (hkept : call.changed? = some keyName → ∃ e, (call.ask site).1 = .error e) :
    Guards path? keyName secret spec (call.ask site).2 := by
  have hdoes := call.ask_does site
  generalize call.ask site = ending at hkept hdoes
  cases hdoes with
  | asks hvault hfiles => exact hg.of_same hvault hfiles
  | writes other r entropy answer hchanged hending =>
    have hdrawn : Guards path? keyName secret spec (site.drawn r entropy) := hg.of_same rfl rfl
    subst hending
    refine hdrawn.replaceEntries (VaultCall.inRange_wanted hrange hg.inRange) hcalm fun hok => ?_
    refine VaultCall.get?_wanted (fun hname => ?_) site
    obtain ⟨e, he⟩ := hkept hname
    rw [hok] at he
    cases he

/-- What one event does to a vault, it still guards the pair. -/
theorem befall (hg : Guards path? keyName secret spec site) {event : VaultEvent}
    (hrange : event.InRange)
    (hcalm : ∀ path ∈ path?, path.extension? = some "tmp" → event.faults = [])
    (hkept : event.changed? = some keyName → ∃ e, (event.befall site).1 = .error e) :
    Guards path? keyName secret spec (event.befall site).2 := by
  cases event with
  | asked call faults now =>
    have hmet : Guards path? keyName secret spec (VaultEvent.met faults now site) :=
      ⟨hg.kept, hg.inRange, hg.held, fun path hpath =>
        (hg.written path hpath).of_spares ⟨(hg.written path hpath).steady.facing faults, rfl⟩⟩
    rw [VaultEvent.befall_asked] at hkept ⊢
    refine hmet.ask hrange hcalm fun hchanged => ?_
    obtain ⟨e, he⟩ := hkept hchanged
    obtain ⟨cause, hcause, -⟩ := mapError_eq_error.mp he
    exact ⟨cause, hcause⟩
  | setLocked locked =>
    unfold VaultEvent.befall
    cases site.vault.path <;> exact ⟨hg.kept, hg.inRange, hg.held, hg.written⟩
  | opened faults =>
    unfold VaultEvent.befall
    rw [hg.kept]
    cases path? with
    | none => exact hg
    | some path =>
      have hw := hg.written path rfl
      obtain ⟨document, entries, hfound, hdecode, hentry⟩ := hw.found
      have hspared := Vault.format.spares_opening (hw.steady.facing faults)
      have hfound' : (site.machine.files.facing faults).found? path = some (.ok document) := hfound
      show Guards _ _ _ _ ((VaultEvent.opened faults).act path site).2
      rw [Format.opening_present hfound'] at hspared
      rw [VaultEvent.opened_apply, Vault.openAt_eq, Format.opening_present hfound']
      have hw' := hw.of_spares ⟨hspared.steady, hspared.found⟩
      obtain hmet | ⟨e, hmet⟩ := (site.machine.files.facing faults).met_end (.ok document)
      · rw [hmet, Except.mapError, ok_bind, Vault.decode_format, hdecode]
        refine ⟨rfl, Vault.inRange_decode hdecode, ⟨_, .inr rfl, hentry⟩, fun path' hpath => ?_⟩
        cases hpath
        exact hw'
      · rw [hmet]
        refine ⟨hg.kept, hg.inRange, hg.held, fun path' hpath => ?_⟩
        cases hpath
        exact hw'

/-- What befalls a vault that guards a pair, it guards it ever after. -/
theorem of_mem_moments (hg : Guards path? keyName secret spec site) {events : List VaultEvent}
    (hrange : ∀ event ∈ events, event.InRange)
    (hcalm : ∀ path ∈ path?, path.extension? = some "tmp" → ∀ event ∈ events, event.faults = [])
    (hkept : ∀ m ∈ moments VaultEvent.befall events site,
      m.event.changed? = some keyName → ∃ e, m.reply = .error e)
    {m : VaultMoment} (hm : m ∈ moments VaultEvent.befall events site) :
    Guards path? keyName secret spec m.after := by
  refine kept_of_mem_moments (fun m hm hbefore => ?_) hg hm
  obtain ⟨hevent, hact⟩ := act_of_mem_moments hm
  have hreply : (m.event.befall m.before).1 = m.reply := by rw [hact]
  have hafter : (m.event.befall m.before).2 = m.after := by rw [hact]
  rw [← hafter]
  exact hbefore.befall (hrange _ hevent) (fun path hpath hext => hcalm path hpath hext _ hevent)
    fun hchanged => hreply ▸ hkept m hm hchanged

/-- A vault that is not locked opens what was wrapped for a pair that it guards. -/
theorem unwraps (hg : Guards path? keyName secret spec site) (hl : ¬ site.vault.locked)
    {wrapped : Bytes} {key : SymmetricKey} (hopens : Vault.unwrapped secret wrapped = .ok key)
    {t : Time} (hepoch : .epoch ≤ t) (hbefore : spec.notBefore ≤ t)
    (hafter : t ≤ spec.notAfter.whole) :
    (privateKey keyName site).1 = .ok (some ⟨keyName⟩) ∧
      (unwrap ⟨keyName⟩ wrapped { site with machine := { site.machine with now := t } }).1 =
        .ok key := by
  obtain ⟨s, hspec, hs⟩ := hg.held
  have hpair : site.vault.entries.get? keyName =
      (some (secret, s)).map fun p => .keyPair p.1 p.2 := hs
  have hvalid := KeyPairSpec.isValidAt_of_whole hspec hepoch hbefore hafter
  constructor
  · show site.vault.privateKey keyName = _
    rw [Vault.privateKey_eq hpair, if_neg hl]
    rfl
  · show site.vault.unwrap t ⟨keyName⟩ wrapped = _
    rw [Vault.unwrap_eq hpair, if_neg hl]
    simp only [if_pos hvalid, hopens]
    rfl

end Guards

/-- A vault that has generated a pair guards it. -/
theorem guards_of_generateKeyPair (hw : site.machine.files.WellFormed)
    (hrange : Vault.InRange site.vault.entries)
    (hspec : spec.notBefore.InRange ∧ spec.notAfter.InRange) {pair : KeyPairHandle}
    {site' : VaultSite} (h : generateKeyPair keyName spec site = (.ok pair, site')) :
    ∃ secret, pair.publicKey.bytes = secret.publicKey ∧
      Guards site.vault.path keyName secret spec site' := by
  obtain ⟨_, asked, hask, h⟩ := Action.bind_ok.mp h
  obtain ⟨secret, drawn, hdraw, h⟩ := Action.bind_ok.mp h
  obtain ⟨_, stored, hstore, h⟩ := Action.bind_ok.mp h
  cases h
  rw [ask_apply] at hask
  obtain ⟨-, rfl⟩ := Prod.mk.inj hask
  cases hdraw
  refine ⟨_, rfl, ?_⟩
  let draw := SecretKey.draw site.machine.entropy
  have hentries : Vault.InRange (site.vault.entries.insert keyName (.keyPair draw.1 spec)) :=
    hrange.insert hspec
  have hheld : (site.vault.entries.insert keyName (.keyPair draw.1 spec)).get? keyName =
      some (.keyPair draw.1 spec) := by
    simp [Dict.get?_insert]
  have hreplace : replaceEntries (site.vault.entries.insert keyName (.keyPair draw.1 spec))
      (site.drawn .generateKeyPair draw.2) = (.ok (), site') :=
    (store_eq keyName _ _).symm.trans hstore
  rw [replaceEntries_apply] at hreplace
  cases hpath : site.vault.path with
  | none =>
    simp only [drawn, hpath] at hreplace
    cases hreplace
    exact ⟨rfl, hentries, ⟨spec, .inl rfl, hheld⟩, nofun⟩
  | some path =>
    simp only [drawn, hpath, Vault.persist, Action.mapError_apply] at hreplace
    rcases hend : Files.replace path (Vault.encode (site.vault.entries.insert keyName
      (.keyPair draw.1 spec))) site.machine.files with ⟨e | _, files⟩
    all_goals
      rw [hend] at hreplace
      cases hreplace
    obtain ⟨hsteady, hfound⟩ := Files.replace_ok hw hend
    refine ⟨rfl, hentries, ⟨spec, .inl rfl, hheld⟩, fun path' hpath' => ?_⟩
    cases hpath'
    exact .of_encode hsteady hfound hentries (.inl rfl) hheld

/-- What is wrapped for a public key opens with its secret. -/
theorem unwrapped_of_wrap {publicKey : PublicKeyHandle} (hpublic : publicKey.bytes = secret.publicKey)
    {key : SymmetricKey} {wrapped : Bytes} {site' : VaultSite}
    (h : wrap publicKey key site = (.ok wrapped, site')) :
    wrapped.length = 72 + key.bytes.length ∧ Vault.unwrapped secret wrapped = .ok key := by
  obtain ⟨_, _, _, h⟩ := Action.bind_ok.mp h
  obtain ⟨ephemeral, drawn, _, h⟩ := Action.bind_ok.mp h
  obtain ⟨nonce, _, hnonce, h⟩ := Action.bind_ok.mp h
  cases h
  have hsize : nonce.length = Cipher.Box.nonceSize := by
    cases hnonce
    exact Entropy.length_draw drawn.machine.entropy Cipher.Box.nonceSize
  rw [hpublic]
  exact ⟨Vault.length_wrapped hsize _, Vault.unwrapped_wrapped hsize⟩

/--
A key wrapped for a pair that the vault has generated opens with it after whatever else has
befallen the vault, as long as the pair has been neither generated again nor deleted. The files are
such that none has two names.
-/
theorem unwraps_later {site₁ sender sender' : VaultSite} {pair : KeyPairHandle}
    {key : SymmetricKey} {wrapped : Bytes} {events : List VaultEvent}
    (hw : site.machine.files.WellFormed) (hentries : Vault.InRange site.vault.entries)
    (hspec : spec.notBefore.InRange ∧ spec.notAfter.InRange)
    (hpair : generateKeyPair keyName spec site = (.ok pair, site₁))
    (hwrap : wrap pair.publicKey key sender = (.ok wrapped, sender'))
    (hrange : ∀ event ∈ events, event.InRange)
    (hcalm : ∀ path ∈ site.vault.path, path.extension? = some "tmp" →
      ∀ event ∈ events, event.faults = [])
    (hkept : ∀ m ∈ moments VaultEvent.befall events site₁,
      m.event.changed? = some keyName → ∃ e, m.reply = .error e) :
    wrapped.length = 72 + key.bytes.length ∧
      ∀ site' ∈ site₁ :: (moments VaultEvent.befall events site₁).map Moment.after,
        ¬ site'.vault.locked → ∀ t, .epoch ≤ t → spec.notBefore ≤ t →
          t ≤ spec.notAfter.whole → ∃ handle,
            (privateKey keyName site').1 = .ok (some handle) ∧
              (unwrap handle wrapped
                { site' with machine := { site'.machine with now := t } }).1 = .ok key := by
  obtain ⟨secret, hpublic, hg⟩ := guards_of_generateKeyPair hw hentries hspec hpair
  obtain ⟨hlength, hopens⟩ := unwrapped_of_wrap hpublic hwrap
  refine ⟨hlength, fun site' hsite' hl t hepoch hbefore hafter => ⟨⟨keyName⟩, ?_⟩⟩
  have hg' : Guards site.vault.path keyName secret spec site' := by
    obtain rfl | hsite' := List.mem_cons.mp hsite'
    · exact hg
    · obtain ⟨m, hm, rfl⟩ := List.mem_map.mp hsite'
      exact hg.of_mem_moments hrange hcalm hkept hm
  exact hg'.unwraps hl hopens hepoch hbefore hafter

/-- A vault that is given another key, locked, opened again and not able to delete that key. -/
theorem unwraps_later_reopened :
    let start : Time := .of 1700000000 5
    let spec : KeyPairSpec := ⟨256, start, .of 1700000009 7⟩
    let site : VaultSite :=
      ⟨{ path := some ⟨false, ["state", "vault.json"]⟩ }, [], ⟨{}, .ofSeed 7, start⟩⟩
    let key : SymmetricKey := ⟨List.replicate 16 0, .inl rfl⟩
    let events := [
      .asked (.generateSymmetricKey "content" 128) [] start,
      .setLocked true,
      .opened [],
      .asked (.deleteKey "content") [some ⟨.system .storageFull, 3⟩] start]
    ∃ pair site₁ wrapped sender', generateKeyPair "pair" spec site = (.ok pair, site₁) ∧
      wrap pair.publicKey key site = (.ok wrapped, sender') ∧ wrapped.length = 72 + 16 ∧
        ∀ site' ∈ site₁ :: (moments VaultEvent.befall events site₁).map Moment.after,
          ¬ site'.vault.locked → ∀ t, .epoch ≤ t → start ≤ t → t ≤ .of 1700000009 0 →
            ∃ handle, (privateKey "pair" site').1 = .ok (some handle) ∧
              (unwrap handle wrapped
                { site' with machine := { site'.machine with now := t } }).1 = .ok key := by
  intro start spec site key events
  have hok : ((generateKeyPair "pair" spec site).1.toOption.isSome) = true := by decide +kernel
  rcases hgenerate : generateKeyPair "pair" spec site with ⟨e | pair, site₁⟩
  · rw [hgenerate] at hok
    cases hok
  obtain ⟨wrapped, sender', hwrap⟩ : ∃ wrapped sender',
    wrap pair.publicKey key site = (.ok wrapped, sender') := ⟨_, _, rfl⟩
  refine ⟨pair, site₁, wrapped, sender', rfl, hwrap, ?_⟩
  have hentries : Vault.InRange site.vault.entries := fun _ => nofun
  refine unwraps_later Files.wellFormed_empty hentries ⟨by decide, by decide⟩ hgenerate hwrap
    (fun event hevent => ?_) (fun path hpath hext => ?_) (fun m hm hchanged => ?_)
  · simp only [events, List.mem_cons, List.not_mem_nil, or_false] at hevent
    rcases hevent with rfl | rfl | rfl | rfl <;> exact trivial
  · cases hpath
    exact absurd hext (by decide)
  · obtain ⟨hevent, -⟩ := act_of_mem_moments hm
    simp only [events, List.mem_cons, List.not_mem_nil, or_false] at hevent
    rcases hevent with h | h | h | h
    all_goals
      rw [h] at hchanged
      exact absurd hchanged (by decide)

end VaultSite

end SealedStream
