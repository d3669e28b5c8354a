import SealedStream.Exercise.Workload
import SealedStream.Proofs.Durable.Runs
import SealedStream.Proofs.Generation
import SealedStream.Proofs.Migration

/-!
# One resolution for all callers

Callers of one custodian take turns: whose turn it is has the cache for itself, and finds
the host as others have left it. A resolution that gives a key opens an epoch that lasts
until someone has the key forgotten. In it the cache alone answers, whoever asks and
whatever has become of the host; before it every resolution looks for the key in full.
-/

namespace SealedStream

open SealedStream.Action (Keeps)

-- ----------------------------------------------------------------------------
-- Turns
-- ----------------------------------------------------------------------------

namespace Custody

/-- What a caller may ask of a custodian. -/
inductive Call where
  | resolve | cached | status | invalidate
  deriving DecidableEq

/-- A caller's turn to have the cache, and what others have done to the host since the last one. -/
structure Turn where
  caller : Nat
  call : Call
  meanwhile : Host → Host

inductive Reply where
  | resolved (k : ContentKey)
  | cached (k? : Option ContentKey)
  | told (report : KeyStatus)
  | done

namespace Turn

/-- The turn of a caller who resolves the key on a host that no one else has touched. -/
def first (caller : Nat) : Turn := ⟨caller, .resolve, id⟩

/-- What the caller finds when it has the cache. -/
def finds (t : Turn) (p : Custody) : Custody := { p with host := t.meanwhile p.host }

def take (t : Turn) : CustodyAction Reply := do
  modify t.finds
  match t.call with
  | .resolve => return .resolved (← resolve)
  | .cached => return .cached (← get).custodian.cached
  | .status => return .told (← status)
  | .invalidate =>
    invalidate
    return .done

variable {t : Turn} {p : Custody}

theorem take_resolve (h : t.call = .resolve) :
    t.take p = ((resolve (t.finds p)).1.map .resolved, (resolve (t.finds p)).2) := by
  simp only [take, h, Action.bind_apply, Action.modify_apply]
  rcases resolve (t.finds p) with ⟨_ | _, _⟩ <;> rfl

theorem take_cached (h : t.call = .cached) :
    t.take p = (.ok (.cached p.custodian.cached), t.finds p) := by
  simp only [take, h, Action.bind_apply, Action.modify_apply]
  rfl

theorem take_status (h : t.call = .status) : (t.take p).2.custodian = p.custodian := by
  simp only [take, h, Action.bind_apply, Action.modify_apply, status, Action.get_apply, onHost,
    Action.zoom_apply]
  rcases (t.finds p).custodian.status (t.finds p).host with ⟨_ | _, _⟩ <;> rfl

theorem take_invalidate (h : t.call = .invalidate) :
    t.take p = (.ok .done, { t.finds p with custodian := p.custodian.invalidate }) := by
  simp only [take, h, Action.bind_apply, Action.modify_apply]
  rfl

end Turn

/-- The cache holds what a resolution has answered, and nothing where it has failed. -/
theorem cached_of_resolve (p : Custody) :
    (resolve p).2.custodian.cached = (resolve p).1.toOption := by
  cases hcached : p.custodian.cached with
  | some k =>
    rw [resolve_of_cached hcached]
    exact hcached
  | none =>
    rw [resolve_of_uncached hcached]
    rcases p.custodian.lookUp p.host with ⟨_ | _, _⟩
    · exact hcached
    · rfl

namespace Turn

variable {t : Turn} {p : Custody} {k : ContentKey}

/-- Where nothing is cached, a resolution is a look-up, and what that answers is cached. -/
theorem take_uncached (hcall : t.call = .resolve) (hnone : p.custodian.cached = none) :
    t.take p =
      let looked := p.custodian.lookUp (t.meanwhile p.host)
      (looked.1.map .resolved, ⟨{ p.custodian with cached := looked.1.toOption }, looked.2⟩) := by
  obtain ⟨⟨platform, config, cached⟩, host⟩ := p
  obtain rfl : cached = none := hnone
  rw [take_resolve hcall, resolve_of_uncached rfl]
  simp only [finds]
  rcases Custodian.lookUp ⟨platform, config, none⟩ (t.meanwhile host) with ⟨_ | _, _⟩ <;> rfl

/-- No call but an invalidation ends an epoch. -/
theorem cached_take (hk : p.custodian.cached = some k) (h : t.call ≠ .invalidate) :
    (t.take p).2.custodian.cached = some k := by
  cases hcall : t.call with
  | resolve =>
    rw [take_resolve hcall, resolve_of_cached (p := t.finds p) hk]
    exact hk
  | cached =>
    rw [take_cached hcall]
    exact hk
  | status => rwa [take_status hcall]
  | invalidate => exact absurd hcall h

/-- No call but a resolution begins one. -/
theorem uncached_take (hnone : p.custodian.cached = none) (h : t.call ≠ .resolve) :
    (t.take p).2.custodian.cached = none := by
  cases hcall : t.call with
  | resolve => exact absurd hcall h
  | cached =>
    rw [take_cached hcall]
    exact hnone
  | status => rwa [take_status hcall]
  | invalidate =>
    rw [take_invalidate hcall]
    rfl

end Turn

/-- A turn that has been taken. -/
abbrev Taken := Moment Custody Turn (Failure SealError) Reply

/-- What callers see who have taken their turns in this order. -/
structure Epochs (turns : List Taken) : Prop where
  /-- Until the next invalidation the cache answers every resolution and every look at it. Such a
  resolution reads nothing of the host and leaves it as it is: it would answer the same on any. -/
  kept : ∀ (earlier between later : List Taken) (m m' : Taken) (k : ContentKey),
    turns = earlier ++ m :: (between ++ m' :: later) → m.event.call = .resolve →
    m.reply = .ok (.resolved k) → (∀ b ∈ between, b.event.call ≠ .invalidate) →
    (m'.event.call = .resolve → m'.reply = .ok (.resolved k) ∧
      m'.after = m'.event.finds m'.before ∧
      ∀ host, resolve ⟨m'.before.custodian, host⟩ = (.ok k, ⟨m'.before.custodian, host⟩)) ∧
    (m'.event.call = .cached → m'.reply = .ok (.cached (some k)) ∧
      m'.after = m'.event.finds m'.before)
  /-- A resolution that fails caches nothing, and the next one looks the key up in full. -/
  failed : ∀ (earlier later : List Taken) (m : Taken) (e : Failure SealError),
    turns = earlier ++ m :: later → m.event.call = .resolve → m.reply = .error e →
      m.after.custodian.cached = none ∧
      ∀ (between rest : List Taken) (m' : Taken), later = between ++ m' :: rest →
        (∀ b ∈ between, b.event.call ≠ .resolve) → m'.event.call = .resolve →
          let looked := m'.before.custodian.lookUp (m'.event.meanwhile m'.before.host)
          m'.reply = looked.1.map .resolved ∧ m'.after.host = looked.2 ∧
            m'.after.custodian.cached = looked.1.toOption

theorem epochs (turns : List Turn) (p : Custody) : Epochs (moments Turn.take turns p) where
  kept earlier between later m m' k hrun hcall hreply hbetween := by
    obtain ⟨hact, rest, hrest⟩ := later_of_moments hrun
    have hcached : m.after.custodian.cached = some k := by
      rw [Turn.take_resolve hcall, hreply, Prod.mk.injEq, map_eq_ok] at hact
      obtain ⟨⟨_, hresolve, ⟨⟩⟩, hafter⟩ := hact
      rw [← hafter, cached_of_resolve, hresolve]
      rfl
    let knows (p : Custody) : Prop := p.custodian.cached = some k
    have hbefore : knows m'.before := before_of_moments hrest.symm hcached fun b hb hact hk => by
      have hnext := Turn.cached_take hk (hbetween b hb)
      rwa [hact] at hnext
    obtain ⟨hact, -⟩ := later_of_moments hrest.symm
    constructor
    · intro hcall
      rw [Turn.take_resolve hcall, resolve_of_cached (p := m'.event.finds m'.before) hbefore] at hact
      obtain ⟨hreply, hafter⟩ := Prod.mk.inj hact
      exact ⟨hreply.symm, hafter.symm, fun host => resolve_of_cached hbefore⟩
    · intro hcall
      rw [Turn.take_cached hcall, hbefore] at hact
      obtain ⟨hreply, hafter⟩ := Prod.mk.inj hact
      exact ⟨hreply.symm, hafter.symm⟩
  failed earlier later m e hrun hcall hreply := by
    obtain ⟨hact, rest, hrest⟩ := later_of_moments hrun
    have hnone : m.after.custodian.cached = none := by
      rw [Turn.take_resolve hcall, hreply, Prod.mk.injEq, map_eq_error] at hact
      rw [← hact.2, cached_of_resolve, hact.1]
      rfl
    refine ⟨hnone, fun between later' m' hlater hbetween hcall' => ?_⟩
    rw [hrest] at hlater
    let empty (p : Custody) : Prop := p.custodian.cached = none
    have hbefore : empty m'.before := before_of_moments hlater hnone fun b hb hact hk => by
      have hnext := Turn.uncached_take hk (hbetween b hb)
      rwa [hact] at hnext
    obtain ⟨hact, -⟩ := later_of_moments hlater
    rw [Turn.take_uncached hcall' hbefore] at hact
    obtain ⟨hreply', hafter⟩ := Prod.mk.inj hact
    exact ⟨hreply'.symm, by rw [← hafter], by rw [← hafter]⟩

-- ----------------------------------------------------------------------------
-- First callers
-- ----------------------------------------------------------------------------

variable {p p' : Custody} {k : ContentKey}

theorem resolve_again (h : resolve p = (.ok k, p')) : resolve p' = (.ok k, p') := by
  refine resolve_of_cached ?_
  have hcached := cached_of_resolve p
  rwa [h] at hcached

/-- Whoever comes first, all callers get the key of a single resolution, and only that was made. -/
theorem first_callers (h : resolve p = (.ok k, p')) (callers : List Nat) :
    ∀ m ∈ moments Turn.take (callers.map Turn.first) p,
      m.reply = .ok (.resolved k) ∧ m.after = p' := by
  induction callers generalizing p with
  | nil => exact List.forall_mem_nil _
  | cons caller callers ih =>
    have htake : (Turn.first caller).take p = (.ok (.resolved k), p') := by
      have hfinds : (Turn.first caller).finds p = p := rfl
      rw [Turn.take_resolve rfl, hfinds, h]
      rfl
    rw [List.map_cons, moments_cons htake]
    exact List.forall_mem_cons.mpr ⟨⟨rfl, rfl⟩, ih (resolve_again h)⟩

theorem resolutions_eq (h : resolve p = (.ok k, p')) {n : Nat} (hn : 0 < n) :
    Exercise.Workload.resolutions n p = (.ok (List.replicate n k), p') := by
  have hexpected {q : Custody} (h : resolve q = (.ok k, p')) :
      Exercise.RecordKeeper.expected resolve q = (.ok k, p') := Action.mapError_ok.mpr h
  have hrest (n : Nat) :
      Exercise.Workload.resolutions n p' = (.ok (List.replicate n k), p') := by
    induction n with
    | zero => rfl
    | succ n ih =>
      simp only [Exercise.Workload.resolutions, Action.bind_apply, hexpected (resolve_again h), ih]
      rfl
  obtain ⟨n, rfl⟩ := Nat.exists_eq_succ_of_ne_zero (Nat.pos_iff_ne_zero.mp hn)
  simp only [Exercise.Workload.resolutions, Action.bind_apply, hexpected h, hrest]
  rfl

end Custody

-- ----------------------------------------------------------------------------
-- Healthy hosts
-- ----------------------------------------------------------------------------

namespace Custodian

variable {c : Custodian} {h h' : Host} {k : ContentKey}

/-- What minting asks of the vault. -/
def mintRequests (c : Custodian) : List Request :=
  if c.hostTier = .modernDirect then [.generateSymmetricKey] else [.generateKeyPair, .wrap]

theorem requests_mint {m : Minted} (hmint : c.mint h = (.ok m, h')) :
    h'.requests = h.requests ++ c.mintRequests := by
  rw [mint_eq] at hmint
  rw [mintRequests]
  split at hmint
  · next htier =>
    obtain ⟨key, h₁, hrequest, hm⟩ := Action.bind_ok.mp hmint
    cases hm
    rw [if_pos htier, ← Host.requests_request (VaultSite.asks_generateSymmetricKey ..), hrequest]
  · next htier =>
    obtain ⟨spec, h₀, hspec, hrest⟩ := Action.bind_ok.mp hmint
    rw [newPairSpec_apply] at hspec
    split at hspec
    · cases hspec
      obtain ⟨pair, h₁, hrequest, hrest⟩ := Action.bind_ok.mp hrest
      obtain ⟨material, h₂, hdraw, hrest⟩ := Action.bind_ok.mp hrest
      obtain ⟨key, h₃, hkey, hrest⟩ := Action.bind_ok.mp hrest
      obtain ⟨wrapped, h₄, hwrap, hm⟩ := Action.bind_ok.mp hrest
      cases hm
      obtain ⟨-, rfl⟩ := Prod.mk.inj hkey
      have hgenerated := Host.requests_request (VaultSite.asks_generateKeyPair c.config.wrapAlias spec)
        (generationError c.config.wrapAlias) h
      have hwrapped := Host.requests_request (VaultSite.asks_wrap pair.publicKey key) .keyVault h₂
      rw [hrequest] at hgenerated
      rw [← Host.onVault, hwrap] at hwrapped
      have hdrawn : h₂.requests = h₁.requests := by
        cases hdraw
        rfl
      rw [if_neg htier, hwrapped, hdrawn, hgenerated, List.append_assoc]
      rfl
    · cases hspec

theorem recoverWrapped_unwritten
    (hblob : h.settings.getString? c.config.wrappedKeySetting = .ok none) :
    c.recoverWrapped h = (.ok none, h) := by
  rw [recoverWrapped, Action.bind_apply, Host.readSettings_apply, hblob]
  rfl

/-- On a host that holds nothing for it, a custodian that may generate a key does. -/
theorem lookUp_of_ready {marker : Int64} (hv : c.config.validate = .ok ())
    (hsupported : c.hostTier.isSupported) (hready : c.Ready h)
    (hnone : c.hostTier = .modernDirect → h.vault.entries.get? c.config.symmetricAlias = none)
    (hmarker : h.settings.getInt c.config.levelSetting c.platform.marker = .ok marker)
    (hblob : h.settings.getString? c.config.wrappedKeySetting = .ok none) :
    ∃ k h', c.lookUp h = (.ok k, h') ∧ h'.requests =
      h.requests ++ (if c.hostTier = .modernDirect then [Request.hasKey, .generateSymmetricKey]
        else [.generateKeyPair, .wrap]) := by
  let asked := if c.hostTier = .modernDirect then [Request.hasKey] else []
  have hsearch : c.search h = (.ok none, h.asked asked) := by
    rw [search_eq_recoverWrapped hready.unlocked hnone hmarker, Action.bind_apply,
      recoverWrapped_unwritten (h := h.asked _) hblob]
    rfl
  have hready' : c.Ready (h.asked asked) := ⟨hready.accepts, hready.unlocked, hready.admitted⟩
  have hmints := mint_mints hv (h.asked asked)
  rcases hmint : c.mint (h.asked asked) with ⟨e | m, h₂⟩
  all_goals rw [hmint] at hmints
  · cases hmints with
    | refused hnot _ _ => exact absurd hready' hnot
  · obtain ⟨-, -, -, -, around⟩ := hmints.placed
    have hput := h₂.putAll_put m.record
    have hrequests := Host.requests_onSettings (SettingsSite.putAll m.record) h₂
    rcases hrecord : Host.onSettings (SettingsSite.putAll m.record) h₂ with ⟨e | _, h₃⟩
    all_goals rw [hrecord] at hput hrequests
    · cases hput with
      | refused hnot _ _ => exact absurd (around.accepts hready'.accepts) hnot
    · refine ⟨c.keyOf m.key c.platform.marker m.source, h₃, ?_, ?_⟩
      · rw [lookUp_eq hsupported, Action.bind_apply, hsearch]
        simp only [Action.bind_apply, hmint, record, hrecord]
        rfl
      · rw [hrequests, requests_mint hmint, Host.asked, List.append_assoc, mintRequests]
        simp only [asked]
        split <;> rfl

/-- After an upgrade, a modern custodian takes over the key that a legacy one has wrapped. -/
theorem lookUp_of_wrapped {old : Custodian} {h₀ h₁ : Host} (hv : old.config.validate = .ok ())
    (hne : old.config.wrappedKeySetting ≠ old.config.levelSetting)
    (htier : old.hostTier = .legacyWrapped) (hlookUp : old.lookUp h₀ = (.ok k, h₁))
    (hsource : k.source = .generatedLegacy)
    (hnone : h₁.vault.entries.get? old.config.symmetricAlias = none)
    (hconfig : c.config = old.config) (hmodern : c.hostTier = .modernDirect)
    (same : h₁.SameStores h) (hl : ¬ h.vault.locked) (hwindow : c.InWindow h) :
    c.lookUp h = (.ok k.migrated, h.asked [.hasKey, .privateKey, .unwrap]) := by
  obtain ⟨platform, config, cached⟩ := c
  obtain rfl : config = old.config := hconfig
  have hkeeps := (lookedUp hv (by rw [htier]; rfl) hlookUp).keepsForAll hne hsource hnone
  have hkept := ((hkeeps platform).of_same same).with_cached cached
  have hsearch := search_of_kept hkept hl hwindow
  have hrequests : searchRequests ⟨platform, old.config, cached⟩ k.migrated.source =
      [.hasKey, .privateKey, .unwrap] := by
    simp only [ContentKey.migrated, searchRequests, hmodern, if_true]
    rfl
  rw [lookUp_eq (by rw [hmodern]; rfl), Action.bind_apply, hsearch, hrequests]
  rfl

end Custodian

namespace Custody

/--
In whatever order callers have their turns, and whatever becomes of the host between them, a key
once resolved is what they get until it is to be forgotten, and a failure is followed by a look-up.
Where callers come first, all get the key of one resolution, of which the vault hears once: it
generates one key on a host that holds nothing, and after an upgrade it unwraps one and generates
none.
-/
theorem resolves_once_per_epoch :
    (∀ (turns : List Turn) (p : Custody), Epochs (moments Turn.take turns p)) ∧
    (∀ (p p' : Custody) (k : ContentKey), resolve p = (.ok k, p') →
      (∀ callers : List Nat, ∀ m ∈ moments Turn.take (callers.map Turn.first) p,
        m.reply = .ok (.resolved k) ∧ m.after = p') ∧
      ∀ n > 0, Exercise.Workload.resolutions n p = (.ok (List.replicate n k), p')) ∧
    (∀ (c : Custodian) (h : Host), c.config.validate = .ok () → c.hostTier.isSupported →
      c.cached = none → c.Ready h → h.vault.entries = .empty → h.settings.values = .empty →
      ∃ k, ∀ callers : List Nat, ∀ m ∈ moments Turn.take (callers.map Turn.first) ⟨c, h⟩,
        m.reply = .ok (.resolved k) ∧ m.after.host.requests =
          h.requests ++ (if c.hostTier = .modernDirect then [Request.hasKey, .generateSymmetricKey]
            else [.generateKeyPair, .wrap])) ∧
    ∀ (old c : Custodian) (h₀ h₁ h : Host) (k : ContentKey), old.config.validate = .ok () →
      old.config.wrappedKeySetting ≠ old.config.levelSetting → old.hostTier = .legacyWrapped →
      old.lookUp h₀ = (.ok k, h₁) → k.source = .generatedLegacy →
      h₁.vault.entries.get? old.config.symmetricAlias = none →
      c.config = old.config → c.hostTier = .modernDirect → c.cached = none →
      h₁.SameStores h → ¬ h.vault.locked → c.InWindow h →
      ∀ callers : List Nat, ∀ m ∈ moments Turn.take (callers.map Turn.first) ⟨c, h⟩,
        m.reply = .ok (.resolved k.migrated) ∧
          m.after.host = h.asked [.hasKey, .privateKey, .unwrap] := by
  refine ⟨epochs, fun p p' k hresolve => ⟨first_callers hresolve, fun n hn => ?_⟩, ?_, ?_⟩
  · exact resolutions_eq hresolve hn
  · intro c h hv hsupported hcached hready hentries hvalues
    have hs : h.Holds c.config {} := .of_empty hentries hvalues
    have hmarker : h.settings.getInt c.config.levelSetting c.platform.marker =
        .ok c.platform.marker := by
      rw [Settings.getInt, Settings.get?, hvalues, Dict.get?_empty]
    have hblob : h.settings.getString? c.config.wrappedKeySetting = .ok none := by
      rw [Settings.getString?, hs.blob]
      rfl
    obtain ⟨k, h', hlookUp, hrequests⟩ :=
      Custodian.lookUp_of_ready hv hsupported hready (fun _ => hs.direct) hmarker hblob
    have hresolve : resolve ⟨c, h⟩ = (.ok k, ⟨{ c with cached := some k }, h'⟩) := by
      rw [resolve_of_uncached hcached, hlookUp]
    refine ⟨k, fun callers m hm => ?_⟩
    obtain ⟨hreply, hafter⟩ := first_callers hresolve callers m hm
    exact ⟨hreply, by rw [hafter, hrequests]⟩
  · intro old c h₀ h₁ h k hv hne htier hlookUp hsource hnone hconfig hmodern hcached same hl hwindow
    have hfound := Custodian.lookUp_of_wrapped hv hne htier hlookUp hsource hnone hconfig hmodern
      same hl hwindow
    have hresolve : resolve ⟨c, h⟩ = (.ok k.migrated,
        ⟨{ c with cached := some k.migrated }, h.asked [.hasKey, .privateKey, .unwrap]⟩) := by
      rw [resolve_of_uncached hcached, hfound]
    intro callers m hm
    obtain ⟨hreply, hafter⟩ := first_callers hresolve callers m hm
    exact ⟨hreply, by rw [hafter]⟩

/-- Three callers on a new legacy host, and two of its successor on a modern one. -/
theorem resolves_once_per_epoch_upgrade :
    let old : Custodian := { platform := ⟨19⟩, config := {} }
    let c : Custodian := { platform := ⟨23⟩, config := {} }
    let h : Host := .fresh { entropy := .ofSeed 7, now := .epoch }
    (∃ k, ∀ m ∈ moments Turn.take ([2, 0, 1].map Turn.first) ⟨old, h⟩,
      m.reply = .ok (.resolved k) ∧
        m.after.host.requests = h.requests ++ [Request.generateKeyPair, .wrap]) ∧
    ∃ k h₁, old.lookUp h = (.ok k, h₁) ∧ k.source = .generatedLegacy ∧
      ∀ m ∈ moments Turn.take ([1, 0].map Turn.first) ⟨c, h₁⟩,
        m.reply = .ok (.resolved k.migrated) ∧
          m.after.host = h₁.asked [.hasKey, .privateKey, .unwrap] := by
  intro old c h
  obtain ⟨-, -, hempty, hupgraded⟩ := resolves_once_per_epoch
  constructor
  · have hready : old.Ready h :=
      Custodian.ready_of_usable Config.usable_default nofun (writable_memory _) rfl
    have htier : ¬ old.hostTier = .modernDirect := by decide
    obtain ⟨k, hall⟩ := hempty old h rfl rfl rfl hready rfl rfl
    simp only [if_neg htier] at hall
    exact ⟨k, hall [2, 0, 1]⟩
  · obtain ⟨hgenerated, hnone⟩ :
        (old.lookUp h).1.toOption.map ContentKey.source = some .generatedLegacy ∧
          (old.lookUp h).2.vault.entries.get? old.config.symmetricAlias = none := by
      rw [← Option.isNone_iff_eq_none]
      decide +kernel
    obtain ⟨k, hk, hsource⟩ := map_toOption_eq_some.mp hgenerated
    have hlookUp : old.lookUp h = (.ok k, (old.lookUp h).2) := Prod.ext hk rfl
    generalize (old.lookUp h).2 = h₁ at hlookUp hnone
    obtain ⟨_, _, _, hmade⟩ := (Custodian.lookedUp rfl rfl hlookUp).madeWrapped hsource
    have hl : ¬ h₁.vault.locked := by
      rw [hmade.around.locked]
      nofun
    exact ⟨k, h₁, hlookUp, hsource, hupgraded old c h h₁ h₁ k rfl (by decide) rfl hlookUp hsource
      hnone rfl rfl rfl ⟨rfl, rfl⟩ hl hmade.inWindow [1, 0]⟩

end Custody

end SealedStream
