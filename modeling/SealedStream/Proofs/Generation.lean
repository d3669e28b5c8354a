import SealedStream.Proofs.Keeping

/-!
# When a key is generated

A look-up has a key generated only where there is nothing to recover on its way, and
whatever else stops it leaves the host as it was but for the requests it made. What it
stores goes under one name in the vault and under the settings that belong to the tier.
-/

namespace SealedStream

open SealedStream.Action (Keeps)

theorem Dict.get?_insertAll_of_apart {α : Type} {entries : List (String × α)} {name : String}
    (h : ∀ entry ∈ entries, name ≠ entry.1) (d : Dict α) :
    (d.insertAll entries).get? name = d.get? name := by
  induction entries generalizing d with
  | nil => rfl
  | cons head rest ih =>
    obtain ⟨hhead, hrest⟩ := List.forall_mem_cons.mp h
    have hstep : (d.insertAll (head :: rest)).get? name = (d.insert head.1 head.2).get? name :=
      ih hrest _
    rw [hstep, get?_insert, if_neg hhead]

namespace Host

/-- The settings are put without a word to the vault. -/
theorem requests_onSettings {α : Type} (x : Action SettingsSite SettingsError α) (h : Host) :
    (onSettings x h).2.requests = h.requests := by
  rw [onSettings_apply]
  rfl

end Host

namespace VaultSite

variable {α β : Type}

/-- The steps are one request. It is noted once whatever comes of it, and a locked vault refuses
it. -/
structure Asks (r : Request) (x : Action VaultSite VaultError α) : Prop where
  once : ∀ site, (x site).2.requests = site.requests ++ [r]
  refused : ∀ site, site.vault.locked → x site = (.error .locked, site.noted r)

theorem Asks.of_bind {r : Request} {answer : VaultSite → Except VaultError α}
    {f : α → Action VaultSite VaultError β}
    (hanswer : ∀ site, site.vault.locked → answer site = .error .locked)
    (hf : ∀ a requests, Keeps (fun site => site.requests = requests) (f a)) :
    Asks r (ask r answer >>= f) where
  once site := by
    rw [Action.bind_apply, ask_apply]
    cases answer (site.noted r) with
    | error e => rfl
    | ok a => exact hf a _ _ rfl
  refused site hl := by rw [Action.bind_apply, ask_apply, hanswer (site.noted r) hl]

theorem requests_replaceEntries (entries : Dict VaultEntry) (requests : List Request) :
    Keeps (fun site => site.requests = requests) (replaceEntries entries) := by
  intro site hsite
  rw [replaceEntries_apply]
  rcases Vault.persist site.vault.path entries site.machine.files with ⟨_ | _, files⟩ <;>
    exact hsite

theorem requests_store (keyName : String) (entry : VaultEntry) (requests : List Request) :
    Keeps (fun site => site.requests = requests) (store keyName entry) := by
  intro site hsite
  rw [store_eq]
  exact requests_replaceEntries _ requests site hsite

theorem asks_generateSymmetricKey (keyName : String) (bits : Nat) :
    Asks .generateSymmetricKey (generateSymmetricKey keyName bits) := by
  refine .of_bind (fun site hl => ?_) fun _ requests => .bind (fun _ hs => hs) fun _ =>
    .bind (requests_store _ _ requests) fun _ => .of_same fun _ => rfl
  rw [Vault.admitSymmetric, Vault.ensureUnlocked, if_pos hl]
  rfl

theorem asks_generateKeyPair (keyName : String) (spec : KeyPairSpec) :
    Asks .generateKeyPair (generateKeyPair keyName spec) := by
  refine .of_bind (fun site hl => ?_) fun _ requests => .bind (fun _ hs => hs) fun _ =>
    .bind (requests_store _ _ requests) fun _ => .of_same fun _ => rfl
  rw [Vault.admitKeyPair, Vault.ensureUnlocked, if_pos hl]
  rfl

theorem asks_wrap (publicKey : PublicKeyHandle) (key : SymmetricKey) :
    Asks .wrap (wrap publicKey key) :=
  .of_bind (fun _ hl => if_pos hl) fun _ _ => .bind (fun _ hs => hs) fun _ =>
    .bind (fun _ hs => hs) fun _ => .of_same fun _ => rfl

end VaultSite

namespace Host

variable {α : Type} {r : Request} {x : Action VaultSite VaultError α} {h : Host}

theorem requests_request (hx : VaultSite.Asks r x) (wording : VaultError → SealError) (h : Host) :
    (request wording x h).2.requests = h.requests ++ [r] := by
  rw [request_apply]
  exact hx.once h.vaultSite

theorem request_refused (hx : VaultSite.Asks r x) (wording : VaultError → SealError)
    (hl : h.vault.locked) :
    request wording x h = (.error (.error (wording .locked)), h.noted r) := by
  rw [request_apply, hx.refused h.vaultSite hl]
  rfl

end Host

theorem Vault.unlocked_of_privateKey_none {v : Vault} {keyName : String}
    (h : v.privateKey keyName = .ok none) :
    ¬ v.locked ∧ ∀ secret spec, v.entries.get? keyName ≠ some (.keyPair secret spec) := by
  unfold privateKey ensureUnlocked at h
  split at h
  · cases h
  · next hl =>
    refine ⟨hl, fun secret spec hpair => ?_⟩
    simp only [ok_bind, hpair] at h
    cases h

namespace Settings

variable {s : Settings} {key : String}

theorem int_of_getInt {default level : Int64} (h : s.getInt key default = .ok level) :
    ∀ value, s.get? key = some value → ∃ level, value = .int level := by
  rintro value hvalue
  cases value with
  | int level => exact ⟨level, rfl⟩
  | string text =>
    rw [getInt, hvalue] at h
    cases h

theorem string_of_getString? {text? : Option String} (h : s.getString? key = .ok text?) :
    ∀ value, s.get? key = some value → ∃ text, value = .string text := by
  rintro value hvalue
  cases value with
  | string text => exact ⟨text, rfl⟩
  | int level =>
    rw [getString?, hvalue] at h
    cases h

theorem get?_of_getString? (h : s.getString? key = .ok none) : s.get? key = none := by
  unfold getString? at h
  split at h
  · next hnone => exact hnone
  · cases h
  · cases h

theorem get?_of_getString?_some {text : String} (h : s.getString? key = .ok (some text)) :
    s.get? key = some (.string text) := by
  unfold getString? at h
  split at h
  · cases h
  · next hvalue =>
    cases h
    exact hvalue
  · cases h

end Settings

namespace Custodian

/-- There is nothing for a custodian to recover: the settings say nothing else of a level and a
wrapped key than they should, the vault has no entry where a modern host looks, and a wrapped key or
the pair to open it is missing. -/
structure Bare (c : Custodian) (h : Host) : Prop where
  level : ∀ value, h.settings.get? c.config.levelSetting = some value →
    ∃ level, value = .int level
  blob : ∀ value, h.settings.get? c.config.wrappedKeySetting = some value →
    ∃ blob, value = .string blob
  direct : c.hostTier = .modernDirect → h.vault.entries.get? c.config.symmetricAlias = none
  wrapped : h.settings.get? c.config.wrappedKeySetting = none ∨
    ∀ secret spec, h.vault.entries.get? c.config.wrapAlias ≠ some (.keyPair secret spec)

/-- The request by which a custodian has a key generated. -/
def generation (c : Custodian) : Request :=
  if c.hostTier = .modernDirect then .generateSymmetricKey else .generateKeyPair

/-- Where in the vault a custodian has a key generated. -/
def keyName (c : Custodian) : String :=
  if c.hostTier = .modernDirect then c.config.symmetricAlias else c.config.wrapAlias

/-- The settings that belong to a generated key. -/
def keySettings (c : Custodian) : List String :=
  if c.hostTier = .modernDirect then [c.config.levelSetting]
  else [c.config.wrappedKeySetting, c.config.levelSetting]

variable {c : Custodian} {h h' : Host}

-- ----------------------------------------------------------------------------
-- Searching
-- ----------------------------------------------------------------------------

theorem bare_of_recoverWrapped {marker : Int64}
    (hdirect : c.hostTier = .modernDirect → h.vault.entries.get? c.config.symmetricAlias = none)
    (hmarker : h.settings.getInt c.config.levelSetting c.platform.marker = .ok marker)
    (hrecover : (do return (← c.recoverWrapped).map fun key => c.keyOf key marker .migratedLegacy :
      HostAction (Option ContentKey)) h = (.ok none, h')) :
    c.Bare h ∧ (h.vault.locked → h.settings.get? c.config.wrappedKeySetting = none ∧ h' = h) := by
  have hlevel := Settings.int_of_getInt hmarker
  obtain ⟨key?, h₁, hrecover, hk⟩ := Action.bind_ok.mp hrecover
  cases key? with
  | some key => cases hk
  | none =>
    cases hk
    unfold recoverWrapped at hrecover
    obtain ⟨blob?, h₁, hread, hrest⟩ := Action.bind_ok.mp hrecover
    rw [Host.readSettings_apply, Prod.mk.injEq, mapError_eq_ok] at hread
    obtain ⟨hread, rfl⟩ := hread
    have hblob := Settings.string_of_getString? hread
    cases blob? with
    | none =>
      cases hrest
      have hnone := Settings.get?_of_getString? hread
      exact ⟨⟨hlevel, hblob, hdirect, .inl hnone⟩, fun _ => ⟨hnone, rfl⟩⟩
    | some blob =>
      obtain ⟨handle?, h₂, hask, hrest⟩ := Action.bind_ok.mp hrest
      obtain ⟨rfl, hhandle⟩ := Host.onVault_ask_ok hask
      cases handle? with
      | none =>
        obtain ⟨hl, hpair⟩ := Vault.unlocked_of_privateKey_none hhandle
        exact ⟨⟨hlevel, hblob, hdirect, .inr hpair⟩, fun h => absurd h hl⟩
      | some handle =>
        obtain ⟨_, _, _, hrest⟩ := Action.bind_ok.mp hrest
        obtain ⟨_, _, _, hrest⟩ := Action.bind_ok.mp hrest
        cases hrest

/-- Only a legacy host can find out that there is nothing to recover without a word from the
vault. -/
theorem bare_of_search (hsearch : c.search h = (.ok none, h')) :
    c.Bare h ∧ (h.vault.locked → c.hostTier ≠ .modernDirect ∧
      h.settings.get? c.config.wrappedKeySetting = none ∧ h' = h) := by
  unfold search at hsearch
  obtain ⟨marker, h₁, hread, hrest⟩ := Action.bind_ok.mp hsearch
  obtain ⟨rfl, hmarker⟩ := readMarker_ok hread
  cases htier : c.hostTier with
  | modernDirect =>
    simp only [htier] at hrest
    obtain ⟨known, h₂, hask, hrest⟩ := Action.bind_ok.mp hrest
    obtain ⟨rfl, hknown⟩ := Host.onVault_ask_ok hask
    obtain ⟨hl, rfl⟩ := Vault.unlocked_of_hasKey hknown
    split at hrest
    · obtain ⟨key?, h₃, -, hrest⟩ := Action.bind_ok.mp hrest
      cases key? <;> cases hrest
    · next hnone =>
      rw [Bool.not_eq_true, Option.isSome_eq_false_iff, Option.isNone_iff_eq_none] at hnone
      obtain ⟨hbare, -⟩ :=
        bare_of_recoverWrapped (h := h₁.noted .hasKey) (fun _ => hnone) hmarker hrest
      exact ⟨⟨hbare.level, hbare.blob, hbare.direct, hbare.wrapped⟩, fun h => absurd h hl⟩
  | legacyWrapped =>
    simp only [htier] at hrest
    obtain ⟨hbare, hlocked⟩ := bare_of_recoverWrapped (by simp [htier]) hmarker hrest
    exact ⟨hbare, fun hl => ⟨by decide, hlocked hl⟩⟩
  | unsupported =>
    simp only [htier] at hrest
    obtain ⟨hbare, hlocked⟩ := bare_of_recoverWrapped (by simp [htier]) hmarker hrest
    exact ⟨hbare, fun hl => ⟨by decide, hlocked hl⟩⟩

-- ----------------------------------------------------------------------------
-- Minting
-- ----------------------------------------------------------------------------

/-- What minting asks of a vault, and how a locked one answers. -/
inductive MintAsks (c : Custodian) (h : Host) : Except (Failure SealError) Minted × Host → Prop
  | nothing {e : Failure SealError} : MintAsks c h (.error e, h)
  | generation {later : List Request} {outcome : Except (Failure SealError) Minted × Host} :
      outcome.2.requests = h.requests ++ c.generation :: later → (∀ r ∈ later, ¬ r.isGeneration) →
        (h.vault.locked → ∃ e, outcome = (.error e, h.noted c.generation)) → MintAsks c h outcome

theorem MintAsks.of_keeps {x : HostAction Minted}
    (hrequests : h'.requests = h.requests ++ [c.generation])
    (hl : ¬ h.vault.locked)
    (hx : Keeps (fun h'' => ∃ later, (∀ r ∈ later, ¬ r.isGeneration) ∧
      h''.requests = h'.requests ++ later) x) : MintAsks c h (x h') := by
  obtain ⟨later, hlater, hall⟩ := hx h' ⟨[], List.forall_mem_nil _, (List.append_nil _).symm⟩
  refine .generation ?_ hlater fun h => absurd h hl
  rw [hall, hrequests, List.append_assoc]
  rfl

theorem mintDirect_asks (htier : c.hostTier = .modernDirect) : MintAsks c h (c.mintDirect h) := by
  have hgeneration : c.generation = .generateSymmetricKey := if_pos htier
  have hasks := VaultSite.asks_generateSymmetricKey c.config.symmetricAlias
    c.config.keySizeBits.toNat
  have hrequests := Host.requests_request hasks (generationError c.config.symmetricAlias) h
  have hrefused := Host.request_refused (h := h) hasks (generationError c.config.symmetricAlias)
  rw [mintDirect, Action.bind_apply]
  refine @MintAsks.generation c h [] _ ?_ (List.forall_mem_nil _) fun hl => ?_
  · rw [hgeneration, ← hrequests]
    rcases Host.request _ _ h with ⟨_ | _, h'⟩ <;> rfl
  · rw [hgeneration, hrefused hl]
    exact ⟨_, rfl⟩

theorem mintWrapped_asks (htier : c.hostTier ≠ .modernDirect) : MintAsks c h (c.mintWrapped h) := by
  have hgeneration : c.generation = .generateKeyPair := if_neg htier
  rw [mintWrapped, Action.bind_apply, newPairSpec_apply]
  cases KeyPairSpec.validFor? c.config.keyPairSizeBits h.machine.now c.config.keyPairValidity with
  | none => exact .nothing
  | some spec =>
    have hasks := VaultSite.asks_generateKeyPair c.config.wrapAlias spec
    have hrequests := Host.requests_request hasks (generationError c.config.wrapAlias) h
    have hrefused := Host.request_refused (h := h) hasks (generationError c.config.wrapAlias)
    rcases hrequest : Host.request (generationError c.config.wrapAlias)
      (VaultSite.generateKeyPair c.config.wrapAlias spec) h with ⟨e | pair, h₁⟩
    all_goals
      rw [hrequest] at hrequests hrefused
      simp only
      rw [Action.bind_apply, hrequest]
    · refine @MintAsks.generation c h [] _ (hgeneration ▸ hrequests) (List.forall_mem_nil _)
        fun hl => ?_
      rw [hgeneration]
      obtain ⟨-, hsame⟩ := Prod.mk.injEq .. ▸ hrefused hl
      exact ⟨e, by rw [hsame]⟩
    · -- With the pair at hand, all that the vault is asked for is to wrap.
      simp only
      refine .of_keeps (hgeneration ▸ hrequests) (fun hl => by cases hrefused hl) ?_
      refine .bind (fun _ hs => hs) fun material => .bind (.of_same fun _ => rfl) fun key =>
        .bind (fun h' hh' => ?_) fun _ => .of_same fun _ => rfl
      obtain ⟨later, hlater, hrequests'⟩ := hh'
      refine ⟨later ++ [.wrap], fun r hr => ?_, ?_⟩
      · obtain hr | hr := List.mem_append.mp hr
        · exact hlater r hr
        · cases List.mem_singleton.mp hr
          decide
      · rw [Host.onVault, Host.requests_request (VaultSite.asks_wrap _ _), hrequests',
          List.append_assoc]

theorem mint_asks (c : Custodian) (h : Host) : MintAsks c h (c.mint h) := by
  rw [mint_eq]
  split
  · next htier => exact mintDirect_asks htier
  · next htier => exact mintWrapped_asks htier

-- ----------------------------------------------------------------------------
-- Looking up
-- ----------------------------------------------------------------------------

/-- What a look-up does to a host at most. -/
structure Frugal (c : Custodian) (h : Host) (asked : List Request)
    (answer : Except (Failure SealError) ContentKey) (h' : Host) : Prop where
  requests : h'.requests = h.requests ++ asked
  /-- A key is generated at most once, and only where there is nothing to recover. -/
  once : (∀ r ∈ asked, ¬ r.isGeneration) ∨ c.Bare h ∧ asked.filter (·.isGeneration) = [c.generation]
  /-- The vault has answered all that it was asked before. A legacy host without a wrapped key asks
  it nothing, so that the generation is the first request that a locked vault refuses. -/
  locked : h.vault.locked → (∀ r ∈ asked, ¬ r.isGeneration) ∨ c.hostTier ≠ .modernDirect ∧
    h.settings.get? c.config.wrappedKeySetting = none ∧ asked = [c.generation]
  /-- Where no key is generated, and where the vault is locked, nothing is changed or drawn. -/
  idle : (∀ r ∈ asked, ¬ r.isGeneration) ∨ h.vault.locked → h' = h.asked asked
  around : h.Around h'
  entries : ∀ name ≠ c.keyName, h'.vault.entries.get? name = h.vault.entries.get? name
  values : ∀ setting ∉ c.keySettings,
    h'.settings.values.get? setting = h.settings.values.get? setting
  recorded : h'.settings.values ≠ h.settings.values → ∃ k, answer = .ok k ∧ k.source.isGenerated
  generated : ∀ k, answer = .ok k → (k.source.isGenerated ↔ ∃ r ∈ asked, r.isGeneration)

variable {answer : Except (Failure SealError) ContentKey} {asked : List Request}

theorem Frugal.of_search (hasked : ∀ r ∈ asked, ¬ r.isGeneration)
    (hanswer : ∀ k, answer = .ok k → ¬ k.source.isGenerated) :
    c.Frugal h asked answer (h.asked asked) where
  requests := rfl
  once := .inl hasked
  locked _ := .inl hasked
  idle _ := rfl
  around := ⟨rfl, rfl, rfl, rfl, id⟩
  entries _ _ := rfl
  values _ _ := rfl
  recorded hne := absurd rfl hne
  generated k hk := by
    constructor
    · exact fun hgenerated => absurd hgenerated (hanswer k hk)
    · rintro ⟨r, hr, hgeneration⟩
      exact absurd hgeneration (hasked r hr)

theorem Kept.not_generated {v : Vault} {s : Settings} {k : ContentKey} (hk : c.Kept v s k) :
    ¬ k.source.isGenerated := by
  cases hk <;> exact Bool.false_ne_true

theorem generation_isGeneration (c : Custodian) : c.generation.isGeneration := by
  unfold generation
  split <;> rfl

theorem Frugal.of_mint {later : List Request} (hbare : c.Bare h)
    (hasked : ∀ r ∈ asked, ¬ r.isGeneration) (hlater : ∀ r ∈ later, ¬ r.isGeneration)
    (hrequests : h'.requests = h.requests ++ (asked ++ c.generation :: later))
    (hlocked : h.vault.locked → c.hostTier ≠ .modernDirect ∧
      h.settings.get? c.config.wrappedKeySetting = none ∧ h' = h.noted c.generation)
    (around : h.Around h')
    (hentries : ∀ name ≠ c.keyName, h'.vault.entries.get? name = h.vault.entries.get? name)
    (hvalues : ∀ setting ∉ c.keySettings,
      h'.settings.values.get? setting = h.settings.values.get? setting)
    (hrecorded : h'.settings.values ≠ h.settings.values → ∃ k, answer = .ok k)
    (hgenerated : ∀ k, answer = .ok k → k.source.isGenerated) :
    c.Frugal h (asked ++ c.generation :: later) answer h' := by
  have hmem : c.generation ∈ asked ++ c.generation :: later := by simp
  have hsingle (hl : h.vault.locked) : asked ++ c.generation :: later = [c.generation] := by
    rw [(hlocked hl).2.2, Host.noted] at hrequests
    exact (List.append_cancel_left hrequests).symm
  refine ⟨hrequests, .inr ⟨hbare, ?_⟩, fun hl => .inr ?_, ?_, around, hentries, hvalues,
    fun hne => ?_, ?_⟩
  · have hnone {requests : List Request} (h : ∀ r ∈ requests, ¬ r.isGeneration) :
        requests.filter (·.isGeneration) = [] := List.filter_eq_nil_iff.mpr h
    rw [List.filter_append, List.filter_cons_of_pos c.generation_isGeneration, hnone hasked,
      hnone hlater]
    rfl
  · exact ⟨(hlocked hl).1, (hlocked hl).2.1, hsingle hl⟩
  · rintro (hidle | hl)
    · exact absurd c.generation_isGeneration (hidle _ hmem)
    · rw [hsingle hl]
      exact (hlocked hl).2.2
  · obtain ⟨k, hk⟩ := hrecorded hne
    exact ⟨k, hk, hgenerated k hk⟩
  · exact fun k hk => ⟨fun _ => ⟨_, hmem, c.generation_isGeneration⟩, fun _ => hgenerated k hk⟩

theorem Mints.of_error {e : Failure SealError} (hm : Mints c h (.error e, h')) :
    h.SameStores h' ∧ h.Around h' := by
  cases hm with
  | refused _ same around => exact ⟨same, around⟩

theorem Mints.placed {m : Minted} (hm : Mints c h (.ok m, h')) :
    (∃ entry, h'.vault.entries = h.vault.entries.insert c.keyName entry) ∧
      h'.settings.values = h.settings.values ∧ (∀ entry ∈ m.record, entry.1 ∈ c.keySettings) ∧
        m.source.isGenerated ∧ h.Around h' := by
  cases hm with
  | direct htier _ hentries hvalues around =>
    rw [keyName, if_pos htier, keySettings, if_pos htier]
    exact ⟨⟨_, hentries⟩, hvalues, by simp, rfl, around⟩
  | wrapped htier _ _ _ hentries hvalues around =>
    rw [keyName, if_neg htier, keySettings, if_neg htier]
    exact ⟨⟨_, hentries⟩, hvalues, by simp, rfl, around⟩

/-- A generation after a search that has found nothing to recover. -/
theorem generation_frugal (hv : c.config.validate = .ok ()) (hbare : c.Bare h)
    (hasked : ∀ r ∈ asked, ¬ r.isGeneration)
    (hlocked : h.vault.locked → c.hostTier ≠ .modernDirect ∧
      h.settings.get? c.config.wrappedKeySetting = none ∧ h.asked asked = h) :
    let outcome := (c.mint >>= c.record) (h.asked asked)
    ∃ asked', c.Frugal h asked' outcome.1 outcome.2 := by
  have hmints := mint_mints hv (h.asked asked)
  have hasks := c.mint_asks (h.asked asked)
  simp only [Action.bind_apply]
  generalize c.mint (h.asked asked) = outcome at hmints hasks ⊢
  cases hasks with
  | nothing => exact ⟨asked, .of_search hasked (by rintro _ ⟨⟩)⟩
  | @generation later _ hrequests hlater hrefused =>
    rw [Host.asked, List.append_assoc] at hrequests
    have around₁ : h.Around (h.asked asked) := ⟨rfl, rfl, rfl, rfl, id⟩
    have hrefused' (hl : h.vault.locked) : c.hostTier ≠ .modernDirect ∧
        h.settings.get? c.config.wrappedKeySetting = none ∧
          ∃ e, outcome = (.error e, h.noted c.generation) := by
      obtain ⟨htier, hblob, hsame⟩ := hlocked hl
      rw [hsame] at hrefused
      exact ⟨htier, hblob, hrefused hl⟩
    refine ⟨asked ++ c.generation :: later, ?_⟩
    rcases outcome with ⟨e | m, h₂⟩
    · obtain ⟨same, around⟩ := hmints.of_error
      refine .of_mint hbare hasked hlater hrequests (fun hl => ?_) (around₁.trans around)
        (fun _ _ => by rw [same.entries]; rfl) (fun _ _ => by rw [same.values]; rfl)
        (fun hne => absurd same.values hne) (by rintro _ ⟨⟩)
      obtain ⟨htier, hblob, e', heq⟩ := hrefused' hl
      cases heq
      exact ⟨htier, hblob, rfl⟩
    · have hunlocked (hl : h.vault.locked) : False := by
        obtain ⟨-, -, e', heq⟩ := hrefused' hl
        cases heq
      obtain ⟨⟨entry, hentries⟩, hvalues, hsettings, hgenerated, around⟩ := hmints.placed
      have hrecorded := Host.requests_onSettings (SettingsSite.putAll m.record) h₂
      have hput := h₂.putAll_put m.record
      simp only [record, Action.bind_apply]
      revert hput hrecorded
      generalize Host.onSettings _ h₂ = outcome
      intro hrecorded hput
      cases hput with
      | refused _ same around' =>
        refine .of_mint hbare hasked hlater (hrecorded.trans hrequests)
          (fun hl => (hunlocked hl).elim) ((around₁.trans around).trans around')
          (fun name hname => ?_) (fun _ _ => ?_)
          (fun hne => absurd (same.values.trans hvalues) hne) (by rintro _ ⟨⟩)
        · rw [same.entries, hentries, Dict.get?_insert, if_neg hname]
          rfl
        · rw [same.values, hvalues]
          rfl
      | put hentries' hvalues' around' =>
        simp only [Action.pure_apply]
        refine .of_mint hbare hasked hlater (hrecorded.trans hrequests)
          (fun hl => (hunlocked hl).elim) ((around₁.trans around).trans around')
          (fun name hname => ?_) (fun setting hsetting => ?_) (fun _ => ⟨_, rfl⟩) ?_
        · rw [hentries', hentries, Dict.get?_insert, if_neg hname]
          rfl
        · rw [hvalues', hvalues, Dict.get?_insertAll_of_apart]
          · rfl
          · rintro entry hentry rfl
            exact hsetting (hsettings entry hentry)
        · rintro _ ⟨⟩
          exact hgenerated

theorem lookUp_frugal (hv : c.config.validate = .ok ()) (hsupported : c.hostTier.isSupported)
    (h : Host) : ∃ asked, c.Frugal h asked (c.lookUp h).1 (c.lookUp h).2 := by
  obtain ⟨asked, hasked, hsame⟩ := c.search_asks h
  rw [lookUp_eq hsupported, Action.bind_apply]
  rcases hsearch : c.search h with ⟨e | k?, h₁⟩
  all_goals
    rw [hsearch] at hsame
    subst hsame
  · exact ⟨asked, .of_search hasked (by rintro _ ⟨⟩)⟩
  · cases k? with
    | some k =>
      refine ⟨asked, .of_search hasked ?_⟩
      rintro _ ⟨⟩
      exact (kept_of_search hsearch).not_generated
    | none =>
      obtain ⟨hbare, hlocked⟩ := bare_of_search hsearch
      exact generation_frugal hv hbare hasked hlocked

end Custodian

namespace Custody

/-- Whatever the stores hold, a resolution has a key generated only where there is nothing to
recover, and changes nothing else than what belongs to the generated key. -/
theorem resolve_generates_only_bare {p : Custody} (hv : p.custodian.config.validate = .ok ())
    (hsupported : p.custodian.hostTier.isSupported) (hcached : p.custodian.cached = none) :
    ∃ asked, p.custodian.Frugal p.host asked (resolve p).1 (resolve p).2.host := by
  obtain ⟨asked, hfrugal⟩ := Custodian.lookUp_frugal hv hsupported p.host
  refine ⟨asked, ?_⟩
  rw [resolve_of_uncached hcached]
  rcases hlookUp : p.custodian.lookUp p.host with ⟨_ | _, _⟩
  all_goals
    rw [hlookUp] at hfrugal
    exact hfrugal

/-- A key is generated where nothing is stored. A level that is a text and a wrapped key that does
not open stop the look-up, and none is generated. -/
theorem resolve_generates_only_bare_fresh :
    let fresh : Host := .fresh { entropy := .ofSeed 7, now := .epoch }
    let marked : Host := { fresh with
      settings := { values := .ofList [("platform_level_when_key_generated", .string "23")] } }
    let broken : Host := { fresh with
      vault := { entries := .ofList [("wrap_local_protection",
        .keyPair ⟨.replicate 32 1, rfl⟩ ⟨256, .epoch, .epoch⟩)] }
      settings := { values := .ofList [("aes_wrapped_local_protection", .string "AAAA")] } }
    let custodies : List Custody :=
      [fresh, marked, broken].map fun host => ⟨{ platform := ⟨23⟩, config := {} }, host⟩
    (∀ p ∈ custodies,
      ∃ asked, p.custodian.Frugal p.host asked (resolve p).1 (resolve p).2.host) ∧
    custodies.map (fun p => (resolve p).1.toOption.isSome) = [true, false, false] ∧
    custodies.map (fun p => (resolve p).2.host.requests) =
      [[.hasKey, .generateSymmetricKey], [], [.hasKey, .privateKey, .unwrap]] := by
  refine ⟨List.forall_mem_map.mpr fun host _ => ?_, by decide +kernel, by decide +kernel⟩
  exact resolve_generates_only_bare rfl rfl rfl

/-- A legacy host without a wrapped key asks a locked vault for nothing but to generate. -/
theorem locked_vault_asked_to_generate :
    let p : Custody := ⟨{ platform := ⟨19⟩, config := {} },
      { Host.fresh { entropy := .ofSeed 7, now := .epoch } with vault := { locked := true } }⟩
    p.custodian.config.validate = .ok () ∧
      p.custodian.config.wrappedKeySetting ≠ p.custodian.config.levelSetting ∧
      p.custodian.hostTier.isSupported ∧ p.custodian.cached = none ∧ p.host.vault.locked ∧
      (resolve p).2.host.requests = p.host.requests ++ [.generateKeyPair] := by
  refine ⟨rfl, by decide, rfl, rfl, rfl, ?_⟩
  decide

end Custody

end SealedStream
