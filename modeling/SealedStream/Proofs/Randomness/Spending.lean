import SealedStream.Proofs.Durable.KeyMap
import SealedStream.Proofs.Generation
import SealedStream.Proofs.Randomness.Draws

/-!
# What random bytes are drawn for

A vault draws for each entry that it makes and for each key that it wraps, a custodian for
a key that it has generated, a stream for its vector. Each draw is made for one of these,
and a step that fails has drawn for nothing: what it drew is not kept for another one.
-/

namespace SealedStream

open SealedStream.Supply (Draws Serves)

-- ----------------------------------------------------------------------------
-- Vaults
-- ----------------------------------------------------------------------------

namespace Vault

/-- What a vault does with the bytes that it draws for an entry. -/
inductive Makes {α : Type} (v v' : Vault) (keyName : String)
    (made : Bytes → α → VaultEntry → Prop) : List Draw → Except VaultError α → Prop
  | refused {e : VaultError} : v' = v → Makes v v' keyName made [] (.error e)
  | unstored {d : Draw} {e : VaultError} : v' = v → Makes v v' keyName made [d] (.error e)
  | stored {d : Draw} {a : α} {entry : VaultEntry} : made d.bytes a entry →
      v' = { v with entries := v.entries.insert keyName entry } →
      Makes v v' keyName made [d] (.ok a)

theorem Makes.map {α β : Type} {v v' : Vault} {keyName : String}
    {made : Bytes → α → VaultEntry → Prop} {made' : Bytes → β → VaultEntry → Prop}
    {draws : List Draw} {answer : Except VaultError α} (h : v.Makes v' keyName made draws answer)
    (f : α → β) (himp : ∀ bytes a entry, made bytes a entry → made' bytes (f a) entry) :
    v.Makes v' keyName made' draws (answer.map f) := by
  cases h with
  | refused hv => exact .refused hv
  | unstored hv => exact .unstored hv
  | stored hmade hv => exact .stored (himp _ _ _ hmade) hv

/-- What a vault does with the bytes that it draws to wrap a key. -/
inductive Wraps (publicKey : Bytes) (key : SymmetricKey) :
    List Draw → Except VaultError Bytes → Prop
  | refused {e : VaultError} : Wraps publicKey key [] (.error e)
  | wrapped {d d' : Draw} {ephemeral : SecretKey} : ephemeral.bytes = d.bytes →
      Wraps publicKey key [d, d'] (.ok (wrapped ephemeral d'.bytes publicKey key).bytes)

end Vault

namespace VaultSite

def supply (site : VaultSite) (randoms : Array RandomSource) : Supply :=
  ⟨site.machine.entropy, randoms⟩

variable (randoms : Array RandomSource)

theorem supply_replaceEntries (entries : Dict VaultEntry) (site : VaultSite) :
    (replaceEntries entries site).2.supply randoms = site.supply randoms := by
  rw [replaceEntries_apply]
  rcases Vault.persist site.vault.path entries site.machine.files with ⟨_ | _, files⟩ <;> rfl

theorem onMachine_draw {α : Type} (x : Entropy → α × Entropy) (site : VaultSite) :
    (onMachine (Machine.draw x) : Action VaultSite VaultError α) site =
      (.ok (x site.machine.entropy).1,
        { site with machine := { site.machine with entropy := (x site.machine.entropy).2 } }) := rfl

/-- Storing an entry, which is made of bytes that have been drawn for it. -/
theorem makes_of_store {α : Type} {made : Bytes → α → VaultEntry → Prop} {keyName : String}
    {entry : VaultEntry} {a : α} {site drawn : VaultSite} {d : Draw}
    (hserves : (site.supply randoms).Serves d (drawn.supply randoms))
    (hvault : drawn.vault = site.vault) (hmade : made d.bytes a entry) :
    let outcome := (store keyName entry >>= fun _ => pure a : Action VaultSite VaultError α) drawn
    ∃ draws, (site.supply randoms).Draws draws (outcome.2.supply randoms) ∧
      site.vault.Makes outcome.2.vault keyName made draws outcome.1 := by
  have hsupply := supply_replaceEntries randoms (drawn.vault.entries.insert keyName entry) drawn
  have hreplace := replaceEntries_apply (drawn.vault.entries.insert keyName entry) drawn
  simp only [Action.bind_apply, store_eq]
  rw [hreplace] at hsupply ⊢
  rcases Vault.persist drawn.vault.path _ drawn.machine.files with ⟨e | _, files⟩
  · exact ⟨[d], .one hserves, .unstored hvault⟩
  · refine ⟨[d], .one hserves, .stored hmade ?_⟩
    rw [← hvault]
    rfl

theorem generateSymmetricKey_makes (keyName : String) (bits : Nat) (site : VaultSite) :
    let outcome := generateSymmetricKey keyName bits site
    ∃ draws, (site.supply randoms).Draws draws (outcome.2.supply randoms) ∧
      site.vault.Makes outcome.2.vault keyName
        (fun bytes key entry => key.bytes = bytes ∧ entry = .symmetric key) draws outcome.1 := by
  rw [generateSymmetricKey, Action.bind_apply, ask_apply]
  cases (site.noted .generateSymmetricKey).vault.admitSymmetric keyName bits with
  | error e => exact ⟨[], .nil _, .refused rfl⟩
  | ok size =>
    simp only
    rw [Action.bind_apply, onMachine_draw]
    exact makes_of_store randoms (.system (site.supply randoms) size.bytes) rfl ⟨rfl, rfl⟩

theorem generateKeyPair_makes (keyName : String) (spec : KeyPairSpec) (site : VaultSite) :
    let outcome := generateKeyPair keyName spec site
    ∃ draws, (site.supply randoms).Draws draws (outcome.2.supply randoms) ∧
      site.vault.Makes outcome.2.vault keyName
        (fun bytes pair entry => ∃ secret : SecretKey, secret.bytes = bytes ∧
          pair.publicKey.bytes = secret.publicKey ∧ entry = .keyPair secret spec)
        draws outcome.1 := by
  rw [generateKeyPair, Action.bind_apply, ask_apply]
  cases (site.noted .generateKeyPair).vault.admitKeyPair keyName spec with
  | error e => exact ⟨[], .nil _, .refused rfl⟩
  | ok u =>
    simp only
    rw [Action.bind_apply, onMachine_draw]
    exact makes_of_store randoms (.system (site.supply randoms) 32) rfl ⟨_, rfl, rfl, rfl⟩

theorem wrap_wraps (publicKey : PublicKeyHandle) (key : SymmetricKey) (site : VaultSite) :
    let outcome := wrap publicKey key site
    ∃ draws, (site.supply randoms).Draws draws (outcome.2.supply randoms) ∧
      Vault.Wraps publicKey.bytes key draws outcome.1 ∧ outcome.2.vault = site.vault := by
  rw [wrap, Action.bind_apply, ask_apply]
  cases (site.noted .wrap).vault.ensureUnlocked with
  | error e => exact ⟨[], .nil _, .refused, rfl⟩
  | ok u =>
    have hephemeral : (site.supply randoms).Serves _ _ := .system _ 32
    have hnonce := Serves.system ⟨(site.machine.entropy.draw 32).2, randoms⟩ Cipher.Box.nonceSize
    simp only
    rw [Action.bind_apply, onMachine_draw]
    simp only
    rw [Action.bind_apply, onMachine_draw]
    exact ⟨_, .cons hephemeral (.one hnonce), .wrapped rfl, rfl⟩

end VaultSite

/-- What a vault does with the bytes that it draws for a call. -/
def VaultCall.Spends (v : Vault) (draws : List Draw) (reply : Except VaultError VaultAnswer)
    (v' : Vault) : VaultCall → Prop
  | .generateSymmetricKey keyName _ => v.Makes v' keyName (fun bytes answer entry =>
      ∃ key : SymmetricKey, key.bytes = bytes ∧ answer = .key key ∧ entry = .symmetric key)
      draws reply
  | .generateKeyPair keyName spec => v.Makes v' keyName (fun bytes answer entry =>
      ∃ (secret : SecretKey) (pair : KeyPairHandle), secret.bytes = bytes ∧
        pair.publicKey.bytes = secret.publicKey ∧ answer = .keyPair pair ∧
        entry = .keyPair secret spec) draws reply
  | .wrap publicKey key => ∃ answer, Vault.Wraps publicKey.bytes key draws answer ∧
      reply = answer.map .wrapped ∧ v' = v
  | _ => draws = []

namespace VaultCall

theorem ask_map {α : Type} (x : Action VaultSite VaultError α) (f : α → VaultAnswer)
    (site : VaultSite) : (x >>= fun a => pure (f a)) site = ((x site).1.map f, (x site).2) := by
  rw [Action.bind_apply]
  rcases x site with ⟨_ | _, _⟩ <;> rfl

theorem supply_deleteKey (randoms : Array RandomSource) (keyName : String) (site : VaultSite) :
    (VaultSite.deleteKey keyName site).2.supply randoms = site.supply randoms := by
  rw [VaultSite.deleteKey_apply]
  cases site.vault.hasKey keyName with
  | error e => rfl
  | ok known =>
    cases known with
    | false => rfl
    | true =>
      simp only [Action.bind_apply]
      have hsupply := VaultSite.supply_replaceEntries randoms
        (site.vault.entries.erase keyName) (site.noted .deleteKey)
      revert hsupply
      rcases VaultSite.replaceEntries _ (site.noted .deleteKey) with ⟨_ | _, site'⟩ <;>
        exact fun hsupply => hsupply

theorem ask_spends (randoms : Array RandomSource) (call : VaultCall) (site : VaultSite) :
    ∃ draws, (site.supply randoms).Draws draws ((call.ask site).2.supply randoms) ∧
      call.Spends site.vault draws (call.ask site).1 (call.ask site).2.vault := by
  cases call with
  | hasKey keyName =>
    rw [ask, ask_map]
    exact ⟨[], .nil _, rfl⟩
  | symmetricKey keyName =>
    rw [ask, ask_map]
    exact ⟨[], .nil _, rfl⟩
  | privateKey keyName =>
    rw [ask, ask_map]
    exact ⟨[], .nil _, rfl⟩
  | unwrap handle bytes =>
    rw [ask, ask_map]
    exact ⟨[], .nil _, rfl⟩
  | deleteKey keyName =>
    refine ⟨[], ?_, rfl⟩
    rw [ask, ask_map, supply_deleteKey]
    exact .nil _
  | generateSymmetricKey keyName bits =>
    obtain ⟨draws, hdraws, hmakes⟩ := VaultSite.generateSymmetricKey_makes randoms keyName bits site
    rw [ask, ask_map]
    exact ⟨draws, hdraws, hmakes.map _ fun _ key _ h => ⟨key, h.1, rfl, h.2⟩⟩
  | generateKeyPair keyName spec =>
    obtain ⟨draws, hdraws, hmakes⟩ := VaultSite.generateKeyPair_makes randoms keyName spec site
    rw [ask, ask_map]
    refine ⟨draws, hdraws, hmakes.map _ ?_⟩
    rintro _ pair _ ⟨secret, hbytes, hpublic, hentry⟩
    exact ⟨secret, pair, hbytes, hpublic, rfl, hentry⟩
  | wrap publicKey key =>
    obtain ⟨draws, hdraws, hwraps, hvault⟩ := VaultSite.wrap_wraps randoms publicKey key site
    rw [ask, ask_map]
    exact ⟨draws, hdraws, _, hwraps, rfl, hvault⟩

end VaultCall

-- ----------------------------------------------------------------------------
-- Hosts
-- ----------------------------------------------------------------------------

namespace Host

/-- What a host draws from, where its random source is one of many. -/
def supply (h : Host) (randoms : Array RandomSource) (number : Nat) : Supply :=
  ⟨h.machine.entropy, randoms.setIfInBounds number h.random⟩

variable {randoms : Array RandomSource} {number : Nat}

theorem request_draws {α : Type} {x : Action VaultSite VaultError α} {h : Host} {draws : List Draw}
    (hdraws : (h.vaultSite.supply (randoms.setIfInBounds number h.random)).Draws draws
      ((x h.vaultSite).2.supply (randoms.setIfInBounds number h.random)))
    (wording : VaultError → SealError) :
    (h.supply randoms number).Draws draws ((request wording x h).2.supply randoms number) := by
  rw [request_apply]
  exact hdraws

theorem randomBytes_draws (hn : number < randoms.size) (h : Host) (length : Nat) :
    ∃ d h', d.spring = .own number ∧ d.bytes.length = length ∧
      randomBytes length h = (.ok d.bytes, h') ∧ h.SameStores h' ∧
      (h.supply randoms number).Draws [d] (h'.supply randoms number) := by
  refine ⟨⟨.own number, 4 * h.random.position, (h.random.bytes length).1⟩,
    { h with random := (h.random.bytes length).2 }, rfl, h.random.length_bytes length, rfl,
    ⟨rfl, rfl⟩, .one ?_⟩
  have hrandom : (h.supply randoms number).randoms[number]? = some h.random := by simp [supply, hn]
  have hserves := Serves.own length hrandom
  rwa [supply, Array.setIfInBounds_setIfInBounds] at hserves

theorem systemBytes_draws (h : Host) (length : Nat) :
    ∃ d h', d.spring = .system ∧ d.bytes.length = length ∧
      systemBytes length h = (.ok d.bytes, h') ∧ h.SameStores h' ∧
      (h.supply randoms number).Draws [d] (h'.supply randoms number) :=
  ⟨⟨.system, h.machine.entropy.position, (h.machine.entropy.draw length).1⟩,
    { h with machine := { h.machine with entropy := (h.machine.entropy.draw length).2 } }, rfl,
    h.machine.entropy.length_draw length, rfl, ⟨rfl, rfl⟩,
    .one (.system (h.supply randoms number) length)⟩

variable (randoms number) in
theorem supply_onSettings {α : Type} (x : Action SettingsSite SettingsError α) (h : Host) :
    (onSettings x h).2.supply randoms number = h.supply randoms number := by
  rw [onSettings_apply]
  rfl

end Host

/-- The spring of the vectors under a key of a tier. -/
def Tier.spring (tier : Tier) (number : Nat) : Spring :=
  match tier with
  | .modernDirect => .system
  | _ => .own number

theorem Tier.freshIv_draws {randoms : Array RandomSource} {number : Nat}
    (hn : number < randoms.size) (tier : Tier) (h : Host) :
    ∃ d h', d.spring = tier.spring number ∧ d.bytes.length = Header.ivSize ∧
      tier.freshIv h = (.ok d.bytes, h') ∧ h.SameStores h' ∧
      (h.supply randoms number).Draws [d] (h'.supply randoms number) := by
  cases tier with
  | modernDirect => exact Host.systemBytes_draws h Header.ivSize
  | legacyWrapped => exact Host.randomBytes_draws hn h Header.ivSize
  | unsupported => exact Host.randomBytes_draws hn h Header.ivSize

-- ----------------------------------------------------------------------------
-- Custodians
-- ----------------------------------------------------------------------------

namespace Custodian

/-- The settings that record a wrapped key. -/
def wrappedRecord (c : Custodian) (wrapped : Vault.Wrapped) : List (String × SettingValue) :=
  [(c.config.wrappedKeySetting, .string (Text.Base64.encode wrapped.bytes)),
    (c.config.levelSetting, .int c.platform.marker)]

/-- What minting does with the bytes that are drawn for it. -/
inductive Coins (c : Custodian) (h h' : Host) :
    List Draw → Except (Failure SealError) Minted → Prop
  | nothing {e : Failure SealError} : h.SameStores h' → Coins c h h' [] (.error e)
  | unstored {d : Draw} {e : Failure SealError} : h.SameStores h' → Coins c h h' [d] (.error e)
  | direct {d : Draw} {key : SymmetricKey} : key.bytes = d.bytes →
      h'.vault.entries = h.vault.entries.insert c.config.symmetricAlias (.symmetric key) →
      h'.settings.values = h.settings.values →
      Coins c h h' [d]
        (.ok ⟨key, .generatedModern, [(c.config.levelSetting, .int c.platform.marker)]⟩)
  | unwrapped {d : Draw} {later : List Draw} {secret : SecretKey} {spec : KeyPairSpec}
      {e : Failure SealError} : secret.bytes = d.bytes →
      h'.vault.entries = h.vault.entries.insert c.config.wrapAlias (.keyPair secret spec) →
      h'.settings.values = h.settings.values → Coins c h h' (d :: later) (.error e)
  | wrapped {d₁ d₂ d₃ d₄ : Draw} {secret ephemeral : SecretKey} {spec : KeyPairSpec}
      {key : SymmetricKey} : secret.bytes = d₁.bytes → key.bytes = d₂.bytes →
      ephemeral.bytes = d₃.bytes →
      h'.vault.entries = h.vault.entries.insert c.config.wrapAlias (.keyPair secret spec) →
      h'.settings.values = h.settings.values →
      Coins c h h' [d₁, d₂, d₃, d₄] (.ok ⟨key, .generatedLegacy,
        c.wrappedRecord (Vault.wrapped ephemeral d₄.bytes secret.publicKey key)⟩)

/-- What a look-up does with the bytes that are drawn for it. -/
inductive Spends (c : Custodian) (h h' : Host) :
    List Draw → Except (Failure SealError) ContentKey → Prop
  /-- There is no new key, neither in the stores nor in the answer. -/
  | nothing {answer : Except (Failure SealError) ContentKey} : h.SameStores h' →
      (∀ k, answer = .ok k → ¬ k.source.isGenerated) → Spends c h h' [] answer
  /-- A key or a secret could not be stored. -/
  | unstored {d : Draw} {e : Failure SealError} : h.SameStores h' → Spends c h h' [d] (.error e)
  /-- The vault has a new key of its own. -/
  | direct {d : Draw} {key : SymmetricKey} {answer : Except (Failure SealError) ContentKey} :
      key.bytes = d.bytes →
      h'.vault.entries = h.vault.entries.insert c.config.symmetricAlias (.symmetric key) →
      (∀ k, answer = .ok k → k.key = key ∧ k.source = .generatedModern) → Spends c h h' [d] answer
  /-- The vault has a new pair, for which no key is recorded. -/
  | unwrapped {d : Draw} {later : List Draw} {secret : SecretKey} {spec : KeyPairSpec}
      {e : Failure SealError} : secret.bytes = d.bytes →
      h'.vault.entries = h.vault.entries.insert c.config.wrapAlias (.keyPair secret spec) →
      h'.settings.values = h.settings.values → Spends c h h' (d :: later) (.error e)
  /-- The vault has a new pair, and the settings a new key that is wrapped for it. -/
  | wrapped {d₁ d₂ d₃ d₄ : Draw} {secret ephemeral : SecretKey} {spec : KeyPairSpec}
      {k : ContentKey} : k.source = .generatedLegacy → secret.bytes = d₁.bytes →
      k.key.bytes = d₂.bytes → ephemeral.bytes = d₃.bytes →
      h'.vault.entries = h.vault.entries.insert c.config.wrapAlias (.keyPair secret spec) →
      h'.settings.values = h.settings.values.insertAll
        (c.wrappedRecord (Vault.wrapped ephemeral d₄.bytes secret.publicKey k.key)) →
      Spends c h h' [d₁, d₂, d₃, d₄] (.ok k)

variable {c : Custodian} {h : Host} {randoms : Array RandomSource} {number : Nat}

theorem mintDirect_coins (c : Custodian) (h : Host) :
    ∃ draws, (h.supply randoms number).Draws draws ((c.mintDirect h).2.supply randoms number) ∧
      c.Coins h (c.mintDirect h).2 draws (c.mintDirect h).1 := by
  obtain ⟨draws, hdraws, hmakes⟩ := VaultSite.generateSymmetricKey_makes
    (randoms.setIfInBounds number h.random) c.config.symmetricAlias c.config.keySizeBits.toNat
    h.vaultSite
  have hdraws := Host.request_draws hdraws (generationError c.config.symmetricAlias)
  refine ⟨draws, ?_⟩
  rw [mintDirect, Action.bind_apply]
  rw [Host.request_apply] at hdraws ⊢
  rcases hrequest : VaultSite.generateSymmetricKey c.config.symmetricAlias
    c.config.keySizeBits.toNat h.vaultSite with ⟨e | key, site⟩
  all_goals
    rw [hrequest] at hdraws hmakes
    refine ⟨hdraws, ?_⟩
  · cases hmakes with
    | refused hvault => exact .nothing ⟨congrArg _ hvault, rfl⟩
    | unstored hvault => exact .unstored ⟨congrArg _ hvault, rfl⟩
  · cases hmakes with
    | stored hmade hvault =>
      obtain ⟨hbytes, rfl⟩ := hmade
      exact .direct hbytes (congrArg _ hvault) rfl

theorem mintFor_draws (hn : number < randoms.size) (c : Custodian) (publicKey : PublicKeyHandle)
    (h : Host) : ∃ draws answer h', c.mintFor publicKey h = (answer, h') ∧ h.SameStores h' ∧
      (h.supply randoms number).Draws draws (h'.supply randoms number) ∧
      ∀ m, answer = .ok m → ∃ d₂ d₃ d₄ key ephemeral, draws = [d₂, d₃, d₄] ∧
        key.bytes = d₂.bytes ∧ ephemeral.bytes = d₃.bytes ∧ m = ⟨key, .generatedLegacy,
          c.wrappedRecord (Vault.wrapped ephemeral d₄.bytes publicKey.bytes key)⟩ := by
  obtain ⟨d₂, h₂, -, -, hmaterial, same₂, hdraws₂⟩ :=
    Host.randomBytes_draws hn h (c.config.keySizeBits.toNat / 8)
  rw [mintFor, Action.bind_apply, hmaterial]
  simp only [Action.bind_apply, Action.ofExcept]
  cases hkey : SymmetricKey.ofBytes d₂.bytes with
  | error length => exact ⟨[d₂], _, h₂, rfl, same₂, hdraws₂, by rintro _ ⟨⟩⟩
  | ok key =>
    obtain ⟨draws₃, hdraws₃, hwraps, hvault⟩ := VaultSite.wrap_wraps
      (randoms.setIfInBounds number h₂.random) publicKey key h₂.vaultSite
    have hdraws₃ := Host.request_draws hdraws₃ .keyVault
    simp only [Except.mapError, Host.onVault]
    rw [Host.request_apply] at hdraws₃ ⊢
    have same₃ :
        h.SameStores (Host.withVaultSite (VaultSite.wrap publicKey key h₂.vaultSite).2 h₂) :=
      ⟨(congrArg Vault.entries hvault).trans same₂.entries, same₂.values⟩
    generalize VaultSite.wrap publicKey key h₂.vaultSite = outcome at *
    obtain ⟨answer, site⟩ := outcome
    cases hwraps with
    | refused => exact ⟨_, _, _, rfl, same₃, hdraws₂.append hdraws₃, by rintro _ ⟨⟩⟩
    | wrapped hephemeral =>
      refine ⟨_, _, _, rfl, same₃, hdraws₂.append hdraws₃, ?_⟩
      rintro _ ⟨⟩
      exact ⟨_, _, _, _, _, rfl, SymmetricKey.bytes_of_ofBytes hkey, hephemeral, rfl⟩

theorem mintWrapped_coins (hn : number < randoms.size) (c : Custodian) (h : Host) :
    ∃ draws, (h.supply randoms number).Draws draws ((c.mintWrapped h).2.supply randoms number) ∧
      c.Coins h (c.mintWrapped h).2 draws (c.mintWrapped h).1 := by
  rw [mintWrapped_eq, Action.bind_apply, newPairSpec_apply]
  cases KeyPairSpec.validFor? c.config.keyPairSizeBits h.machine.now c.config.keyPairValidity with
  | none => exact ⟨[], .nil _, .nothing ⟨rfl, rfl⟩⟩
  | some spec =>
    obtain ⟨draws, hdraws, hmakes⟩ := VaultSite.generateKeyPair_makes
      (randoms.setIfInBounds number h.random) c.config.wrapAlias spec h.vaultSite
    have hdraws := Host.request_draws hdraws (generationError c.config.wrapAlias)
    simp only
    rw [Action.bind_apply]
    rw [Host.request_apply] at hdraws ⊢
    rcases hrequest : VaultSite.generateKeyPair c.config.wrapAlias spec h.vaultSite
      with ⟨e | pair, site⟩
    all_goals rw [hrequest] at hdraws hmakes
    · refine ⟨draws, hdraws, ?_⟩
      cases hmakes with
      | refused hvault => exact .nothing ⟨congrArg _ hvault, rfl⟩
      | unstored hvault => exact .unstored ⟨congrArg _ hvault, rfl⟩
    · cases hmakes with
      | stored hmade hvault =>
        obtain ⟨secret, hsecret, hpublic, rfl⟩ := hmade
        have hentries : site.vault.entries =
            h.vault.entries.insert c.config.wrapAlias (.keyPair secret spec) := congrArg _ hvault
        obtain ⟨draws', answer, h', hfor, same, hdraws', hminted⟩ :=
          mintFor_draws hn c pair.publicKey (Host.withVaultSite site h)
        simp only [Except.mapError, hfor]
        refine ⟨_, hdraws.append hdraws', ?_⟩
        cases answer with
        | error e => exact .unwrapped hsecret (same.entries.trans hentries) same.values
        | ok m =>
          obtain ⟨d₂, d₃, d₄, key, ephemeral, rfl, hkey, hephemeral, rfl⟩ := hminted m rfl
          rw [hpublic]
          exact .wrapped hsecret hkey hephemeral (same.entries.trans hentries) same.values

theorem mint_coins (hn : number < randoms.size) (c : Custodian) (h : Host) :
    ∃ draws, (h.supply randoms number).Draws draws ((c.mint h).2.supply randoms number) ∧
      c.Coins h (c.mint h).2 draws (c.mint h).1 := by
  rw [mint_eq]
  split
  · exact mintDirect_coins c h
  · exact mintWrapped_coins hn c h

theorem Spends.of_same {h' h'' : Host} {draws : List Draw}
    {answer : Except (Failure SealError) ContentKey} (hspends : c.Spends h' h'' draws answer)
    (same : h.SameStores h') : c.Spends h h'' draws answer := by
  cases hspends with
  | nothing same' hanswer =>
    exact .nothing ⟨same'.entries.trans same.entries, same'.values.trans same.values⟩ hanswer
  | unstored same' =>
    exact .unstored ⟨same'.entries.trans same.entries, same'.values.trans same.values⟩
  | direct hkey hentries hanswer => exact .direct hkey (same.entries ▸ hentries) hanswer
  | unwrapped hsecret hentries hvalues =>
    exact .unwrapped hsecret (same.entries ▸ hentries) (hvalues.trans same.values)
  | wrapped hsource hsecret hkey hephemeral hentries hvalues =>
    exact .wrapped hsource hsecret hkey hephemeral (same.entries ▸ hentries) (same.values ▸ hvalues)

theorem generation_spends (hn : number < randoms.size) (c : Custodian) (h : Host) :
    let outcome := (c.mint >>= c.record) h
    ∃ draws, (h.supply randoms number).Draws draws (outcome.2.supply randoms number) ∧
      c.Spends h outcome.2 draws outcome.1 := by
  obtain ⟨draws, hdraws, hcoins⟩ := mint_coins hn c h
  simp only [Action.bind_apply]
  rcases hmint : c.mint h with ⟨e | m, h₁⟩
  all_goals rw [hmint] at hdraws hcoins
  · refine ⟨draws, hdraws, ?_⟩
    cases hcoins with
    | nothing same => exact .nothing same (by rintro _ ⟨⟩)
    | unstored same => exact .unstored same
    | unwrapped hsecret hentries hvalues => exact .unwrapped hsecret hentries hvalues
  · have hsupply := Host.supply_onSettings randoms number (SettingsSite.putAll m.record) h₁
    have hput := h₁.putAll_put m.record
    simp only [record, Action.bind_apply]
    generalize Host.onSettings (SettingsSite.putAll m.record) h₁ = outcome at hsupply hput ⊢
    cases hput with
    | refused _ same _ =>
      refine ⟨draws, hsupply ▸ hdraws, ?_⟩
      cases hcoins with
      | direct hkey hentries _ => exact .direct hkey (same.entries.trans hentries) (by rintro _ ⟨⟩)
      | wrapped hsecret _ _ hentries hvalues =>
        exact .unwrapped hsecret (same.entries.trans hentries) (same.values.trans hvalues)
    | put hentries' hvalues' _ =>
      refine ⟨draws, hsupply ▸ hdraws, ?_⟩
      cases hcoins with
      | direct hkey hentries _ =>
        refine .direct hkey (hentries'.trans hentries) ?_
        rintro _ ⟨⟩
        exact ⟨rfl, rfl⟩
      | wrapped hsecret hkey hephemeral hentries hvalues =>
        exact .wrapped rfl hsecret hkey hephemeral (hentries'.trans hentries)
          (hvalues'.trans (congrArg (Dict.insertAll · _) hvalues))

theorem lookUp_spends (hn : number < randoms.size) (c : Custodian) (h : Host) :
    ∃ draws, (h.supply randoms number).Draws draws ((c.lookUp h).2.supply randoms number) ∧
      c.Spends h (c.lookUp h).2 draws (c.lookUp h).1 := by
  by_cases hsupported : c.hostTier.isSupported
  · obtain ⟨asked, -, hsame⟩ := c.search_asks h
    rw [lookUp_eq hsupported, Action.bind_apply]
    rcases hsearch : c.search h with ⟨e | k?, h₁⟩
    all_goals
      rw [hsearch] at hsame
      subst hsame
    · exact ⟨[], .nil _, .nothing ⟨rfl, rfl⟩ (by rintro _ ⟨⟩)⟩
    · cases k? with
      | some k =>
        refine ⟨[], .nil _, .nothing ⟨rfl, rfl⟩ ?_⟩
        rintro _ ⟨⟩
        exact (kept_of_search hsearch).not_generated
      | none =>
        obtain ⟨draws, hdraws, hspends⟩ := generation_spends hn c (h.asked asked)
        exact ⟨draws, hdraws, hspends.of_same ⟨rfl, rfl⟩⟩
  · rw [lookUp_unsupported hsupported]
    exact ⟨[], .nil _, .nothing ⟨rfl, rfl⟩ (by rintro _ ⟨⟩)⟩

end Custodian

-- ----------------------------------------------------------------------------
-- Streams
-- ----------------------------------------------------------------------------

namespace Custody

/-- What a resolution does with the bytes that are drawn for it. -/
inductive Spends (p p' : Custody) : List Draw → Except (Failure SealError) ContentKey → Prop
  | cached {k : ContentKey} : p.custodian.cached = some k → p' = p → Spends p p' [] (.ok k)
  | lookedUp {draws : List Draw} {answer : Except (Failure SealError) ContentKey} :
      p.custodian.cached = none → p.custodian.Spends p.host p'.host draws answer →
      Spends p p' draws answer

variable {randoms : Array RandomSource} {number : Nat}

theorem resolve_spends (hn : number < randoms.size) (p : Custody) :
    ∃ draws, (p.host.supply randoms number).Draws draws
        ((resolve p).2.host.supply randoms number) ∧
      p.Spends (resolve p).2 draws (resolve p).1 := by
  cases hcached : p.custodian.cached with
  | some k =>
    rw [resolve_of_cached hcached]
    exact ⟨[], .nil _, .cached hcached rfl⟩
  | none =>
    obtain ⟨draws, hdraws, hspends⟩ := Custodian.lookUp_spends hn p.custodian p.host
    refine ⟨draws, ?_⟩
    rw [resolve_of_uncached hcached]
    rcases hlookUp : p.custodian.lookUp p.host with ⟨e | k, h'⟩
    all_goals
      rw [hlookUp] at hdraws hspends
      exact ⟨hdraws, .lookedUp hcached hspends⟩

end Custody

namespace Outgoing

/-- What beginning a stream does with the bytes that are drawn for it: those for the key come first,
those of the vector are the last. -/
inductive Spends (number : Nat) (p p' : Custody) :
    List Draw → Except (Failure SealError) (Option Sealing) → Prop
  | passed : ¬ p.isProtected → p' = p → Spends number p p' [] (.ok none)
  | unresolved {draws : List Draw} {e : Failure SealError} :
      p.Spends p' draws (.error e) → Spends number p p' draws (.error e)
  | begun {draws : List Draw} {d : Draw} {k : ContentKey} {resolved : Custody}
      {answer : Except (Failure SealError) (Option Sealing)} :
      p.Spends resolved draws (.ok k) → d.spring = k.tier.spring number →
      d.bytes.length = Header.ivSize → p'.custodian = resolved.custodian →
      resolved.host.SameStores p'.host →
      (∀ sealing?, answer = .ok sealing? → sealing? = some { key := k.key, iv := d.bytes }) →
      Spends number p p' (draws ++ [d]) answer

variable {randoms : Array RandomSource} {number : Nat}

theorem start_spends (hn : number < randoms.size) (p : Custody) (sink : Sink) :
    let outcome := start { custody := p, sink }
    ∃ draws, (p.host.supply randoms number).Draws draws
        (outcome.2.custody.host.supply randoms number) ∧
      Spends number p outcome.2.custody draws outcome.1 := by
  simp only [start_eq, Action.bind_apply, Action.get_apply]
  by_cases hp : p.isProtected
  · obtain ⟨draws, hdraws, hspends⟩ := Custody.resolve_spends hn p
    simp only [hp, if_true, onCustody, Action.bind_apply, Action.zoom_apply]
    rcases hresolve : Custody.resolve p with ⟨e | k, p'⟩
    all_goals rw [hresolve] at hdraws hspends
    · exact ⟨draws, hdraws, .unresolved hspends⟩
    · obtain ⟨d, h', hspring, hlength, hiv, same, hdraw⟩ := k.tier.freshIv_draws hn p'.host
      simp only [Custody.onHost, Action.zoom_apply, hiv, onSink, Failure.lift,
        Action.mapError_apply]
      rcases Header.write d.bytes sink with ⟨e | u, sink'⟩
      · exact ⟨_, hdraws.append hdraw, .begun hspends hspring hlength rfl same (by rintro _ ⟨⟩)⟩
      · refine ⟨_, hdraws.append hdraw, .begun hspends hspring hlength rfl same ?_⟩
        rintro _ ⟨⟩
        rfl
  · simp only [hp, Bool.false_eq_true, if_false]
    exact ⟨[], .nil _, .passed hp rfl⟩

end Outgoing

namespace Incoming

/-- What beginning to open a stream does with the bytes that are drawn for it. -/
inductive Spends (p p' : Custody) : List Draw → Prop
  | unasked : p' = p → Spends p p' []
  | asked {draws : List Draw} {answer : Except (Failure SealError) ContentKey} :
      p.Spends p' draws answer → Spends p p' draws

variable {randoms : Array RandomSource} {number : Nat}

theorem start_spends (hn : number < randoms.size) (p : Custody) (source : Source) :
    let outcome := start { custody := p, source }
    ∃ draws, (p.host.supply randoms number).Draws draws
        (outcome.2.custody.host.supply randoms number) ∧
      Spends p outcome.2.custody draws := by
  simp only [start_eq, Action.bind_apply, Action.get_apply]
  by_cases hp : p.isProtected
  · simp only [hp, if_true, onSource, Failure.lift, Action.bind_apply, Action.mapError_apply,
      Action.zoom_apply]
    rcases Header.read source with ⟨e | iv, source'⟩
    · exact ⟨[], .nil _, .unasked rfl⟩
    · obtain ⟨draws, hdraws, hspends⟩ := Custody.resolve_spends hn p
      simp only [Except.mapError, onCustody, Action.zoom_apply]
      rcases hresolve : Custody.resolve p with ⟨e | k, p'⟩
      all_goals
        rw [hresolve] at hdraws hspends
        exact ⟨draws, hdraws, .asked hspends⟩
  · simp only [hp, Bool.false_eq_true, if_false]
    exact ⟨[], .nil _, .unasked rfl⟩

end Incoming

end SealedStream
