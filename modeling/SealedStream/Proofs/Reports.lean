import SealedStream.Proofs.Raising

/-!
# When a resolution ends the process

Whatever goes wrong while a key is resolved is reported as an error, with one exception: where
the clock cannot show the end of a new key pair's window, there is no pair to ask the vault for.
`Action.Reports` says of steps that they report all their errors, and composes like they do.
-/

namespace SealedStream

-- ----------------------------------------------------------------------------
-- Steps that report their errors
-- ----------------------------------------------------------------------------

/-- Whatever goes wrong in the steps is reported; they do not end the process. -/
def Action.Reports {σ ε α : Type} (x : Action σ (Failure ε) α) : Prop :=
  ∀ s why, (x s).1 ≠ .error (.abort why)

namespace Action

variable {σ ε δ α β : Type}

namespace Reports

variable {x : Action σ (Failure ε) α} {f : α → Action σ (Failure ε) β}

theorem of_raises {kind : ε → Prop} (hx : Raises (Failure.Reported kind) x) : Reports x :=
  fun s _ habort => hx s _ habort

theorem pure (a : α) : Reports (pure a : Action σ (Failure ε) α) := fun _ _ => nofun

theorem throw (e : ε) : Reports (throw (.error e) : Action σ (Failure ε) α) := fun _ _ => nofun

theorem ofExcept (answer : Except ε α) :
    Reports (Action.ofExcept (answer.mapError .error) : Action σ (Failure ε) α) := by
  intro s why h
  obtain ⟨_, -, habort⟩ := mapError_eq_error.mp h
  cases habort

theorem lift (wording : δ → ε) (x : Action σ δ α) : Reports (Failure.lift wording x) := by
  intro s why h
  rw [Failure.lift, mapError_apply] at h
  obtain ⟨_, -, habort⟩ := mapError_eq_error.mp h
  cases habort

theorem bind (hx : Reports x) (hf : ∀ a, Reports (f a)) : Reports (x >>= f) := by
  intro s why h
  obtain h | ⟨a, s', -, h⟩ := bind_fst_error.mp h
  · exact hx s why h
  · exact hf a s' why h

/-- Where the first steps report their errors, only the rest can end the process. -/
theorem bind_aborts (hx : Reports x) {s : σ} {why : Abort} :
    ((x >>= f) s).1 = .error (.abort why) ↔
      ∃ a s', x s = (.ok a, s') ∧ (f a s').1 = .error (.abort why) := by
  rw [bind_fst_error]
  exact ⟨fun h => h.resolve_left (hx s why), .inr⟩

/-- Where the rest reports its errors, only the first steps can end the process. -/
theorem aborts_bind (hf : ∀ a, Reports (f a)) {s : σ} {why : Abort} :
    ((x >>= f) s).1 = .error (.abort why) ↔ (x s).1 = .error (.abort why) := by
  rw [bind_fst_error]
  constructor
  · rintro (h | ⟨a, s', -, h⟩)
    · exact h
    · exact absurd h (hf a s' why)
  · exact .inl

end Reports

end Action

open SealedStream.Action (Reports)

theorem KeyPairSpec.validFor?_eq_none {sizeBits : UInt32} {start : Time} {validity : Duration} :
    validFor? sizeBits start validity = none ↔
      ¬ Time.InRange ⟨start.nanoseconds + validity.nanoseconds⟩ := by
  simp [validFor?, Time.add?]

theorem Settings.getInt_of_int {s : Settings} {key : String}
    (h : ∀ value, s.get? key = some value → ∃ level, value = .int level) (default : Int64) :
    ∃ level, s.getInt key default = .ok level := by
  rw [getInt]
  cases hvalue : s.get? key with
  | none => exact ⟨_, rfl⟩
  | some value =>
    obtain ⟨level, rfl⟩ := h value hvalue
    exact ⟨level, rfl⟩

theorem Vault.privateKey_eq_none {v : Vault} {keyName : String} (hl : ¬ v.locked)
    (h : ∀ secret spec, v.entries.get? keyName ≠ some (.keyPair secret spec)) :
    v.privateKey keyName = .ok none := by
  rw [privateKey, ensureUnlocked, if_neg hl, ok_bind]
  split
  · next secret spec hentry => exact absurd hentry (h secret spec)
  · rfl

namespace Custodian

variable {c : Custodian} {h : Host} {why : Abort}

-- ----------------------------------------------------------------------------
-- Searching
-- ----------------------------------------------------------------------------

theorem search_reports (c : Custodian) : Reports c.search := .of_raises c.search_raises

/-- Where there is nothing to recover, that is what a search on a legacy host finds out, if the
vault answers what it is asked. -/
theorem search_of_bare (htier : c.hostTier ≠ .modernDirect) (hbare : c.Bare h)
    (hlocked : h.vault.locked → h.settings.get? c.config.wrappedKeySetting = none) :
    (c.search h).1 = .ok none := by
  obtain ⟨marker, hmarker⟩ := Settings.getInt_of_int hbare.level c.platform.marker
  have hrecover : (c.recoverWrapped h).1 = .ok none := by
    rw [recoverWrapped, Action.bind_apply, Host.readSettings_apply, Settings.getString?]
    cases hblob : h.settings.get? c.config.wrappedKeySetting with
    | none => rfl
    | some value =>
      obtain ⟨blob, rfl⟩ := hbare.blob value hblob
      have hl : ¬ h.vault.locked := fun hl => by rw [hlocked hl] at hblob; cases hblob
      have hpair := hbare.wrapped.resolve_left (by simp [hblob])
      simp only [Except.mapError, Action.bind_apply, VaultSite.privateKey, Host.onVault_ask]
      have hprivate : (h.noted .privateKey).vaultSite.vault.privateKey c.config.wrapAlias =
          .ok none := Vault.privateKey_eq_none hl hpair
      rw [hprivate]
      rfl
  have hsearch : c.search h =
      (do return (← c.recoverWrapped).map fun key => c.keyOf key marker .migratedLegacy :
        HostAction (Option ContentKey)) h := by
    rw [search, Action.bind_apply, readMarker_eq hmarker]
    cases htier' : c.hostTier with
    | modernDirect => exact absurd htier' htier
    | legacyWrapped => rfl
    | unsupported => rfl
  rw [hsearch, Action.bind_apply]
  rcases hend : c.recoverWrapped h with ⟨e | key?, h'⟩
  all_goals
    rw [hend] at hrecover
    cases hrecover
  rfl

-- ----------------------------------------------------------------------------
-- Generating
-- ----------------------------------------------------------------------------

theorem mintDirect_reports (c : Custodian) : Reports c.mintDirect :=
  .bind (.lift _ _) fun _ => .pure _

theorem record_reports (c : Custodian) (m : Minted) : Reports (c.record m) :=
  .of_raises (c.record_raises m)

theorem mintFor_reports (c : Custodian) (publicKey : PublicKeyHandle) :
    Reports (c.mintFor publicKey) := by
  refine .bind (fun _ _ => nofun) fun material => .bind (fun s why habort => ?_) fun key =>
    .bind (.lift _ _) fun wrapped => .pure _
  obtain ⟨_, -, habort⟩ := mapError_eq_error.mp habort
  cases habort

theorem mintWrapped_aborts : (c.mintWrapped h).1 = .error (.abort why) ↔ why = .timeOverflow ∧
    ¬ Time.InRange ⟨h.machine.now.nanoseconds + c.config.keyPairValidity.nanoseconds⟩ := by
  have hrest (spec : KeyPairSpec) : Reports (do
      let pair ← Host.request (generationError c.config.wrapAlias)
        (VaultSite.generateKeyPair c.config.wrapAlias spec)
      c.mintFor pair.publicKey : HostAction Minted) :=
    .bind (.lift _ _) fun pair => c.mintFor_reports pair.publicKey
  rw [mintWrapped_eq, Reports.aborts_bind hrest, newPairSpec_apply,
    ← KeyPairSpec.validFor?_eq_none]
  cases KeyPairSpec.validFor? c.config.keyPairSizeBits h.machine.now c.config.keyPairValidity with
  | none => simp [eq_comm]
  | some spec => simp

-- ----------------------------------------------------------------------------
-- Looking up
-- ----------------------------------------------------------------------------

theorem lookUp_aborts : (c.lookUp h).1 = .error (.abort why) ↔
    why = .timeOverflow ∧ c.hostTier = .legacyWrapped ∧ c.Bare h ∧
      (h.vault.locked → h.settings.get? c.config.wrappedKeySetting = none) ∧
      ¬ Time.InRange ⟨h.machine.now.nanoseconds + c.config.keyPairValidity.nanoseconds⟩ := by
  cases htier : c.hostTier with
  | unsupported =>
    simp only [lookUp, htier, reduceCtorEq, false_and, and_false, iff_false]
    exact Reports.throw _ _ _
  | modernDirect =>
    simp only [reduceCtorEq, false_and, and_false, iff_false]
    rw [lookUp_eq (by rw [htier]; rfl)]
    refine Reports.bind c.search_reports (fun k? => ?_) h why
    cases k? with
    | some k => exact .pure k
    | none =>
      simp only [mint, htier]
      exact .bind c.mintDirect_reports c.record_reports
  | legacyWrapped =>
    have hmint (h' : Host) : ((c.mint >>= c.record) h').1 = .error (.abort why) ↔
        (c.mintWrapped h').1 = .error (.abort why) := by
      rw [Reports.aborts_bind c.record_reports, mint, htier]
    rw [lookUp_eq (by rw [htier]; rfl), Reports.bind_aborts c.search_reports]
    obtain ⟨requests, -, hasked⟩ := c.search_asks h
    constructor
    · rintro ⟨k?, h', hsearch, habort⟩
      cases k? with
      | some k => exact absurd habort (Reports.pure k h' why)
      | none =>
        obtain ⟨hbare, hlocked⟩ := bare_of_search hsearch
        rw [hsearch] at hasked
        subst hasked
        obtain ⟨hwhy, hrange⟩ := mintWrapped_aborts.mp ((hmint _).mp habort)
        exact ⟨hwhy, rfl, hbare, fun hl => (hlocked hl).2.1, hrange⟩
    · rintro ⟨hwhy, -, hbare, hlocked, hrange⟩
      have hnone := search_of_bare (by rw [htier]; decide) hbare hlocked
      refine ⟨none, h.asked requests, Prod.ext hnone hasked, ?_⟩
      exact (hmint _).mpr (mintWrapped_aborts.mpr ⟨hwhy, hrange⟩)

end Custodian

namespace Custody

/-- A resolution ends the process exactly where a custodian on a legacy host has no key cached,
there is nothing to recover, and the clock cannot show the end of the window of a new pair. What
else goes wrong it reports. -/
theorem resolve_aborts_iff (p : Custody) (why : Abort) :
    (resolve p).1 = .error (.abort why) ↔
      why = .timeOverflow ∧ p.custodian.cached = none ∧ p.custodian.hostTier = .legacyWrapped ∧
        p.custodian.Bare p.host ∧
        (p.host.vault.locked →
          p.host.settings.get? p.custodian.config.wrappedKeySetting = none) ∧
        ¬ Time.InRange ⟨p.host.machine.now.nanoseconds +
          p.custodian.config.keyPairValidity.nanoseconds⟩ := by
  cases hcached : p.custodian.cached with
  | some k => simp [resolve_of_cached hcached]
  | none =>
    rw [fst_resolve_of_uncached hcached, Custodian.lookUp_aborts]
    simp only [true_and]

/-- The longest validity that can be configured is a valid one, and ends the process of the first
custodian that needs a pair. -/
theorem resolve_aborts_longest :
    let config : Config := { keyPairValidity := .of (2 ^ 64 - 1) 999999999 }
    let host : Host := .fresh { entropy := .ofSeed 7, now := .of 1700000000 0 }
    ∃ custodian, Custodian.create ⟨19⟩ config = .ok custodian ∧ host.machine.now.InRange ∧
      (resolve ⟨custodian, host⟩).1 = .error (.abort .timeOverflow) := by
  intro config host
  exact ⟨{ platform := ⟨19⟩, config }, rfl, by decide, rfl⟩

end Custody

end SealedStream
