import SealedStream.Proofs.Generation

/-!
# Which errors steps end in

`Action.Raises` says of steps of which kind all their errors are, and composes like they do.
Searching for a key and recording one can fail for what the stores answer, and for a wrapped
key that is none; neither ends the process.
-/

namespace SealedStream

-- ----------------------------------------------------------------------------
-- Kinds of errors
-- ----------------------------------------------------------------------------

/-- All errors that the steps end in are of a kind. -/
def Action.Raises {σ ε α : Type} (kind : ε → Prop) (x : Action σ ε α) : Prop :=
  ∀ s e, (x s).1 = .error e → kind e

/-- A failure is an error of a kind, and not the end of the process. -/
def Failure.Reported {ε : Type} (kind : ε → Prop) : Failure ε → Prop
  | .error e => kind e
  | .abort _ => False

namespace Action

variable {σ τ ε δ α β : Type}

theorem bind_fst_error {x : Action σ ε α} {f : α → Action σ ε β} {s : σ} {e : ε} :
    ((x >>= f) s).1 = .error e ↔
      (x s).1 = .error e ∨ ∃ a s', x s = (.ok a, s') ∧ (f a s').1 = .error e := by
  rw [bind_apply]
  rcases x s with ⟨e' | a, s'⟩
  · simp
  · simp only [reduceCtorEq, false_or, Prod.mk.injEq, Except.ok.injEq]
    constructor
    · exact fun h => ⟨a, s', ⟨rfl, rfl⟩, h⟩
    · rintro ⟨_, _, ⟨rfl, rfl⟩, h⟩
      exact h

namespace Raises

variable {kind : ε → Prop} {x : Action σ ε α} {f : α → Action σ ε β}

theorem any (x : Action σ ε α) : Raises (fun _ => True) x := fun _ _ _ => trivial

theorem of_ok (h : ∀ s, ∃ a, (x s).1 = .ok a) : Raises kind x := by
  intro s e he
  obtain ⟨a, ha⟩ := h s
  rw [ha] at he
  cases he

theorem pure (a : α) : Raises kind (pure a : Action σ ε α) := .of_ok fun _ => ⟨a, rfl⟩

theorem throw {e : ε} (he : kind e) : Raises kind (throw e : Action σ ε α) := by
  rintro s _ ⟨⟩
  exact he

theorem bind (hx : Raises kind x) (hf : ∀ a, Raises kind (f a)) : Raises kind (x >>= f) := by
  intro s e he
  obtain he | ⟨a, s', -, he⟩ := bind_fst_error.mp he
  · exact hx s e he
  · exact hf a s' e he

theorem zoom {get : τ → σ} {put : σ → τ → τ} (hx : Raises kind x) : Raises kind (x.zoom get put) :=
  fun t e he => hx (get t) e he

theorem lift {wide : δ → Prop} {wording : ε → δ} (hx : Raises kind x)
    (h : ∀ e, kind e → wide (wording e)) :
    Raises (Failure.Reported wide) (Failure.lift wording x) := by
  intro s e he
  rw [Failure.lift, mapError_apply] at he
  obtain ⟨cause, hcause, rfl⟩ := mapError_eq_error.mp he
  exact h cause (hx s cause hcause)

theorem ofExcept {answer : Except ε α} (h : ∀ e, answer = .error e → kind e) :
    Raises (Failure.Reported kind) (Action.ofExcept (answer.mapError .error) : Action σ _ α) := by
  intro s e he
  obtain ⟨cause, hcause, rfl⟩ := mapError_eq_error.mp he
  exact h cause hcause

end Raises

end Action

open SealedStream.Action (Raises)

/-- What the stores are reported with. A vault that rejects a generation is not. -/
inductive SealError.OfStores : SealError → Prop
  | keyVault {e : VaultError} : ¬ e.isGenerationRejected → OfStores (.keyVault e)
  | settings (e : SettingsError) : OfStores (.settings e)
  | corruptWrappedKey (defect : WrappedKeyDefect) : OfStores (.corruptWrappedKey defect)

open SealedStream.SealError (OfStores)

-- ----------------------------------------------------------------------------
-- Requests
-- ----------------------------------------------------------------------------

namespace Vault

variable {v : Vault} {keyName : String} {e : VaultError}

theorem error_of_unlocked {α : Type} {rest : Except VaultError α}
    (h : (v.ensureUnlocked >>= fun _ => rest) = .error e) : e = .locked ∨ rest = .error e := by
  unfold ensureUnlocked at h
  split at h
  · cases h
    exact .inl rfl
  · exact .inr h

theorem hasKey_error (h : v.hasKey keyName = .error e) : ¬ e.isGenerationRejected := by
  obtain rfl | h := error_of_unlocked h
  · exact Bool.false_ne_true
  · cases h

theorem symmetricKey_error (h : v.symmetricKey keyName = .error e) : ¬ e.isGenerationRejected := by
  obtain rfl | h := error_of_unlocked h
  · exact Bool.false_ne_true
  · split at h <;> cases h

theorem privateKey_error (h : v.privateKey keyName = .error e) : ¬ e.isGenerationRejected := by
  obtain rfl | h := error_of_unlocked h
  · exact Bool.false_ne_true
  · split at h <;> cases h

theorem unwrap_error {now : Time} {handle : PrivateKeyHandle} {bytes : Bytes}
    (h : v.unwrap now handle bytes = .error e) : ¬ e.isGenerationRejected := by
  obtain rfl | h := error_of_unlocked h
  · exact Bool.false_ne_true
  · split at h
    · split at h
      · obtain ⟨defect, -, rfl⟩ := mapError_eq_error.mp h
        exact Bool.false_ne_true
      · cases h
        exact Bool.false_ne_true
    · cases h
      exact Bool.false_ne_true

end Vault

theorem VaultSite.ask_raises {α : Type} {kind : VaultError → Prop} {r : Request}
    {answer : VaultSite → Except VaultError α}
    (h : ∀ site e, answer site = .error e → kind e) : Raises kind (ask r answer) :=
  fun site e he => h (site.noted r) e he

theorem Host.onVault_raises {α : Type} {x : Action VaultSite VaultError α}
    (hx : Raises (¬ ·.isGenerationRejected) x) :
    Raises (Failure.Reported OfStores) (Host.onVault x) :=
  .lift (.zoom hx) fun _ => .keyVault

theorem Host.readSettings_raises {α : Type} (x : Settings → Except SettingsError α) :
    Raises (Failure.Reported OfStores) (Host.readSettings x) :=
  .lift (.any _) fun e _ => .settings e

-- ----------------------------------------------------------------------------
-- Searches
-- ----------------------------------------------------------------------------

namespace Custodian

theorem recoverWrapped_raises (c : Custodian) :
    Raises (Failure.Reported OfStores) c.recoverWrapped := by
  refine .bind (Host.readSettings_raises _) fun blob? => ?_
  cases blob? with
  | none => exact .pure none
  | some blob =>
    refine .bind (Host.onVault_raises (VaultSite.ask_raises fun _ _ => Vault.privateKey_error))
      fun handle? => ?_
    cases handle? with
    | none => exact .pure none
    | some handle =>
      refine .bind (.ofExcept fun e he => ?_) fun _ => .bind
        (Host.onVault_raises (VaultSite.ask_raises fun _ _ => Vault.unwrap_error)) fun _ => .pure _
      obtain ⟨_, -, rfl⟩ := mapError_eq_error.mp he
      exact .corruptWrappedKey _

theorem search_raises (c : Custodian) : Raises (Failure.Reported OfStores) c.search := by
  have hrecover (marker : Int64) : Raises (Failure.Reported OfStores)
      (do return (← c.recoverWrapped).map fun key => c.keyOf key marker .migratedLegacy :
        HostAction (Option ContentKey)) :=
    .bind c.recoverWrapped_raises fun _ => .pure _
  unfold search
  refine .bind (Host.readSettings_raises _) fun marker => ?_
  cases c.hostTier with
  | modernDirect =>
    refine .bind (Host.onVault_raises (VaultSite.ask_raises fun _ _ => Vault.hasKey_error))
      fun known => ?_
    cases known with
    | false => exact hrecover marker
    | true =>
      refine .bind (Host.onVault_raises (VaultSite.ask_raises fun _ _ => Vault.symmetricKey_error))
        fun key? => ?_
      cases key? with
      | none => exact .throw (.keyVault Bool.false_ne_true)
      | some key => exact .pure _
  | legacyWrapped => exact hrecover marker
  | unsupported => exact hrecover marker

theorem record_raises (c : Custodian) (m : Minted) :
    Raises (Failure.Reported OfStores) (c.record m) :=
  .bind (.lift (.any _) fun e _ => .settings e)
    fun _ => .pure _

end Custodian

end SealedStream
