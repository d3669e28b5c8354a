import SealedStream.Proofs.LookUp
import SealedStream.Proofs.Stream.Whole

/-!
# Lifetimes

Custodians come and go over the same stores. A lifetime is a sequence of events:
a custodian starts, is asked, forgets, or ends inside a resolution; keys are
deleted; and whatever stands around the stores changes. `run` tells what was
answered.
-/

namespace SealedStream

/-- What stands around the contents of the stores: the lock, what becomes of writes, the random
sources, the clock. -/
structure Surroundings where
  locked : Bool
  path : Option Path
  backing : Backing
  random : RandomSource
  machine : Machine

def Host.within (h : Host) (s : Surroundings) : Host where
  vault := { h.vault with locked := s.locked, path := s.path }
  requests := h.requests
  settings := { h.settings with backing := s.backing }
  random := s.random
  machine := s.machine

theorem Host.within_same (h : Host) (s : Surroundings) : h.SameStores (h.within s) := ⟨rfl, rfl⟩

inductive Event where
  /-- Another custodian takes over the stores. -/
  | start (level : UInt32)
  | resolve
  /-- The process ends inside a resolution, before the last write that it would have made. -/
  | stop
  | invalidate
  | encrypt (text : Bytes)
  | decrypt (stream : Bytes)
  | delete (keyName : String)
  | surround (s : Surroundings)

/-- The level of the custodian after an event. -/
def Event.levelAfter (level : UInt32) : Event → UInt32
  | .start other => other
  | _ => level

/-- The level of a custodian that starts. -/
def Event.level? : Event → Option UInt32
  | .start level => some level
  | _ => none

inductive Outcome where
  | resolved (answer : Except (Failure SealError) ContentKey)
  | encrypted (text : Bytes) (answer : Except (Failure SealError) Bytes)
  | decrypted (stream : Bytes) (answer : Except (Failure SealError) Bytes)
  | quiet

/-- An outcome, and the level of the custodian that it came from. -/
structure Entry where
  level : UInt32
  outcome : Outcome

namespace Custodian

/-- A look-up without the last write of a generation. -/
def lookUpStopped (c : Custodian) : HostAction Unit := do
  if (← c.search).isNone then
    let _ ← c.mint

variable {c : Custodian} {h : Host} {s : Holdings}

/-- What a look-up ends in that is broken off before its last write. -/
inductive StopEnd (c : Custodian) (h : Host) (s : Holdings) : Host → Prop
  | idle {h' : Host} : h'.Holds c.config s → h.Around h' → StopEnd c h s h'
  | minted {m : Minted} {mid final : Holdings} {h' : Host} :
      c.Finds h s = .ok none → Minting c h.machine.now s m mid final →
        h'.Holds c.config mid → h.Around h' → StopEnd c h s h'

theorem lookUpStopped_end (hs : h.Holds c.config s) (hv : c.config.validate = .ok ()) :
    StopEnd c h s (c.lookUpStopped h).2 := by
  obtain ⟨level, requests, -, hsearch⟩ := search_of_holds hs
  have hs₁ : ({ h with requests } : Host).Holds c.config s := hs.of_same ⟨rfl, rfl⟩
  have around₁ : h.Around { h with requests } := ⟨rfl, rfl, rfl, rfl, id⟩
  rw [lookUpStopped, Action.bind_apply, hsearch]
  cases hfound : s.found c.hostTier c.config.wrapAlias h.vault.locked h.machine.now with
  | error e => exact .idle hs₁ around₁
  | ok found =>
    cases found with
    | some key => exact .idle hs₁ around₁
    | none =>
      have hmint := mint_end hs₁ hv
      simp only [Except.map, Option.map_none, Except.mapError, Option.isNone_none, if_true,
        Action.bind_apply]
      generalize c.mint { h with requests } = outcome at hmint ⊢
      cases hmint with
      | refused _ hs₂ around₂ => exact .idle hs₂ (around₁.trans around₂)
      | minted hm hs₂ around₂ => exact .minted hfound hm hs₂ (around₁.trans around₂)

end Custodian

namespace Custody

/-- The custody of a custodian that starts over a host, if its configuration is valid. -/
def begin (config : Config) (level : UInt32) (host : Host) : Except SealError Custody :=
  (Custodian.create ⟨level⟩ config).map fun custodian => { custodian, host }

theorem begin_ok {config : Config} {level : UInt32} {host : Host} {p : Custody} :
    begin config level host = .ok p ↔
      config.validate = .ok () ∧ p = ⟨{ platform := ⟨level⟩, config }, host⟩ := by
  rw [begin, Custodian.create]
  cases config.validate with
  | error defect => simp [Except.mapError, Except.map, bind, Except.bind]
  | ok u =>
    simp only [Except.mapError, Except.map, bind, Except.bind, pure, Except.pure, Except.ok.injEq,
      true_and]
    exact eq_comm

def step : Event → Custody → Outcome × Custody
  | .start level, p =>
    match begin p.custodian.config level p.host with
    | .ok p' => (.quiet, p')
    | .error _ => (.quiet, p)
  | .resolve, p => (resolve p).map .resolved id
  | .stop, p =>
    match p.custodian.cached with
    | some _ => (.quiet, p)
    | none => (.quiet, { p with host := (p.custodian.lookUpStopped p.host).2 })
  | .invalidate, p => (.quiet, (invalidate p).2)
  | .encrypt text, p => (encrypt text p).map (.encrypted text) id
  | .decrypt stream, p => (decrypt stream p).map (.decrypted stream) id
  | .delete keyName, p => (.quiet, (onHost (Host.onVault (VaultSite.deleteKey keyName)) p).2)
  | .surround s, p => (.quiet, { p with host := p.host.within s })

theorem step_stop (p : Custody) : step .stop p = (.quiet,
    match p.custodian.cached with
    | some _ => p
    | none => { p with host := (p.custodian.lookUpStopped p.host).2 }) := by
  show (match p.custodian.cached with
    | some _ => (Outcome.quiet, p)
    | none => (.quiet, { p with host := (p.custodian.lookUpStopped p.host).2 })) = _
  cases p.custodian.cached <;> rfl

theorem step_resolve (p : Custody) : step .resolve p = (resolve p).map .resolved id := rfl

theorem step_invalidate (p : Custody) : step .invalidate p = (.quiet, (invalidate p).2) := rfl

theorem step_encrypt (text : Bytes) (p : Custody) :
    step (.encrypt text) p = (encrypt text p).map (.encrypted text) id := rfl

theorem step_decrypt (stream : Bytes) (p : Custody) :
    step (.decrypt stream) p = (decrypt stream p).map (.decrypted stream) id := rfl

theorem fst_step_start (level : UInt32) (p : Custody) : (step (.start level) p).1 = .quiet := by
  show (match begin p.custodian.config level p.host with
    | .ok p' => (Outcome.quiet, p')
    | .error _ => (.quiet, p)).1 = _
  cases begin p.custodian.config level p.host <;> rfl

def run : List Event → Custody → List Entry × Custody
  | [], p => ([], p)
  | e :: rest, p =>
    let (outcome, p') := step e p
    let (entries, p'') := run rest p'
    (⟨p.custodian.platform.level, outcome⟩ :: entries, p'')

variable {config : Config} {level : UInt32} {p p' : Custody}

/-- A custody of a custodian with this configuration, on a platform of a supported level. -/
structure Under (config : Config) (level : UInt32) (p : Custody) : Prop where
  config_eq : p.custodian.config = config
  platform_eq : p.custodian.platform = ⟨level⟩
  supported : (config.thresholds.tierAt level).isSupported

namespace Under

theorem of_custodian (hp : Under config level p) (hc : p'.custodian = p.custodian) :
    Under config level p' := ⟨hc ▸ hp.config_eq, hc ▸ hp.platform_eq, hp.supported⟩

theorem with_cached (hp : Under config level p) (cached : Option ContentKey) (host : Host) :
    Under config level ⟨{ p.custodian with cached }, host⟩ :=
  ⟨hp.config_eq, hp.platform_eq, hp.supported⟩

theorem tier_eq (hp : Under config level p) :
    p.custodian.hostTier = config.thresholds.tierAt level := by
  rw [Custodian.hostTier, hp.config_eq, hp.platform_eq]

/-- A custodian that starts has the configuration of the one before. -/
theorem step_start (hp : Under config level p) (hv : config.validate = .ok ()) (other : UInt32) :
    step (.start other) p = (.quiet, ⟨{ platform := ⟨other⟩, config }, p.host⟩) := by
  have hbegin : begin config other p.host = _ := begin_ok.mpr ⟨hv, rfl⟩
  show (match begin p.custodian.config other p.host with
    | .ok p' => (Outcome.quiet, p')
    | .error _ => (.quiet, p)) = _
  rw [hp.config_eq, hbegin]

theorem isProtected (hp : Under config level p) : p.isProtected := by
  rw [Custody.isProtected, hp.tier_eq]
  exact hp.supported

end Under

end Custody

end SealedStream
