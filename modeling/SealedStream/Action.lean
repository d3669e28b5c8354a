/-!
# Steps that read and change a state and may fail

An `Action σ ε α` starts in a state, ends in a state, and answers with a value
or an error. A failed action keeps the state that it had reached: a write that
did not succeed may still have left something behind. `bind_apply` is the one
equation through which composed actions are read.
-/

namespace SealedStream

def Action (σ ε α : Type) : Type := σ → Except ε α × σ

namespace Action

variable {σ τ ε δ α β : Type}

instance : Monad (Action σ ε) where
  pure a := fun s => (.ok a, s)
  bind x f := fun s =>
    match x s with
    | (.ok a, s') => f a s'
    | (.error e, s') => (.error e, s')

instance : MonadStateOf σ (Action σ ε) where
  get := fun s => (.ok s, s)
  set s := fun _ => (.ok (), s)
  modifyGet f := fun s => let (a, s') := f s; (.ok a, s')

instance : MonadExceptOf ε (Action σ ε) where
  throw e := fun s => (.error e, s)
  tryCatch x handle := fun s =>
    match x s with
    | (.ok a, s') => (.ok a, s')
    | (.error e, s') => handle e s'

theorem pure_apply (a : α) (s : σ) : (pure a : Action σ ε α) s = (.ok a, s) := rfl

theorem bind_apply (x : Action σ ε α) (f : α → Action σ ε β) (s : σ) :
    (x >>= f) s =
      match x s with
      | (.ok a, s') => f a s'
      | (.error e, s') => (.error e, s') := rfl

/-- Steps that end well have all ended well. -/
theorem bind_ok {x : Action σ ε α} {f : α → Action σ ε β} {s s'' : σ} {b : β} :
    (x >>= f) s = (.ok b, s'') ↔ ∃ a s', x s = (.ok a, s') ∧ f a s' = (.ok b, s'') := by
  rw [bind_apply]
  rcases x s with ⟨e | a, s'⟩
  · simp
  · constructor
    · exact fun h => ⟨a, s', rfl, h⟩
    · rintro ⟨_, _, ⟨⟩, h⟩
      exact h

/-- Steps that end in an error have ended in it at one of them. -/
theorem bind_error {x : Action σ ε α} {f : α → Action σ ε β} {s s'' : σ} {e : ε} :
    (x >>= f) s = (.error e, s'') ↔
      x s = (.error e, s'') ∨ ∃ a s', x s = (.ok a, s') ∧ f a s' = (.error e, s'') := by
  rw [bind_apply]
  rcases x s with ⟨e' | a, s'⟩
  · simp
  · constructor
    · exact fun h => .inr ⟨a, s', rfl, h⟩
    · rintro (⟨⟨⟩⟩ | ⟨_, _, ⟨⟩, h⟩)
      exact h

theorem throw_apply (e : ε) (s : σ) : (throw e : Action σ ε α) s = (.error e, s) := rfl

theorem tryCatch_apply (x : Action σ ε α) (handle : ε → Action σ ε α) (s : σ) :
    (tryCatch x handle) s =
      match x s with
      | (.ok a, s') => (.ok a, s')
      | (.error e, s') => handle e s' := rfl

theorem get_apply (s : σ) : (get : Action σ ε σ) s = (.ok s, s) := rfl

theorem set_apply (s t : σ) : (set t : Action σ ε PUnit) s = (.ok ⟨⟩, t) := rfl

theorem modify_apply (f : σ → σ) (s : σ) : (modify f : Action σ ε PUnit) s = (.ok ⟨⟩, f s) := rfl

/-- An answer that neither reads nor changes the state. -/
def ofExcept (answer : Except ε α) : Action σ ε α := fun s => (answer, s)

/-- An answer read off the state. -/
def reads (f : σ → Except ε α) : Action σ ε α := fun s => (f s, s)

/-- The same steps with their error reworded. -/
def mapError (f : ε → δ) (x : Action σ ε α) : Action σ δ α := fun s =>
  match x s with
  | (.ok a, s') => (.ok a, s')
  | (.error e, s') => (.error (f e), s')

theorem mapError_apply (f : ε → δ) (x : Action σ ε α) (s : σ) :
    x.mapError f s = ((x s).1.mapError f, (x s).2) := by
  rcases h : x s with ⟨a | e, s'⟩ <;> simp only [mapError, h] <;> rfl

/-- The same steps on a part of a larger state. -/
def zoom (get : τ → σ) (put : σ → τ → τ) (x : Action σ ε α) : Action τ ε α := fun t =>
  let (answer, s) := x (get t)
  (answer, put s t)

theorem zoom_apply (get : τ → σ) (put : σ → τ → τ) (x : Action σ ε α) (t : τ) :
    x.zoom get put t = ((x (get t)).1, put (x (get t)).2 t) := rfl

theorem mapError_ok {f : ε → δ} {x : Action σ ε α} {s s' : σ} {a : α} :
    x.mapError f s = (.ok a, s') ↔ x s = (.ok a, s') := by
  rw [mapError_apply]
  rcases x s with ⟨e | value, s''⟩
  · exact ⟨nofun, nofun⟩
  · constructor
    · rintro ⟨⟩
      rfl
    · rintro ⟨⟩
      rfl

theorem zoom_ok {get : τ → σ} {put : σ → τ → τ} {x : Action σ ε α} {t t' : τ} {a : α} :
    x.zoom get put t = (.ok a, t') ↔ ∃ s, x (get t) = (.ok a, s) ∧ t' = put s t := by
  rw [zoom_apply]
  rcases x (get t) with ⟨answer, s⟩
  constructor
  · intro h
    cases h
    exact ⟨s, rfl, rfl⟩
  · rintro ⟨_, h, rfl⟩
    cases h
    rfl

/-- The same steps, with their answer as a value that cannot fail. -/
def attempt (x : Action σ ε α) : Action σ δ (Except ε α) := fun s =>
  let (answer, s') := x s
  (.ok answer, s')

theorem attempt_apply (x : Action σ ε α) (s : σ) :
    (x.attempt : Action σ δ (Except ε α)) s = (.ok (x s).1, (x s).2) := rfl

theorem attempt_ok {x : Action σ ε α} {s s' : σ} {answer : Except ε α} :
    (x.attempt : Action σ δ (Except ε α)) s = (.ok answer, s') ↔ x s = (answer, s') := by
  rw [attempt_apply, Prod.mk.injEq, Except.ok.injEq]
  exact Prod.mk.injEq .. ▸ .rfl

end Action

section

variable {ε α β : Type}

theorem ok_bind (a : α) (f : α → Except ε β) : (.ok a >>= f) = f a := rfl

theorem bind_eq_ok {x : Except ε α} {f : α → Except ε β} {b : β} :
    (x >>= f) = .ok b ↔ ∃ a, x = .ok a ∧ f a = .ok b := by
  cases x with
  | error e => exact ⟨nofun, nofun⟩
  | ok a =>
    refine ⟨fun h => ⟨a, rfl, h⟩, ?_⟩
    rintro ⟨_, ha, h⟩
    cases ha
    exact h

theorem bind_eq_error {x : Except ε α} {f : α → Except ε β} {e : ε} :
    (x >>= f) = .error e ↔ x = .error e ∨ ∃ a, x = .ok a ∧ f a = .error e := by
  cases x with
  | error other => simp [bind, Except.bind]
  | ok a => simp [bind, Except.bind]

theorem map_eq_ok {x : Except ε α} {f : α → β} {b : β} :
    x.map f = .ok b ↔ ∃ a, x = .ok a ∧ f a = b := by
  cases x with
  | error e => exact ⟨nofun, nofun⟩
  | ok a =>
    refine ⟨fun h => ⟨a, rfl, Except.ok.inj h⟩, ?_⟩
    rintro ⟨_, ha, rfl⟩
    cases ha
    rfl

theorem map_eq_error {x : Except ε α} {f : α → β} {e : ε} :
    x.map f = .error e ↔ x = .error e := by
  cases x with
  | error other => simp [Except.map]
  | ok a => exact ⟨nofun, nofun⟩

theorem mapError_eq_ok {x : Except ε α} {f : ε → β} {a : α} :
    x.mapError f = .ok a ↔ x = .ok a := by
  cases x with
  | error e => exact ⟨nofun, nofun⟩
  | ok value => exact ⟨fun h => congrArg _ (Except.ok.inj h), fun h => congrArg _ (Except.ok.inj h)⟩

theorem mapError_eq_error {x : Except ε α} {f : ε → β} {e : β} :
    x.mapError f = .error e ↔ ∃ cause, x = .error cause ∧ f cause = e := by
  cases x with
  | error cause =>
    refine ⟨fun h => ⟨cause, rfl, Except.error.inj h⟩, ?_⟩
    rintro ⟨_, hcause, rfl⟩
    cases hcause
    rfl
  | ok a => exact ⟨nofun, nofun⟩

/-- A check that throws where it fails, and goes on where it does not. -/
theorem check_ok {p : Prop} [Decidable p] {e : ε} {rest : Except ε α} {a : α} :
    (if p then (throw e : Except ε PUnit) >>= fun _ => rest else rest) = .ok a ↔
      ¬ p ∧ rest = .ok a := by
  by_cases hp : p <;> simp [hp, throw, throwThe, MonadExceptOf.throw, bind, Except.bind]

theorem lastCheck_ok {p : Prop} [Decidable p] {e : ε} :
    (if p then throw e else pure () : Except ε Unit) = .ok () ↔ ¬ p := by
  by_cases hp : p <;> simp [hp, throw, throwThe, MonadExceptOf.throw, pure, Except.pure]

theorem toOption_eq_some {x : Except ε α} {a : α} : x.toOption = some a ↔ x = .ok a := by
  cases x with
  | error e => exact ⟨nofun, nofun⟩
  | ok value => exact ⟨fun h => congrArg _ (Option.some.inj h), fun h => by cases h; rfl⟩

theorem isSome_toOption {x : Except ε α} : x.toOption.isSome ↔ ∃ a, x = .ok a := by
  simp only [Option.isSome_iff_exists, toOption_eq_some]

theorem map_toOption_eq_some {f : α → β} {x : Except ε α} {b : β} :
    x.toOption.map f = some b ↔ ∃ a, x = .ok a ∧ f a = b := by
  simp only [Option.map_eq_some_iff, toOption_eq_some]

end

/-- What no caller can handle: the process ends. -/
inductive Abort where
  /-- A time moved past the range of the clock. -/
  | timeOverflow
  | divisionByZero
  /-- Something that was taken for granted did not hold. -/
  | brokenExpectation
  deriving DecidableEq, Repr

/-- Why there is no value: a reported error, or the end of the process. -/
inductive Failure (ε : Type) where
  | error (e : ε)
  | abort (why : Abort)
  deriving Repr

namespace Failure

variable {σ ε δ α : Type}

def map (f : ε → δ) : Failure ε → Failure δ
  | .error e => .error (f e)
  | .abort why => .abort why

/-- An action whose errors are only reported ones, among actions that may end the process. -/
def lift (f : ε → δ) (x : Action σ ε α) : Action σ (Failure δ) α :=
  x.mapError fun e => .error (f e)

end Failure

end SealedStream
