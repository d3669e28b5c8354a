import SealedStream.Proofs.Files.Replacement

/-!
# Runs over a document

A run is read moment by moment: what stood before an event, what was answered,
what stands after it. A document is read as a whole or not at all, and reading
it changes nothing that a later reading could find. A store is opened from what
is found at its path, where finding nothing is a store without contents.
-/

namespace SealedStream

-- ----------------------------------------------------------------------------
-- Runs
-- ----------------------------------------------------------------------------

section

variable {σ ω ε α : Type}

structure Moment (σ ω ε α : Type) where
  before : σ
  event : ω
  reply : Except ε α
  after : σ

def moments (act : ω → Action σ ε α) : List ω → σ → List (Moment σ ω ε α)
  | [], _ => []
  | event :: rest, s =>
    ⟨s, event, (act event s).1, (act event s).2⟩ :: moments act rest (act event s).2

theorem moments_cons {act : ω → Action σ ε α} {event : ω} {s s' : σ} {reply : Except ε α}
    (h : act event s = (reply, s')) (rest : List ω) :
    moments act (event :: rest) s = ⟨s, event, reply, s'⟩ :: moments act rest s' := by
  rw [moments, h]

/-- What every event keeps holds at every moment of a run. -/
theorem of_mem_moments {act : ω → Action σ ε α} {fits : σ → Prop} {events : List ω} {s : σ}
    (hstep : ∀ event ∈ events, ∀ s, fits s → fits (act event s).2) (hs : fits s)
    {m : Moment σ ω ε α} (hm : m ∈ moments act events s) :
    fits m.before ∧ m.event ∈ events ∧ act m.event m.before = (m.reply, m.after) := by
  induction events generalizing s with
  | nil => cases hm
  | cons event rest ih =>
    obtain rfl | hm := List.mem_cons.mp hm
    · exact ⟨hs, List.mem_cons_self, rfl⟩
    · have hnext := hstep event List.mem_cons_self s hs
      have hrest := fun other hother => hstep other (List.mem_cons_of_mem _ hother)
      obtain ⟨hbefore, hevent, hact⟩ := ih hrest hnext hm
      exact ⟨hbefore, List.mem_cons_of_mem _ hevent, hact⟩

theorem act_of_mem_moments {act : ω → Action σ ε α} {events : List ω} {s : σ}
    {m : Moment σ ω ε α} (hm : m ∈ moments act events s) :
    m.event ∈ events ∧ act m.event m.before = (m.reply, m.after) := by
  let fits (_ : σ) : Prop := True
  have hfits : fits m.before ∧ _ ∧ _ := of_mem_moments (fun _ _ _ _ => trivial) trivial hm
  exact hfits.2

/-- What every moment keeps of what was kept before it holds after each of them. -/
theorem kept_of_mem_moments {act : ω → Action σ ε α} {fits : σ → Prop} {events : List ω} {s : σ}
    (hstep : ∀ m ∈ moments act events s, fits m.before → fits m.after) (hs : fits s)
    {m : Moment σ ω ε α} (hm : m ∈ moments act events s) : fits m.after := by
  induction events generalizing s with
  | nil => cases hm
  | cons event rest ih =>
    have hnext := hstep _ List.mem_cons_self hs
    obtain rfl | hm := List.mem_cons.mp hm
    · exact hnext
    · exact ih (fun other hother => hstep other (List.mem_cons_of_mem _ hother)) hnext hm

/-- What comes after a moment is a run from where it ended. -/
theorem later_of_moments {act : ω → Action σ ε α} {events : List ω} {s : σ}
    {earlier later : List (Moment σ ω ε α)} {m : Moment σ ω ε α}
    (hrun : moments act events s = earlier ++ m :: later) :
    act m.event m.before = (m.reply, m.after) ∧ ∃ rest, later = moments act rest m.after := by
  induction earlier generalizing events s with
  | nil =>
    cases events with
    | nil => cases hrun
    | cons event rest =>
      obtain ⟨rfl, rfl⟩ := List.cons.inj hrun
      exact ⟨rfl, rest, rfl⟩
  | cons first earlier ih =>
    cases events with
    | nil => cases hrun
    | cons event rest => exact ih (List.cons.inj hrun).2

/-- What every earlier moment keeps holds before a moment. -/
theorem before_of_moments {act : ω → Action σ ε α} {fits : σ → Prop} {events : List ω} {s : σ}
    {earlier later : List (Moment σ ω ε α)} {m : Moment σ ω ε α}
    (hrun : moments act events s = earlier ++ m :: later) (hs : fits s)
    (hstep : ∀ b ∈ earlier, act b.event b.before = (b.reply, b.after) → fits b.before →
      fits b.after) : fits m.before := by
  induction earlier generalizing events s with
  | nil =>
    cases events with
    | nil => cases hrun
    | cons event rest =>
      obtain ⟨rfl, -⟩ := List.cons.inj hrun
      exact hs
  | cons first earlier ih =>
    cases events with
    | nil => cases hrun
    | cons event rest =>
      obtain ⟨rfl, hrest⟩ := List.cons.inj hrun
      obtain ⟨hfirst, hearlier⟩ := List.forall_mem_cons.mp hstep
      exact ih hrest (hfirst rfl hs) hearlier

end

-- ----------------------------------------------------------------------------
-- Readings
-- ----------------------------------------------------------------------------

namespace Files

variable {files files' : Files} {path : Path}

/-- The files, when these faults wait for the coming calls. -/
def facing (files : Files) (faults : List (Option Fault)) : Files := { files with faults }

theorem found?_facing (files : Files) (faults : List (Option Fault)) (path : Path) :
    (files.facing faults).found? path = files.found? path := rfl

theorem Steady.facing (hs : files.Steady path) (faults : List (Option Fault)) :
    (files.facing faults).Steady path := hs.withFaults faults

/-- What comes of a call that answers this, if no fault waits for it. -/
def met {α : Type} (files : Files) (answer : Except IoError α) : Except IoError α :=
  match files.faults.head? with
  | some (some fault) => .error fault.error
  | _ => answer

theorem met_calm {α : Type} (files : Files) (answer : Except IoError α) :
    (files.facing []).met answer = answer := rfl

theorem met_end {α : Type} (files : Files) (answer : Except IoError α) :
    files.met answer = answer ∨ ∃ e, files.met answer = .error e := by
  unfold met
  split
  · exact .inr ⟨_, rfl⟩
  · exact .inl rfl

theorem read_apply {answer : Except IoError Bytes} (h : files.found? path = some answer) :
    read path files = (files.met answer, files.facing files.faults.tail) := by
  have hcontent : (files.facing files.faults.tail).content? path = answer := content?_eq h
  rw [read, callOrNothing, call, met]
  rcases files.faults.head? with _ | _ | fault
  · exact congrArg (·, files.facing files.faults.tail) hcontent
  · exact congrArg (·, files.facing files.faults.tail) hcontent
  · rfl

end Files

-- ----------------------------------------------------------------------------
-- Openings
-- ----------------------------------------------------------------------------

/-- How the contents of a store are had from its document, and what of them is kept by it. -/
structure Format (ε α β : Type) where
  nothing : α
  told : IoError → ε
  decode : Bytes → Except ε α
  kept : α → β

namespace Format

variable {ε α β : Type} {format : Format ε α β} {files files' : Files} {path : Path}
  {contents : α}

def opening (format : Format ε α β) (path : Path) : Action Files ε α := do
  let files ← get
  if files.exists? path then
    let document ← (Files.read path).mapError format.told
    Action.ofExcept (format.decode document)
  else return format.nothing

/-- What is found is a document of these contents, or they are none and so is it. -/
inductive Shows (format : Format ε α β) : Option (Except IoError Bytes) → α → Prop
  | missing : Shows format none format.nothing
  | present {document : Bytes} {stored contents : α} : format.decode document = .ok stored →
      format.kept stored = format.kept contents → Shows format (some (.ok document)) contents

theorem opening_missing (h : files.found? path = none) :
    format.opening path files = (.ok format.nothing, files) := by
  rw [opening, Action.bind_apply, Action.get_apply]
  simp only [Files.exists?_eq, h]
  rfl

theorem opening_present {answer : Except IoError Bytes} (h : files.found? path = some answer) :
    format.opening path files =
      ((files.met answer).mapError format.told >>= format.decode,
        files.facing files.faults.tail) := by
  rw [opening, Action.bind_apply, Action.get_apply]
  simp only [Files.exists?_eq, h, Option.isSome_some, if_true, Action.bind_apply,
    Action.mapError_apply, Files.read_apply h]
  rcases files.met answer with e | document <;> rfl

theorem spares_opening (hs : files.Steady path) (format : Format ε α β) :
    Files.Spares path files (format.opening path files).2 := by
  cases hfound : files.found? path with
  | none =>
    rw [opening_missing hfound]
    exact .refl hs
  | some answer =>
    rw [opening_present hfound]
    exact ⟨hs.facing _, rfl⟩

theorem opening_ok (h : format.opening path files = (.ok contents, files')) :
    (files.found? path = none ∧ contents = format.nothing) ∨
      ∃ document, files.found? path = some (.ok document) ∧
        format.decode document = .ok contents := by
  cases hfound : files.found? path with
  | none =>
    rw [opening_missing hfound] at h
    cases h
    exact .inl ⟨rfl, rfl⟩
  | some answer =>
    rw [opening_present hfound] at h
    obtain ⟨document, hdocument, hdecode⟩ := bind_eq_ok.mp (Prod.mk.inj h).1
    obtain hmet | ⟨e, hmet⟩ := files.met_end answer
    · rw [hmet, mapError_eq_ok] at hdocument
      exact .inr ⟨document, congrArg some hdocument, hdecode⟩
    · rw [hmet] at hdocument
      cases hdocument

/-- What was opened is what the document still shows. -/
theorem shows_opening (h : format.opening path files = (.ok contents, files')) :
    format.Shows (files'.found? path) contents := by
  obtain ⟨hfound, rfl⟩ | ⟨document, hfound, hdecode⟩ := opening_ok h
  · rw [opening_missing hfound] at h
    cases h
    exact hfound ▸ .missing
  · rw [opening_present hfound] at h
    obtain ⟨-, rfl⟩ := Prod.mk.inj h
    rw [Files.found?_facing, hfound]
    exact .present hdecode rfl

/-- A document that can be decoded is opened, unless the reading fails. -/
theorem opening_end (h : format.Shows (files.found? path) contents) :
    (∃ stored, (format.opening path files).1 = .ok stored ∧
        format.kept stored = format.kept contents) ∨
      ∃ e, (Files.read path files).1 = .error e ∧
        (format.opening path files).1 = .error (format.told e) := by
  generalize hfound : files.found? path = found at h
  cases h with
  | missing =>
    rw [opening_missing hfound]
    exact .inl ⟨_, rfl, rfl⟩
  | @present document stored _ hdecode hkept =>
    rw [opening_present hfound, Files.read_apply hfound]
    obtain hmet | ⟨e, hmet⟩ := files.met_end (.ok document)
    · rw [hmet]
      exact .inl ⟨stored, hdecode, hkept⟩
    · rw [hmet]
      exact .inr ⟨e, rfl, rfl⟩

theorem opening_calm (h : format.Shows (files.found? path) contents) :
    ∃ stored, (format.opening path (files.facing [])).1 = .ok stored ∧
      format.kept stored = format.kept contents := by
  rw [← Files.found?_facing files []] at h
  generalize hfound : (files.facing []).found? path = found at h
  cases h with
  | missing =>
    rw [opening_missing hfound]
    exact ⟨_, rfl, rfl⟩
  | @present document stored _ hdecode hkept =>
    rw [opening_present hfound, Files.met_calm]
    exact ⟨stored, hdecode, hkept⟩

end Format

end SealedStream
