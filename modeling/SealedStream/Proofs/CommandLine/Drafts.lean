import SealedStream.Proofs.CommandLine.State

/-!
# Drafts that are being written

A command creates its draft, writes it through the open file and gives it its name in
the end. What the state stores in between stays below its directory, so a draft that
lies elsewhere is listed where it was created, and so is nothing else.
-/

namespace SealedStream

open SealedStream.Action (Keeps)

namespace Custody

def files (p : Custody) : Files := p.host.machine.files

def withFiles (p : Custody) (files : Files) : Custody :=
  { p with host := { p.host with machine := { p.host.machine with files } } }

@[simp] theorem files_withFiles (p : Custody) (files : Files) :
    (p.withFiles files).files = files := rfl

end Custody

-- ----------------------------------------------------------------------------
-- Paths for drafts and drafts that are open
-- ----------------------------------------------------------------------------

namespace Files

variable {files files' start : Files} {home place : Place} {draft : Path} {number : FileNumber}

/-- A path at which a file can be written. -/
def Writable (files : Files) (path : Path) : Prop :=
  ∃ directory name, files.spot path = .ok ⟨directory, some name, false⟩ ∧
    name.utf8ByteSize ≤ Path.longestName ∧ files.node? (directory ++ [name]) ≠ some .directory

/-- The place is not in the directory, wherever that is. -/
def Outside (files : Files) (directory : Path) (place : Place) : Prop :=
  ∀ home, files.Reaches directory home → ¬ home <+: place

/-- A draft that has been created and is open. Where the state keeps its own documents it may have
been taken for one of them; elsewhere it is listed where it was created. -/
structure OpenDraft (home : Place) (draft : Path) (number : FileNumber) (files : Files) :
    Prop where
  spot : ∃ directory name, files.spot draft = .ok ⟨directory, some name, false⟩ ∧
    name.utf8ByteSize ≤ Path.longestName ∧
      (¬ home <+: directory ++ [name] → files.node? (directory ++ [name]) = some (.file number))
  only : ∀ place, files.node? place = some (.file number) → home <+: place ∨ files.Leads draft place

theorem OpenDraft.of_nodes (h : files.OpenDraft home draft number)
    (hsame : files.SameDirectories files')
    (hnodes : ∀ place, ¬ home <+: place → files'.node? place = files.node? place) :
    files'.OpenDraft home draft number := by
  obtain ⟨directory, name, hspot, hlong, hnode⟩ := h.spot
  refine ⟨⟨directory, name, hsame.1.spot hspot, hlong, fun hplace => ?_⟩, fun place hplace => ?_⟩
  · rw [hnodes _ hplace]
    exact hnode hplace
  · by_cases hbelow : home <+: place
    · exact .inl hbelow
    · rw [hnodes place hbelow] at hplace
      exact (h.only place hplace).imp_right fun hleads => hleads.of_keeps hsame.1

theorem openDraft_create (hw : files.WellFormed)
    (h : files.create draft = .ok (number, files')) : files'.OpenDraft home draft number := by
  have hsame := sameDirectories_create h
  have hw' := hw.create h
  have hnode : ∃ directory name, files.spot draft = .ok ⟨directory, some name, false⟩ ∧
      name.utf8ByteSize ≤ Path.longestName ∧
        files'.node? (directory ++ [name]) = some (.file number) := by
    obtain ⟨directory, name, hspot, hlong, ⟨hnode, rfl⟩ | ⟨-, hadd⟩⟩ := create_ok h
    · exact ⟨directory, name, hspot, hlong, hnode⟩
    · cases hadd
      refine ⟨directory, name, hspot, hlong, ?_⟩
      have hput := node?_putName files directory (directory ++ [name]) name
        (.file files.contents.length)
      rwa [if_pos rfl] at hput
  obtain ⟨directory, name, hspot, hlong, hnode⟩ := hnode
  have hspot' := hsame.1.spot hspot
  refine ⟨⟨directory, name, hspot', hlong, fun _ => hnode⟩, fun place hplace => .inr ?_⟩
  exact ⟨directory, name, false, hspot', hw'.once _ _ _ hplace hnode⟩

/-- The places that a command may touch as long as its draft has no other name. -/
def Inside (home : Place) (draft : Path) (start : Files) (place : Place) : Prop :=
  home <+: place ∨ start.Leads draft place

/-- Files on which nothing has been done but for the state and an open draft. -/
structure Drafted (start : Files) (home : Place) (draft : Path) (number : FileNumber)
    (files : Files) : Prop where
  wellFormed : files.WellFormed
  confined : Confined (Inside home draft start) start files
  draft : files.OpenDraft home draft number

namespace Drafted

theorem of_confined (h : Drafted start home draft number files) (hw : files'.WellFormed)
    (hc : Confined (home <+: ·) files files') : Drafted start home draft number files' :=
  ⟨hw, h.confined.trans (hc.mono fun _ => .inl), h.draft.of_nodes hc.same hc.nodes⟩

theorem leads (h : Drafted start home draft number files) (hleads : files.Leads draft place) :
    start.Leads draft place := hleads.of_keeps h.confined.same.2

theorem tail (h : Drafted start home draft number files) :
    Drafted start home draft number (files.facing files.faults.tail) :=
  h.of_confined (h.wellFormed.withFaults _) (.tail _ _)

theorem setContent (h : Drafted start home draft number files) (bytes : Bytes) :
    Drafted start home draft number (files.setContent number bytes) where
  wellFormed := h.wellFormed.setContent number bytes
  confined := h.confined.trans <| .setContent
    (fun place hplace => (h.draft.only place hplace).imp_right h.leads) bytes
  draft := h.draft.of_nodes (sameDirectories_setContent files number bytes) fun _ _ => rfl

end Drafted

theorem drafted_create (hw : files.WellFormed) (hc : Confined (home <+: ·) start files)
    (h : files.create draft = .ok (number, files')) : Drafted start home draft number files' where
  wellFormed := hw.create h
  confined := (hc.mono fun _ => .inl).trans <| .create hw
    (fun _ hleads => .inr (hleads.of_keeps hc.same.2)) h
  draft := openDraft_create hw h

/-- Writing through the open file changes what it holds, whether the call fails or not. -/
theorem run_overwrite (number : FileNumber) (bytes : Bytes) (files : Files) :
    ∃ content, ((FileStep.overwrite number bytes).run files).2 =
      (files.facing files.faults.tail).setContent number content := by
  rw [run_eq]
  split
  · exact ⟨_, rfl⟩
  · exact ⟨_, rfl⟩

theorem drafted_overwrite (bytes : Bytes) :
    Keeps (Drafted start home draft number) (FileStep.overwrite number bytes).run := by
  intro files h
  obtain ⟨content, hcontent⟩ := run_overwrite number bytes files
  rw [hcontent]
  exact h.tail.setContent content

theorem run_sync (path : Path) (files : Files) :
    ((FileStep.sync path).run files).2 = files.facing files.faults.tail := by
  rw [run_eq]
  split <;> rfl

theorem drafted_sync (path : Path) :
    Keeps (Drafted start home draft number) (FileStep.sync path).run := by
  intro files h
  rw [run_sync]
  exact h.tail

theorem createAt_end (path : Path) (files : Files) :
    (∃ e, createAt path files = (.error e, files.facing files.faults.tail)) ∨
      ∃ number files', createAt path files = (.ok number, files') ∧
        (files.facing files.faults.tail).create path = .ok (number, files') := by
  unfold createAt callOrNothing call
  split
  · exact .inl ⟨_, rfl⟩
  · simp only
    split
    · next hcreate => exact .inr ⟨_, _, rfl, hcreate⟩
    · exact .inl ⟨_, rfl⟩

theorem openAt_files (path : Path) (files : Files) :
    (openAt path files).2 = files.facing files.faults.tail := by
  unfold openAt callOrNothing call
  split <;> rfl

theorem deliver_files {ε : Type} (node : Node) (offset : Nat) (files : Files) :
    (deliver node offset files : Except ε Source × Files).2 =
      files.facing files.faults.tail := by
  unfold deliver
  rcases files.faults.head? with _ | _ | fault <;> rfl

end Files

-- ----------------------------------------------------------------------------
-- Steps of a command
-- ----------------------------------------------------------------------------

namespace CommandLine

variable {ε α : Type} {directory : Path} {home : SealedStream.Place} {fits : Host → Prop}

theorem onFiles_apply (x : Action Files ε α) (p : Custody) :
    onFiles x p = ((x p.files).1, p.withFiles (x p.files).2) := rfl

theorem file_apply (x : Action Files IoError α) (p : Custody) :
    file x p = ((x p.files).1.mapError fun e => .error (.file e), p.withFiles (x p.files).2) := by
  rw [file, Failure.lift, Action.mapError_apply, onFiles_apply]

theorem file_ok {x : Action Files IoError α} {p p' : Custody} {a : α} :
    file x p = (.ok a, p') ↔ ∃ files, x p.files = (.ok a, files) ∧ p' = p.withFiles files := by
  rw [file, Failure.lift, Action.mapError_ok, onFiles, Action.zoom_ok]
  rfl

/-- What holds of a host also when a waiting fault has been met or spared. -/
def Meeting (fits : Host → Prop) : Prop :=
  ∀ p : Custody, fits p.host → fits (p.withFiles (p.files.facing p.files.faults.tail)).host

theorem Meeting.onFiles (hm : Meeting fits) {x : Action Files ε α}
    (hx : ∀ files, (x files).2 = files.facing files.faults.tail) :
    Keeps (fun p => fits p.host) (onFiles x) := by
  intro p hp
  rw [onFiles_apply, hx]
  exact hm p hp

theorem beginSealing_keeps (hs : Host.Stable fits) :
    Keeps (fun p => fits p.host) beginSealing :=
  fun p hp => Outgoing.start_stable hs ⟨p, {}⟩ hp

/-- Sealing an input reads it and looks the key up, and leaves no more traces than that. -/
theorem sealInput_keeps (hs : Host.Stable fits) (hm : Meeting fits) (input : Node) :
    Keeps (fun p => fits p.host) (sealInput input) := by
  unfold sealInput
  refine .bind (beginSealing_keeps hs) fun ⟨answer, sink⟩ => ?_
  cases answer with
  | error e => exact .of_same fun _ => rfl
  | ok sealing =>
    refine .bind (hm.onFiles (Files.deliver_files input 0)) fun source => ?_
    rcases source.readToEnd with ⟨_ | _, _⟩ <;> exact .of_same fun _ => rfl

theorem beginOpening_keeps (hs : Host.Stable fits) (hm : Meeting fits) (input : String)
    (node : Node) : Keeps (fun p => fits p.host) (beginOpening input node) := by
  unfold beginOpening
  refine .bind (.of_same fun _ => rfl) fun p => ?_
  have hfirst : Keeps (fun p => fits p.host) (onFiles (Files.deliver node 0) : CommandAction _) :=
    hm.onFiles (Files.deliver_files node 0)
  simp only
  split
  on_goal 1 => refine .bind hfirst fun first p hp => ?_
  on_goal 2 => refine .bind (.of_same fun _ => rfl) fun first p hp => ?_
  all_goals
    have hstarted := Incoming.start_stable hs ⟨p, first.upTo readAhead⟩ hp
    split
    all_goals
      next hrun =>
      rw [hrun] at hstarted
      exact hstarted

-- ----------------------------------------------------------------------------
-- Writing a draft
-- ----------------------------------------------------------------------------

variable {start files : Files} {draft : Path} {number : FileNumber} {p : Custody}

/-- A host on whose files nothing has been done but for the state. -/
def Untouched (directory : Path) (home : SealedStream.Place) (start : Files) (h : Host) : Prop :=
  h.Placed directory home ∧ Files.Confined (home <+: ·) start h.machine.files

theorem stable_untouched : Host.Stable (Untouched directory home start) :=
  Host.stable_placed directory fun _ _ h _ h' => h.trans h'

theorem meeting_untouched : Meeting (Untouched directory home start) :=
  fun p hp => ⟨hp.1.of_confined (.tail (home <+: ·) p.files) (hp.1.wellFormed.withFaults _),
    hp.2.trans (.tail _ _)⟩

/-- A host on whose files nothing has been done but for the state and an open draft. -/
def Drafting (directory : Path) (home : SealedStream.Place) (start : Files) (draft : Path)
    (number : FileNumber) (h : Host) : Prop :=
  h.Placed directory home ∧ Files.Drafted start home draft number h.machine.files

theorem Drafting.onFiles {x : Action Files ε α}
    (hx : Keeps (Files.Drafted start home draft number) x) :
    Keeps (fun p => Drafting directory home start draft number p.host) (onFiles x) := by
  rintro p ⟨hp, hd⟩
  have hd' := hx p.files hd
  refine ⟨⟨hd'.wellFormed, ?_, hp.vault, hp.settings, hp.clock⟩, hd'⟩
  exact hp.reaches.of_keeps (hd.confined.same.2.trans hd'.confined.same.1)

theorem stable_drafting :
    Host.Stable (Drafting directory home start draft number) :=
  Host.stable_placed directory fun _ _ hd hw hc => hd.of_confined hw hc

theorem meeting_drafting : Meeting (Drafting directory home start draft number) :=
  fun p hp => ⟨hp.1.of_confined (.tail (home <+: ·) p.files) (hp.1.wellFormed.withFaults _),
    hp.2.tail⟩

/-- What is done when a draft has been created. -/
def writeInto (input : Node) (draft : Path) (number : FileNumber) : CommandAction Copied := do
  let (answer, bytes) ← sealInput input
  match answer with
  | .ok copied =>
    file (FileStep.overwrite number bytes).run
    file (FileStep.sync draft).run
    return copied
  | .error e =>
    discard (onFiles (FileStep.overwrite number bytes).run).attempt
    throw e

theorem writeSealed_eq (input : Node) (draft : Path) :
    writeSealed input draft = file (Files.createAt draft) >>= writeInto input draft := rfl

theorem writeInto_keeps (input : Node) (draft : Path) (number : FileNumber) :
    Keeps (fun p => Drafting directory home start draft number p.host)
      (writeInto input draft number) := by
  refine .bind (sealInput_keeps stable_drafting meeting_drafting input) fun ⟨answer, bytes⟩ => ?_
  have hwrite : Keeps (fun p => Drafting directory home start draft number p.host)
      (onFiles (FileStep.overwrite number bytes).run) :=
    Drafting.onFiles (Files.drafted_overwrite bytes)
  cases answer with
  | ok copied =>
    refine .bind (.mapError _ hwrite) fun _ => .bind (.mapError _ ?_) fun _ =>
      .of_same fun _ => rfl
    exact Drafting.onFiles (Files.drafted_sync draft)
  | error e => exact .bind hwrite.attempt.discard fun _ => .of_same fun _ => rfl

/-- Either the draft was not created, or nothing was done but to write it. -/
theorem writeSealed_end (hp : Untouched directory home start p.host) (input : Node)
    (draft : Path) :
    (∃ e, writeSealed input draft p =
        (.error (.error (.file e)), p.withFiles (p.files.facing p.files.faults.tail))) ∨
      ∃ number, Drafting directory home start draft number (writeSealed input draft p).2.host := by
  rw [writeSealed_eq, Action.bind_apply, file_apply]
  obtain ⟨e, hcreate⟩ | ⟨number, files, hcreate, hmade⟩ := Files.createAt_end draft p.files
  · rw [hcreate]
    exact .inl ⟨e, rfl⟩
  · rw [hcreate]
    obtain ⟨hplaced, hc⟩ := meeting_untouched p hp
    have hd := Files.drafted_create hplaced.wellFormed hc hmade
    refine .inr ⟨number, writeInto_keeps input draft number (p.withFiles files) ⟨?_, hd⟩⟩
    refine ⟨hd.wellFormed, ?_, hplaced.vault, hplaced.settings, hplaced.clock⟩
    exact hplaced.reaches.of_keeps (hc.same.2.trans hd.confined.same.1)

/-- So it is where a stream is opened. -/
theorem writeOpened_end (hw : files.WellFormed) (hc : Files.Confined (home <+: ·) start files)
    (input : Node) (draft : Path) (begun : Begun) :
    (∃ e, writeOpened input draft begun files =
        (.error e, files.facing files.faults.tail)) ∨
      ∃ number, Files.Drafted start home draft number (writeOpened input draft begun files).2 := by
  unfold writeOpened
  rw [Action.bind_apply]
  obtain ⟨e, hcreate⟩ | ⟨number, files', hcreate, hmade⟩ := Files.createAt_end draft files
  · rw [hcreate]
    exact .inl ⟨e, rfl⟩
  · rw [hcreate]
    have hd := Files.drafted_create (hw.withFaults _) (hc.trans (.tail _ files)) hmade
    have hdeliver : Keeps (Files.Drafted start home draft number)
        (Files.deliver input begun.offset : Action Files IoError Source) := by
      intro files h
      rw [Files.deliver_files]
      exact h.tail
    refine .inr ⟨number, Keeps.bind hdeliver (fun rest => ?_) files' hd⟩
    refine .bind (.of_same fun _ => rfl) fun text => ?_
    refine .bind (Files.drafted_overwrite text) fun _ => ?_
    exact .bind (Files.drafted_sync draft) fun _ => .of_same fun _ => rfl

end CommandLine

end SealedStream
