import SealedStream.Proofs.CommandLine.Drafts

/-!
# Commands that fail

A command that fails has touched its draft and the directory of its state, and nothing
else. The draft is removed again unless the removal itself meets a fault, or unless it
was the last call, which gives the draft its name, that failed.
-/

namespace SealedStream

namespace Files

variable {files start : Files} {home : Place} {draft : Path} {number : FileNumber}

theorem remove_of_file {path : Path} {directory : Place} {name : String}
    (hspot : files.spot path = .ok ⟨directory, some name, false⟩)
    (hlong : name.utf8ByteSize ≤ Path.longestName)
    (hnode : files.node? (directory ++ [name]) = some (.file number)) :
    files.remove path = .ok (files.erase (directory ++ [name])) := by
  have hfound := lookUp_ok.mpr ⟨hlong, hnode⟩
  simp only [remove, hspot, ok_bind, hfound, Bool.false_eq_true, if_false]
  rfl

/-- A draft that cannot be removed is the state's by now. -/
theorem Drafted.of_not_removed (hd : Drafted start home draft number files) {e : IoError}
    (h : files.remove draft = .error e) : Confined (home <+: ·) start files := by
  obtain ⟨directory, name, hspot, hlong, hnode⟩ := hd.draft.spot
  have hbelow : home <+: directory ++ [name] := by
    by_contra houtside
    rw [remove_of_file hspot hlong (hnode houtside)] at h
    cases h
  refine hd.confined.mono fun place hplace => hplace.elim id fun hleads => ?_
  have hleads' := hleads.of_keeps hd.confined.same.1
  rwa [hleads'.unique ⟨directory, name, false, hspot, rfl⟩]

/-- A draft outside of the directory can be given every name that a file can have. -/
theorem Drafted.renamed (hd : Drafted start home draft number files) {target : Path}
    (hwritable : start.Writable target) {place : Place} (hleads : start.Leads draft place)
    (hplace : ¬ home <+: place) {e : IoError} : files.rename draft target ≠ .error e := by
  obtain ⟨directory, name, hspot, hlong, hnode⟩ := hd.draft.spot
  obtain ⟨directory', name', hspot', hlong', hfree⟩ := hwritable
  have hleads' := hleads.of_keeps hd.confined.same.1
  obtain rfl := hleads'.unique ⟨directory, name, false, hspot, rfl⟩
  have hfree' : files.node? (directory' ++ [name']) ≠ some .directory :=
    fun hdirectory => hfree (hd.confined.same.2.kept _ hdirectory)
  obtain ⟨files', hrename⟩ := rename_of_files hspot hlong (hnode hplace)
    (hd.confined.same.1.spot hspot') hlong' hfree'
  rw [hrename]
  nofun

end Files

namespace CommandLine

variable {home : SealedStream.Place} {draft target : Path} {start files : Files}
  {failure : Failure CommandError}

/-- What a command that has failed leaves of the files that it started on. -/
inductive Leaves (home : SealedStream.Place) (draft target : Path) (start : Files) :
    Failure CommandError → Files → Prop
  | untouched {failure : Failure CommandError} {files : Files} :
      Files.Confined (home <+: ·) start files → Leaves home draft target start failure files
  | removed {failure : Failure CommandError} {files : Files} :
      Files.Confined (Files.Inside home draft start) start files →
      (∀ place, start.Leads draft place → files.node? place = none) →
        Leaves home draft target start failure files
  /-- The last call, which removes the draft or gives it its name, has met a fault. -/
  | faulty {failure : Failure CommandError} {files : Files} {fault : Fault} :
      Files.Confined (Files.Inside home draft start) start files →
      some fault :: files.faults <:+ start.faults → Leaves home draft target start failure files
  /-- The draft cannot have its name. -/
  | unnamed {files : Files} {cause : IoError} {number : FileNumber} :
      Files.Drafted start home draft number files → files.rename draft target = .error cause →
        Leaves home draft target start (.error (.file cause)) files
  | ended {why : Abort} {files : Files} :
      Files.Confined (Files.Inside home draft start) start files →
        Leaves home draft target start (.abort why) files

theorem Leaves.of_fault {left : Files} {fault : Fault}
    (hc : Files.Confined (Files.Inside home draft start) start left)
    (h : left.faults.head? = some (some fault)) :
    Leaves home draft target start failure (left.facing left.faults.tail) := by
  obtain ⟨rest, hfaults⟩ := List.head?_eq_some_iff.mp h
  have hcoming : some fault :: (left.facing left.faults.tail).faults = left.faults := by
    rw [hfaults]
    rfl
  exact .faulty (hc.trans (.tail _ left)) (hcoming ▸ hc.faults)

/-- Removing a draft, where only one that is the state's may stay. -/
theorem leaves_remove {left : Files}
    (hc : Files.Confined (Files.Inside home draft start) start left)
    (hstays : ∀ e, (left.facing left.faults.tail).remove draft = .error e →
      Files.Confined (home <+: ·) start (left.facing left.faults.tail)) :
    Leaves home draft target start failure ((FileStep.remove draft).run left).2 := by
  have htail := hc.trans (.tail _ left)
  rw [Files.run_eq]
  split
  · next hfault => exact .of_fault hc hfault
  · rw [FileStep.apply, Files.change]
    split
    · next removed hremoved =>
      refine .removed (htail.trans (.remove ?_ hremoved)) fun place hplace => ?_
      · exact fun place hleads => .inr (hleads.of_keeps htail.same.2)
      · have hleads := hplace.of_keeps htail.same.1
        obtain ⟨directory, name, hspot, -, rfl⟩ := Files.remove_ok hremoved
        obtain rfl := hleads.unique ⟨directory, name, false, hspot, rfl⟩
        rw [Files.node?_eraseName, if_pos rfl]
    · next e hremoved => exact .untouched (hstays e hremoved)

variable {directory : Path} {p p₁ p' : Custody} {input output message : String}

theorem leaves_discardDraft
    (h : Files.Confined (home <+: ·) start p.files ∨
      ∃ number, Files.Drafted start home draft number p.files) :
    Leaves home draft target start failure (discardDraft draft p).2.files := by
  have hremove : (discardDraft draft p).2.files = ((FileStep.remove draft).run p.files).2 := rfl
  rw [hremove]
  obtain hc | ⟨number, hd⟩ := h
  · exact leaves_remove (hc.mono fun _ => .inl) fun _ _ => hc.trans (.tail _ p.files)
  · exact leaves_remove hd.confined fun _ hmissing => hd.tail.of_not_removed hmissing

/-- The end of a command whose draft has been written. -/
theorem leaves_rename (hd : Files.Drafted start home draft number p.files)
    {rest : CommandAction String} (hrest : ∀ p, ∃ message, (rest p).1 = .ok message)
    (h : (file (FileStep.rename draft target).run >>= fun _ => rest) p = (.error failure, p')) :
    Leaves home draft target start failure p'.files := by
  obtain hrename | ⟨_, p₁, -, h⟩ := Action.bind_error.mp h
  · rw [file_apply, Prod.mk.injEq] at hrename
    obtain ⟨hanswer, rfl⟩ := hrename
    obtain ⟨cause, hcause, rfl⟩ := mapError_eq_error.mp hanswer
    rw [Custody.files_withFiles]
    rw [Files.run_eq] at hcause ⊢
    split at hcause
    · next hfault => exact .of_fault hd.confined hfault
    · rw [FileStep.apply, Files.change] at hcause ⊢
      split at hcause
      · cases hcause
      · next hrename =>
        cases hcause
        exact .unnamed hd.tail hrename
  · obtain ⟨message, hmessage⟩ := hrest p₁
    rw [h] at hmessage
    cases hmessage

theorem untouched_openAt (hp : p.host.Placed directory home) {x : Action Files IoError Node}
    (hx : ∀ files, (x files).2 = files.facing files.faults.tail) :
    Untouched directory home p.files (file x p).2.host := by
  rw [file_apply, hx]
  exact meeting_untouched p ⟨hp, .refl _ _⟩

theorem encryptFile_leaves (hp : p.host.Placed directory home)
    (h : encryptFile input output p = (.error failure, p')) :
    Leaves home (draftOf output) (Path.ofString output) p.files failure p'.files := by
  have hopened := untouched_openAt hp (Files.openAt_files (Path.ofString input))
  unfold encryptFile at h
  obtain hopen | ⟨node, p₁, hopen, h⟩ := Action.bind_error.mp h
  all_goals rw [hopen] at hopened
  · exact .untouched hopened.2
  · have hwritten := writeSealed_end hopened node (draftOf output)
    obtain hattempt | ⟨answer, p₂, hattempt, h⟩ := Action.bind_error.mp h
    all_goals rw [Action.attempt_apply, Prod.mk.injEq] at hattempt
    · cases hattempt.1
    · obtain ⟨hanswer, rfl⟩ := hattempt
      cases answer with
      | error f =>
        cases f with
        | abort why =>
          cases h
          obtain ⟨e, hwrite⟩ | ⟨number, hd⟩ := hwritten
          · rw [hwrite] at hanswer
            cases hanswer
          · exact .ended hd.2.confined
        | error e =>
          cases h
          -- the removal is tried also where it was the draft's creation that failed
          refine leaves_discardDraft (hwritten.imp ?_ ?_)
          · rintro ⟨cause, hwrite⟩
            rw [hwrite]
            exact hopened.2.trans (.tail _ _)
          · exact fun ⟨number, hd⟩ => ⟨number, hd.2⟩
      | ok copied =>
        -- a draft that has been written has been created, and only its name is missing
        obtain ⟨e, hwrite⟩ | ⟨number, hd⟩ := hwritten
        · rw [hwrite] at hanswer
          cases hanswer
        · refine leaves_rename hd.2 (fun p => ?_) h
          split <;> exact ⟨_, rfl⟩

theorem decryptFile_leaves (hp : p.host.Placed directory home)
    (h : decryptFile input output p = (.error failure, p')) :
    Leaves home (draftOf output) (Path.ofString output) p.files failure p'.files := by
  have hopened := untouched_openAt hp (Files.openAt_files (Path.ofString input))
  unfold decryptFile at h
  obtain hopen | ⟨node, p₁, hopen, h⟩ := Action.bind_error.mp h
  all_goals rw [hopen] at hopened
  · exact .untouched hopened.2
  · have hbegan := beginOpening_keeps stable_untouched meeting_untouched input node p₁ hopened
    obtain hbegin | ⟨begun, p₂, hbegin, h⟩ := Action.bind_error.mp h
    all_goals rw [hbegin] at hbegan
    · exact .untouched hbegan.2
    · have hwell : p₂.files.WellFormed := hbegan.1.wellFormed
      have hwritten := writeOpened_end hwell hbegan.2 node (draftOf output) begun
      obtain hattempt | ⟨answer, p₃, hattempt, h⟩ := Action.bind_error.mp h
      all_goals rw [Action.attempt_apply, onFiles_apply, Prod.mk.injEq] at hattempt
      · cases hattempt.1
      · obtain ⟨hanswer, rfl⟩ := hattempt
        cases answer with
        | error e =>
          cases h
          refine leaves_discardDraft (hwritten.imp ?_ id)
          rintro ⟨cause, hwrite⟩
          rw [hwrite]
          exact hbegan.2.trans (.tail _ _)
        | ok copied =>
          obtain ⟨e, hwrite⟩ | ⟨number, hd⟩ := hwritten
          · rw [hwrite] at hanswer
            cases hanswer
          · exact leaves_rename hd (fun p => ⟨_, rfl⟩) h

theorem Command.leaves {command : Command}
    (hcommand : command = .encrypt input output ∨ command = .decrypt input output)
    (hp : p.host.Placed directory home) (h : command.action p = (.error failure, p')) :
    Leaves home (draftOf output) (Path.ofString output) p.files failure p'.files := by
  obtain rfl | rfl := hcommand
  · exact encryptFile_leaves hp h
  · exact decryptFile_leaves hp h

-- ----------------------------------------------------------------------------
-- What a failure leaves
-- ----------------------------------------------------------------------------

namespace Leaves

theorem confined (h : Leaves home draft target start failure files) :
    Files.Confined (Files.Inside home draft start) start files := by
  cases h with
  | untouched hc => exact hc.mono fun _ => .inl
  | removed hc => exact hc
  | faulty hc => exact hc
  | unnamed hd => exact hd.confined
  | ended hc => exact hc

/-- Of a draft outside of the directory there is nothing left, if nothing has gone wrong with it. -/
theorem at_draft (h : Leaves home draft target start failure files) {place : SealedStream.Place}
    (hplace : ¬ home <+: place) (hleads : start.Leads draft place) :
    files.standing place = start.standing place ∨ files.standing place = none ∨
      (∃ fault, some fault :: files.faults <:+ start.faults) ∨
      (∃ cause, failure = .error (.file cause) ∧ files.rename draft target = .error cause) ∨
      ∃ why, failure = .abort why := by
  cases h with
  | untouched hc => exact .inl (hc.standing hplace)
  | removed hc hnone =>
    refine .inr (.inl ?_)
    rw [Files.standing, hnone place hleads]
    rfl
  | faulty hc hfault => exact .inr (.inr (.inl ⟨_, hfault⟩))
  | unnamed hd hrename => exact .inr (.inr (.inr (.inl ⟨_, rfl, hrename⟩)))
  | ended hc => exact .inr (.inr (.inr (.inr ⟨_, rfl⟩)))

/-- Where no call fails by itself and the draft can have its name, a failure leaves no trace. -/
theorem of_calm {e : CommandError} (h : Leaves home draft target start (.error e) files)
    (hcalm : start.faults = [])
    (hfree : ∀ place, start.Leads draft place → start.standing place = none)
    (hwritable : start.Writable target) {place : SealedStream.Place} (hplace : ¬ home <+: place) :
    files.standing place = start.standing place := by
  by_cases hleads : start.Leads draft place
  · cases h with
    | untouched hc => exact hc.standing hplace
    | removed hc hnone =>
      rw [hfree place hleads, Files.standing, hnone place hleads]
      rfl
    | faulty hc hfault =>
      rw [hcalm] at hfault
      exact absurd (List.suffix_nil.mp hfault) (List.cons_ne_nil _ _)
    | unnamed hd hrename => exact absurd hrename (hd.renamed hwritable hleads hplace)
  · exact h.confined.standing fun hinside => hinside.elim hplace hleads

end Leaves

variable {inv : Invocation} {levelBytes : Option Bytes} {machine machine' : Machine}

/-- A run fails when it opens its state, or its command leaves what it leaves. -/
theorem opening_or_leaves (hw : machine.files.WellFormed) (hnow : machine.now.InRange)
    (hcommand : inv.command = .encrypt input output ∨ inv.command = .decrypt input output)
    (hopen : (openCustody inv levelBytes machine).2.files = start)
    (hfail : inv.action levelBytes machine = (.error failure, machine')) :
    machine'.files = start ∨ ∃ home, start.Reaches (Path.ofString inv.stateDirectory) home ∧
      Leaves home (draftOf output) (Path.ofString output) start failure machine'.files := by
  have hversion : inv.command ≠ .version := by
    intro hversion
    simp [hversion] at hcommand
  rcases hopened : openCustody inv levelBytes machine with ⟨e | p, opened⟩
  all_goals
    rw [hopened] at hopen
    subst hopen
  · rw [action_eq hversion, Action.bind_apply, hopened] at hfail
    exact .inl (congrArg Machine.files (Prod.mk.inj hfail).2.symm)
  · obtain ⟨home, ho⟩ := openCustody_ok hw hnow hopened
    rw [action_apply hversion hopened, Prod.mk.injEq] at hfail
    obtain ⟨hanswer, rfl⟩ := hfail
    cases machine_of_openCustody hopened
    exact .inr ⟨home, ho.housed.placed.reaches,
      Command.leaves hcommand ho.housed.placed (Prod.ext hanswer rfl)⟩

/-- Opening its state, a run makes directories at most. A command that fails then leaves all that
stands outside of its state directory as it was, but for the draft beside its output. A draft is
removed, unless the last call has met a fault, or the draft cannot have the name of the output, or
the process has been ended on the way. So nothing is left of it where no call fails by itself and
the output is a path at which a file can be written; and where nothing stood in its place, nothing
at all has changed then. -/
theorem failed_run_leaves (hw : machine.files.WellFormed) (hnow : machine.now.InRange)
    (hcommand : inv.command = .encrypt input output ∨ inv.command = .decrypt input output)
    (hopen : (openCustody inv levelBytes machine).2.files = start)
    (hfail : inv.action levelBytes machine = (.error failure, machine')) :
    machine.files.Grown start ∧
    (∀ place, start.Outside (Path.ofString inv.stateDirectory) place →
      ¬ start.Leads (draftOf output) place →
        machine'.files.standing place = start.standing place) ∧
    (∀ place, start.Outside (Path.ofString inv.stateDirectory) place →
      start.Leads (draftOf output) place →
        machine'.files.standing place = start.standing place ∨
        machine'.files.standing place = none ∨
        (∃ fault, some fault :: machine'.files.faults <:+ start.faults) ∨
        (∃ cause, failure = .error (.file cause) ∧
          machine'.files.rename (draftOf output) (Path.ofString output) = .error cause) ∨
        ∃ why, failure = .abort why) ∧
    (∀ e, failure = .error e → start.faults = [] →
      (∀ place, start.Leads (draftOf output) place → start.standing place = none) →
      start.Writable (Path.ofString output) →
        ∀ place, start.Outside (Path.ofString inv.stateDirectory) place →
          machine'.files.standing place = start.standing place) := by
  have hgrown : machine.files.Grown start := hopen ▸ openCustody_grown inv levelBytes machine
  refine ⟨hgrown, ?_⟩
  obtain hsame | ⟨home, hhome, hleaves⟩ := opening_or_leaves hw hnow hcommand hopen hfail
  · rw [hsame]
    exact ⟨fun _ _ _ => rfl, fun _ _ _ => .inl rfl, fun _ _ _ _ _ _ _ => rfl⟩
  · refine ⟨fun place hplace hleads => ?_, fun place hplace hleads => ?_, ?_⟩
    · exact hleaves.confined.standing fun hinside => hinside.elim (hplace home hhome) hleads
    · exact hleaves.at_draft (hplace home hhome) hleads
    · rintro e rfl hcalm hfree hwritable place hplace
      exact hleaves.of_calm hcalm hfree hwritable (hplace home hhome)

/-- A file and a directory. -/
def cluttered : Machine where
  files := (FileStep.runAll [.create ⟨false, ["a"]⟩, .write ⟨false, ["a"]⟩ [1, 2, 3],
    .makeDirs ⟨false, ["d"]⟩] {}).2
  entropy := .ofSeed 0
  now := .epoch

/-- Seals the directory. -/
def unreadable : Invocation := ⟨".localseal", some 18, false, .encrypt "d" "b"⟩

/-- Opens the file into the directory's name. -/
def misnamed : Invocation := ⟨".localseal", some 18, false, .decrypt "a" "d"⟩

/-- An input that is a directory can be opened but not read, and no trace of the attempt stays. -/
theorem failed_run_leaves_nothing : ∃ machine', unreadable.action none cluttered =
      (.error (.error (.file (.system .isADirectory))), machine') ∧
    ∀ place, ¬ [".localseal"] <+: place →
      machine'.files.standing place = cluttered.files.standing place := by
  let start := cluttered.files.put [".localseal"] .directory
  have hopen : (openCustody unreadable none cluttered).2.files = start := by decide +kernel
  have hwell : cluttered.files.WellFormed := Files.wellFormed_empty.runAll _
  have hhome : start.Reaches (Path.ofString unreadable.stateDirectory) [".localseal"] := by
    rw [Files.Reaches]
    decide +kernel
  have hdraft : start.spot (draftOf "b") = .ok ⟨[], some "b.tmp", false⟩ := by decide +kernel
  have hwritable : start.Writable (Path.ofString "b") :=
    ⟨[], "b", by decide +kernel, by decide, by decide⟩
  have hfree (place : SealedStream.Place) (hleads : start.Leads (draftOf "b") place) :
      start.standing place = none := by
    obtain rfl := hleads.unique ⟨[], "b.tmp", false, hdraft, rfl⟩
    rfl
  have hfails : (unreadable.action none cluttered).1 =
      .error (.error (.file (.system .isADirectory))) := by rfl
  refine ⟨_, Prod.ext hfails rfl, fun place hplace => ?_⟩
  have hclean := (failed_run_leaves hwell (by decide) (.inl rfl) hopen
    (Prod.ext hfails rfl)).2.2.2 _ rfl rfl hfree hwritable place fun home hother => by
      rwa [← Except.ok.inj (hhome.symm.trans hother)]
  have hne : place ≠ [".localseal"] := by
    rintro rfl
    exact hplace (List.prefix_refl _)
  rw [hclean]
  simp only [start, Files.standing, Files.node?_put _ _ _ _ (List.cons_ne_nil _ _), if_neg hne]
  rfl

/-- Where the output has the name of a directory, the draft stays. -/
theorem failed_run_leaves_draft : ∃ machine' e,
    misnamed.action none cluttered = (.error (.error e), machine') ∧
      cluttered.files.faults = [] ∧ cluttered.files.standing ["d.tmp"] = none ∧
        machine'.files.standing ["d.tmp"] = some (some [1, 2, 3]) := by
  have hfails : (misnamed.action none cluttered).1 =
      .error (.error (.file (.system .isADirectory))) := by rfl
  exact ⟨_, _, Prod.ext hfails rfl, rfl, by rfl, by rfl⟩

end CommandLine

end SealedStream
