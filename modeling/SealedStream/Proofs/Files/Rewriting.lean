import SealedStream.Proofs.Files.Replacement

/-!
# Replacements that are known to succeed

A replacement that ends well leaves its content at the path, wherever the path led
before. Where no call fails by itself, a document that is there is replaced as a
whole or not touched, even one that is its own draft.
-/

namespace SealedStream.Files

variable {files files' : Files} {path : Path} {content : Bytes}

-- ----------------------------------------------------------------------------
-- Replacements that have ended well
-- ----------------------------------------------------------------------------

theorem runAll_append_ok {first rest : List FileStep} :
    FileStep.runAll (first ++ rest) files = (.ok (), files') ↔
      ∃ mid, FileStep.runAll first files = (.ok (), mid) ∧
        FileStep.runAll rest mid = (.ok (), files') := by
  induction first generalizing files with
  | nil => exact ⟨fun h => ⟨files, rfl, h⟩, fun ⟨_, hfirst, h⟩ => by cases hfirst; exact h⟩
  | cons step first ih =>
    rw [List.cons_append, FileStep.runAll, FileStep.runAll, Action.bind_ok]
    constructor
    · rintro ⟨_, next, hstep, h⟩
      obtain ⟨mid, hfirst, hrest⟩ := ih.mp h
      exact ⟨mid, Action.bind_ok.mpr ⟨_, next, hstep, hfirst⟩, hrest⟩
    · rintro ⟨mid, h, hrest⟩
      obtain ⟨_, next, hstep, hfirst⟩ := Action.bind_ok.mp h
      exact ⟨_, next, hstep, ih.mpr ⟨mid, hfirst, hrest⟩⟩

/-- A path that ends in a name leads there through directories that are there. -/
theorem direct_of_spot {directory : Place} {name : String} {slash : Bool}
    (h : files.spot path = .ok ⟨directory, some name, slash⟩) : files.Direct path := by
  obtain ⟨before, blanks, hpieces, hblanks, -, hup, hwalk⟩ := pieces_of_spot h
  refine ⟨before, name :: blanks, directory, hpieces, fun hmem => ?_, hwalk⟩
  obtain hname | hblank := List.mem_cons.mp hmem
  · exact hup hname.symm
  · exact absurd (hblanks _ hblank) (by decide)

/-- What a replacement that ended well has left, whatever there was before. -/
theorem replace_ok (hw : files.WellFormed) (h : replace path content files = (.ok (), files')) :
    files'.Steady path ∧ files'.found? path = some (.ok content) := by
  have hend := hw.runAll (replaceSteps path content)
  rw [replace] at h
  rw [h] at hend
  obtain ⟨made, hmake, h⟩ := runAll_append_ok.mp h
  have hmade := hw.runAll (makeParent path)
  rw [hmake] at hmade
  obtain ⟨_, created, hcreate, h⟩ := Action.bind_ok.mp h
  obtain ⟨_, written, hwrite, h⟩ := Action.bind_ok.mp h
  obtain ⟨_, synced, hsync, h⟩ := Action.bind_ok.mp h
  obtain ⟨_, renamed, hrename, h⟩ := Action.bind_ok.mp h
  cases h
  have hcreated := hmade.run (.create (draftPath path))
  rw [hcreate] at hcreated
  have hempty := drafts_create_run hmade.toIsTree hcreate
  have hwhole := drafts_write_run hcreated.toIsTree hempty hwrite
  cases run_ok hsync
  have hrenamed := change_ok (run_ok hrename)
  obtain ⟨_, _, _, _, _, -, hspot, -⟩ := rename_ok hrenamed
  have hspot' := (sameDirectories_rename hrenamed).1.spot hspot
  exact ⟨hend.steady (direct_of_spot hspot'), found?_rename (hwhole.withFaults _) hrenamed⟩

-- ----------------------------------------------------------------------------
-- Replacements that meet no faults
-- ----------------------------------------------------------------------------

theorem run_calm (h : files.faults = []) (step : FileStep) : step.run files = step.apply files := by
  obtain ⟨nodes, contents, home, faults⟩ := files
  cases h
  rfl

theorem faults_makeDirs (path : Path) (files : Files) :
    (makeDirs path files).2.faults = files.faults := by
  let fits (after : Files) : Prop := after.faults = files.faults
  have hmake (above : Path) (before after : Files) (hbefore : fits before)
      (hmade : before.makeDir above = .ok after) : fits after := by
    obtain ⟨directory, name, slash, -, -, -, rfl⟩ := makeDir_ok hmade
    exact hbefore
  have hkept : fits (makeDirs path files).2 :=
    makeInnermost_keeps (fun above _ => hmake above) rfl
  exact hkept

theorem stat_of_found? {bytes : Bytes} (h : files.found? path = some (.ok bytes)) :
    ∃ number, files.stat path = .ok (.file number) := by
  rw [found?] at h
  obtain ⟨node, hstat, hcontent⟩ := Option.map_eq_some_iff.mp h
  cases node with
  | directory => cases hcontent
  | file number => exact ⟨number, toOption_eq_some.mp hstat⟩

theorem rename_of_files {source target : Path} {directory directory' : Place}
    {name name' : String} {number : FileNumber}
    (hsource : files.spot source = .ok ⟨directory, some name, false⟩)
    (hlong : name.utf8ByteSize ≤ Path.longestName)
    (hnode : files.node? (directory ++ [name]) = some (.file number))
    (htarget : files.spot target = .ok ⟨directory', some name', false⟩)
    (hlong' : name'.utf8ByteSize ≤ Path.longestName)
    (hfree : files.node? (directory' ++ [name']) ≠ some .directory) :
    ∃ files', files.rename source target = .ok files' := by
  have hfound := lookUp_ok.mpr ⟨hlong, hnode⟩
  have hway : files.lookUp directory' name' = .ok (files.node? (directory' ++ [name'])) :=
    lookUp_ok.mpr ⟨hlong', rfl⟩
  simp only [rename, hsource, htarget, ok_bind, hfound, hway, Bool.false_eq_true, or_self, if_false,
    hfree]
  split
  · exact ⟨_, rfl⟩
  · exact ⟨_, rfl⟩

/-- Creating a file leaves every file where it is listed. -/
theorem stat_create {number number' : FileNumber} {other : Path}
    (hfile : files.stat path = .ok (.file number))
    (h : files.create other = .ok (number', files')) : files'.stat path = .ok (.file number) := by
  have hkeeps := (sameDirectories_create h).1
  obtain ⟨directory, name, hspot, hlong, hnode⟩ := stat_file.mp hfile
  refine stat_file.mpr ⟨directory, name, hkeeps.spot hspot, hlong, ?_⟩
  obtain ⟨directory', name', -, -, ⟨-, rfl⟩ | ⟨hfree, hadd⟩⟩ := create_ok h
  · exact hnode
  · cases hadd
    have hput := node?_putName files directory' (directory ++ [name]) name'
      (.file files.contents.length)
    rw [if_neg] at hput
    · exact hput.trans hnode
    · intro hsame
      rw [hsame, hfree] at hnode
      cases hnode

/-- A finished draft takes the place of a document that is there. -/
theorem replaced_rename_calm (hs : files.Steady path) (hcalm : files.faults = [])
    {number : FileNumber} (hfile : files.stat path = .ok (.file number))
    (hd : files.Drafts path content) : ∃ files', files'.Steady path ∧
      files'.found? path = some (.ok content) ∧
        FileStep.runAll [.rename (draftPath path) path] files = (.ok (), files') := by
  obtain ⟨draft, hdraft, -⟩ := id hd
  obtain ⟨directory, name, hspot, hlong, hnode⟩ := stat_file.mp hdraft
  obtain ⟨directory', name', hspot', hlong', hnode'⟩ := stat_file.mp hfile
  have hfree : files.node? (directory' ++ [name']) ≠ some .directory := by
    rw [hnode']
    nofun
  obtain ⟨files', hrename⟩ := rename_of_files hspot hlong hnode hspot' hlong' hfree
  have hrun : FileStep.runAll [.rename (draftPath path) path] files = (.ok (), files') := by
    rw [FileStep.runAll, Action.bind_apply, run_calm hcalm, FileStep.apply, change, hrename]
    rfl
  have hreplaced := replaced_rename hs hd
  rw [hrun] at hreplaced
  cases hreplaced with
  | done hsteady hfound => exact ⟨files', hsteady, hfound, hrun⟩

theorem faults_create {number : FileNumber} {other : Path}
    (h : files.create other = .ok (number, files')) : files'.faults = files.faults := by
  obtain ⟨directory, name, -, -, ⟨-, rfl⟩ | ⟨-, hadd⟩⟩ := create_ok h
  · rfl
  · cases hadd
    rfl

/-- Once the draft is there, nothing is in the way of the rest. -/
theorem replaced_write_calm (hs : files.Steady path) (hcalm : files.faults = []) (content : Bytes)
    {number : FileNumber} (hfile : files.stat path = .ok (.file number))
    (hd : files.Drafts path []) : ∃ files', files'.Steady path ∧
      files'.found? path = some (.ok content) ∧
        FileStep.runAll [.write (draftPath path) content, .sync (draftPath path),
          .rename (draftPath path) path] files = (.ok (), files') := by
  obtain ⟨draft, hdraft, -⟩ := id hd
  let written := files.setContent draft (files.content draft ++ content)
  have happend : files.append (draftPath path) content = .ok written := by
    rw [append, hdraft]
    rfl
  have hwritten : written.Steady path :=
    ⟨hs.tree.setContent _ _, hs.direct, hs.apart⟩
  have hwrite : (FileStep.write (draftPath path) content).run files = (.ok (), written) := by
    rw [run_calm hcalm, FileStep.apply, change, happend]
  have hquiet : written.faults = [] := hcalm
  have hsync : (FileStep.sync (draftPath path)).run written = (.ok (), written) :=
    run_calm hquiet _
  obtain ⟨files', hsteady, hfound, hrename⟩ :=
    replaced_rename_calm hwritten hcalm hfile (drafts_append hs.tree hd happend)
  exact ⟨files', hsteady, hfound, Action.bind_ok.mpr ⟨_, written, hwrite,
    Action.bind_ok.mpr ⟨_, written, hsync, hrename⟩⟩⟩

theorem replaced_create_calm (hs : files.Steady path) (hcalm : files.faults = []) {old : Bytes}
    (hfound : files.found? path = some (.ok old)) :
    Replaced path content files (FileStep.runAll [.create (draftPath path),
      .write (draftPath path) content, .sync (draftPath path), .rename (draftPath path) path]
        files) := by
  obtain ⟨number, hfile⟩ := stat_of_found? hfound
  rw [FileStep.runAll, Action.bind_apply, run_calm hcalm, FileStep.apply, change]
  cases hcreate : files.create (draftPath path) with
  | error e => exact .failed (.refl hs)
  | ok made =>
    obtain ⟨draft, created⟩ := made
    have hcreated : created.Steady path :=
      hs.of_keeps (hs.tree.create hcreate) (sameDirectories_create hcreate).1
        fun hext => (spares_create hs hext hcreate).steady.apart hext
    obtain ⟨files', hsteady, hfound', hrest⟩ := replaced_write_calm hcreated
      ((faults_create hcreate).trans hcalm) content (stat_create hfile hcreate)
      (drafts_create hs.tree hcreate)
    simp only [Except.map, hrest]
    exact .done hsteady hfound'

/-- Without faults only the first calls can fail, and those leave the document alone. -/
theorem replace_calm (hs : files.Steady path) (hcalm : files.faults = []) {old : Bytes}
    (hfound : files.found? path = some (.ok old)) (content : Bytes) :
    Replaced path content files (replace path content files) := by
  rw [replace, replaceSteps, makeParent]
  cases hparent : path.parent? with
  | none => exact replaced_create_calm hs hcalm hfound
  | some parent =>
    have hspared := spares_makeDirs hs hparent
    have hrun : (FileStep.makeDirs parent).run files = makeDirs parent files := run_calm hcalm _
    refine .cons (hrun ▸ hspared) fun made hmake hmade => ?_
    rw [hrun] at hmake
    have hfaults := faults_makeDirs parent files
    rw [hmake] at hspared hfaults
    exact replaced_create_calm hmade (hfaults.trans hcalm) (hspared.found.trans hfound)

/-- A document is only in danger where it is its own draft and a call fails by itself. -/
theorem replace_safe (hs : files.Steady path) {old : Bytes}
    (hfound : files.found? path = some (.ok old))
    (hcalm : path.extension? = some "tmp" → files.faults = []) (content : Bytes) :
    Replaced path content files (replace path content files) := by
  by_cases hext : path.extension? = some "tmp"
  · exact replace_calm hs (hcalm hext) hfound content
  · exact replace_end hs hext content

end SealedStream.Files
