import SealedStream.Proofs.Files.Trees

/-!
# What changes make of a tree

A tree stays one under every call, whether it succeeds, fails or stops half way,
and no call gives a file a second name. Only making directories adds to the
directories, and no call that writes, moves or removes a file takes one away.
-/

namespace SealedStream.Files

variable {files files' : Files} {path source target : Path} {place other directory : Place}
  {name : String} {node : Node} {number : FileNumber} {bytes : Bytes}

theorem node?_putName (files : Files) (directory other : Place) (name : String) (node : Node) :
    (files.put (directory ++ [name]) node).node? other =
      if other = directory ++ [name] then some node else files.node? other :=
  node?_put _ _ _ _ (by simp)

theorem node?_eraseName (files : Files) (directory other : Place) (name : String) :
    (files.erase (directory ++ [name])).node? other =
      if other = directory ++ [name] then none else files.node? other :=
  node?_erase _ _ _ (by simp)

-- ----------------------------------------------------------------------------
-- Trees stay trees
-- ----------------------------------------------------------------------------

theorem IsTree.setContent (ht : files.IsTree) (number : FileNumber) (bytes : Bytes) :
    (files.setContent number bytes).IsTree where
  rooted := ht.rooted
  numbered place other h := by
    rw [Files.setContent, List.length_set]
    exact ht.numbered place other h
  home := ht.home

/-- A file is listed where nothing or another file was, or a directory where nothing was. -/
theorem IsTree.put (ht : files.IsTree) (hdirectory : files.node? directory = some .directory)
    (hfree : files.node? (directory ++ [name]) ≠ some .directory)
    (hnode : ∀ number, node = .file number → number < files.contents.length) :
    (files.put (directory ++ [name]) node).IsTree where
  rooted place name' node' h := by
    rw [node?_putName] at h ⊢
    split at h
    · next heq =>
      obtain rfl : place = directory := (List.append_inj' heq rfl).1
      rwa [if_neg (by simp)]
    · have hplace := ht.rooted _ _ _ h
      rw [if_neg]
      · exact hplace
      · rintro rfl
        exact hfree hplace
  numbered place number h := by
    rw [node?_putName] at h
    split at h
    · exact hnode number (Option.some.inj h)
    · exact ht.numbered _ _ h
  home := by
    rw [node?_putName, if_neg]
    · exact ht.home
    · intro heq
      exact hfree (heq ▸ ht.home)

theorem IsTree.erase (ht : files.IsTree)
    (hfile : files.node? (directory ++ [name]) ≠ some .directory) :
    (files.erase (directory ++ [name])).IsTree where
  rooted place name' node' h := by
    rw [node?_eraseName] at h ⊢
    split at h
    · cases h
    · have hplace := ht.rooted _ _ _ h
      rw [if_neg]
      · exact hplace
      · rintro rfl
        exact hfile hplace
  numbered place number h := by
    rw [node?_eraseName] at h
    split at h
    · cases h
    · exact ht.numbered _ _ h
  home := by
    rw [node?_eraseName, if_neg]
    · exact ht.home
    · intro heq
      exact hfile (heq ▸ ht.home)

/-- A number more is given out. -/
theorem IsTree.longer (ht : files.IsTree) :
    ({ files with contents := files.contents ++ [[]] } : Files).IsTree where
  rooted := ht.rooted
  numbered place number h := by
    show number < (files.contents ++ [[]]).length
    rw [List.length_append]
    exact Nat.lt_add_right 1 (ht.numbered place number h)
  home := ht.home

theorem IsTree.addFile (ht : files.IsTree) (hdirectory : files.node? directory = some .directory)
    (hfree : files.node? (directory ++ [name]) = none) :
    (files.addFile (directory ++ [name])).2.IsTree := by
  refine ht.longer.put hdirectory (hfree ▸ nofun) fun number hnumber => ?_
  cases hnumber
  simp

theorem IsTree.withFaults (ht : files.IsTree) (faults : List (Option Fault)) :
    ({ files with faults } : Files).IsTree := ⟨ht.rooted, ht.numbered, ht.home⟩

-- ----------------------------------------------------------------------------
-- No file gets a second name
-- ----------------------------------------------------------------------------

theorem WellFormed.setContent (hw : files.WellFormed) (number : FileNumber) (bytes : Bytes) :
    (files.setContent number bytes).WellFormed :=
  ⟨hw.toIsTree.setContent number bytes, hw.once⟩

/-- A file that is listed is listed nowhere else. -/
theorem WellFormed.put (hw : files.WellFormed)
    (hdirectory : files.node? directory = some .directory)
    (hfree : files.node? (directory ++ [name]) ≠ some .directory)
    (hnode : ∀ number, node = .file number → number < files.contents.length ∧
      ∀ other, files.node? other = some (.file number) → other = directory ++ [name]) :
    (files.put (directory ++ [name]) node).WellFormed where
  toIsTree := hw.toIsTree.put hdirectory hfree fun number h => (hnode number h).1
  once place other number h h' := by
    rw [node?_putName] at h h'
    split at h <;> split at h'
    · next heq heq' => exact heq.trans heq'.symm
    · next heq _ => exact heq.trans ((hnode number (Option.some.inj h)).2 _ h').symm
    · next _ heq' => exact ((hnode number (Option.some.inj h')).2 _ h).trans heq'.symm
    · exact hw.once _ _ _ h h'

theorem WellFormed.erase (hw : files.WellFormed)
    (hfile : files.node? (directory ++ [name]) ≠ some .directory) :
    (files.erase (directory ++ [name])).WellFormed where
  toIsTree := hw.toIsTree.erase hfile
  once place other number h h' := by
    rw [node?_eraseName] at h h'
    split at h <;> split at h'
    · cases h
    · cases h
    · cases h'
    · exact hw.once _ _ _ h h'

theorem WellFormed.addFile (hw : files.WellFormed)
    (hdirectory : files.node? directory = some .directory)
    (hfree : files.node? (directory ++ [name]) = none) :
    (files.addFile (directory ++ [name])).2.WellFormed := by
  have hlonger : ({ files with contents := files.contents ++ [[]] } : Files).WellFormed :=
    ⟨hw.toIsTree.longer, hw.once⟩
  refine hlonger.put hdirectory (hfree ▸ nofun) fun number hnumber => ?_
  cases hnumber
  refine ⟨by simp, fun other hother => ?_⟩
  exact absurd (hw.numbered other _ hother) (Nat.lt_irrefl _)

theorem WellFormed.withFaults (hw : files.WellFormed) (faults : List (Option Fault)) :
    ({ files with faults } : Files).WellFormed := ⟨hw.toIsTree.withFaults faults, hw.once⟩

-- ----------------------------------------------------------------------------
-- What a call has done
-- ----------------------------------------------------------------------------

theorem lookUp_ok {found : Option Node} : files.lookUp directory name = .ok found ↔
    name.utf8ByteSize ≤ Path.longestName ∧ files.node? (directory ++ [name]) = found := by
  rw [lookUp]
  by_cases hlong : Path.longestName < name.utf8ByteSize
  · rw [if_pos hlong]
    exact ⟨by rintro ⟨⟩, fun h => absurd hlong (Nat.not_lt.mpr h.1)⟩
  · rw [if_neg hlong]
    simp [Nat.not_lt.mp hlong]

theorem makeDir_ok (h : files.makeDir path = .ok files') : ∃ directory name slash,
    files.spot path = .ok ⟨directory, some name, slash⟩ ∧
      name.utf8ByteSize ≤ Path.longestName ∧ files.node? (directory ++ [name]) = none ∧
        files' = files.put (directory ++ [name]) .directory := by
  rw [makeDir] at h
  obtain ⟨⟨directory, _ | name, slash⟩, hspot, h⟩ := bind_eq_ok.mp h
  · cases h
  · obtain ⟨found, hfound, h⟩ := bind_eq_ok.mp h
    obtain ⟨hlong, hnode⟩ := lookUp_ok.mp hfound
    cases found with
    | none =>
      cases h
      exact ⟨directory, name, slash, hspot, hlong, hnode, rfl⟩
    | some node => cases h

/-- The file was there and is emptied, or it was made. -/
theorem create_ok (h : files.create path = .ok (number, files')) : ∃ directory name,
    files.spot path = .ok ⟨directory, some name, false⟩ ∧
      name.utf8ByteSize ≤ Path.longestName ∧
        (files.node? (directory ++ [name]) = some (.file number) ∧
            files' = files.setContent number [] ∨
          files.node? (directory ++ [name]) = none ∧
            (number, files') = files.addFile (directory ++ [name])) := by
  rw [create] at h
  obtain ⟨⟨directory, _ | name, slash⟩, hspot, h⟩ := bind_eq_ok.mp h
  · cases h
  · cases slash with
    | true => cases h
    | false =>
      obtain ⟨found, hfound, h⟩ := bind_eq_ok.mp h
      obtain ⟨hlong, hnode⟩ := lookUp_ok.mp hfound
      refine ⟨directory, name, hspot, hlong, ?_⟩
      rcases found with _ | _ | other
      · exact .inr ⟨hnode, (Except.ok.inj h).symm⟩
      · cases h
      · cases h
        exact .inl ⟨hnode, rfl⟩

theorem append_ok (h : files.append path bytes = .ok files') : ∃ number,
    files.stat path = .ok (.file number) ∧
      files' = files.setContent number (files.content number ++ bytes) := by
  rw [append] at h
  obtain ⟨_ | number, hstat, h⟩ := bind_eq_ok.mp h
  · cases h
  · cases h
    exact ⟨number, hstat, rfl⟩

/-- The file has the other name now, or it had it before. -/
theorem rename_ok (h : files.rename source target = .ok files') :
    ∃ directory name directory' name' number,
      files.spot source = .ok ⟨directory, some name, false⟩ ∧
      files.spot target = .ok ⟨directory', some name', false⟩ ∧
      name'.utf8ByteSize ≤ Path.longestName ∧
      files.node? (directory ++ [name]) = some (.file number) ∧
      files.node? (directory' ++ [name']) ≠ some .directory ∧
        (files.node? (directory' ++ [name']) = some (.file number) ∧ files' = files ∨
          files' = (files.erase (directory ++ [name])).put (directory' ++ [name'])
            (.file number)) := by
  rw [rename] at h
  obtain ⟨⟨directory, oldName, slash⟩, hold, h⟩ := bind_eq_ok.mp h
  obtain ⟨⟨directory', newName, slash'⟩, hnew, h⟩ := bind_eq_ok.mp h
  rcases oldName with _ | name
  · cases h
  rcases newName with _ | name'
  · cases h
  obtain ⟨found, hfound, h⟩ := bind_eq_ok.mp h
  obtain ⟨-, hnode⟩ := lookUp_ok.mp hfound
  rcases found with _ | _ | number
  · cases h
  · cases h
  obtain ⟨inTheWay, hway, h⟩ := bind_eq_ok.mp h
  obtain ⟨hlong, hnode'⟩ := lookUp_ok.mp hway
  cases slash with
  | true => cases h
  | false =>
    cases slash' with
    | true => cases h
    | false =>
      refine ⟨directory, name, directory', name', number, hold, hnew, hlong, hnode, ?_⟩
      rw [hnode']
      by_cases hdirectory : inTheWay = some .directory
      · rw [hdirectory] at h
        cases h
      · refine ⟨hdirectory, ?_⟩
        by_cases hsame : inTheWay = some (.file number)
        · simp only [Bool.false_eq_true, or_self, if_false, if_neg hdirectory, if_pos hsame] at h
          exact .inl ⟨hsame, (Except.ok.inj h).symm⟩
        · simp only [Bool.false_eq_true, or_self, if_false, if_neg hdirectory, if_neg hsame] at h
          exact .inr (Except.ok.inj h).symm

theorem remove_ok (h : files.remove path = .ok files') : ∃ directory name,
    files.spot path = .ok ⟨directory, some name, false⟩ ∧
      files.node? (directory ++ [name]) ≠ some .directory ∧
        files' = files.erase (directory ++ [name]) := by
  rw [remove] at h
  obtain ⟨⟨directory, _ | name, slash⟩, hspot, h⟩ := bind_eq_ok.mp h
  · cases h
  · obtain ⟨found, hfound, h⟩ := bind_eq_ok.mp h
    obtain ⟨-, hnode⟩ := lookUp_ok.mp hfound
    rcases found with _ | _ | number
    · cases h
    · cases h
    · cases slash with
      | true => cases h
      | false =>
        cases h
        exact ⟨directory, name, hspot, hnode ▸ nofun, rfl⟩

-- ----------------------------------------------------------------------------
-- Every call leaves a tree
-- ----------------------------------------------------------------------------

theorem IsTree.makeDir (ht : files.IsTree) (h : files.makeDir path = .ok files') :
    files'.IsTree := by
  obtain ⟨directory, name, slash, hspot, -, hfree, rfl⟩ := makeDir_ok h
  exact ht.put (ht.spot hspot) (hfree ▸ nofun) nofun

theorem IsTree.create (ht : files.IsTree) (h : files.create path = .ok (number, files')) :
    files'.IsTree := by
  obtain ⟨directory, name, hspot, -, ⟨-, rfl⟩ | ⟨hfree, hadd⟩⟩ := create_ok h
  · exact ht.setContent number []
  · have := ht.addFile (ht.spot hspot) hfree
    rwa [← hadd] at this

/-- What is left of a file that is moved can be listed in its new place. -/
theorem erase_free {directory' : Place} {name' : String}
    (hfile : files.node? (directory ++ [name]) ≠ some .directory)
    (hdirectory : files.node? directory' = some .directory)
    (hfree : files.node? (directory' ++ [name']) ≠ some .directory) :
    let erased := files.erase (directory ++ [name])
    erased.node? directory' = some .directory ∧
      erased.node? (directory' ++ [name']) ≠ some .directory := by
  intro erased
  constructor
  · rw [node?_eraseName, if_neg]
    · exact hdirectory
    · rintro rfl
      exact hfile hdirectory
  · rw [node?_eraseName]
    split
    · nofun
    · exact hfree

theorem IsTree.rename (ht : files.IsTree) (h : files.rename source target = .ok files') :
    files'.IsTree := by
  obtain ⟨directory, name, directory', name', number, -, hspot', -, hnode, hfree, ⟨-, rfl⟩ | rfl⟩ :=
    rename_ok h
  · exact ht
  · have hfile : files.node? (directory ++ [name]) ≠ some .directory := hnode ▸ nofun
    obtain ⟨hdirectory, hfree⟩ := erase_free hfile (ht.spot hspot') hfree
    refine (ht.erase hfile).put hdirectory hfree fun other hother => ?_
    cases hother
    exact ht.numbered _ _ hnode

theorem WellFormed.makeDir (hw : files.WellFormed) (h : files.makeDir path = .ok files') :
    files'.WellFormed := by
  obtain ⟨directory, name, slash, hspot, -, hfree, rfl⟩ := makeDir_ok h
  exact hw.put (hw.spot hspot) (hfree ▸ nofun) nofun

theorem WellFormed.create (hw : files.WellFormed) (h : files.create path = .ok (number, files')) :
    files'.WellFormed := by
  obtain ⟨directory, name, hspot, -, ⟨-, rfl⟩ | ⟨hfree, hadd⟩⟩ := create_ok h
  · exact hw.setContent number []
  · have := hw.addFile (hw.spot hspot) hfree
    rwa [← hadd] at this

theorem WellFormed.append (hw : files.WellFormed) (h : files.append path bytes = .ok files') :
    files'.WellFormed := by
  obtain ⟨number, -, rfl⟩ := append_ok h
  exact hw.setContent number _

theorem WellFormed.rename (hw : files.WellFormed) (h : files.rename source target = .ok files') :
    files'.WellFormed := by
  obtain ⟨directory, name, directory', name', number, -, hspot', -, hnode, hfree, ⟨-, rfl⟩ | rfl⟩ :=
    rename_ok h
  · exact hw
  · have hfile : files.node? (directory ++ [name]) ≠ some .directory := hnode ▸ nofun
    obtain ⟨hdirectory, hfree⟩ := erase_free hfile (hw.spot hspot') hfree
    refine (hw.erase hfile).put hdirectory hfree fun other hother => ?_
    cases hother
    refine ⟨hw.numbered _ _ hnode, fun place hplace => ?_⟩
    rw [node?_eraseName] at hplace
    split at hplace
    · cases hplace
    · next hne => exact absurd (hw.once _ _ _ hplace hnode) hne

theorem WellFormed.remove (hw : files.WellFormed) (h : files.remove path = .ok files') :
    files'.WellFormed := by
  obtain ⟨directory, name, -, hfile, rfl⟩ := remove_ok h
  exact hw.erase hfile

theorem ensureDir_end (path : Path) (files : Files) :
    (ensureDir path files).2 = files ∨ files.makeDir path = .ok (ensureDir path files).2 := by
  rw [ensureDir]
  split
  · next changed h => exact .inr h
  · exact .inl rfl

/-- The first directory is made at once, or when those that follow have been tried. -/
theorem makeInnermost_cons (path : Path) (parents : List Path) (files : Files) :
    makeInnermost (path :: parents) files = ensureDir path files ∨
      makeInnermost (path :: parents) files =
        (makeInnermost parents >>= fun _ => ensureDir path) files := by
  rw [makeInnermost, Action.bind_apply, Action.get_apply]
  simp only
  rcases files.makeDir path with (kind | ⟨kind, text⟩) | made
  -- only where the parent is missing it goes on to the parents
  · by_cases hkind : kind = .notFound
    · subst hkind
      exact .inr rfl
    · left
      cases kind <;> first | exact absurd rfl hkind | rfl
  · exact .inl rfl
  · exact .inl rfl

/-- What every attempt to make one of the directories keeps is kept. -/
theorem makeInnermost_keeps {fits : Files → Prop} {paths : List Path}
    (h : ∀ path ∈ paths, ∀ files files', fits files → files.makeDir path = .ok files' → fits files')
    (hfiles : fits files) : fits (makeInnermost paths files).2 := by
  have hensure (path : Path) (hpath : path ∈ paths) (files : Files) (hfiles : fits files) :
      fits (ensureDir path files).2 := by
    obtain hsame | hmade := ensureDir_end path files
    · rwa [hsame]
    · exact h path hpath files _ hfiles hmade
  induction paths generalizing files with
  | nil => exact hfiles
  | cons path parents ih =>
    have hparents := ih (fun p hp => h p (List.mem_cons_of_mem _ hp)) hfiles
      fun p hp => hensure p (List.mem_cons_of_mem _ hp)
    obtain hfirst | hfirst := makeInnermost_cons path parents files
    · rw [hfirst]
      exact hensure path List.mem_cons_self files hfiles
    · rw [hfirst, Action.bind_apply]
      rcases hmade : makeInnermost parents files with ⟨_ | _, made⟩
      · rwa [hmade] at hparents
      · rw [hmade] at hparents
        exact hensure path List.mem_cons_self made hparents

theorem WellFormed.makeDirs (hw : files.WellFormed) (path : Path) :
    (Files.makeDirs path files).2.WellFormed :=
  makeInnermost_keeps (fun _ _ _ _ hw h => hw.makeDir h) hw

/-- What holds whatever a change comes to holds after it. -/
theorem change_keeps {fits : Files → Prop} {f : Files → Except IoError Files} (hfiles : fits files)
    (h : ∀ files', f files = .ok files' → fits files') : fits (change f files).2 := by
  rw [change]
  split
  · next changed hf => exact h changed hf
  · exact hfiles

theorem WellFormed.apply (hw : files.WellFormed) (step : FileStep) :
    (step.apply files).2.WellFormed := by
  cases step with
  | makeDirs path => exact hw.makeDirs path
  | create path =>
    refine change_keeps hw fun files' h => ?_
    obtain ⟨⟨number, _⟩, hcreate, rfl⟩ := map_eq_ok.mp h
    exact hw.create hcreate
  | write path bytes => exact change_keeps hw fun files' h => hw.append h
  | overwrite number bytes => exact hw.setContent _ _
  | sync path => exact hw
  | rename source target => exact change_keeps hw fun files' h => hw.rename h
  | remove path => exact change_keeps hw fun files' h => hw.remove h

theorem WellFormed.leftover (hw : files.WellFormed) (kept : Nat) (step : FileStep) :
    (step.leftover kept files).WellFormed := by
  cases step with
  | write path bytes =>
    rw [FileStep.leftover]
    cases happend : Files.append path (bytes.take kept) files with
    | error e => exact hw
    | ok files' => exact hw.append happend
  | overwrite number bytes => exact hw.setContent _ _
  | _ => exact hw

theorem run_eq (step : FileStep) (files : Files) : step.run files =
    match files.faults.head? with
    | some (some fault) =>
      (.error fault.error, step.leftover fault.written { files with faults := files.faults.tail })
    | _ => step.apply { files with faults := files.faults.tail } := rfl

theorem WellFormed.run (hw : files.WellFormed) (step : FileStep) :
    (step.run files).2.WellFormed := by
  rw [run_eq]
  split
  · exact (hw.withFaults _).leftover _ _
  · exact (hw.withFaults _).apply _

/-- Whatever calls a program makes, and whichever of them fail, it is a tree that they leave. -/
theorem WellFormed.runAll (hw : files.WellFormed) (steps : List FileStep) :
    (FileStep.runAll steps files).2.WellFormed := by
  induction steps generalizing files with
  | nil => exact hw
  | cons step steps ih =>
    have hrun := hw.run step
    rw [FileStep.runAll, Action.bind_apply]
    rcases hstep : step.run files with ⟨_ | _, files'⟩
    · rwa [hstep] at hrun
    · rw [hstep] at hrun
      exact ih hrun

-- ----------------------------------------------------------------------------
-- Directories
-- ----------------------------------------------------------------------------

/-- The directories are the same. -/
def SameDirectories (files files' : Files) : Prop :=
  files.KeepsDirectories files' ∧ files'.KeepsDirectories files

theorem KeepsDirectories.refl (files : Files) : files.KeepsDirectories files := ⟨rfl, fun _ => id⟩

theorem SameDirectories.refl (files : Files) : files.SameDirectories files :=
  ⟨.refl files, .refl files⟩

theorem KeepsDirectories.trans {files'' : Files} (h : files.KeepsDirectories files')
    (h' : files'.KeepsDirectories files'') : files.KeepsDirectories files'' :=
  ⟨h'.home.trans h.home, fun place => h'.kept place ∘ h.kept place⟩

theorem SameDirectories.trans {files'' : Files} (h : files.SameDirectories files')
    (h' : files'.SameDirectories files'') : files.SameDirectories files'' :=
  ⟨h.1.trans h'.1, h'.2.trans h.2⟩

theorem sameDirectories_setContent (files : Files) (number : FileNumber) (bytes : Bytes) :
    files.SameDirectories (files.setContent number bytes) :=
  ⟨⟨rfl, fun _ => id⟩, ⟨rfl, fun _ => id⟩⟩

theorem keepsDirectories_makeDir (h : files.makeDir path = .ok files') :
    files.KeepsDirectories files' := by
  obtain ⟨directory, name, slash, -, -, hfree, rfl⟩ := makeDir_ok h
  refine ⟨rfl, fun place hplace => ?_⟩
  rw [node?_putName]
  split
  · rfl
  · exact hplace

theorem sameDirectories_put (hfree : files.node? (directory ++ [name]) ≠ some .directory)
    (number : FileNumber) :
    files.SameDirectories (files.put (directory ++ [name]) (.file number)) := by
  refine ⟨⟨rfl, fun place hplace => ?_⟩, ⟨rfl, fun place hplace => ?_⟩⟩
  · rw [node?_putName, if_neg]
    · exact hplace
    · rintro rfl
      exact hfree hplace
  · rw [node?_putName] at hplace
    split at hplace
    · cases hplace
    · exact hplace

theorem sameDirectories_create (h : files.create path = .ok (number, files')) :
    files.SameDirectories files' := by
  obtain ⟨directory, name, -, -, ⟨-, rfl⟩ | ⟨hfree, hadd⟩⟩ := create_ok h
  · exact sameDirectories_setContent files number []
  · cases hadd
    have hfile : files.node? (directory ++ [name]) ≠ some .directory := hfree ▸ nofun
    obtain ⟨hput, hput'⟩ := sameDirectories_put hfile files.contents.length
    exact ⟨⟨rfl, hput.kept⟩, ⟨rfl, hput'.kept⟩⟩

theorem sameDirectories_erase (hfile : files.node? (directory ++ [name]) ≠ some .directory) :
    files.SameDirectories (files.erase (directory ++ [name])) := by
  refine ⟨⟨rfl, fun place hplace => ?_⟩, ⟨rfl, fun place hplace => ?_⟩⟩
  · rw [node?_eraseName, if_neg]
    · exact hplace
    · rintro rfl
      exact hfile hplace
  · rw [node?_eraseName] at hplace
    split at hplace
    · cases hplace
    · exact hplace

theorem sameDirectories_rename (h : files.rename source target = .ok files') :
    files.SameDirectories files' := by
  obtain ⟨directory, name, directory', name', number, -, -, -, hnode, hfree, ⟨-, rfl⟩ | rfl⟩ :=
    rename_ok h
  · exact .refl _
  · have hfile : files.node? (directory ++ [name]) ≠ some .directory := hnode ▸ nofun
    have herase := sameDirectories_erase hfile
    refine herase.trans (sameDirectories_put (fun hplace => hfree ?_) number)
    exact herase.2.kept _ hplace

end SealedStream.Files
