import SealedStream.Proofs.Files.Directories

/-!
# Where calls leave their traces

Which places a call can touch is told by its paths and its file number before it is
made. Outside of these places everything stands as it stood, whether the call succeeds
or not, and so it does after any number of calls.
-/

namespace SealedStream

namespace Files

variable {files files' files'' : Files} {path : Path} {place other directory : Place}
  {name : String} {number : FileNumber} {inside : Place → Prop}

-- ----------------------------------------------------------------------------
-- Changes that keep to some places
-- ----------------------------------------------------------------------------

/-- The directories are the same, and outside of some places so is everything else. -/
structure Confined (inside : Place → Prop) (files files' : Files) : Prop where
  same : files.SameDirectories files'
  nodes : ∀ place, ¬ inside place → files'.node? place = files.node? place
  contents : ∀ place number, ¬ inside place → files.node? place = some (.file number) →
    files'.content number = files.content number
  /-- The faults that are still to come are the last of those that were waiting. -/
  faults : files'.faults <:+ files.faults

namespace Confined

theorem refl (inside : Place → Prop) (files : Files) : Confined inside files files :=
  ⟨.refl files, fun _ _ => rfl, fun _ _ _ _ => rfl, List.suffix_rfl⟩

theorem trans (h : Confined inside files files') (h' : Confined inside files' files'') :
    Confined inside files files'' where
  same := h.same.trans h'.same
  nodes place hplace := (h'.nodes place hplace).trans (h.nodes place hplace)
  contents place number hplace hnode := by
    have hnode' := (h.nodes place hplace).trans hnode
    rw [h'.contents place number hplace hnode', h.contents place number hplace hnode]
  faults := h'.faults.trans h.faults

theorem mono {larger : Place → Prop} (h : Confined inside files files')
    (himp : ∀ place, inside place → larger place) : Confined larger files files' where
  same := h.same
  nodes place hplace := h.nodes place (mt (himp place) hplace)
  contents place number hplace := h.contents place number (mt (himp place) hplace)
  faults := h.faults

theorem standing (h : Confined inside files files') (hplace : ¬ inside place) :
    files'.standing place = files.standing place := by
  rw [Files.standing, Files.standing, h.nodes place hplace]
  cases hnode : files.node? place with
  | none => rfl
  | some node =>
    cases node with
    | directory => rfl
    | file number => simp [h.contents place number hplace hnode]

/-- A path finds what it found, unless it leads to one of the places. -/
theorem found? (h : Confined inside files files')
    (hpath : ∀ place, files.Leads path place → ¬ inside place) :
    files'.found? path = files.found? path := by
  have hstat := stat_congr h.same.1 h.same.2 fun directory name slash hspot =>
    h.nodes _ (hpath _ ⟨directory, name, slash, hspot, rfl⟩)
  refine found?_congr hstat fun number hnumber => ?_
  obtain ⟨directory, name, hspot, -, hnode⟩ := stat_file.mp hnumber
  exact h.contents _ number (hpath _ ⟨directory, name, false, hspot, rfl⟩) hnode

/-- Faults that have been met or are still to come make no difference to what stands. -/
theorem tail (inside : Place → Prop) (files : Files) :
    Confined inside files { files with faults := files.faults.tail } where
  same := ⟨⟨rfl, fun _ => id⟩, ⟨rfl, fun _ => id⟩⟩
  nodes _ _ := rfl
  contents _ _ _ _ := rfl
  faults := List.tail_suffix _

theorem setContent (hnumber : ∀ place, files.node? place = some (.file number) → inside place)
    (bytes : Bytes) : Confined inside files (files.setContent number bytes) where
  same := sameDirectories_setContent files number bytes
  nodes _ _ := rfl
  contents place other hplace hnode := by
    have hne : number ≠ other := by
      rintro rfl
      exact hplace (hnumber place hnode)
    simp [content, Files.setContent, List.getElem?_set_ne hne]
  faults := List.suffix_rfl

theorem put (hfree : files.node? (directory ++ [name]) ≠ some .directory)
    (hplace : inside (directory ++ [name])) (number : FileNumber) :
    Confined inside files (files.put (directory ++ [name]) (.file number)) where
  same := sameDirectories_put hfree number
  nodes place houtside := by
    rw [node?_putName, if_neg]
    rintro rfl
    exact houtside hplace
  contents _ _ _ _ := rfl
  faults := List.suffix_rfl

theorem erase (hfile : files.node? (directory ++ [name]) ≠ some .directory)
    (hplace : inside (directory ++ [name])) :
    Confined inside files (files.erase (directory ++ [name])) where
  same := sameDirectories_erase hfile
  nodes place houtside := by
    rw [node?_eraseName, if_neg]
    rintro rfl
    exact houtside hplace
  contents _ _ _ _ := rfl
  faults := List.suffix_rfl

theorem create (hw : files.WellFormed) (hpath : ∀ place, files.Leads path place → inside place)
    (h : files.create path = .ok (number, files')) : Confined inside files files' := by
  obtain ⟨directory, name, hspot, -, ⟨hnode, rfl⟩ | ⟨hfree, hadd⟩⟩ := create_ok h
  · have hplace := hpath _ ⟨directory, name, false, hspot, rfl⟩
    exact .setContent (fun place hother => hw.once _ _ _ hnode hother ▸ hplace) []
  · have hplace := hpath _ ⟨directory, name, false, hspot, rfl⟩
    have hfile : files.node? (directory ++ [name]) ≠ some .directory := hfree ▸ nofun
    have hput := Confined.put hfile hplace files.contents.length
    cases hadd
    refine ⟨⟨⟨rfl, hput.same.1.kept⟩, ⟨rfl, hput.same.2.kept⟩⟩, hput.nodes, ?_, hput.faults⟩
    intro other number _ hnode
    have hnumber := hw.numbered other number hnode
    simp [content, List.getElem?_append_left hnumber]

theorem append (hw : files.WellFormed) {bytes : Bytes}
    (hpath : ∀ place, files.Leads path place → inside place)
    (h : files.append path bytes = .ok files') : Confined inside files files' := by
  obtain ⟨number, hstat, rfl⟩ := append_ok h
  rw [stat_eq] at hstat
  obtain ⟨⟨directory, _ | name, slash⟩, hspot, hstat⟩ := bind_eq_ok.mp hstat
  · cases hstat
  · obtain ⟨-, hnode, -⟩ := statAt_ok.mp hstat
    have hplace := hpath _ ⟨directory, name, slash, hspot, rfl⟩
    exact .setContent (fun place hother => hw.once _ _ _ hnode hother ▸ hplace) _

theorem rename {source target : Path}
    (hpath : ∀ place, files.Leads source place ∨ files.Leads target place → inside place)
    (h : files.rename source target = .ok files') : Confined inside files files' := by
  obtain ⟨directory, name, directory', name', number, hspot, hspot', -, hnode, hfree,
    ⟨-, rfl⟩ | rfl⟩ := rename_ok h
  · exact .refl _ _
  · have hfile : files.node? (directory ++ [name]) ≠ some .directory := hnode ▸ nofun
    have herased := Confined.erase hfile (hpath _ (.inl ⟨directory, name, false, hspot, rfl⟩))
    have hplace := hpath _ (.inr ⟨directory', name', false, hspot', rfl⟩)
    exact herased.trans (.put (fun hplace => hfree (herased.same.2.kept _ hplace)) hplace number)

theorem remove (hpath : ∀ place, files.Leads path place → inside place)
    (h : files.remove path = .ok files') : Confined inside files files' := by
  obtain ⟨directory, name, hspot, hfile, rfl⟩ := remove_ok h
  exact .erase hfile (hpath _ ⟨directory, name, false, hspot, rfl⟩)

end Confined

end Files

-- ----------------------------------------------------------------------------
-- Calls
-- ----------------------------------------------------------------------------

open Files in
/-- All places that a call can touch are among these. -/
def FileStep.Within (inside : Place → Prop) (files : Files) : FileStep → Prop
  | makeDirs path => ∃ place, files.Reaches path place
  | overwrite number _ => ∀ place, files.node? place = some (.file number) → inside place
  | rename source target =>
    ∀ place, files.Leads source place ∨ files.Leads target place → inside place
  | create path | write path _ | sync path | remove path =>
    ∀ place, files.Leads path place → inside place

namespace Files

variable {files files' : Files} {inside : Place → Prop} {step : FileStep}

theorem Confined.within (h : Confined inside files files') (hstep : step.Within inside files) :
    step.Within inside files' := by
  have hleads {path : Path} {place : Place} (hplace : files'.Leads path place) :
      files.Leads path place := hplace.of_keeps h.same.2
  cases step with
  | makeDirs path =>
    obtain ⟨place, hreaches⟩ := hstep
    exact ⟨place, hreaches.of_keeps h.same.1⟩
  | overwrite number bytes =>
    intro place hnode
    by_cases hplace : inside place
    · exact hplace
    · exact hstep place ((h.nodes place hplace).symm.trans hnode)
  | rename source target => exact fun place hplace => hstep place (hplace.imp hleads hleads)
  | create path | write path _ | sync path | remove path =>
    exact fun place hplace => hstep place (hleads hplace)

theorem confined_change {f : Files → Except IoError Files}
    (h : ∀ files', f files = .ok files' → Confined inside files files') :
    Confined inside files (change f files).2 :=
  change_keeps (.refl inside files) h

theorem confined_apply (hw : files.WellFormed) (hstep : step.Within inside files) :
    Confined inside files (step.apply files).2 := by
  cases step with
  | makeDirs path =>
    obtain ⟨place, hreaches⟩ := hstep
    rw [FileStep.apply, hreaches.makeDirs]
    exact .refl inside files
  | create path =>
    refine confined_change fun files' h => ?_
    obtain ⟨⟨number, _⟩, hcreate, rfl⟩ := map_eq_ok.mp h
    exact .create hw hstep hcreate
  | write path bytes => exact confined_change fun files' h => .append hw hstep h
  | overwrite number bytes => exact .setContent hstep _
  | sync path => exact .refl inside files
  | rename source target => exact confined_change fun files' h => .rename hstep h
  | remove path => exact confined_change fun files' h => .remove hstep h

theorem confined_leftover (hw : files.WellFormed) (hstep : step.Within inside files) (kept : Nat) :
    Confined inside files (step.leftover kept files) := by
  cases step with
  | write path bytes =>
    rw [FileStep.leftover]
    cases happend : Files.append path (bytes.take kept) files with
    | error e => exact .refl inside files
    | ok files' => exact .append hw hstep happend
  | overwrite number bytes => exact .setContent hstep _
  | _ => exact .refl inside files

/-- Whether it succeeds or not, a call touches nothing outside of the places that it names. -/
theorem confined_run (hw : files.WellFormed) (hstep : step.Within inside files) :
    Confined inside files (step.run files).2 := by
  have hrest := Confined.tail inside files
  rw [run_eq]
  split
  · exact hrest.trans (confined_leftover (hw.withFaults _) (hrest.within hstep) _)
  · exact hrest.trans (confined_apply (hw.withFaults _) (hrest.within hstep))

theorem confined_runAll (hw : files.WellFormed) {steps : List FileStep}
    (hsteps : ∀ step ∈ steps, step.Within inside files) :
    Confined inside files (FileStep.runAll steps files).2 := by
  induction steps generalizing files with
  | nil => exact .refl inside files
  | cons step steps ih =>
    have hwell := hw.run step
    have hrun := confined_run hw (hsteps step List.mem_cons_self)
    rw [FileStep.runAll, Action.bind_apply]
    rcases hstep : step.run files with ⟨_ | _, next⟩
    · rwa [hstep] at hrun
    · rw [hstep] at hwell hrun
      exact hrun.trans (ih hwell fun other hother =>
        hrun.within (hsteps other (List.mem_cons_of_mem _ hother)))

/-- The places that a document and its draft have. -/
def Beside (home : Place) (name : String) (place : Place) : Prop :=
  place = home ++ [name] ∨ place = home ++ [Path.stem name ++ "." ++ "tmp"]

theorem Beside.below {home place : Place} {name : String} (h : Beside home name place) :
    home <+: place := by
  obtain rfl | rfl := h <;> exact List.prefix_append ..

theorem Names.within {path : Path} {home : Place} {name : String}
    (h : files.Names path home name) {content : Bytes}
    (hstep : step ∈ replaceSteps path content) : step.Within (Beside home name) files := by
  have hdraft {place : Place} (hplace : files.Leads (draftPath path) place) :
      Beside home name place := .inr (h.draft_eq hplace)
  obtain hmake | hstep := List.mem_append.mp hstep
  · obtain ⟨parent, hparent, rfl⟩ := List.mem_map.mp hmake
    exact h.reaches_parent (Option.mem_toList.mp hparent)
  · simp only [List.mem_cons, List.not_mem_nil, or_false] at hstep
    rcases hstep with rfl | rfl | rfl | rfl
    · exact fun place => hdraft
    · exact fun place => hdraft
    · exact fun place => hdraft
    · exact fun place hplace => hplace.elim hdraft fun hplace => .inl (h.place_eq hplace)

/-- Replacing a document touches it and its draft, and nothing else in their directory. -/
theorem Names.confined_replace {path : Path} {home : Place} {name : String}
    (h : files.Names path home name) (hw : files.WellFormed) (content : Bytes) :
    Confined (Beside home name) files (replace path content files).2 :=
  confined_runAll hw fun _ => h.within

/-- Changes that keep to other places spare a document. -/
theorem Names.spares {path : Path} {home : Place} {name : String}
    (h : files.Names path home name) (hw : files'.WellFormed)
    (hconfined : Confined inside files files') (hapart : ¬ inside (home ++ [name])) :
    Spares path files files' :=
  ⟨(h.of_keeps hconfined.same.1).steady hw,
    hconfined.found? fun _ hleads => h.place_eq hleads ▸ hapart⟩

end Files

end SealedStream
