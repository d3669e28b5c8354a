import SealedStream.Files.Replacement
import SealedStream.Proofs.Files.Changes

/-!
# What a replacement leaves

The draft of a document never lies where the document does. As long as it is
not the same file under another name, all that comes before the last call leaves
the document as it was, whichever call fails; the last call puts the finished
draft in its place. Where the directories of the document are still to be made,
that holds if the path does not lead up again from a directory that is not there
yet.
-/

namespace SealedStream

-- ----------------------------------------------------------------------------
-- Names
-- ----------------------------------------------------------------------------

namespace Path

variable {path : Path} {name : String}

/-- What stands behind the last dot of the name, unless nothing stands before it. -/
def extension? (path : Path) : Option String :=
  path.name?.bind fun name =>
    match name.toList.reverse.dropWhile (· ≠ '.') with
    | _ :: before =>
      if before.isEmpty then none
      else some (String.ofList (name.toList.reverse.takeWhile (· ≠ '.')).reverse)
    | [] => none

/-- Only a name with the extension stays the same when it is given the extension. -/
theorem extension?_of_stem (hname : path.name? = some name)
    (h : stem name ++ "." ++ "tmp" = name) : path.extension? = some "tmp" := by
  have hreverse : name.toList.reverse = 'p' :: 'm' :: 't' :: '.' :: (stem name).toList.reverse :=
    calc name.toList.reverse = (stem name ++ "." ++ "tmp").toList.reverse := by rw [h]
      _ = _ := by simp
  have hdrop : name.toList.reverse.dropWhile (· ≠ '.') = '.' :: (stem name).toList.reverse := by
    rw [hreverse]
    rfl
  have htake : (name.toList.reverse.takeWhile (· ≠ '.')).reverse = "tmp".toList := by
    rw [hreverse]
    rfl
  have hstem : (stem name).toList.reverse.isEmpty = false := by
    cases hempty : (stem name).toList.reverse.isEmpty with
    | false => rfl
    | true =>
      have hsame : stem name = name := by
        rw [stem, hdrop]
        exact if_pos hempty
      rw [hsame] at h
      have := congrArg (fun text => text.toList.length) h
      simp at this
  rw [extension?, hname, Option.bind_some, hdrop]
  simp only [hstem, Bool.false_eq_true, if_false, htake, String.ofList_toList]

theorem withoutIdleEnd_append {before blanks : List String} (hname : ¬ isIdle name)
    (hblanks : ∀ piece ∈ blanks, piece = "") :
    withoutIdleEnd (before ++ name :: blanks) = before ++ [name] := by
  have hidle : ∀ piece ∈ blanks.reverse, isIdle piece := by
    intro piece hpiece
    rw [hblanks piece (List.mem_reverse.mp hpiece)]
    rfl
  rw [withoutIdleEnd, List.reverse_append, List.reverse_cons, List.append_assoc,
    List.dropWhile_append_of_pos hidle, List.singleton_append, List.dropWhile_cons_of_neg hname]
  simp

/-- A path above another one: the beginning of it, with names left out behind. -/
structure Above (above path : Path) : Prop where
  absolute : above.isAbsolute = path.isAbsolute
  begins : ∃ tail, path.pieces = above.pieces ++ tail ∧ Files.namesOf tail ≠ []

theorem leftovers_dropWhile (pieces : List String) :
    leftovers (pieces.dropWhile isIdle) = leftovers pieces := by
  induction pieces with
  | nil => rfl
  | cons piece pieces ih =>
    by_cases hidle : isIdle piece
    · rw [List.dropWhile_cons_of_pos hidle, ih, leftovers, if_pos hidle]
    · rw [List.dropWhile_cons_of_neg hidle]

theorem leftovers_tail {pieces first : List String} {rest : List (List String)}
    (h : leftovers pieces = first :: rest) : leftovers first = rest := by
  induction pieces with
  | nil => cases h
  | cons piece pieces ih =>
    rw [leftovers] at h
    split at h
    · exact ih h
    · cases h
      exact leftovers_dropWhile pieces

theorem parents_of_parent? {parent : Path} (h : path.parent? = some parent) :
    path.parents = parent :: parent.parents := by
  rw [parent?, parents, List.head?_map] at h
  rw [parents]
  cases hleft : leftovers path.pieces.reverse with
  | nil =>
    rw [hleft] at h
    cases h
  | cons first rest =>
    rw [hleft] at h
    cases h
    rw [parents, List.reverse_reverse, leftovers_tail hleft]
    rfl

theorem mem_leftovers {pieces rest : List String} (h : rest ∈ leftovers pieces) :
    ∃ skipped, pieces = skipped ++ rest ∧ Files.namesOf skipped ≠ [] := by
  induction pieces with
  | nil => cases h
  | cons piece pieces ih =>
    rw [leftovers] at h
    split at h
    · next hidle =>
      obtain ⟨skipped, rfl, hskipped⟩ := ih h
      exact ⟨piece :: skipped, rfl, by rwa [Files.namesOf_cons_idle hidle]⟩
    · next hidle =>
      obtain rfl | h := List.mem_cons.mp h
      · refine ⟨piece :: pieces.takeWhile isIdle, ?_, ?_⟩
        · rw [List.cons_append, List.takeWhile_append_dropWhile]
        · rw [Files.namesOf_cons hidle]
          nofun
      · obtain ⟨skipped, rfl, -⟩ := ih h
        refine ⟨piece :: skipped, rfl, ?_⟩
        rw [Files.namesOf_cons hidle]
        nofun

theorem above_of_mem {above : Path} (h : above ∈ path.parents) : Above above path := by
  obtain ⟨rest, hrest, rfl⟩ := List.mem_map.mp h
  obtain ⟨skipped, hpieces, hskipped⟩ := mem_leftovers hrest
  refine ⟨rfl, skipped.reverse, ?_, ?_⟩
  · rw [← List.reverse_append, ← hpieces, List.reverse_reverse]
  · rw [Files.namesOf, List.filter_reverse]
    exact fun h => hskipped (List.reverse_eq_nil_iff.mp h)

end Path

namespace Files

variable {files files' : Files} {path : Path} {name : String}

/-- A path that ends in a name is that name behind other pieces, and blanks behind it. -/
theorem pieces_of_spot {directory : Place} {slash : Bool}
    (h : files.spot path = .ok ⟨directory, some name, slash⟩) : ∃ before blanks,
      path.pieces = before ++ name :: blanks ∧ (∀ piece ∈ blanks, piece = "") ∧
        ¬ Path.isIdle name ∧ name ≠ Path.up ∧
          before.foldlM files.enter (files.start path) = .ok directory := by
  obtain ⟨-, ⟨-, -, hspot⟩ | ⟨last, directory', hlast, hwalk, hspot⟩⟩ := spot_ok.mp h
  · cases hspot
  · rw [spotAt] at hspot
    split at hspot
    · cases hspot
    · next hidle =>
      split at hspot
      · cases hspot
      · next hup =>
        cases hspot
        have hsteps := (List.dropLast_append_getLast? _ hlast).symm
        rw [Path.steps] at hsteps
        obtain ⟨front, back, hpieces, hfront, hback⟩ := List.filter_eq_append_iff.mp hsteps
        obtain ⟨blank, blanks, rfl, hblank, -, hblanks⟩ := List.filter_eq_cons_iff.mp hback
        refine ⟨front ++ blank, blanks, by rw [hpieces, List.append_assoc], ?_, hidle, hup, ?_⟩
        · simpa using List.filter_eq_nil_iff.mp hblanks
        · rw [← walk_filter, List.filter_append, hfront, List.filter_eq_nil_iff.mpr hblank,
            List.append_nil]
          exact hwalk

theorem draftPath_of_name (hname : path.name? = some name) : ∃ piece,
    draftPath path =
        { path with pieces := (Path.withoutIdleEnd path.pieces).dropLast ++ [piece] } ∧
      (piece = Path.up ∨ piece = Path.stem name ++ "." ++ "tmp") := by
  rw [draftPath, Path.withExtension, hname]
  simp only
  split
  · exact ⟨_, rfl, .inl rfl⟩
  · exact ⟨_, rfl, .inr rfl⟩

theorem append_cons_eq_concat {before before' blanks : List String} {piece : String}
    (h : before' ++ name :: blanks = before ++ [piece]) (hblanks : ∀ b ∈ blanks, b = "")
    (hpiece : piece ≠ "") : before' = before ∧ name = piece := by
  cases blanks using List.reverseRecOn with
  | nil =>
    obtain ⟨hbefore, hlast⟩ := List.append_inj' h rfl
    exact ⟨hbefore, (List.cons.inj hlast).1⟩
  | append_singleton blanks blank =>
    rw [← List.cons_append, ← List.append_assoc] at h
    obtain ⟨-, hlast⟩ := List.append_inj' h rfl
    have hblank := hblanks blank (List.mem_append_right _ List.mem_cons_self)
    exact absurd ((List.cons.inj hlast).1.symm.trans hblank) hpiece

/-- The draft of a document and the document lie apart. -/
theorem draft_apart (hext : path.extension? ≠ some "tmp") {directory directory' : Place}
    {name name' : String} {slash slash' : Bool}
    (hdraft : files.spot (draftPath path) = .ok ⟨directory, some name, slash⟩)
    (hpath : files.spot path = .ok ⟨directory', some name', slash'⟩) :
    directory ++ [name] ≠ directory' ++ [name'] := by
  obtain ⟨before, blanks, hpieces, hblanks, hidle, hup, hwalk⟩ := pieces_of_spot hpath
  have hend : Path.withoutIdleEnd path.pieces = before ++ [name'] := by
    rw [hpieces, Path.withoutIdleEnd_append hidle hblanks]
  have hname : path.name? = some name' := by
    rw [Path.name?, hend, List.getLast?_concat]
    simp [hup]
  obtain ⟨piece, hpath', hpiece⟩ := draftPath_of_name hname
  rw [hend, List.dropLast_concat] at hpath'
  obtain ⟨before', blanks', hpieces', hblanks', -, hup', hwalk'⟩ := pieces_of_spot hdraft
  rw [hpath'] at hpieces' hwalk'
  have hblank : piece ≠ "" := by
    obtain rfl | rfl := hpiece
    · decide
    · exact fun h => by simpa using congrArg String.toList h
  obtain ⟨rfl, rfl⟩ := append_cons_eq_concat hpieces'.symm hblanks' hblank
  have hdirectory : directory = directory' := Except.ok.inj (hwalk'.symm.trans hwalk)
  -- two dots for a name lead no draft anywhere
  obtain rfl | rfl := hpiece
  · exact absurd rfl hup'
  · intro hsame
    obtain ⟨-, hlast⟩ := List.append_inj' hsame rfl
    exact hext (Path.extension?_of_stem hname (List.cons.inj hlast).1)

-- ----------------------------------------------------------------------------
-- The directories of a document
-- ----------------------------------------------------------------------------

/-- As far as the path leads up, it leads through directories that are there. -/
def Direct (files : Files) (path : Path) : Prop :=
  ∃ front rest place, path.pieces = front ++ rest ∧ Path.up ∉ rest ∧
    front.foldlM files.enter (files.start path) = .ok place

/-- The draft of a document is not another name of it. -/
def Apart (files : Files) (path : Path) : Prop :=
  ∀ number, files.stat path = .ok (.file number) →
    files.stat (draftPath path) ≠ .ok (.file number)

/--
A path that no directory still to be made can give another meaning, and whose draft is another
file than its document.
-/
structure Steady (files : Files) (path : Path) : Prop where
  tree : files.IsTree
  direct : files.Direct path
  apart : path.extension? ≠ some "tmp" → files.Apart path

theorem direct_of_up (h : Path.up ∉ path.pieces) : files.Direct path :=
  ⟨[], path.pieces, files.start path, rfl, h, rfl⟩

theorem apart_of_missing (h : files.found? path = none) : files.Apart path := by
  intro number hstat
  rw [found?, hstat] at h
  cases h

/-- Where no file has two names, the draft is no other name of the document. -/
theorem WellFormed.apart (hw : files.WellFormed) (hext : path.extension? ≠ some "tmp") :
    files.Apart path := by
  intro number hstat hdraft
  obtain ⟨directory, name, hspot, -, hnode⟩ := stat_file.mp hstat
  obtain ⟨directory', name', hspot', -, hnode'⟩ := stat_file.mp hdraft
  exact draft_apart hext hspot' hspot (hw.once _ _ _ hnode' hnode)

theorem WellFormed.steady (hw : files.WellFormed) (hd : files.Direct path) : files.Steady path :=
  ⟨hw.toIsTree, hd, hw.apart⟩

theorem Steady.of_keeps (hs : files.Steady path) (ht : files'.IsTree)
    (hk : files.KeepsDirectories files')
    (hapart : path.extension? ≠ some "tmp" → files'.Apart path) : files'.Steady path := by
  obtain ⟨front, rest, place, hpieces, hup, hwalk⟩ := hs.direct
  have hstart : files'.start path = files.start path := by rw [start, start, hk.home]
  exact ⟨ht, ⟨front, rest, place, hpieces, hup, hstart ▸ hk.walk hwalk⟩, hapart⟩

/-- What is not listed yet is no part of a walk that succeeds. -/
theorem short_of_free {directory place : Place} {before front behind rest : List String}
    (hpieces : before ++ name :: behind = front ++ rest)
    (hbefore : before.foldlM files.enter place = .ok directory)
    (hidle : ¬ Path.isIdle name) (hup : name ≠ Path.up)
    (hfree : files.node? (directory ++ [name]) = none) {other : Place}
    (hfront : front.foldlM files.enter place = .ok other) :
    ∃ down, before = front ++ down ∧ rest = down ++ name :: behind := by
  obtain ⟨more, rfl, hmore⟩ | ⟨down, rfl, hdown⟩ := List.append_eq_append_iff.mp hpieces
  · cases more with
    | nil =>
      refine ⟨[], ?_, hmore.symm⟩
      rw [List.append_nil, List.append_nil]
    | cons piece more =>
      obtain ⟨rfl, -⟩ := List.cons.inj hmore
      rw [walk_append hbefore, List.foldlM_cons] at hfront
      obtain ⟨next, henter, -⟩ := bind_eq_ok.mp hfront
      cases enter_ok.mp henter with
      | idle hidle' => exact absurd hidle' hidle
      | up => exact absurd rfl hup
      | down _ _ _ hnode => rw [hfree] at hnode; cases hnode
  · exact ⟨down, rfl, hdown⟩

/-- Where a directory can be made above a path, the path leads nowhere, before and after. -/
theorem found?_makeDir (hs : files.Steady path) {above : Path} (habove : Path.Above above path)
    (h : files.makeDir above = .ok files') :
    files.found? path = none ∧ files'.found? path = none := by
  have ht' := hs.tree.makeDir h
  have hkeeps := keepsDirectories_makeDir h
  obtain ⟨directory, name, slash, hspot, -, hfree, rfl⟩ := makeDir_ok h
  obtain ⟨before, blanks, hbefore, -, hidle, hnameUp, hwalk⟩ := pieces_of_spot hspot
  obtain ⟨front, rest, place, hpieces, hup, hfront⟩ := hs.direct
  obtain ⟨tail, htail, hnames⟩ := habove.begins
  have hstart : files.start above = files.start path := by rw [start, start, habove.absolute]
  rw [hstart] at hwalk
  -- the new directory lies where the path leads straight down
  obtain ⟨down, rfl, hrest⟩ : ∃ down, before = front ++ down ∧
      rest = down ++ name :: (blanks ++ tail) := by
    refine short_of_free ?_ hwalk hidle hnameUp hfree hfront
    rw [← hpieces, htail, hbefore, List.append_assoc, List.cons_append]
  have hdirectory : directory = place ++ namesOf down := by
    rw [walk_append hfront] at hwalk
    exact walk_down (fun hmem => hup (hrest ▸ List.mem_append_left _ hmem)) hwalk
  have hend : place ++ namesOf rest = (directory ++ [name]) ++ namesOf (blanks ++ tail) := by
    rw [hrest, namesOf_append, namesOf_cons hidle, hdirectory]
    simp only [List.append_assoc, List.singleton_append]
  have hbehind : namesOf (blanks ++ tail) ≠ [] := by
    rw [namesOf_append]
    exact fun h => hnames (List.append_eq_nil_iff.mp h).2
  have hrestNames : namesOf rest ≠ [] := by
    rw [hrest, namesOf_append, namesOf_cons hidle]
    exact List.append_ne_nil_of_right_ne_nil _ (List.cons_ne_nil _ _)
  -- before it is made nothing can be listed below it, and nothing is when it has been made
  have hnothing (node : Node) : files.node? (place ++ namesOf rest) ≠ some node := by
    intro hnode
    rw [hend] at hnode
    rw [hs.tree.within hbehind hnode] at hfree
    cases hfree
  refine ⟨found?_eq_none fun node hstat => ?_, found?_eq_none fun node hstat => ?_⟩
  · exact hnothing node (hs.tree.node?_of_stat hpieces hup hrestNames hfront hstat)
  · have hnode := ht'.node?_of_stat hpieces hup hrestNames (hkeeps.walk hfront) hstat
    rw [node?_putName, if_neg] at hnode
    · exact hnothing node hnode
    · rw [hend]
      exact fun h => hbehind (List.append_right_eq_self.mp h)

/-- A document is what it was, and so is the way to it. -/
structure Spares (path : Path) (files files' : Files) : Prop where
  steady : files'.Steady path
  found : files'.found? path = files.found? path

theorem Spares.refl (hs : files.Steady path) : Spares path files files := ⟨hs, rfl⟩

theorem Spares.trans {files'' : Files} (h : Spares path files files')
    (h' : Spares path files' files'') : Spares path files files'' :=
  ⟨h'.steady, h'.found.trans h.found⟩

theorem spares_makeInnermost (hs : files.Steady path) {paths : List Path}
    (habove : ∀ above ∈ paths, above ∈ path.parents) :
    Spares path files (makeInnermost paths files).2 := by
  refine makeInnermost_keeps ?_ (.refl hs)
  intro above hmem before after hspared hmake
  have hsteady := hspared.steady
  have hkeeps := keepsDirectories_makeDir hmake
  obtain ⟨hbefore, hafter⟩ :=
    found?_makeDir hsteady (Path.above_of_mem (habove above hmem)) hmake
  exact hspared.trans ⟨hsteady.of_keeps (hsteady.tree.makeDir hmake) hkeeps
    fun _ => apart_of_missing hafter, hafter.trans hbefore.symm⟩

theorem spares_makeDirs (hs : files.Steady path) {parent : Path}
    (hparent : path.parent? = some parent) : Spares path files (makeDirs parent files).2 := by
  rw [makeDirs, ← Path.parents_of_parent? hparent]
  exact spares_makeInnermost hs fun above habove => (List.mem_filter.mp habove).1

-- ----------------------------------------------------------------------------
-- The calls on the draft
-- ----------------------------------------------------------------------------

theorem numbered_of_stat (ht : files.IsTree) {number : FileNumber}
    (h : files.stat path = .ok (.file number)) : number < files.contents.length := by
  obtain ⟨directory, name, -, -, hnode⟩ := stat_file.mp h
  exact ht.numbered _ _ hnode

theorem spares_setContent (hs : files.Steady path) (hext : path.extension? ≠ some "tmp")
    {number : FileNumber} (h : files.stat (draftPath path) = .ok (.file number)) (bytes : Bytes) :
    Spares path files (files.setContent number bytes) := by
  have hapart := hs.apart hext
  refine ⟨⟨hs.tree.setContent number bytes, hs.direct, hs.apart⟩,
    found?_congr rfl fun other hother => ?_⟩
  rw [content_setContent _ _ _ _ (numbered_of_stat hs.tree h), if_neg]
  rintro rfl
  exact hapart other hother h

theorem content_addFile (place : Place) {number : FileNumber}
    (h : number < files.contents.length) :
    (files.addFile place).2.content number = files.content number := by
  rw [content, content, List.getD_eq_getElem?_getD, List.getD_eq_getElem?_getD]
  exact congrArg (Option.getD · []) (List.getElem?_append_left h)

/-- The file that has been created is where it was asked for. -/
theorem stat_create_self {number : FileNumber} (h : files.create path = .ok (number, files')) :
    files'.stat path = .ok (.file number) := by
  have hsame := sameDirectories_create h
  obtain ⟨directory, name, hspot, hlong, ⟨hnode, rfl⟩ | ⟨-, hadd⟩⟩ := create_ok h
  · exact stat_file.mpr ⟨directory, name, hspot, hlong, hnode⟩
  · cases hadd
    refine stat_file.mpr ⟨directory, name, hsame.1.spot hspot, hlong, ?_⟩
    have hnode := node?_putName files directory (directory ++ [name]) name
      (.file files.contents.length)
    rw [if_pos rfl] at hnode
    exact hnode

theorem spares_create (hs : files.Steady path) (hext : path.extension? ≠ some "tmp")
    {number : FileNumber} (h : files.create (draftPath path) = .ok (number, files')) :
    Spares path files files' := by
  have ht' := hs.tree.create h
  have hsame := sameDirectories_create h
  have hdraft := stat_create_self h
  obtain ⟨directory, name, hspot, hlong, ⟨hnode, rfl⟩ | ⟨hfree, hadd⟩⟩ := create_ok h
  · exact spares_setContent hs hext hdraft []
  · cases hadd
    have hstat := stat_congr hsame.1 hsame.2 fun directory' name' slash' hpath => by
      have hnode := node?_putName files directory (directory' ++ [name']) name
        (.file files.contents.length)
      rw [if_neg (draft_apart hext hspot hpath).symm] at hnode
      exact hnode
    -- the new file has a number that the document cannot have
    have hnumber {other : FileNumber} (hother : files.stat path = .ok (.file other)) :
        other < files.contents.length := numbered_of_stat hs.tree hother
    refine ⟨hs.of_keeps ht' hsame.1 fun _ other hother hdraft' => ?_,
      found?_congr hstat fun other hother => content_addFile _ (hnumber hother)⟩
    rw [← toOption_eq_some, hstat, toOption_eq_some] at hother
    cases hdraft.symm.trans hdraft'
    exact Nat.lt_irrefl _ (hnumber hother)

theorem spares_append (hs : files.Steady path) (hext : path.extension? ≠ some "tmp")
    {bytes : Bytes} (h : files.append (draftPath path) bytes = .ok files') :
    Spares path files files' := by
  obtain ⟨number, hstat, rfl⟩ := append_ok h
  exact spares_setContent hs hext hstat _

/-- So much of a document has been written behind its name. -/
def Drafts (files : Files) (path : Path) (bytes : Bytes) : Prop :=
  ∃ number, files.stat (draftPath path) = .ok (.file number) ∧ files.content number = bytes

theorem drafts_create (ht : files.IsTree) {number : FileNumber}
    (h : files.create (draftPath path) = .ok (number, files')) : files'.Drafts path [] := by
  refine ⟨number, stat_create_self h, ?_⟩
  obtain ⟨directory, name, hspot, hlong, ⟨hnode, rfl⟩ | ⟨hfree, hadd⟩⟩ := create_ok h
  · rw [content_setContent _ _ _ _ (ht.numbered _ _ hnode), if_pos rfl]
  · cases hadd
    rw [content, List.getD_eq_getElem?_getD]
    exact congrArg (Option.getD · []) List.getElem?_concat_length

theorem drafts_append (ht : files.IsTree) {bytes more : Bytes} (hd : files.Drafts path bytes)
    (h : files.append (draftPath path) more = .ok files') :
    files'.Drafts path (bytes ++ more) := by
  obtain ⟨number, hdraft, rfl⟩ := hd
  obtain ⟨number', hstat, rfl⟩ := append_ok h
  rw [hdraft] at hstat
  cases hstat
  refine ⟨number, hdraft, ?_⟩
  rw [content_setContent _ _ _ _ (numbered_of_stat ht hdraft), if_pos rfl]

theorem found?_rename {bytes : Bytes} (hd : files.Drafts path bytes)
    (h : files.rename (draftPath path) path = .ok files') :
    files'.found? path = some (.ok bytes) := by
  have hsame := sameDirectories_rename h
  obtain ⟨number, hdraft, rfl⟩ := hd
  obtain ⟨directory, name, hspot, -, hnode⟩ := stat_file.mp hdraft
  obtain ⟨_, _, directory', name', number', hspot', hpath, hlong, hnode', -, hend⟩ := rename_ok h
  cases hspot.symm.trans hspot'
  cases hnode.symm.trans hnode'
  suffices hstat : files'.stat path = .ok (.file number) by
    rw [found?, hstat]
    obtain ⟨-, rfl⟩ | rfl := hend <;> rfl
  refine stat_file.mpr ⟨directory', name', hsame.1.spot hpath, hlong, ?_⟩
  obtain ⟨hnode', rfl⟩ | rfl := hend
  · exact hnode'
  · rw [node?_putName, if_pos rfl]

/-- A draft that has taken the place of the document is gone. -/
theorem apart_rename (hs : files.Steady path) (hext : path.extension? ≠ some "tmp")
    (h : files.rename (draftPath path) path = .ok files') : files'.Apart path := by
  have hsame := sameDirectories_rename h
  obtain ⟨directory, name, directory', name', number, hspot, hpath, -, -, -, ⟨-, rfl⟩ | rfl⟩ :=
    rename_ok h
  · exact hs.apart hext
  · intro other _ hdraft
    obtain ⟨_, _, hspot', -, hnode⟩ := stat_file.mp hdraft
    cases (hsame.1.spot hspot).symm.trans hspot'
    rw [node?_putName, if_neg (draft_apart hext hspot hpath), node?_eraseName, if_pos rfl] at hnode
    cases hnode

-- ----------------------------------------------------------------------------
-- The replacement
-- ----------------------------------------------------------------------------

theorem Steady.withFaults (hs : files.Steady path) (faults : List (Option Fault)) :
    ({ files with faults } : Files).Steady path :=
  ⟨hs.tree.withFaults faults, hs.direct, hs.apart⟩

theorem Drafts.withFaults {bytes : Bytes} (hd : files.Drafts path bytes)
    (faults : List (Option Fault)) : ({ files with faults } : Files).Drafts path bytes := hd

theorem run_ok {step : FileStep} (h : step.run files = (.ok (), files')) :
    step.apply { files with faults := files.faults.tail } = (.ok (), files') := by
  rw [run_eq] at h
  split at h
  · cases h
  · exact h

theorem change_ok {f : Files → Except IoError Files} (h : change f files = (.ok (), files')) :
    f files = .ok files' := by
  rw [change] at h
  split at h
  · next changed hf =>
    cases h
    exact hf
  · cases h

def draftSteps (path : Path) (content : Bytes) : List FileStep :=
  makeParent path ++
    [.create (draftPath path), .write (draftPath path) content, .sync (draftPath path)]

theorem spares_apply (hs : files.Steady path) (hext : path.extension? ≠ some "tmp")
    {content : Bytes} {step : FileStep} (h : step ∈ draftSteps path content) :
    Spares path files (step.apply files).2 := by
  obtain h | h := List.mem_append.mp h
  · obtain ⟨parent, hparent, rfl⟩ := List.mem_map.mp h
    exact spares_makeDirs hs (Option.mem_toList.mp hparent)
  · simp only [List.mem_cons, List.not_mem_nil, or_false] at h
    obtain rfl | rfl | rfl := h
    · refine change_keeps (.refl hs) fun files' h => ?_
      obtain ⟨⟨number, _⟩, hcreate, rfl⟩ := map_eq_ok.mp h
      exact spares_create hs hext hcreate
    · exact change_keeps (.refl hs) fun files' h => spares_append hs hext h
    · exact .refl hs

theorem spares_leftover (hs : files.Steady path) (hext : path.extension? ≠ some "tmp")
    {content : Bytes} {step : FileStep} (h : step ∈ draftSteps path content) (kept : Nat) :
    Spares path files (step.leftover kept files) := by
  obtain h | h := List.mem_append.mp h
  · obtain ⟨parent, -, rfl⟩ := List.mem_map.mp h
    exact .refl hs
  · simp only [List.mem_cons, List.not_mem_nil, or_false] at h
    obtain rfl | rfl | rfl := h
    · exact .refl hs
    · rw [FileStep.leftover]
      cases happend : Files.append (draftPath path) (content.take kept) files with
      | error e => exact .refl hs
      | ok files' => exact spares_append hs hext happend
    · exact .refl hs

/-- No call before the last one touches the document, whether it succeeds, fails or stops. -/
theorem spares_run (hs : files.Steady path) (hext : path.extension? ≠ some "tmp")
    {content : Bytes} {step : FileStep} (h : step ∈ draftSteps path content) :
    Spares path files (step.run files).2 := by
  have hrest := hs.withFaults files.faults.tail
  have hspared : Spares path { files with faults := files.faults.tail } (step.run files).2 := by
    rw [run_eq]
    split
    · exact spares_leftover hrest hext h _
    · exact spares_apply hrest hext h
  exact ⟨hspared.steady, hspared.found⟩

inductive Replaced (path : Path) (content : Bytes) (files : Files) :
    Except IoError Unit × Files → Prop
  | done {files' : Files} : files'.Steady path → files'.found? path = some (.ok content) →
      Replaced path content files (.ok (), files')
  | failed {e : IoError} {files' : Files} : Spares path files files' →
      Replaced path content files (.error e, files')

theorem Replaced.cons {content : Bytes} {step : FileStep} {rest : List FileStep}
    (hrun : Spares path files (step.run files).2)
    (hrest : ∀ files', step.run files = (.ok (), files') → files'.Steady path →
      Replaced path content files' (FileStep.runAll rest files')) :
    Replaced path content files (FileStep.runAll (step :: rest) files) := by
  rw [FileStep.runAll, Action.bind_apply]
  rcases hstep : step.run files with ⟨e | _, files'⟩
  · rw [hstep] at hrun
    exact .failed hrun
  · rw [hstep] at hrun
    specialize hrest files' hstep hrun.steady
    simp only
    generalize FileStep.runAll rest files' = ending at hrest ⊢
    cases hrest with
    | done hsteady hfound => exact .done hsteady hfound
    | failed hspared => exact .failed (hrun.trans hspared)

theorem drafts_create_run (ht : files.IsTree)
    (h : (FileStep.create (draftPath path)).run files = (.ok (), files')) :
    files'.Drafts path [] := by
  have happly := change_ok (f := fun files => (files.create (draftPath path)).map Prod.snd)
    (run_ok h)
  obtain ⟨⟨number, _⟩, hcreate, rfl⟩ := map_eq_ok.mp happly
  exact drafts_create (ht.withFaults _) hcreate

theorem drafts_write_run (ht : files.IsTree) {bytes more : Bytes}
    (hd : files.Drafts path bytes)
    (h : (FileStep.write (draftPath path) more).run files = (.ok (), files')) :
    files'.Drafts path (bytes ++ more) :=
  drafts_append (ht.withFaults files.faults.tail) (hd.withFaults _) (change_ok (run_ok h))

theorem replaced_rename (hs : files.Steady path) {content : Bytes}
    (hd : files.Drafts path content) :
    Replaced path content files (FileStep.runAll [.rename (draftPath path) path] files) := by
  have hrest := hs.withFaults files.faults.tail
  rw [FileStep.runAll, Action.bind_apply]
  rcases hstep : (FileStep.rename (draftPath path) path).run files with ⟨e | _, files'⟩
  · rw [run_eq] at hstep
    split at hstep
    · cases hstep
      exact .failed ⟨hrest, rfl⟩
    · rw [FileStep.apply, change] at hstep
      split at hstep
      · cases hstep
      · cases hstep
        exact .failed ⟨hrest, rfl⟩
  · have hrename := change_ok (run_ok hstep)
    have hkeeps := (sameDirectories_rename hrename).1
    exact .done (hrest.of_keeps (hrest.tree.rename hrename) hkeeps
      fun hext => apart_rename hrest hext hrename) (found?_rename (hd.withFaults _) hrename)

/-- A document is replaced as a whole, or it stays as it was and the failure is told. -/
theorem replace_end (hs : files.Steady path) (hext : path.extension? ≠ some "tmp")
    (content : Bytes) : Replaced path content files (replace path content files) := by
  have hspares {files : Files} (hs : files.Steady path) {step : FileStep}
      (h : step ∈ draftSteps path content) : Spares path files (step.run files).2 :=
    spares_run hs hext h
  have hwrite {files : Files} (hs : files.Steady path) : Replaced path content files
      (FileStep.runAll [.create (draftPath path), .write (draftPath path) content,
        .sync (draftPath path), .rename (draftPath path) path] files) := by
    refine .cons (hspares hs (by simp [draftSteps])) fun created hcreate hcreated => ?_
    have hempty := drafts_create_run hs.tree hcreate
    refine .cons (hspares hcreated (by simp [draftSteps])) fun written hwrite hwritten => ?_
    have hwhole := drafts_write_run hcreated.tree hempty hwrite
    refine .cons (hspares hwritten (by simp [draftSteps])) fun synced hsync hsynced => ?_
    cases run_ok hsync
    exact replaced_rename hsynced (hwhole.withFaults _)
  rw [replace, replaceSteps, makeParent]
  cases hparent : path.parent? with
  | none => exact hwrite hs
  | some parent =>
    refine .cons (hspares hs ?_) fun made hmake hmade => hwrite hmade
    simp [draftSteps, makeParent, hparent]

-- ----------------------------------------------------------------------------
-- Ways up from directories that are not there yet
-- ----------------------------------------------------------------------------

/-- A document, with a directory where its draft would be. -/
def obstructed (document : Bytes) : Files :=
  ⟨[(["store.tmp"], .directory), (["store.json"], .file 0)], [document], [], []⟩

theorem wellFormed_obstructed (document : Bytes) : (obstructed document).WellFormed :=
  wellFormed_empty.runAll [.create ⟨false, ["store.json"]⟩, .write ⟨false, ["store.json"]⟩ document,
    .makeDirs ⟨false, ["store.tmp"]⟩]

/-- A replacement that fails may have made the directory that the path leads up from again. -/
theorem replace_obstructed (document content : Bytes) :
    let path : Path := ⟨false, ["new", "..", "store.json"]⟩
    (obstructed document).found? path = none ∧
      ∃ files', replace path content (obstructed document) =
          (.error (.system .isADirectory), files') ∧
        files'.found? path = some (.ok document) := by
  have hend : replace ⟨false, ["new", "..", "store.json"]⟩ content (obstructed document) =
      (.error (.system .isADirectory),
        ⟨[(["new"], .directory), (["store.tmp"], .directory), (["store.json"], .file 0)],
          [document], [], []⟩) := rfl
  exact ⟨rfl, _, hend, rfl⟩

-- ----------------------------------------------------------------------------
-- Drafts that are the document under another name
-- ----------------------------------------------------------------------------

/-- A document with the name of its draft for a second name. -/
def linked (document : Bytes) : Files :=
  ⟨[(["store.tmp"], .file 0), (["store.json"], .file 0)], [document], [], []⟩

theorem isTree_linked (document : Bytes) : (linked document).IsTree := by
  have hw : Files.WellFormed ⟨[(["store.json"], .file 0)], [document], [], []⟩ :=
    wellFormed_empty.runAll
      [.create ⟨false, ["store.json"]⟩, .write ⟨false, ["store.json"]⟩ document]
  have hnode : ∀ number, Node.file 0 = .file number → number < 1 := by
    rintro _ ⟨⟩
    exact Nat.one_pos
  exact @IsTree.put _ [] "store.tmp" _ hw.toIsTree rfl nofun hnode

/-- Creating the draft empties the document, and so it stays if the draft cannot be written. -/
theorem replace_linked (document content : Bytes) :
    replace ⟨false, ["store.json"]⟩ content { linked document with
      faults := [none, none, some ⟨.system .storageFull, 0⟩] } =
        (.error (.system .storageFull), linked []) := rfl

end Files

end SealedStream
