import SealedStream.Proofs.Files.Replacement

/-!
# Directories that are there

A directory that has been made is found from then on, and making it again changes
nothing. A document is named by a name behind the path of its directory.
-/

namespace SealedStream.Files

variable {files files' : Files} {path : Path} {place other home : Place} {name : String}
  {before : List String}

-- ----------------------------------------------------------------------------
-- Places of paths
-- ----------------------------------------------------------------------------

/-- A path that ends in a name, and the place of that name. -/
def Leads (files : Files) (path : Path) (place : Place) : Prop :=
  ∃ directory name slash, files.spot path = .ok ⟨directory, some name, slash⟩ ∧
    place = directory ++ [name]

theorem Leads.unique (h : files.Leads path place) (h' : files.Leads path other) :
    place = other := by
  obtain ⟨directory, name, slash, hspot, rfl⟩ := h
  obtain ⟨directory', name', slash', hspot', rfl⟩ := h'
  cases hspot.symm.trans hspot'
  rfl

theorem Leads.of_keeps (h : files.Leads path place) (hk : files.KeepsDirectories files') :
    files'.Leads path place := by
  obtain ⟨directory, name, slash, hspot, hplace⟩ := h
  exact ⟨directory, name, slash, hk.spot hspot, hplace⟩

-- ----------------------------------------------------------------------------
-- Walks along whole paths
-- ----------------------------------------------------------------------------

/-- A walk along a whole path, which ends in a directory. -/
def Reaches (files : Files) (path : Path) (place : Place) : Prop :=
  path.pieces.foldlM files.enter (files.start path) = .ok place

theorem Reaches.of_keeps (h : files.Reaches path place) (hk : files.KeepsDirectories files') :
    files'.Reaches path place := by
  have hstart : files'.start path = files.start path := by rw [start, start, hk.home]
  rw [Reaches, hstart]
  exact hk.walk h

theorem Reaches.node (h : files.Reaches path place) (hw : files.WellFormed) :
    files.node? place = some .directory := hw.walk (hw.start path) h

theorem walk_prefix {front rest : List String}
    (h : (front ++ rest).foldlM files.enter place = .ok other) :
    ∃ mid, front.foldlM files.enter place = .ok mid := by
  rw [List.foldlM_append] at h
  obtain ⟨mid, hfront, -⟩ := bind_eq_ok.mp h
  exact ⟨mid, hfront⟩

/-- Where a walk along a path succeeds there is no directory to be made. -/
theorem Reaches.not_makeDir (h : files.Reaches path place) : files.makeDir path ≠ .ok files' := by
  intro hmake
  obtain ⟨directory, name, slash, hspot, -, hfree, -⟩ := makeDir_ok hmake
  obtain ⟨before, blanks, hpieces, -, hidle, hup, hwalk⟩ := pieces_of_spot hspot
  rw [Reaches, hpieces, walk_append hwalk, List.foldlM_cons] at h
  obtain ⟨next, henter, -⟩ := bind_eq_ok.mp h
  cases enter_ok.mp henter with
  | idle hidle' => exact hidle hidle'
  | up => exact hup rfl
  | down _ _ _ hnode =>
    rw [hfree] at hnode
    cases hnode

/-- Making directories that are there changes nothing. -/
theorem Reaches.makeDirs (h : files.Reaches path place) :
    (Files.makeDirs path files).2 = files := by
  let fits (after : Files) : Prop := after = files
  have hmake : ∀ above ∈ (path :: path.parents).filter fun p => p.toString ≠ "",
      ∀ before after, fits before → before.makeDir above = .ok after → fits after := by
    intro above habove before after hbefore hmade
    have hsame : before = files := hbefore
    rw [hsame] at hmade
    have hreaches : ∃ mid, files.Reaches above mid := by
      obtain rfl | habove := List.mem_cons.mp (List.mem_filter.mp habove).1
      · exact ⟨place, h⟩
      · obtain ⟨habsolute, tail, hpieces, -⟩ := Path.above_of_mem habove
        rw [Reaches, hpieces] at h
        unfold Reaches
        rw [start, habsolute]
        exact walk_prefix h
    obtain ⟨mid, hmid⟩ := hreaches
    exact absurd hmade hmid.not_makeDir
  have hkept : fits (Files.makeDirs path files).2 := makeInnermost_keeps hmake rfl
  exact hkept

-- ----------------------------------------------------------------------------
-- Making them again
-- ----------------------------------------------------------------------------

/-- What is made as a directory is one, or no path at all. -/
def There (files : Files) (path : Path) : Prop :=
  path.toString = "" ∨ files.stat path = .ok .directory

theorem blank_of_toString (h : path.toString = "") : ∀ piece ∈ path.pieces, piece = "" := by
  obtain ⟨isAbsolute, pieces⟩ := path
  simp only [Path.toString, String.append_eq_empty_iff] at h
  obtain ⟨-, htext⟩ := h
  cases pieces with
  | nil => nofun
  | cons piece rest =>
    cases rest with
    | nil => simpa using htext
    | cons next rest => simp [String.intercalate_cons_cons] at htext

theorem reaches_of_steps (h : path.steps.foldlM files.enter (files.start path) = .ok place) :
    files.Reaches path place := by
  rwa [Path.steps, walk_filter] at h

theorem reaches_of_stat (h : files.stat path = .ok .directory) :
    ∃ place, files.Reaches path place := by
  rw [stat_eq] at h
  obtain ⟨spot, hspot, hstat⟩ := bind_eq_ok.mp h
  obtain ⟨-, ⟨hnone, -, -⟩ | ⟨last, directory, hlast, hwalk, rfl⟩⟩ := spot_ok.mp hspot
  · refine ⟨files.start path, reaches_of_steps ?_⟩
    rw [List.getLast?_eq_none_iff.mp hnone]
    rfl
  · have henters : ∃ next, files.enter directory last = .ok next := by
      rw [spotAt] at hstat
      split at hstat
      · next hidle => exact ⟨_, enter_ok.mpr (.idle hidle)⟩
      · next hidle =>
        split at hstat
        · next hup => exact ⟨_, hup ▸ enter_ok.mpr .up⟩
        · next hup =>
          obtain ⟨hlong, hnode, -⟩ := statAt_ok.mp hstat
          exact ⟨_, enter_ok.mpr (.down hidle hup hlong hnode)⟩
    obtain ⟨next, henter⟩ := henters
    refine ⟨next, reaches_of_steps ?_⟩
    rw [← List.dropLast_append_getLast? _ hlast, walk_append hwalk, List.foldlM_cons, henter]
    rfl

theorem There.reaches (h : files.There path) : ∃ place, files.Reaches path place := by
  obtain hblank | hstat := h
  · refine ⟨files.start path, reaches_of_steps ?_⟩
    have hsteps : path.steps = [] := List.filter_eq_nil_iff.mpr fun piece hpiece => by
      simp [blank_of_toString hblank piece hpiece]
    rw [hsteps]
    rfl
  · exact reaches_of_stat hstat

theorem There.of_keeps (h : files.There path) (hk : files.KeepsDirectories files') :
    files'.There path := by
  refine h.imp_right fun hstat => ?_
  rw [stat_eq] at hstat ⊢
  obtain ⟨⟨directory, name?, slash⟩, hspot, hat⟩ := bind_eq_ok.mp hstat
  rw [hk.spot hspot, ok_bind]
  cases name? with
  | none => rfl
  | some name =>
    obtain ⟨hlong, hnode, hslash⟩ := statAt_ok.mp hat
    exact statAt_ok.mpr ⟨hlong, hk.kept _ hnode, hslash⟩

theorem stat_of_makeDir (h : files.makeDir path = .ok files') :
    files'.stat path = .ok .directory := by
  have hkeeps := keepsDirectories_makeDir h
  obtain ⟨directory, name, slash, hspot, hlong, -, rfl⟩ := makeDir_ok h
  rw [stat_eq, hkeeps.spot hspot, ok_bind]
  refine statAt_ok.mpr ⟨hlong, ?_, nofun⟩
  rw [node?_putName, if_pos rfl]

theorem stat_of_ensureDir (h : ensureDir path files = (.ok (), files')) :
    files'.stat path = .ok .directory := by
  rw [ensureDir] at h
  split at h
  · next hmake =>
    cases h
    exact stat_of_makeDir hmake
  · obtain ⟨hok, rfl⟩ := Prod.mk.inj h
    split at hok
    · next hdirectory =>
      unfold isDirectory at hdirectory
      split at hdirectory
      · assumption
      · cases hdirectory
    · cases hok

/-- A directory that has been made is there. -/
theorem there_of_makeDirs (h : makeDirs path files = (.ok (), files')) : files'.There path := by
  by_cases hblank : path.toString = ""
  · exact .inl hblank
  · rw [makeDirs, List.filter_cons_of_pos (by simpa using hblank)] at h
    obtain hfirst | hfirst :=
      makeInnermost_cons path (path.parents.filter fun p => p.toString ≠ "") files
    · exact .inr (stat_of_ensureDir (hfirst ▸ h))
    · rw [hfirst] at h
      obtain ⟨_, mid, -, hensure⟩ := Action.bind_ok.mp h
      exact .inr (stat_of_ensureDir hensure)

theorem makeDir_of_stat (h : files.stat path = .ok .directory) :
    files.makeDir path = .error (.system .alreadyExists) := by
  rw [stat_eq] at h
  obtain ⟨⟨directory, name?, slash⟩, hspot, hat⟩ := bind_eq_ok.mp h
  rw [makeDir, hspot, ok_bind]
  cases name? with
  | none => rfl
  | some name =>
    obtain ⟨hlong, hnode, -⟩ := statAt_ok.mp hat
    have hfound : files.lookUp directory name = .ok (some .directory) :=
      lookUp_ok.mpr ⟨hlong, hnode⟩
    simp only [hfound]
    rfl

theorem parents_of_blank (h : ∀ piece ∈ path.pieces, piece = "") : path.parents = [] := by
  have hleft : ∀ pieces : List String, (∀ piece ∈ pieces, piece = "") →
      Path.leftovers pieces = [] := by
    intro pieces hpieces
    induction pieces with
    | nil => rfl
    | cons piece pieces ih =>
      obtain ⟨rfl, hrest⟩ := List.forall_mem_cons.mp hpieces
      exact ih hrest
  rw [Path.parents, hleft _ fun piece hpiece => h piece (List.mem_reverse.mp hpiece)]
  rfl

/-- Directories that are there can be made again. -/
theorem There.makeDirs (h : files.There path) : Files.makeDirs path files = (.ok (), files) := by
  by_cases hblank : path.toString = ""
  · rw [Files.makeDirs, List.filter_cons_of_neg (by simpa using hblank),
      parents_of_blank (blank_of_toString hblank)]
    rfl
  · have hstat := h.resolve_left hblank
    have hensure : ensureDir path files = (.ok (), files) := by
      rw [ensureDir, makeDir_of_stat hstat]
      simp [isDirectory, hstat]
    rw [Files.makeDirs, List.filter_cons_of_pos (by simpa using hblank), makeInnermost,
      Action.bind_apply, Action.get_apply]
    simp only [makeDir_of_stat hstat, hensure]

-- ----------------------------------------------------------------------------
-- Documents in a directory
-- ----------------------------------------------------------------------------

theorem withoutIdleEnd_concat (hname : ¬ Path.isIdle name) (before : List String) :
    Path.withoutIdleEnd (before ++ [name]) = before ++ [name] :=
  Path.withoutIdleEnd_append hname (List.forall_mem_nil _)

/-- A path to a name in a directory that is there. -/
structure Names (files : Files) (path : Path) (home : Place) (name : String) : Prop where
  pieces : ∃ before, path.pieces = before ++ [name] ∧
    before.foldlM files.enter (files.start path) = .ok home
  down : ¬ Path.isIdle name
  plain : name ≠ Path.up

theorem Names.of_keeps (h : files.Names path home name) (hk : files.KeepsDirectories files') :
    files'.Names path home name := by
  obtain ⟨before, hpieces, hwalk⟩ := h.pieces
  have hstart : files'.start path = files.start path := by rw [start, start, hk.home]
  exact ⟨⟨before, hpieces, hstart ▸ hk.walk hwalk⟩, h.down, h.plain⟩

/-- A name behind the path of a directory. -/
theorem Reaches.names (h : files.Reaches path home) (hdown : ¬ Path.isIdle name)
    (hplain : name ≠ Path.up) : files.Names (path.join ⟨false, [name]⟩) home name := by
  refine ⟨?_, hdown, hplain⟩
  unfold Path.join
  rw [if_neg Bool.false_ne_true]
  split
  · next hlast =>
    refine ⟨path.pieces.dropLast, rfl, ?_⟩
    rw [Reaches, ← List.dropLast_append_getLast? _ hlast, List.foldlM_append] at h
    obtain ⟨mid, hmid, hend⟩ := bind_eq_ok.mp h
    cases hend
    exact hmid
  · exact ⟨path.pieces, rfl, h⟩

namespace Names

variable (h : files.Names path home name)

include h

theorem ne_blank : name ≠ "" := by
  rintro rfl
  exact h.down rfl

theorem name? : path.name? = some name := by
  obtain ⟨before, hpieces, -⟩ := h.pieces
  rw [Path.name?, hpieces, withoutIdleEnd_concat h.down, List.getLast?_concat]
  simp [h.plain]

theorem steady (hw : files.WellFormed) : files.Steady path := by
  obtain ⟨before, hpieces, hwalk⟩ := h.pieces
  refine hw.steady ⟨before, [name], home, hpieces, ?_, hwalk⟩
  simp [Ne.symm h.plain]

theorem place_eq (hleads : files.Leads path place) : place = home ++ [name] := by
  obtain ⟨before, hpieces, hwalk⟩ := h.pieces
  obtain ⟨directory, name', slash, hspot, rfl⟩ := hleads
  obtain ⟨before', blanks, hpieces', hblanks, -, -, hwalk'⟩ := pieces_of_spot hspot
  obtain ⟨rfl, rfl⟩ := append_cons_eq_concat (hpieces'.symm.trans hpieces) hblanks h.ne_blank
  rw [hwalk] at hwalk'
  cases hwalk'
  rfl

theorem draft_eq (hleads : files.Leads (draftPath path) place) :
    place = home ++ [Path.stem name ++ "." ++ "tmp"] := by
  obtain ⟨before, hpieces, hwalk⟩ := h.pieces
  obtain ⟨piece, hdraft, hpiece⟩ := draftPath_of_name h.name?
  obtain ⟨directory, name', slash, hspot, rfl⟩ := hleads
  obtain ⟨before', blanks, hpieces', hblanks, -, hup, hwalk'⟩ := pieces_of_spot hspot
  rw [hdraft, hpieces, withoutIdleEnd_concat h.down, List.dropLast_concat] at hpieces' hwalk'
  have hblank : piece ≠ "" := by
    obtain rfl | rfl := hpiece
    · decide
    · exact fun h => by simpa using congrArg String.toList h
  obtain ⟨rfl, rfl⟩ := append_cons_eq_concat hpieces'.symm hblanks hblank
  have hstart : files.start { path with pieces := before' ++ [name'] } = files.start path := rfl
  rw [hstart, hwalk] at hwalk'
  cases hwalk'
  obtain rfl | rfl := hpiece
  · exact absurd rfl hup
  · rfl

theorem reaches_parent {parent : Path} (hparent : path.parent? = some parent) :
    ∃ place, files.Reaches parent place := by
  obtain ⟨before, hpieces, hwalk⟩ := h.pieces
  have hmem : parent ∈ path.parents := by simp [Path.parents_of_parent? hparent]
  obtain ⟨habsolute, tail, hpieces', htail⟩ := Path.above_of_mem hmem
  cases tail using List.reverseRecOn with
  | nil => exact absurd rfl htail
  | append_singleton tail last =>
    rw [hpieces', ← List.append_assoc] at hpieces
    obtain ⟨rfl, -⟩ := List.append_inj' hpieces rfl
    unfold Reaches
    rw [start, habsolute]
    exact walk_prefix hwalk

end Names

end SealedStream.Files
