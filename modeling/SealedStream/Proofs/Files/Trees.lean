import Mathlib
import SealedStream.Files.Step

/-!
# Trees and the paths into them

In a tree everything is listed in a directory; in one that is well formed no
file has two names. What a path finds depends on the directories on its way and
on what is listed at its end. Without double dots its end is a place that can be
told from the path alone.
-/

namespace SealedStream.Files

variable {files files' : Files} {path : Path} {place other directory : Place} {name : String}
  {node : Node} {number : FileNumber}

-- ----------------------------------------------------------------------------
-- Trees
-- ----------------------------------------------------------------------------

structure IsTree (files : Files) : Prop where
  rooted : ∀ place name node, files.node? (place ++ [name]) = some node →
    files.node? place = some .directory
  numbered : ∀ place number, files.node? place = some (.file number) →
    number < files.contents.length
  home : files.node? files.workingDirectory = some .directory

/-- A tree in which no file has two names. -/
structure WellFormed (files : Files) : Prop extends IsTree files where
  once : ∀ place other number, files.node? place = some (.file number) →
    files.node? other = some (.file number) → place = other

theorem wellFormed_empty : ({} : Files).WellFormed where
  rooted place name node h := by simp [node?] at h
  numbered place number h := by
    rw [node?] at h
    split at h <;> cases h
  once place other number h := by
    rw [node?] at h
    split at h <;> cases h
  home := rfl

/-- Above whatever is listed there are only directories. -/
theorem IsTree.above (ht : files.IsTree) (names : List String)
    (h : files.node? (place ++ names) = some .directory) :
    files.node? place = some .directory := by
  induction names using List.reverseRecOn with
  | nil => rwa [List.append_nil] at h
  | append_singleton names name ih =>
    rw [← List.append_assoc] at h
    exact ih (ht.rooted _ _ _ h)

theorem IsTree.within (ht : files.IsTree) {names : List String} (hnames : names ≠ [])
    (h : files.node? (place ++ names) = some node) : files.node? place = some .directory := by
  cases names using List.reverseRecOn with
  | nil => exact absurd rfl hnames
  | append_singleton names name =>
    rw [← List.append_assoc] at h
    exact ht.above names (ht.rooted _ _ _ h)

theorem IsTree.dropLast (ht : files.IsTree) (h : files.node? place = some .directory) :
    files.node? place.dropLast = some .directory := by
  cases place using List.reverseRecOn with
  | nil => exact h
  | append_singleton place name =>
    rw [List.dropLast_concat]
    exact ht.rooted _ _ _ h

-- ----------------------------------------------------------------------------
-- Walks
-- ----------------------------------------------------------------------------

/-- Everything that was a directory still is one. -/
structure KeepsDirectories (files files' : Files) : Prop where
  home : files'.workingDirectory = files.workingDirectory
  kept : ∀ place, files.node? place = some .directory → files'.node? place = some .directory

/-- What a step on a walk does, if it leads on. -/
inductive Enters (files : Files) (place : Place) : String → Place → Prop
  | idle {piece : String} : Path.isIdle piece → Enters files place piece place
  | up : Enters files place Path.up place.dropLast
  | down {piece : String} : ¬ Path.isIdle piece → piece ≠ Path.up →
      piece.utf8ByteSize ≤ Path.longestName → files.node? (place ++ [piece]) = some .directory →
        Enters files place piece (place ++ [piece])

theorem enter_ok {piece : String} :
    files.enter place piece = .ok other ↔ Enters files place piece other := by
  constructor
  · intro h
    rw [enter] at h
    split at h
    · next hidle =>
      cases h
      exact .idle hidle
    · next hidle =>
      split at h
      · next hup =>
        cases h
        exact hup ▸ .up
      · next hup =>
        rw [lookUp] at h
        split at h
        · next heq =>
          cases h
          split at heq
          · cases heq
          · next hlong => exact .down hidle hup (Nat.not_lt.mp hlong) (Except.ok.inj heq)
        all_goals cases h
  · intro h
    cases h with
    | idle hidle => rw [enter, if_pos hidle]
    | up => rfl
    | down hidle hup hlong hnode =>
      rw [enter, if_neg hidle, if_neg hup, lookUp, if_neg (Nat.not_lt.mpr hlong), hnode]

theorem IsTree.enter (ht : files.IsTree) {piece : String}
    (hplace : files.node? place = some .directory) (h : files.enter place piece = .ok other) :
    files.node? other = some .directory := by
  cases enter_ok.mp h with
  | idle => exact hplace
  | up => exact ht.dropLast hplace
  | down _ _ _ hnode => exact hnode

theorem IsTree.walk (ht : files.IsTree) {pieces : List String}
    (hplace : files.node? place = some .directory)
    (h : pieces.foldlM files.enter place = .ok other) : files.node? other = some .directory := by
  induction pieces generalizing place with
  | nil =>
    cases h
    exact hplace
  | cons piece pieces ih =>
    rw [List.foldlM_cons] at h
    obtain ⟨next, henter, hwalk⟩ := bind_eq_ok.mp h
    exact ih (ht.enter hplace henter) hwalk

theorem IsTree.start (ht : files.IsTree) (path : Path) :
    files.node? (files.start path) = some .directory := by
  rw [Files.start]
  split
  · rfl
  · exact ht.home

theorem KeepsDirectories.walk (hk : files.KeepsDirectories files') {pieces : List String}
    (h : pieces.foldlM files.enter place = .ok other) :
    pieces.foldlM files'.enter place = .ok other := by
  induction pieces generalizing place with
  | nil => exact h
  | cons piece pieces ih =>
    rw [List.foldlM_cons] at h ⊢
    obtain ⟨next, henter, hwalk⟩ := bind_eq_ok.mp h
    have henter' : files'.enter place piece = .ok next := by
      refine enter_ok.mpr ?_
      cases enter_ok.mp henter with
      | idle hidle => exact .idle hidle
      | up => exact .up
      | down hidle hup hlong hnode => exact .down hidle hup hlong (hk.kept _ hnode)
    exact bind_eq_ok.mpr ⟨next, henter', ih hwalk⟩

-- ----------------------------------------------------------------------------
-- Ends of paths
-- ----------------------------------------------------------------------------

/-- A path that the system takes at all. -/
def Taken (path : Path) : Prop :=
  path.hasTerminator = false ∧ path.toString.utf8ByteSize ≤ Path.longest

/-- The end of a walk, or what the last piece makes of it. -/
def spotAt (path : Path) (last : String) (directory : Place) : Spot :=
  if Path.isIdle last then ⟨directory, none, false⟩
  else if last = Path.up then ⟨directory.dropLast, none, false⟩
  else ⟨directory, some last, path.endsInSlash⟩

theorem spot_of_taken (h : Taken path) : files.spot path =
    match path.steps.getLast? with
    | none => if path.isAbsolute then .ok ⟨[], none, false⟩ else .error (.system .notFound)
    | some last =>
      (path.steps.dropLast.foldlM files.enter (files.start path)).map (spotAt path last) := by
  obtain ⟨hterminator, hlong⟩ := h
  rw [spot, hterminator, if_neg Bool.false_ne_true]
  simp only [if_neg (Nat.not_lt.mpr hlong)]
  cases path.steps.getLast? with
  | none => rfl
  | some last =>
    rcases path.steps.dropLast.foldlM files.enter (files.start path) with e | directory
    · rfl
    · show (if _ then _ else if _ then _ else _) = Except.ok (spotAt path last directory)
      rw [spotAt]
      split
      · rfl
      · split <;> rfl

theorem taken_of_spot {spot : Spot} (h : files.spot path = .ok spot) : Taken path := by
  rw [Files.spot] at h
  by_cases hterminator : path.hasTerminator
  · rw [if_pos hterminator] at h
    cases h
  · rw [if_neg hterminator] at h
    by_cases hlong : Path.longest < path.toString.utf8ByteSize
    · simp only [if_pos hlong] at h
      cases h
    · exact ⟨Bool.eq_false_iff.mpr hterminator, Nat.not_lt.mp hlong⟩

theorem spot_ok {spot : Spot} : files.spot path = .ok spot ↔ Taken path ∧
    ((path.steps.getLast? = none ∧ path.isAbsolute ∧ spot = ⟨[], none, false⟩) ∨
      ∃ last directory, path.steps.getLast? = some last ∧
        path.steps.dropLast.foldlM files.enter (files.start path) = .ok directory ∧
        spot = spotAt path last directory) := by
  refine ⟨fun h => ⟨taken_of_spot h, ?_⟩, fun ⟨htaken, h⟩ => ?_⟩
  · rw [spot_of_taken (taken_of_spot h)] at h
    split at h
    · next hlast =>
      split at h
      · next habsolute =>
        cases h
        exact .inl ⟨hlast, habsolute, rfl⟩
      · cases h
    · next last hlast =>
      obtain ⟨directory, hwalk, rfl⟩ := map_eq_ok.mp h
      exact .inr ⟨last, directory, hlast, hwalk, rfl⟩
  · rw [spot_of_taken htaken]
    obtain ⟨hlast, habsolute, rfl⟩ | ⟨last, directory, hlast, hwalk, rfl⟩ := h
    · rw [hlast]
      exact if_pos habsolute
    · rw [hlast]
      simp only [hwalk]
      rfl

theorem KeepsDirectories.spot (hk : files.KeepsDirectories files') {spot : Spot}
    (h : files.spot path = .ok spot) : files'.spot path = .ok spot := by
  obtain ⟨htaken, hroot | ⟨last, directory, hlast, hwalk, hspot⟩⟩ := spot_ok.mp h
  · exact spot_ok.mpr ⟨htaken, .inl hroot⟩
  · have hstart : files'.start path = files.start path := by rw [start, start, hk.home]
    exact spot_ok.mpr ⟨htaken, .inr ⟨last, directory, hlast, hstart ▸ hk.walk hwalk, hspot⟩⟩

theorem IsTree.spot (ht : files.IsTree) {spot : Spot} (h : files.spot path = .ok spot) :
    files.node? spot.directory = some .directory := by
  obtain ⟨-, ⟨-, -, rfl⟩ | ⟨last, directory, -, hwalk, rfl⟩⟩ := spot_ok.mp h
  · rfl
  · have hdirectory := ht.walk (ht.start path) hwalk
    rw [spotAt]
    split
    · exact hdirectory
    · split
      · exact ht.dropLast hdirectory
      · exact hdirectory

/-- What is at a spot. -/
def statAt (files : Files) : Spot → Except IoError Node
  | ⟨_, none, _⟩ => .ok .directory
  | ⟨directory, some name, needsDirectory⟩ =>
    if Path.longestName < name.utf8ByteSize then .error (.system .invalidFilename)
    else
      match files.node? (directory ++ [name]) with
      | none => .error (.system .notFound)
      | some .directory => .ok .directory
      | some (.file number) =>
        if needsDirectory then .error (.system .notADirectory) else .ok (.file number)

theorem stat_eq (files : Files) (path : Path) :
    files.stat path = files.spot path >>= files.statAt := by
  rw [stat]
  cases files.spot path with
  | error e => rfl
  | ok spot =>
    obtain ⟨directory, _ | name, slash⟩ := spot
    · rfl
    · rw [ok_bind, ok_bind, statAt]
      simp only [lookUp]
      split
      · rfl
      · rcases files.node? (directory ++ [name]) with _ | _ | number
        · rfl
        · rfl
        · cases slash <;> rfl

/-- What a path finds: nothing, or what comes of reading it. -/
def found? (files : Files) (path : Path) : Option (Except IoError Bytes) :=
  (files.stat path).toOption.map files.contentOf

theorem exists?_eq (files : Files) (path : Path) :
    files.exists? path = (files.found? path).isSome := by
  rw [exists?, found?]
  cases files.stat path <;> rfl

theorem content?_eq {answer : Except IoError Bytes} (h : files.found? path = some answer) :
    files.content? path = answer := by
  rw [found?] at h
  rw [content?]
  cases hstat : files.stat path with
  | error e =>
    rw [hstat] at h
    cases h
  | ok node =>
    rw [hstat] at h
    exact Option.some.inj h

theorem found?_eq_none (h : ∀ node, files.stat path ≠ .ok node) : files.found? path = none := by
  rw [found?]
  cases hstat : files.stat path with
  | error e => rfl
  | ok node => exact absurd hstat (h node)

/-- The directories and what is listed at the end decide where a path leads. -/
theorem stat_congr (hk : files.KeepsDirectories files') (hk' : files'.KeepsDirectories files)
    (hname : ∀ directory name slash, files.spot path = .ok ⟨directory, some name, slash⟩ →
      files'.node? (directory ++ [name]) = files.node? (directory ++ [name])) :
    (files'.stat path).toOption = (files.stat path).toOption := by
  rw [stat_eq, stat_eq]
  cases hspot : files.spot path with
  | error e =>
    cases hspot' : files'.spot path with
    | error e' => rfl
    | ok spot =>
      rw [hk'.spot hspot'] at hspot
      cases hspot
  | ok spot =>
    rw [hk.spot hspot]
    obtain ⟨directory, _ | name, slash⟩ := spot
    · rfl
    · rw [ok_bind, ok_bind, statAt, statAt, hname directory name slash hspot]

/-- What it finds is the same if the file that it leads to is. -/
theorem found?_congr (hstat : (files'.stat path).toOption = (files.stat path).toOption)
    (hcontent : ∀ number, files.stat path = .ok (.file number) →
      files'.content number = files.content number) :
    files'.found? path = files.found? path := by
  rw [found?, found?, hstat]
  cases hnode : files.stat path with
  | error e => rfl
  | ok node =>
    cases node with
    | directory => rfl
    | file number => exact congrArg (some ∘ Except.ok) (hcontent number hnode)

-- ----------------------------------------------------------------------------
-- Ways down
-- ----------------------------------------------------------------------------

/-- The pieces that lead down. -/
def namesOf (pieces : List String) : List String := pieces.filter fun piece => ¬ Path.isIdle piece

theorem namesOf_nil : namesOf [] = [] := rfl

theorem namesOf_cons_idle {piece : String} (h : Path.isIdle piece) (pieces : List String) :
    namesOf (piece :: pieces) = namesOf pieces := List.filter_cons_of_neg (by simp [h])

theorem namesOf_cons {piece : String} (h : ¬ Path.isIdle piece) (pieces : List String) :
    namesOf (piece :: pieces) = piece :: namesOf pieces := List.filter_cons_of_pos (by simp [h])

theorem namesOf_append (front back : List String) :
    namesOf (front ++ back) = namesOf front ++ namesOf back := List.filter_append ..

theorem namesOf_filter (pieces : List String) :
    namesOf (pieces.filter (· ≠ "")) = namesOf pieces := by
  unfold namesOf
  rw [List.filter_filter]
  refine List.filter_congr fun piece _ => ?_
  by_cases hblank : piece = "" <;> simp [hblank, Path.isIdle]

/-- What stands between two slashes takes nobody anywhere. -/
theorem walk_filter (files : Files) (pieces : List String) (place : Place) :
    (pieces.filter (· ≠ "")).foldlM files.enter place = pieces.foldlM files.enter place := by
  induction pieces generalizing place with
  | nil => rfl
  | cons piece pieces ih =>
    by_cases hblank : piece = ""
    · subst hblank
      exact ih place
    · rw [List.filter_cons_of_pos (by simpa using hblank), List.foldlM_cons, List.foldlM_cons]
      exact congrArg _ (funext ih)

/-- A walk without double dots goes straight down. -/
theorem walk_down {pieces : List String} (hup : Path.up ∉ pieces)
    (h : pieces.foldlM files.enter place = .ok other) : other = place ++ namesOf pieces := by
  induction pieces generalizing place with
  | nil =>
    cases h
    exact (List.append_nil _).symm
  | cons piece pieces ih =>
    rw [List.foldlM_cons] at h
    obtain ⟨next, henter, hwalk⟩ := bind_eq_ok.mp h
    have hother := ih (List.not_mem_of_not_mem_cons hup) hwalk
    cases enter_ok.mp henter with
    | idle hidle => rwa [namesOf_cons_idle hidle]
    | up => exact absurd List.mem_cons_self hup
    | down hidle =>
      rw [namesOf_cons hidle]
      rwa [List.append_assoc, List.singleton_append] at hother

theorem walk_append {front rest : List String}
    (hfront : front.foldlM files.enter place = .ok other) :
    (front ++ rest).foldlM files.enter place = rest.foldlM files.enter other := by
  rw [List.foldlM_append, hfront]
  rfl

theorem statAt_ok {slash : Bool} :
    files.statAt ⟨directory, some name, slash⟩ = .ok node ↔
      name.utf8ByteSize ≤ Path.longestName ∧ files.node? (directory ++ [name]) = some node ∧
        (node ≠ .directory → slash = false) := by
  rw [statAt]
  by_cases hlong : Path.longestName < name.utf8ByteSize
  · rw [if_pos hlong]
    exact ⟨nofun, fun h => absurd hlong (Nat.not_lt.mpr h.1)⟩
  · rw [if_neg hlong]
    rcases hat : files.node? (directory ++ [name]) with _ | _ | number
    · simp
    · cases node <;> simp [Nat.not_lt.mp hlong]
    · cases node <;> cases slash <;> simp [Nat.not_lt.mp hlong]

/-- A file is found where the path ends in its name. -/
theorem stat_file : files.stat path = .ok (.file number) ↔
    ∃ directory name, files.spot path = .ok ⟨directory, some name, false⟩ ∧
      name.utf8ByteSize ≤ Path.longestName ∧
        files.node? (directory ++ [name]) = some (.file number) := by
  rw [stat_eq, bind_eq_ok]
  constructor
  · rintro ⟨⟨directory, _ | name, slash⟩, hspot, hstat⟩
    · cases hstat
    · obtain ⟨hlong, hnode, hslash⟩ := statAt_ok.mp hstat
      obtain rfl := hslash nofun
      exact ⟨directory, name, hspot, hlong, hnode⟩
  · rintro ⟨directory, name, hspot, hlong, hnode⟩
    exact ⟨_, hspot, statAt_ok.mpr ⟨hlong, hnode, fun _ => rfl⟩⟩

/-- What a path leads to is listed where its last names lead down to. -/
theorem IsTree.node?_of_stat (ht : files.IsTree) {front rest : List String}
    (hpieces : path.pieces = front ++ rest) (hup : Path.up ∉ rest) (hrest : namesOf rest ≠ [])
    (hfront : front.foldlM files.enter (files.start path) = .ok place)
    (h : files.stat path = .ok node) : files.node? (place ++ namesOf rest) = some node := by
  have hsteps : path.steps = front.filter (· ≠ "") ++ rest.filter (· ≠ "") := by
    rw [Path.steps, hpieces, List.filter_append]
  rw [← walk_filter] at hfront
  rw [← namesOf_filter] at hrest ⊢
  have hup : Path.up ∉ rest.filter (· ≠ "") := fun hmem => hup (List.mem_filter.mp hmem).1
  generalize rest.filter (· ≠ "") = down at hsteps hup hrest
  cases down using List.reverseRecOn with
  | nil => exact absurd rfl hrest
  | append_singleton down last =>
    have hlastUp : last ≠ Path.up := by
      rintro rfl
      exact hup (List.mem_append_right _ List.mem_cons_self)
    have hdown : Path.up ∉ down := fun hmem => hup (List.mem_append_left _ hmem)
    rw [stat_eq] at h
    obtain ⟨spot, hspot, hstat⟩ := bind_eq_ok.mp h
    obtain ⟨-, ⟨hnone, -, -⟩ | ⟨last', directory, hlast, hwalk, rfl⟩⟩ := spot_ok.mp hspot
    · rw [hsteps, ← List.append_assoc, List.getLast?_concat] at hnone
      cases hnone
    · rw [hsteps, ← List.append_assoc, List.getLast?_concat] at hlast
      cases hlast
      rw [hsteps, ← List.append_assoc, List.dropLast_concat] at hwalk
      have hdirectory := ht.walk (ht.start path) hwalk
      rw [walk_append hfront] at hwalk
      obtain rfl := walk_down hdown hwalk
      rw [namesOf_append]
      by_cases hidle : Path.isIdle last
      · rw [spotAt, if_pos hidle] at hstat
        cases hstat
        rwa [namesOf_cons_idle hidle, namesOf_nil, List.append_nil]
      · rw [spotAt, if_neg hidle, if_neg hlastUp] at hstat
        rw [namesOf_cons hidle, ← List.append_assoc]
        exact (statAt_ok.mp hstat).2.1

end SealedStream.Files
