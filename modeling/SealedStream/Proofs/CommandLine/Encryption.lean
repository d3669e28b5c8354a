import SealedStream.Proofs.CommandLine.Drafts
import SealedStream.Proofs.Migration

/-!
# What sealing a file comes to

The draft is created before the input is read, and what is read is what the input holds
then. So the sealed text is what the input held when the command began, unless the
draft has emptied it.
-/

namespace SealedStream

-- ----------------------------------------------------------------------------
-- Where drafts lie
-- ----------------------------------------------------------------------------

theorem splitOn_append {α : Type} [BEq α] [LawfulBEq α] {a : α} (xs : List α) {ys : List α}
    (hys : a ∉ ys) : ∃ front last,
      xs.splitOn a = front ++ [last] ∧ (xs ++ ys).splitOn a = front ++ [last ++ ys] := by
  induction xs with
  | nil => exact ⟨[], [], rfl, List.splitOn_eq_singleton hys⟩
  | cons x xs ih =>
    obtain ⟨front, last, hxs, hboth⟩ := ih
    rw [List.cons_append, List.splitOn_cons_eq_if_modifyHead, List.splitOn_cons_eq_if_modifyHead,
      hxs, hboth]
    by_cases hx : x == a
    · exact ⟨[] :: front, last, by simp [hx], by simp [hx]⟩
    · cases front with
      | nil => exact ⟨[], x :: last, by simp [hx], by simp [hx]⟩
      | cons first rest => exact ⟨(x :: first) :: rest, last, by simp [hx], by simp [hx]⟩

namespace CommandLine

/-- The path of a draft is that of the output with a longer last piece. -/
theorem draftOf_eq (output : String) : ∃ isAbsolute front last,
    Path.ofString output = ⟨isAbsolute, front ++ [last]⟩ ∧
      draftOf output = ⟨isAbsolute, front ++ [last ++ ".tmp"]⟩ := by
  have hslash : '/' ∉ ".tmp".toList := by decide
  obtain ⟨front, last, houtput, hdraft⟩ := splitOn_append output.toList hslash
  unfold draftOf Path.ofString
  rw [String.toList_append, houtput, hdraft]
  cases front with
  | nil => exact ⟨false, [], String.ofList last, by simp, by simp⟩
  | cons first rest =>
    by_cases hfirst : String.ofList first = ""
    · refine ⟨true, rest.map String.ofList, String.ofList last, ?_, ?_⟩
      all_goals cases rest <;> simp [hfirst]
    · refine ⟨false, (first :: rest).map String.ofList, String.ofList last, ?_, ?_⟩
      all_goals cases rest <;> simp [hfirst]

variable {files : Files} {output : String} {home directory directory' : SealedStream.Place}
  {name name' : String} {slash : Bool}

theorem endsInSlash_of_spot {path : Path}
    (h : files.spot path = .ok ⟨directory, some name, slash⟩) : slash = path.endsInSlash := by
  obtain ⟨-, ⟨-, -, hspot⟩ | ⟨last, directory', -, -, hspot⟩⟩ := Files.spot_ok.mp h
  · cases hspot
  · rw [Files.spotAt] at hspot
    split at hspot
    · cases hspot
    · split at hspot
      · cases hspot
      · cases hspot
        rfl

/-- The draft of an output that is no directory lies beside it. -/
theorem draft_beside (h : files.spot (Path.ofString output) = .ok ⟨directory, some name, false⟩)
    (hdraft : files.spot (draftOf output) = .ok ⟨directory', some name', slash⟩) :
    directory' = directory ∧ name' = name ++ ".tmp" := by
  have hslash := endsInSlash_of_spot h
  obtain ⟨isAbsolute, front, last, houtput, hpath⟩ := draftOf_eq output
  rw [houtput] at h hslash
  rw [hpath] at hdraft
  have hlast : last ≠ "" := by
    rintro rfl
    simp [Path.endsInSlash] at hslash
  obtain ⟨before, blanks, hpieces, hblanks, -, -, hwalk⟩ := Files.pieces_of_spot h
  obtain ⟨before', blanks', hpieces', hblanks', -, -, hwalk'⟩ := Files.pieces_of_spot hdraft
  obtain ⟨rfl, rfl⟩ := Files.append_cons_eq_concat hpieces.symm hblanks hlast
  have hlonger : name ++ ".tmp" ≠ "" := fun h => by simpa using congrArg String.toList h
  obtain ⟨rfl, rfl⟩ := Files.append_cons_eq_concat hpieces'.symm hblanks' hlonger
  exact ⟨Except.ok.inj (hwalk'.symm.trans hwalk), rfl⟩

end CommandLine

-- ----------------------------------------------------------------------------
-- Calls that have succeeded
-- ----------------------------------------------------------------------------

namespace Files

variable {files files' : Files} {path : Path} {node : Node} {number : FileNumber} {bytes : Bytes}

theorem callOrNothing_ok {α : Type} {x : Action Files IoError α} {a : α}
    (h : callOrNothing x files = (.ok a, files')) :
    x (files.facing files.faults.tail) = (.ok a, files') := by
  unfold callOrNothing call at h
  split at h
  · cases h
  · exact h

theorem openAt_ok (h : openAt path files = (.ok node, files')) :
    files.stat path = .ok node ∧ files' = files.facing files.faults.tail := by
  unfold openAt at h
  have hread := callOrNothing_ok h
  exact ⟨(Prod.mk.inj hread).1, (Prod.mk.inj hread).2.symm⟩

theorem createAt_ok (h : createAt path files = (.ok number, files')) :
    (files.facing files.faults.tail).create path = .ok (number, files') := by
  unfold createAt at h
  have hmade := callOrNothing_ok h
  split at hmade
  · next hcreate =>
    cases hmade
    exact hcreate
  · cases hmade

theorem overwrite_ok (h : (FileStep.overwrite number bytes).run files = (.ok (), files')) :
    files' = (files.overwrite number bytes).facing files.faults.tail :=
  (Prod.mk.inj (run_ok h)).2.symm

theorem leads_of_stat (h : files.stat path = .ok (.file number)) :
    ∃ place, files.Leads path place ∧ files.node? place = some (.file number) := by
  rw [stat_eq] at h
  obtain ⟨⟨directory, _ | name, slash⟩, hspot, h⟩ := bind_eq_ok.mp h
  · cases h
  · exact ⟨directory ++ [name], ⟨directory, name, slash, hspot, rfl⟩, (statAt_ok.mp h).2.1⟩

theorem Confined.facing {faults : List (Option Fault)} (h : faults <:+ files.faults)
    (inside : Place → Prop) : Confined inside files (files.facing faults) where
  same := ⟨⟨rfl, fun _ => id⟩, ⟨rfl, fun _ => id⟩⟩
  nodes _ _ := rfl
  contents _ _ _ _ := rfl
  faults := h

/-- A file that has been created is empty, and nothing else has changed. -/
theorem create_end (hw : files.WellFormed) (h : files.create path = .ok (number, files')) :
    ∃ directory name, files.spot path = .ok ⟨directory, some name, false⟩ ∧
      files'.node? (directory ++ [name]) = some (.file number) ∧ files'.content number = [] ∧
        (∀ other, files.node? (directory ++ [name]) = some (.file other) → other = number) ∧
          Confined (· = directory ++ [name]) files files' := by
  obtain ⟨directory, name, hspot, -, hmade⟩ := create_ok h
  have hplace (place : Place) (hleads : files.Leads path place) : place = directory ++ [name] :=
    hleads.unique ⟨directory, name, false, hspot, rfl⟩
  refine ⟨directory, name, hspot, ?_, ?_, fun other hother => ?_, .create hw hplace h⟩
  · obtain ⟨hnode, rfl⟩ | ⟨-, hadd⟩ := hmade
    · exact hnode
    · cases hadd
      have hput := node?_putName files directory (directory ++ [name]) name
        (.file files.contents.length)
      rwa [if_pos rfl] at hput
  · obtain ⟨hnode, rfl⟩ | ⟨-, hadd⟩ := hmade
    · rw [content_setContent _ _ _ _ (hw.numbered _ _ hnode), if_pos rfl]
    · cases hadd
      simp [content]
  · obtain ⟨hnode, -⟩ | ⟨hfree, -⟩ := hmade
    · cases hnode.symm.trans hother
      rfl
    · rw [hfree] at hother
      cases hother

/-- A file that has been given another name holds what it held. -/
theorem rename_end {source target : Path} {directory : Place} {name : String}
    (h : files.rename source target = .ok files')
    (hspot : files.spot source = .ok ⟨directory, some name, false⟩)
    (hnode : files.node? (directory ++ [name]) = some (.file number)) :
    ∃ directory' name', files.spot target = .ok ⟨directory', some name', false⟩ ∧
      files'.stat target = .ok (.file number) ∧ files'.contents = files.contents ∧
        Confined (fun place => place = directory ++ [name] ∨ place = directory' ++ [name'])
          files files' := by
  have hkeeps := (sameDirectories_rename h).1
  obtain ⟨directory₁, name₁, directory', name', number', hspot₁, hspot', hlong, hnode₁, -, hend⟩ :=
    rename_ok h
  cases hspot₁.symm.trans hspot
  cases hnode₁.symm.trans hnode
  refine ⟨directory', name', hspot', ?_, ?_, .rename ?_ h⟩
  · rw [stat_eq, hkeeps.spot hspot', ok_bind]
    refine statAt_ok.mpr ⟨hlong, ?_, fun _ => rfl⟩
    obtain ⟨hnode', rfl⟩ | rfl := hend
    · exact hnode'
    · rw [node?_putName, if_pos rfl]
  · obtain ⟨-, rfl⟩ | rfl := hend <;> rfl
  · rintro place (hleads | hleads)
    · exact .inl (hleads.unique ⟨directory, name, false, hspot, rfl⟩)
    · exact .inr (hleads.unique ⟨directory', name', false, hspot', rfl⟩)

/-- An empty draft that is written and given its name. -/
theorem written_end {source target : Path} {directory : Place} {name : String}
    {faults : List (Option Fault)} (hw : files.WellFormed)
    (hspot : files.spot source = .ok ⟨directory, some name, false⟩)
    (hnode : files.node? (directory ++ [name]) = some (.file number))
    (hempty : files.content number = []) (hfaults : faults <:+ files.faults)
    (h : ((files.overwrite number bytes).facing faults).rename source target = .ok files') :
    files'.WellFormed ∧ files'.stat target = .ok (.file number) ∧ files'.content number = bytes ∧
      Confined (fun place => place = directory ++ [name] ∨ files.Leads target place)
        files files' := by
  have hwritten : files.overwrite number bytes = files.setContent number bytes := by
    rw [overwrite, hempty, List.drop_nil, List.append_nil]
  rw [hwritten] at h
  have hw' := (hw.setContent number bytes).withFaults faults
  obtain ⟨directory', name', htarget, hstat, hcontents, hrenamed⟩ := rename_end h hspot hnode
  refine ⟨hw'.rename h, hstat, ?_, ?_⟩
  · have hsame : files'.content number = (files.setContent number bytes).content number := by
      rw [content, hcontents]
      rfl
    rw [hsame, content_setContent _ _ _ _ (hw.numbered _ _ hnode), if_pos rfl]
  · have hset : Confined (fun place => place = directory ++ [name] ∨ files.Leads target place)
        files (files.setContent number bytes) :=
      .setContent (fun place hplace => .inl (hw.once _ _ _ hplace hnode)) bytes
    have hcoming : faults <:+ (files.setContent number bytes).faults := hfaults
    refine (hset.trans (.facing hcoming _)).trans (hrenamed.mono fun place hplace => ?_)
    exact hplace.imp_right fun hplace => ⟨directory', name', false, htarget, hplace⟩

/-- What is read when an empty draft has been created, and the state has been written to, is what
stood at the source before, unless the draft is the source. -/
theorem read_behind {start created read last : Files} {home draft : Place} {text : Bytes}
    {source draftPath target : Path} (hdraft : start.Leads draftPath draft)
    (hcreated : Confined (· = draft) start created)
    (hread : Confined (home <+: ·) created read)
    (hlast : Confined (fun place => place = draft ∨ read.Leads target place) read last)
    (hnumber : ∀ other, start.node? draft = some (.file other) → other = number)
    (hempty : read.content number = []) (hstat : start.stat source = .ok node)
    (htext : read.contentOf node = .ok text)
    (hbeyond : ∀ place, start.Leads source place → ¬ home <+: place) :
    ∃ place held, start.Leads source place ∧ start.standing place = some (some held) ∧
      (start.Leads draftPath place → text = []) ∧
      (¬ start.Leads draftPath place → text = held ∧
        (¬ start.Leads target place → last.standing place = some (some held))) := by
  cases node with
  | directory => cases htext
  | file other =>
    obtain ⟨place, hleads, hnode⟩ := leads_of_stat hstat
    have hstanding : start.standing place = some (some (start.content other)) := by
      rw [standing, hnode]
      rfl
    refine ⟨place, start.content other, hleads, hstanding, fun hsame => ?_, fun hapart => ?_⟩
    · obtain rfl := hsame.unique hdraft
      obtain rfl := hnumber other hnode
      exact (Except.ok.inj htext).symm.trans hempty
    · have hne : place ≠ draft := by
        rintro rfl
        exact hapart hdraft
      have hnode' : created.node? place = some (.file other) :=
        (hcreated.nodes place hne).trans hnode
      have hcontent : read.content other = start.content other := by
        rw [hread.contents place other (hbeyond place hleads) hnode',
          hcreated.contents place other hne hnode]
      refine ⟨(Except.ok.inj htext).symm.trans hcontent, fun hkept => ?_⟩
      rw [hlast.standing, hread.standing (hbeyond place hleads), hcreated.standing hne, hstanding]
      rintro (hsame | hsame)
      · exact hne hsame
      · exact hkept (hsame.of_keeps (hread.same.2.trans hcreated.same.2))

/-- All that an open file delivers is what it holds from there on. -/
theorem deliver_ok {ε : Type} {offset : Nat} {source rest : Source}
    (h : (deliver node offset files : Except ε Source × Files) = (.ok source, files'))
    (hread : source.readToEnd = (.ok bytes, rest)) :
    ∃ held, files.contentOf node = .ok held ∧ bytes = held.drop offset := by
  unfold deliver at h
  generalize files.faults.head? = fault? at h
  cases node with
  | directory =>
    have hstopped : (IoError.system .isADirectory).isInterrupted = false := rfl
    rcases fault? with _ | _ | fault
    all_goals
      cases h
      simp [contentOf, Source.readToEnd, hstopped] at hread
    split at hread <;> cases hread
  | file number =>
    refine ⟨files.content number, rfl, ?_⟩
    rcases fault? with _ | _ | fault
    all_goals
      cases h
      simp [contentOf, Source.readToEnd, Except.map] at hread
    · exact hread.1.symm
    · exact hread.1.symm
    · split at hread
      · exact (Except.ok.inj (Prod.mk.inj hread).1).symm
      · cases hread

end Files

namespace CommandLine

variable {input output message : String} {node : Node} {copied : Copied} {bytes : Bytes}
  {p p' : Custody}

/-- What an input is sealed to is the stream of what it holds when the stream has begun. -/
theorem sealInput_ok (h : sealInput node p = (.ok (.ok copied, bytes), p')) :
    ∃ text begun, Custody.encrypt text p = (.ok bytes, begun) ∧
      begun.files.contentOf node = .ok text ∧
        p' = begun.withFiles (begun.files.facing begun.files.faults.tail) := by
  unfold sealInput at h
  obtain ⟨⟨answer, sink⟩, begun, hbegin, h⟩ := Action.bind_ok.mp h
  rcases hstart : Outgoing.start { custody := p, sink := {} } with ⟨started, out⟩
  have hbegun : beginSealing p = (.ok (started.mapError fun e => e.map .stream, out.sink),
      out.custody) := by rw [beginSealing, hstart]
  cases hbegun.symm.trans hbegin
  cases started with
  | error e => cases h
  | ok sealing =>
    obtain ⟨source, p₂, hdeliver, h⟩ := Action.bind_ok.mp h
    rw [onFiles_apply, Prod.mk.injEq] at hdeliver
    obtain ⟨hsource, rfl⟩ := hdeliver
    rcases hread : source.readToEnd with ⟨e | text, rest⟩
    all_goals
      rw [hread] at h
      obtain ⟨hsealed, rfl⟩ := Prod.mk.inj h
    · cases hsealed
    · obtain ⟨held, hheld, htext⟩ := Files.deliver_ok (Prod.ext hsource rfl) hread
      rw [List.drop_zero] at htext
      refine ⟨text, out.custody, ?_, htext ▸ hheld, by rw [Files.deliver_files]⟩
      have hsealed := Except.ok.inj hsealed
      unfold sealText at hsealed
      rw [Custody.encrypt, hstart]
      simp only at hsealed ⊢
      split
      · next hfinish =>
        rw [hfinish] at hsealed
        rw [(Prod.mk.inj hsealed).2]
      · next hfinish =>
        rw [hfinish] at hsealed
        cases hsealed

theorem encryptFile_ok (h : encryptFile input output p = (.ok message, p')) :
    ∃ node number created copied bytes faults faults' renamed, ∃ done : Custody,
      p.files.stat (Path.ofString input) = .ok node ∧
      faults <:+ p.files.faults ∧
      (p.files.facing faults).create (draftOf output) = .ok (number, created) ∧
      sealInput node (p.withFiles created) = (.ok (.ok copied, bytes), done) ∧
      faults' <:+ done.files.faults ∧
      ((done.files.overwrite number bytes).facing faults').rename (draftOf output)
        (Path.ofString output) = .ok renamed ∧
      p' = done.withFiles renamed := by
  unfold encryptFile at h
  obtain ⟨node, p₁, hopen, h⟩ := Action.bind_ok.mp h
  obtain ⟨files₁, hopened, rfl⟩ := file_ok.mp hopen
  obtain ⟨hstat, rfl⟩ := Files.openAt_ok hopened
  obtain ⟨answer, p₃, hattempt, h⟩ := Action.bind_ok.mp h
  have hwrite := Action.attempt_ok.mp hattempt
  cases answer with
  | error f => cases f <;> cases h
  | ok copied =>
    rw [writeSealed_eq] at hwrite
    obtain ⟨number, p₄, hcreate, hwrite⟩ := Action.bind_ok.mp hwrite
    obtain ⟨created, hcreated, rfl⟩ := file_ok.mp hcreate
    unfold writeInto at hwrite
    obtain ⟨⟨sealed, bytes⟩, done, hseal, hwrite⟩ := Action.bind_ok.mp hwrite
    cases sealed with
    | error e =>
      obtain ⟨_, _, -, hthrow⟩ := Action.bind_ok.mp hwrite
      cases hthrow
    | ok copied' =>
      obtain ⟨_, p₅, hoverwrite, hwrite⟩ := Action.bind_ok.mp hwrite
      obtain ⟨files₅, hoverwritten, rfl⟩ := file_ok.mp hoverwrite
      obtain ⟨_, p₆, hsync, hwrite⟩ := Action.bind_ok.mp hwrite
      obtain ⟨files₆, hsynced, rfl⟩ := file_ok.mp hsync
      cases hwrite
      obtain ⟨_, p₇, hrename, h⟩ := Action.bind_ok.mp h
      obtain ⟨renamed, hrenamed, rfl⟩ := file_ok.mp hrename
      cases Files.overwrite_ok hoverwritten
      cases Files.run_ok hsynced
      have hend : p' = done.withFiles renamed := by
        split at h <;> cases h <;> rfl
      have hfaults := List.tail_suffix p.files.faults
      have hfaults' := List.tail_suffix done.files.faults
      exact ⟨node, number, created, copied, bytes, p.files.faults.tail.tail,
        done.files.faults.tail.tail.tail, renamed, done, hstat,
        (List.tail_suffix _).trans hfaults, Files.createAt_ok hcreated, hseal,
        ((List.tail_suffix _).trans (List.tail_suffix _)).trans hfaults',
        Files.change_ok (Files.run_ok hrenamed), hend⟩

theorem encrypt_kept {text stream : Bytes} (hp : p.isProtected)
    (hcached : p.custodian.cached = none) (hu : p.custodian.config.Usable)
    (h : Custody.encrypt text p = (.ok stream, p')) :
    ∃ k, Custody.IsSealed k.key text stream ∧
      p.custodian.Kept p'.host.vault p'.host.settings k := by
  have hend := Custody.encrypt_end hp text
  rw [h] at hend
  cases hend with
  | @sealed k p₁ host _ hresolve hsealed same around =>
    have hlookUp := Custody.lookUp_of_resolve hcached hresolve
    obtain ⟨source, hkept⟩ := (Custodian.lookedUp hu.valid hp hlookUp).kept hu.apart
    exact ⟨{ k with source }, hsealed, hkept.of_same same⟩

theorem meeting_housed {directory : Path} {home : SealedStream.Place} :
    Meeting (Host.Housed directory home) :=
  fun p hp => hp.of_confined (.tail (fun _ => False) p.files)
    (hp.placed.wellFormed.withFaults _) fun _ _ => id

theorem sealInput_end {directory : Path} {home : SealedStream.Place}
    (hh : p.host.Housed directory home) (hp : p.isProtected) (hcached : p.custodian.cached = none)
    (hu : p.custodian.config.Usable)
    (h : sealInput node p = (.ok (.ok copied, bytes), p')) :
    ∃ k text, Custody.IsSealed k.key text bytes ∧
      p.custodian.Kept p'.host.vault p'.host.settings k ∧ p'.host.Housed directory home ∧
        p'.files.contentOf node = .ok text := by
  have hhoused := sealInput_keeps (Host.stable_housed directory home) meeting_housed node p hh
  rw [h] at hhoused
  obtain ⟨text, begun, hencrypt, hheld, rfl⟩ := sealInput_ok h
  obtain ⟨k, hsealed, hkept⟩ := encrypt_kept hp hcached hu hencrypt
  exact ⟨k, text, hsealed, hkept, hhoused, hheld⟩

theorem sealInput_untouched {directory : Path} {home : SealedStream.Place}
    {answer : Except (Failure CommandError) SealedInput} (hp : p.host.Placed directory home)
    (h : sealInput node p = (answer, p')) :
    p'.files.WellFormed ∧ Files.Confined (home <+: ·) p.files p'.files := by
  have huntouched := sealInput_keeps stable_untouched meeting_untouched node p ⟨hp, .refl _ _⟩
  rw [h] at huntouched
  exact ⟨huntouched.1.wellFormed, huntouched.2⟩

/-- The draft of an output outside of a directory lies outside of it as well. -/
theorem draft_outside {files : Files} {home directory : SealedStream.Place} {name : String}
    (hhome : files.node? home = some .directory) (hout : ¬ home <+: directory ++ [name])
    (hnode : files.node? (directory ++ [name ++ ".tmp"]) ≠ some .directory) :
    ¬ home <+: directory ++ [name ++ ".tmp"] := by
  intro hbelow
  obtain rfl | hbelow := List.prefix_concat_iff.mp hbelow
  · exact hnode hhome
  · exact hout (hbelow.trans (List.prefix_append ..))

/-- What a successful `encrypt` has made of the files that it started on. -/
structure Encrypted (directory : Path) (home : SealedStream.Place) (input output : String)
    (p p' : Custody) (k : ContentKey) (text : Bytes) : Prop where
  housed : p'.host.Housed directory home
  kept : p.custodian.Kept p'.host.vault p'.host.settings k
  same : p.files.SameDirectories p'.files
  sealed : ∃ number, p'.files.stat (Path.ofString output) = .ok (.file number) ∧
    Custody.IsSealed k.key text (p'.files.content number)
  /-- The text is what the input held, unless the draft was the input. -/
  text : ∃ source held, p.files.Leads (Path.ofString input) source ∧
    p.files.standing source = some (some held) ∧
    (p.files.Leads (draftOf output) source → text = []) ∧
    (¬ p.files.Leads (draftOf output) source → text = held ∧
      (¬ p.files.Leads (Path.ofString output) source →
        p'.files.standing source = some (some held)))

theorem encrypted_of_ok {directory : Path} {home : SealedStream.Place}
    (hh : p.host.Housed directory home) (hp : p.isProtected) (hcached : p.custodian.cached = none)
    (hu : p.custodian.config.Usable)
    (hin : ∀ place, p.files.Leads (Path.ofString input) place → ¬ home <+: place)
    (hout : ∀ place, p.files.Leads (Path.ofString output) place → ¬ home <+: place)
    (h : encryptFile input output p = (.ok message, p')) :
    ∃ k text, Encrypted directory home input output p p' k text := by
  obtain ⟨node, number, created, copied, bytes, faults, faults', renamed, done, hstat, hfaults,
    hcreate, hseal, hfaults', hrename, rfl⟩ := encryptFile_ok h
  -- three stretches: until the draft is created, until the input is sealed, and the last calls
  have hw₀ : (p.files.facing faults).WellFormed := hh.placed.wellFormed.withFaults faults
  have hw₁ : created.WellFormed := hw₀.create hcreate
  obtain ⟨place, name, hspot, hnode, hempty, hnumber, hcreated⟩ := Files.create_end hw₀ hcreate
  have hc₁ := (Files.Confined.facing hfaults _).trans hcreated
  have hplaced : (p.withFiles created).host.Placed directory home := hh.placed.of_confined hc₁ hw₁
  obtain ⟨hw₂, hc₂⟩ := sealInput_untouched hplaced hseal
  have hback : done.files.KeepsDirectories p.files := hc₂.same.2.trans hc₁.same.2
  have hdraft : p.files.spot (draftOf output) = .ok ⟨place, some name, false⟩ := hspot
  obtain ⟨_, _, directory', name', _, -, htarget, -⟩ := Files.rename_ok hrename
  have houtput : p.files.spot (Path.ofString output) = .ok ⟨directory', some name', false⟩ :=
    hback.spot htarget
  -- the draft is beside the output, so the state has no say in what is listed there
  obtain ⟨rfl, rfl⟩ := draft_beside houtput hdraft
  have hhome : created.node? home = some .directory := hplaced.reaches.node hw₁
  have houtside : ¬ home <+: place ++ [name' ++ ".tmp"] :=
    draft_outside hhome (hout _ ⟨place, name', false, houtput, rfl⟩) (hnode ▸ nofun)
  have hh₁ : (p.withFiles created).host.Housed directory home :=
    hh.of_confined hc₁ hw₁ fun other hbelow hsame => houtside (hsame ▸ hbelow)
  obtain ⟨k, text, hsealed, hkept, hh₂, hheld⟩ := sealInput_end hh₁ hp hcached hu hseal
  have hempty₂ : done.files.content number = [] :=
    (hc₂.contents _ number houtside hnode).trans hempty
  obtain ⟨hw₃, hstat₃, hcontent₃, hc₃⟩ :=
    Files.written_end hw₂ (hc₂.same.1.spot (hc₁.same.1.spot hdraft))
      ((hc₂.nodes _ houtside).trans hnode) hempty₂ hfaults' hrename
  refine ⟨k, text, hh₂.of_confined hc₃ hw₃ ?_, hkept, (hc₁.same.trans hc₂.same).trans hc₃.same,
    ⟨number, hstat₃, hcontent₃.symm ▸ hsealed⟩,
    Files.read_behind ⟨place, name' ++ ".tmp", false, hdraft, rfl⟩ hc₁ hc₂ hc₃ hnumber hempty₂
      hstat hheld hin⟩
  rintro other hbelow (rfl | hleads)
  · exact houtside hbelow
  · exact hout other (hleads.of_keeps hback) hbelow

end CommandLine

end SealedStream
