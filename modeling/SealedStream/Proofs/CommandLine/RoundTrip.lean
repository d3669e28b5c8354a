import SealedStream.Proofs.CommandLine.Encryption
import SealedStream.Proofs.Stream.Reading
import SealedStream.Proofs.Successors

/-!
# Files that are sealed and opened again

A later run that meets no faults finds the key that an earlier one has sealed under. It
reads the beginning of the stream before it creates its draft and the rest afterwards,
and both are what the file held all along, unless the file is the draft.
-/

namespace SealedStream

-- ----------------------------------------------------------------------------
-- Calls that meet no fault
-- ----------------------------------------------------------------------------

namespace Files

variable {files files' : Files} {path : Path} {number : FileNumber}

theorem facing_calm (hcalm : files.faults = []) : files.facing [] = files := by
  obtain ⟨nodes, contents, home, faults⟩ := files
  cases hcalm
  rfl

theorem callOrNothing_calm {α : Type} (hcalm : files.faults = []) (x : Action Files IoError α) :
    callOrNothing x files = x files := by
  obtain ⟨nodes, contents, home, faults⟩ := files
  cases hcalm
  rfl

theorem createAt_calm (hcalm : files.faults = []) (h : files.create path = .ok (number, files')) :
    createAt path files = (.ok number, files') :=
  (callOrNothing_calm hcalm _).trans (by rw [h])

theorem openAt_calm {node : Node} (hcalm : files.faults = []) (h : files.stat path = .ok node) :
    openAt path files = (.ok node, files) :=
  (callOrNothing_calm hcalm _).trans (by rw [Action.reads, h])

theorem deliver_calm {ε : Type} (hcalm : files.faults = []) (number : FileNumber) (offset : Nat) :
    (deliver (.file number) offset files : Except ε Source × Files) =
      (.ok (.ofBytes ((files.content number).drop offset)), files) := by
  obtain ⟨nodes, contents, home, faults⟩ := files
  cases hcalm
  rfl

theorem create_of_writable (h : files.Writable path) :
    ∃ number files', files.create path = .ok (number, files') := by
  obtain ⟨directory, name, hspot, hlong, hfree⟩ := h
  have hfound : files.lookUp directory name = .ok (files.node? (directory ++ [name])) :=
    lookUp_ok.mpr ⟨hlong, rfl⟩
  simp only [create, hspot, ok_bind, hfound, Bool.false_eq_true, if_false]
  rcases hnode : files.node? (directory ++ [name]) with _ | _ | number
  · exact ⟨_, _, rfl⟩
  · exact absurd hnode hfree
  · exact ⟨_, _, rfl⟩

/-- A draft can be written and given the name of an output. -/
theorem written_of_writable {draft target : Path} (hw : files.WellFormed)
    (hcalm : files.faults = []) (hdraft : files.Writable draft) (htarget : files.Writable target)
    (hcreate : files.create draft = .ok (number, files')) (bytes : Bytes) :
    ∃ renamed, (files'.overwrite number bytes).rename draft target = .ok renamed ∧
      renamed.content? target = .ok bytes := by
  obtain ⟨directory, name, hspot, hnode, hempty, -, hcreated⟩ := create_end hw hcreate
  let written := files'.overwrite number bytes
  have hsource : written.spot draft = .ok ⟨directory, some name, false⟩ :=
    hcreated.same.1.spot hspot
  obtain ⟨renamed, hrename⟩ : ∃ renamed, written.rename draft target = .ok renamed := by
    obtain ⟨directory', name', hspot', hlong', hfree⟩ := htarget
    obtain ⟨_, _, hspot₁, hlong, -⟩ := hdraft
    cases hspot₁.symm.trans hspot
    exact rename_of_files hsource hlong hnode (hcreated.same.1.spot hspot') hlong'
      fun hnode' => hfree (hcreated.same.2.kept _ hnode')
  have hcalm' : written.faults = [] := (faults_create hcreate).trans hcalm
  have hrename' : (written.facing []).rename draft target = .ok renamed := by
    rwa [facing_calm hcalm']
  obtain ⟨-, hstat, hcontent, -⟩ :=
    written_end (hw.create hcreate) hsource hnode hempty List.nil_suffix hrename'
  exact ⟨renamed, hrename, by rw [content?, hstat, ok_bind, contentOf, hcontent]⟩

end Files

-- ----------------------------------------------------------------------------
-- Opening a file
-- ----------------------------------------------------------------------------

theorem SymmetricKey.openText_of_sealText {key : SymmetricKey} {iv text body : Bytes} (tier : Tier)
    (htext : text.length ≤ longestText) (hseal : key.sealText iv text = .ok body) :
    key.openText (tier.cipherParams iv) body = .ok text := by
  obtain ⟨_, hseal', hlength⟩ := key.sealText_ok iv htext
  cases hseal.symm.trans hseal'
  exact (openText_eq_ok_iff tier (by omega)).mpr hseal

namespace CommandLine

variable {input output : String} {number number' : FileNumber} {p p' : Custody} {k : ContentKey}
  {iv body text : Bytes} {files files' : Files} {draft : Path}

/-- What has been read ahead of the rest, when the key has been found, begins the sealed body. -/
theorem beginOpening_ok (input : String) (hcalm : p.files.faults = []) (hp : p.isProtected)
    (hiv : iv.length = Header.ivSize)
    (hcontent : p.files.content number = Header.bytes iv ++ body)
    (hresolve : Custody.resolve p = (.ok k, p')) :
    ∃ ahead offset, beginOpening input (.file number) p =
        (.ok ⟨some { key := k.key, params := k.tier.cipherParams iv }, .ofBytes ahead, offset⟩,
          p') ∧
      ahead ++ (p.files.content number).drop offset = body := by
  let ahead := body.take (readAhead - (Header.bytes iv).length)
  have hlength : (Header.bytes iv).length ≤ readAhead := by
    rw [Header.bytes, List.length_cons, hiv]
    decide
  have htake : (p.files.content number).take readAhead = Header.bytes iv ++ ahead := by
    rw [hcontent, List.take_append, List.take_of_length_le hlength]
  refine ⟨ahead, (Header.bytes iv ++ ahead).length, ?_, ?_⟩
  · have hfirst : (onFiles (Files.deliver (.file number) 0) : CommandAction Source) p =
        (.ok (.ofBytes (p.files.content number)), p) := by
      rw [onFiles_apply, Files.deliver_calm hcalm, List.drop_zero]
      rfl
    have hahead : Source.upTo readAhead (.ofBytes (p.files.content number)) =
        .ofBytes (Header.bytes iv ++ ahead) := by
      rw [← htake]
      rfl
    have hstart : Incoming.start ⟨p, .ofBytes (Header.bytes iv ++ ahead)⟩ =
        (.ok (some { key := k.key, params := k.tier.cipherParams iv }), ⟨p', .ofBytes ahead⟩) := by
      simp only [Incoming.start_eq, Action.bind_apply, Action.get_apply, hp, Incoming.onSource,
        Failure.lift, Action.mapError_apply, Action.zoom_apply, Header.read_whole hiv,
        Except.mapError, Incoming.onCustody, hresolve, if_true, Action.pure_apply]
    unfold beginOpening
    refine Action.bind_ok.mpr ⟨p, p, rfl, ?_⟩
    rw [if_pos hp]
    refine Action.bind_ok.mpr ⟨_, p, hfirst, ?_⟩
    simp only [hahead, hstart]
    rfl
  · have hwhole : Header.bytes iv ++ (ahead ++ (p.files.content number).drop
        (Header.bytes iv ++ ahead).length) = Header.bytes iv ++ body := by
      rw [← List.append_assoc, ← hcontent, ← htake]
      exact List.prefix_iff_eq_append.mp (List.take_prefix _ _)
    exact List.append_cancel_left hwhole

theorem writeOpened_ok {key : SymmetricKey} {params : CipherParams} {ahead : Source} {offset : Nat}
    (hcalm : files.faults = []) (hcreate : files.create draft = .ok (number', files'))
    (hyields : Opening.Yields { key, params }
      (ahead ++ .ofBytes ((files'.content number).drop offset)) text) :
    writeOpened (.file number) draft ⟨some { key, params }, ahead, offset⟩ files =
      (.ok text.length, files'.overwrite number' text) := by
  have hcalm' : files'.faults = [] := (Files.faults_create hcreate).trans hcalm
  have hcalm'' : (files'.overwrite number' text).faults = [] := hcalm'
  have hwhole := (OpeningStream.gives_of_yields hyields).whole
  simp only [writeOpened, Action.bind_apply, Files.createAt_calm hcalm hcreate,
    Files.deliver_calm hcalm', Action.ofExcept, hwhole, Files.run_calm hcalm', FileStep.apply,
    Action.modify_apply, Files.run_calm hcalm'', Action.pure_apply]

/-- A stream that was sealed under the key that is found now is opened to its text. -/
theorem decryptFile_ok (hfiles : p.files = files) (hcalm : files.faults = [])
    (hw : files.WellFormed) (hp : p.isProtected) (hresolve : Custody.resolve p = (.ok k, p'))
    (hsame : p'.files = p.files)
    (hstat : files.stat (Path.ofString input) = .ok (.file number))
    (hsealed : Custody.IsSealed k.key text (files.content number))
    (hdraft : files.Writable (draftOf output)) (houtput : files.Writable (Path.ofString output))
    (hapart : ∀ place, files.Leads (Path.ofString input) place →
      ¬ files.Leads (draftOf output) place) :
    ∃ done, decryptFile input output p =
        (.ok s!"Decrypted {text.length} bytes to {output}\n", done) ∧
      done.files.content? (Path.ofString output) = .ok text := by
  subst hfiles
  have htext := hsealed.text_le
  obtain ⟨iv, body, hiv, hseal, hcontent⟩ := hsealed
  obtain ⟨ahead, offset, hbegin, hbody⟩ :=
    beginOpening_ok input hcalm hp hiv hcontent hresolve
  obtain ⟨number', created, hcreate⟩ := Files.create_of_writable hdraft
  -- the rest is read when the draft is there, which may have emptied a file, but not this one
  have hheld : created.content number = p.files.content number := by
    obtain ⟨directory, name, hspot, -, -, -, hcreated⟩ := Files.create_end hw hcreate
    obtain ⟨source, hleads, hsource⟩ := Files.leads_of_stat hstat
    refine hcreated.contents source number ?_ hsource
    rintro rfl
    exact hapart _ hleads ⟨directory, name, false, hspot, rfl⟩
  have hyields : Opening.Yields { key := k.key, params := k.tier.cipherParams iv }
      (.ofBytes ahead ++ .ofBytes ((created.content number).drop offset)) text := by
    refine ⟨rfl, ?_⟩
    have hdelivered : Source.delivered
        (.ofBytes ahead ++ .ofBytes ((created.content number).drop offset)) = body := by
      rw [hheld, ← hbody]
      simp [Source.ofBytes, Source.delivered]
    rw [hdelivered]
    exact SymmetricKey.openText_of_sealText k.tier htext hseal
  obtain ⟨renamed, hrename, hrenamed⟩ :=
    Files.written_of_writable hw hcalm hdraft houtput hcreate text
  have hcalm' : (created.overwrite number' text).faults = [] :=
    (Files.faults_create hcreate).trans hcalm
  refine ⟨p'.withFiles renamed, ?_, hrenamed⟩
  have hopen : file (Files.openAt (Path.ofString input)) p = (.ok (.file number), p) :=
    file_ok.mpr ⟨p.files, Files.openAt_calm hcalm hstat, rfl⟩
  unfold decryptFile
  refine Action.bind_ok.mpr ⟨_, p, hopen, Action.bind_ok.mpr ⟨_, p', hbegin, ?_⟩⟩
  refine Action.bind_ok.mpr ⟨.ok text.length, p'.withFiles (created.overwrite number' text), ?_, ?_⟩
  · refine Action.attempt_ok.mpr ?_
    rw [onFiles_apply, hsame, writeOpened_ok hcalm hcreate hyields]
  · refine Action.bind_ok.mpr ⟨(), p'.withFiles renamed, file_ok.mpr ⟨renamed, ?_, rfl⟩, rfl⟩
    rw [Custody.files_withFiles, Files.run_calm hcalm', FileStep.apply, Files.change, hrename]

-- ----------------------------------------------------------------------------
-- Two runs
-- ----------------------------------------------------------------------------

variable {inv later : Invocation} {levelBytes levelBytes' : Option Bytes} {platform : Platform}
  {machine machine' : Machine} {start : Files} {home : SealedStream.Place}
  {target message : String}

/-- What a successful `encrypt` has made is opened by a later run that finds the files so. -/
theorem Encrypted.opened {text : Bytes}
    (he : Encrypted (Path.ofString later.stateDirectory) home input output p p' k text)
    (hthere : p'.files.There (Path.ofString later.stateDirectory))
    (hcustodian : p.custodian = { platform, config := {} })
    (hsupported : ({ platform, config := {} } : Custodian).hostTier.isSupported)
    (hcommand : later.command = .decrypt output target)
    (hplatform : platformOf later.level levelBytes = .ok platform) (entropy : Entropy) (now : Time)
    (hwindow : ∀ again machine', openCustody later levelBytes
        ⟨p'.files.facing [], entropy, now⟩ = (.ok again, machine') →
      again.custodian.InWindow again.host)
    (hdraft : p'.files.Writable (draftOf target))
    (houtput : p'.files.Writable (Path.ofString target))
    (hapart : ∀ place, p'.files.Leads (Path.ofString output) place →
      ¬ p'.files.Leads (draftOf target) place) :
    ∃ last, later.action levelBytes ⟨p'.files.facing [], entropy, now⟩ =
        (.ok s!"Decrypted {text.length} bytes to {target}\n", last) ∧
      last.files.content? (Path.ofString target) = .ok text := by
  obtain ⟨again, hopen, hagain, -⟩ :=
    openCustody_of_housed he.housed hthere hplatform entropy now
  let q : Custody := ⟨{ platform, config := {} }, again⟩
  have hfiles : q.files = p'.files.facing [] := hagain.files
  have hkept : q.custodian.Kept again.vault again.settings k := by
    rw [hagain.settings]
    exact (hcustodian ▸ he.kept).of_held (Dict.get?_of_map_eq hagain.held) fun _ => rfl
  have hprotected : q.isProtected := hsupported
  have hunlocked : ¬ again.vault.locked := by
    rw [hagain.unlocked]
    nofun
  obtain ⟨requests, hlookUp⟩ :=
    Custodian.lookUp_of_kept hprotected hkept hunlocked (hwindow q _ hopen)
  have hresolve := Custody.resolve_of_uncached (p := q) rfl
  rw [hlookUp] at hresolve
  have hwell : (p'.files.facing []).WellFormed := he.housed.placed.wellFormed.withFaults []
  obtain ⟨number, hstat, hsealed⟩ := he.sealed
  obtain ⟨done, hdone, hcontent⟩ :=
    decryptFile_ok hfiles rfl hwell hprotected hresolve rfl hstat hsealed hdraft houtput hapart
  refine ⟨done.host.machine, ?_, hcontent⟩
  have hversion : later.command ≠ .version := by
    rw [hcommand]
    nofun
  have haction : later.command.action q = decryptFile output target q := by
    rw [hcommand]
    rfl
  exact (action_apply hversion hopen).trans (by rw [haction, hdone])

/-- A file that a run has sealed outside of its state directory is opened by every later run of the
same platform that meets no faults, over the files as they are, while the pair that it finds is
valid. The text that comes back is what the input held before, which it still holds unless it is
the output. Only where the draft was the input is the text empty: creating the draft has emptied
it. -/
theorem sealed_file_opens (hw : machine.files.WellFormed) (hnow : machine.now.InRange)
    (hcommand : inv.command = .encrypt input output)
    (hplatform : platformOf inv.level levelBytes = .ok platform)
    (hsupported : ({ platform, config := {} } : Custodian).hostTier.isSupported)
    (hopen : (openCustody inv levelBytes machine).2.files = start)
    (hin : ∀ place, start.Leads (Path.ofString input) place →
      start.Outside (Path.ofString inv.stateDirectory) place)
    (hout : ∀ place, start.Leads (Path.ofString output) place →
      start.Outside (Path.ofString inv.stateDirectory) place)
    (hrun : inv.action levelBytes machine = (.ok message, machine')) :
    ∃ source held text, start.Leads (Path.ofString input) source ∧
      machine.files.standing source = some (some held) ∧
      (start.Leads (draftOf output) source → text = []) ∧
      (¬ start.Leads (draftOf output) source → text = held ∧
        (¬ start.Leads (Path.ofString output) source →
          machine'.files.standing source = some (some held))) ∧
      ∀ (later : Invocation) (levelBytes' : Option Bytes) (target : String) (entropy : Entropy)
          (now : Time),
        later.command = .decrypt output target →
        later.stateDirectory = inv.stateDirectory →
        platformOf later.level levelBytes' = .ok platform →
        (∀ again reopened, openCustody later levelBytes'
            ⟨machine'.files.facing [], entropy, now⟩ = (.ok again, reopened) →
          again.custodian.InWindow again.host) →
        machine'.files.Writable (Path.ofString target) →
        machine'.files.Writable (draftOf target) →
        (∀ place, machine'.files.Leads (Path.ofString output) place →
          ¬ machine'.files.Leads (draftOf target) place) →
        ∃ last, later.action levelBytes' ⟨machine'.files.facing [], entropy, now⟩ =
            (.ok s!"Decrypted {text.length} bytes to {target}\n", last) ∧
          last.files.content? (Path.ofString target) = .ok text := by
  have hversion : inv.command ≠ .version := by
    rw [hcommand]
    nofun
  obtain ⟨p, opened, p', hopened, haction, rfl⟩ := action_ok hversion hrun
  rw [hcommand] at haction
  cases machine_of_openCustody hopened
  obtain rfl : p.files = start := by rw [← hopen, hopened]; rfl
  obtain ⟨home, ho⟩ := openCustody_ok hw hnow hopened
  obtain rfl : p.custodian.platform = platform := Except.ok.inj (ho.platform.symm.trans hplatform)
  have hcustodian : p.custodian = { platform := p.custodian.platform, config := {} } := by
    rw [← ho.config, ← ho.cached]
  have husable : p.custodian.config.Usable := ho.config ▸ Config.usable_default
  have hprotected : p.isProtected := by
    rw [Custody.isProtected, hcustodian]
    exact hsupported
  have hhome := ho.housed.placed.reaches
  obtain ⟨k, text, he⟩ := encrypted_of_ok ho.housed hprotected ho.cached husable
    (fun place hleads => hin place hleads home hhome)
    (fun place hleads => hout place hleads home hhome) haction
  obtain ⟨source, held, hsource, hheld, hemptied, hkept⟩ := he.text
  refine ⟨source, held, text, hsource, ho.grown.standing hheld, hemptied, hkept, ?_⟩
  intro later levelBytes' target entropy now hlater hdirectory hplatform' hwindow houtput hdraft
    hapart
  rw [← hdirectory] at he
  exact he.opened (hdirectory ▸ ho.there.of_keeps he.same.1) hcustodian hsupported hlater hplatform'
    entropy now hwindow hdraft houtput hapart

/-- Three bytes in a file. -/
def furnished (name : String) : Machine where
  files := (FileStep.runAll [.create ⟨false, [name]⟩, .write ⟨false, [name]⟩ [1, 2, 3]] {}).2
  entropy := .ofSeed 0
  now := .epoch

def sealing : Invocation := ⟨".localseal", some 23, false, .encrypt "a" "b"⟩

/-- Seals the file that is to be the draft. -/
def sealingDraft : Invocation := ⟨".localseal", some 23, false, .encrypt "b.tmp" "b"⟩

def opening : Invocation := ⟨".localseal", some 23, false, .decrypt "b" "c"⟩

theorem sealed_file_opens_again : ∃ sealed last,
    sealing.action none (furnished "a") = (.ok "Encrypted 3 bytes to b\n", sealed) ∧
      opening.action none ⟨sealed.files.facing [], .ofSeed 1, .epoch⟩ =
        (.ok "Decrypted 3 bytes to c\n", last) ∧
      last.files.content? (Path.ofString "c") = .ok [1, 2, 3] := by
  let start := (furnished "a").files.put [".localseal"] .directory
  have hopen : (openCustody sealing none (furnished "a")).2.files = start := by decide +kernel
  have hwell : (furnished "a").files.WellFormed := Files.wellFormed_empty.runAll _
  have hhome : start.Reaches (Path.ofString sealing.stateDirectory) [".localseal"] := by
    rw [Files.Reaches]
    decide +kernel
  have ha : start.spot (Path.ofString "a") = .ok ⟨[], some "a", false⟩ := by decide +kernel
  have hb : start.spot (Path.ofString "b") = .ok ⟨[], some "b", false⟩ := by decide +kernel
  have hdraft : start.spot (draftOf "b") = .ok ⟨[], some "b.tmp", false⟩ := by decide +kernel
  have houtside {path : Path} {name : String} (hname : name ≠ ".localseal")
      (hspot : start.spot path = .ok ⟨[], some name, false⟩) (place : SealedStream.Place)
      (hleads : start.Leads path place) :
      start.Outside (Path.ofString sealing.stateDirectory) place := by
    intro home hother
    obtain rfl := hleads.unique ⟨[], name, false, hspot, rfl⟩
    obtain rfl := Except.ok.inj (hhome.symm.trans hother)
    simp [hname.symm]
  have hseals : (sealing.action none (furnished "a")).1.toOption = some "Encrypted 3 bytes to b\n" ∧
      (sealing.action none (furnished "a")).2.files.spot (Path.ofString "b") =
        .ok ⟨[], some "b", false⟩ ∧
      (sealing.action none (furnished "a")).2.files.spot (Path.ofString "c") =
        .ok ⟨[], some "c", false⟩ ∧
      (sealing.action none (furnished "a")).2.files.spot (draftOf "c") =
        .ok ⟨[], some "c.tmp", false⟩ ∧
      (sealing.action none (furnished "a")).2.files.node? ["c"] = none ∧
      (sealing.action none (furnished "a")).2.files.node? ["c.tmp"] = none := by decide +kernel
  have hunpaired : (openCustody opening none
      ⟨(sealing.action none (furnished "a")).2.files.facing [], .ofSeed 1, .epoch⟩).1.toOption.map
        (fun p => (p.host.vault.entries.get? p.custodian.config.wrapAlias).isNone) =
          some true := by decide +kernel
  obtain ⟨hsealed, hb', hc, hc', hfree, hfree'⟩ := hseals
  have hrun : sealing.action none (furnished "a") =
      (.ok "Encrypted 3 bytes to b\n", (sealing.action none (furnished "a")).2) := by
    rw [← toOption_eq_some.mp hsealed]
  generalize (sealing.action none (furnished "a")).2 = sealed at *
  have hplatform : platformOf (some 23) none = .ok ⟨23⟩ := rfl
  obtain ⟨source, held, text, hsource, hheld, -, hkept, hopens⟩ :=
    sealed_file_opens hwell (by decide) rfl hplatform (by decide) hopen
      (houtside (by decide) ha) (houtside (by decide) hb) hrun
  obtain rfl := hsource.unique ⟨[], "a", false, ha, rfl⟩
  have hapart : ¬ start.Leads (draftOf "b") ["a"] := fun hleads =>
    absurd (hleads.unique ⟨[], "b.tmp", false, hdraft, rfl⟩) (by decide)
  have hwas : (furnished "a").files.standing ["a"] = some (some [1, 2, 3]) := by decide +kernel
  obtain rfl : text = [1, 2, 3] := by
    rw [(hkept hapart).1]
    exact Option.some.inj (Option.some.inj (hheld.symm.trans hwas))
  have hwindow (again : Custody) (reopened : Machine)
      (hagain : openCustody opening none ⟨sealed.files.facing [], .ofSeed 1, .epoch⟩ =
        (.ok again, reopened)) : again.custodian.InWindow again.host := by
    intro secret spec hentry
    rw [hagain] at hunpaired
    have hnone : (again.host.vault.entries.get? again.custodian.config.wrapAlias).isNone :=
      Option.some.inj hunpaired
    rw [hentry] at hnone
    cases hnone
  have hbeside (place : SealedStream.Place)
      (hleads : sealed.files.Leads (Path.ofString "b") place) :
      ¬ sealed.files.Leads (draftOf "c") place := by
    obtain rfl := hleads.unique ⟨[], "b", false, hb', rfl⟩
    exact fun hleads => absurd (hleads.unique ⟨[], "c.tmp", false, hc', rfl⟩) (by decide)
  obtain ⟨last, hlast, hcontent⟩ := hopens opening none "c" (.ofSeed 1) .epoch rfl rfl hplatform
    hwindow ⟨[], "c", hc, by decide, by simp [hfree]⟩
    ⟨[], "c.tmp", hc', by decide, by simp [hfree']⟩ hbeside
  exact ⟨sealed, last, hrun, hlast, hcontent⟩

/-- Where the input has the draft's name, it is sealed as an empty one and is gone then. -/
theorem sealed_file_was_emptied : ∃ sealed,
    sealingDraft.action none (furnished "b.tmp") = (.ok "Encrypted 0 bytes to b\n", sealed) ∧
      (furnished "b.tmp").files.standing ["b.tmp"] = some (some [1, 2, 3]) ∧
      sealed.files.standing ["b.tmp"] = none := by
  let outcome := sealingDraft.action none (furnished "b.tmp")
  have hrun : outcome.1.toOption = some "Encrypted 0 bytes to b\n" ∧
      (furnished "b.tmp").files.standing ["b.tmp"] = some (some [1, 2, 3]) ∧
      outcome.2.files.standing ["b.tmp"] = none := by decide +kernel
  obtain ⟨hanswer, hheld, hgone⟩ := hrun
  refine ⟨outcome.2, ?_, hheld, hgone⟩
  rw [← toOption_eq_some.mp hanswer]

end CommandLine

end SealedStream
