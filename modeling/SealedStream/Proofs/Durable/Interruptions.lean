import SealedStream.Proofs.Durable.Settings
import SealedStream.Proofs.Durable.VaultCalls

/-!
# Updates that are interrupted

Whoever looks at the files while an update of a store is under way, or after the
process ended in the middle of it, finds the whole document from before or the whole
document from after it. `FileStep.Passes` says what the files may be found like.
-/

namespace SealedStream

-- ----------------------------------------------------------------------------
-- Calls that are under way
-- ----------------------------------------------------------------------------

namespace FileStep

/-- What the files may be found like while a call is under way. Most calls take place at once, but
of the directories above a path some may have been made, and of a write the first bytes. -/
inductive Halfway : FileStep → Files → Files → Prop
  | makeDirs (path : Path) (files : Files) (missing : Nat) :
      Halfway (.makeDirs path) files
        (Files.makeInnermost
          (((path :: path.parents).filter fun p => p.toString ≠ "").drop missing) files).2
  | write (path : Path) (bytes : Bytes) (files : Files) (kept : Nat) :
      Halfway (.write path bytes) files ((write path bytes).leftover kept files)

/-- What the files may be found like while calls are made in order, up to the first that fails. -/
inductive Passes : List FileStep → Files → Files → Prop
  | now {steps : List FileStep} {files : Files} : Passes steps files files
  | within {step : FileStep} {rest : List FileStep} {files seen : Files} :
      step.Halfway files seen → Passes (step :: rest) files seen
  | failed {step : FileStep} {rest : List FileStep} {files seen : Files} {e : IoError} :
      step.run files = (.error e, seen) → Passes (step :: rest) files seen
  | later {step : FileStep} {rest : List FileStep} {files next seen : Files} :
      step.run files = (.ok (), next) → Passes rest next seen → Passes (step :: rest) files seen

theorem passes_end (steps : List FileStep) (files : Files) :
    Passes steps files (runAll steps files).2 := by
  induction steps generalizing files with
  | nil => exact .now
  | cons step rest ih =>
    rw [runAll, Action.bind_apply]
    rcases hstep : step.run files with ⟨e | _, next⟩
    · exact .failed hstep
    · exact .later hstep (ih next)

end FileStep

-- ----------------------------------------------------------------------------
-- Replacements that are under way
-- ----------------------------------------------------------------------------

namespace Files

variable {files seen : Files} {path : Path} {content : Bytes}

theorem spares_within (hs : files.Steady path) (hext : path.extension? ≠ some "tmp")
    {step : FileStep} (h : step ∈ draftSteps path content) (hseen : step.Halfway files seen) :
    Spares path files seen := by
  cases hseen with
  | makeDirs above _ missing =>
    refine spares_makeInnermost hs fun p hp => ?_
    obtain h | h := List.mem_append.mp h
    · obtain ⟨parent, hparent, ⟨⟩⟩ := List.mem_map.mp h
      rw [Path.parents_of_parent? (Option.mem_toList.mp hparent)]
      exact (List.mem_filter.mp (List.mem_of_mem_drop hp)).1
    · simp at h
  | write draft bytes _ kept => exact spares_leftover hs hext h kept

/-- Up to the end of a call on the draft the document is what it was. -/
theorem spares_or_later (hs : files.Steady path) (hext : path.extension? ≠ some "tmp")
    {step : FileStep} {rest : List FileStep} (h : step ∈ draftSteps path content)
    (hpasses : FileStep.Passes (step :: rest) files seen) :
    Spares path files seen ∨ ∃ next, step.run files = (.ok (), next) ∧
      Spares path files next ∧ FileStep.Passes rest next seen := by
  have hrun := spares_run hs hext h
  cases hpasses with
  | now => exact .inl (.refl hs)
  | within hwithin => exact .inl (spares_within hs hext h hwithin)
  | failed hfailed =>
    rw [hfailed] at hrun
    exact .inl hrun
  | later hstep hlater =>
    rw [hstep] at hrun
    exact .inr ⟨_, hstep, hrun, hlater⟩

/-- The last call puts the whole draft in the place of the document, or does nothing to it. -/
theorem found?_of_passes_rename (hs : files.Steady path) (hd : files.Drafts path content)
    (hpasses : FileStep.Passes [.rename (draftPath path) path] files seen) :
    seen.found? path = files.found? path ∨ seen.found? path = some (.ok content) := by
  have hreplaced := replaced_rename hs hd
  rw [FileStep.runAll, Action.bind_apply] at hreplaced
  cases hpasses with
  | now => exact .inl rfl
  | within hwithin => cases hwithin
  | failed hfailed =>
    rw [hfailed] at hreplaced
    cases hreplaced with
    | failed hspared => exact .inl hspared.found
  | later hstep hlater =>
    rw [hstep] at hreplaced
    cases hlater
    cases hreplaced with
    | done _ hfound => exact .inr hfound

/-- At every moment of a replacement there is the whole of one text or the whole of the other. -/
theorem found?_of_passes (hs : files.Steady path) (hext : path.extension? ≠ some "tmp")
    (hpasses : FileStep.Passes (replaceSteps path content) files seen) :
    seen.found? path = files.found? path ∨ seen.found? path = some (.ok content) := by
  have hmem (step : FileStep) (h : step ∈ [.create (draftPath path),
      .write (draftPath path) content, .sync (draftPath path)]) : step ∈ draftSteps path content :=
    List.mem_append_right _ h
  have hwrite {files : Files} (hs : files.Steady path)
      (hpasses : FileStep.Passes [.create (draftPath path), .write (draftPath path) content,
        .sync (draftPath path), .rename (draftPath path) path] files seen) :
      seen.found? path = files.found? path ∨ seen.found? path = some (.ok content) := by
    obtain hspared | ⟨created, hcreate, hcreated, hpasses⟩ :=
      spares_or_later hs hext (hmem _ (by simp)) hpasses
    · exact .inl hspared.found
    have hempty := drafts_create_run hs.tree hcreate
    obtain hspared | ⟨written, hwrite, hwritten, hpasses⟩ :=
      spares_or_later hcreated.steady hext (hmem _ (by simp)) hpasses
    · exact .inl (hcreated.trans hspared).found
    have hwhole := drafts_write_run hcreated.steady.tree hempty hwrite
    obtain hspared | ⟨synced, hsync, hsynced, hpasses⟩ :=
      spares_or_later hwritten.steady hext (hmem _ (by simp)) hpasses
    · exact .inl ((hcreated.trans hwritten).trans hspared).found
    cases run_ok hsync
    rw [← ((hcreated.trans hwritten).trans hsynced).found]
    exact found?_of_passes_rename hsynced.steady (hwhole.withFaults _) hpasses
  rw [replaceSteps, makeParent] at hpasses
  cases hparent : path.parent? with
  | none =>
    rw [hparent] at hpasses
    exact hwrite hs hpasses
  | some parent =>
    rw [hparent] at hpasses
    have hstep : .makeDirs parent ∈ draftSteps path content := by
      simp [draftSteps, makeParent, hparent]
    obtain hspared | ⟨made, hmake, hmade, hpasses⟩ := spares_or_later hs hext hstep hpasses
    · exact .inl hspared.found
    · rw [← hmade.found]
      exact hwrite hmade.steady hpasses

end Files

-- ----------------------------------------------------------------------------
-- Updates of settings
-- ----------------------------------------------------------------------------

/-- The calls of an update: those that replace the document, if there is something to write. -/
def Files.updateSteps (path : Path) (content? : Option Bytes) : List FileStep :=
  content?.elim [] (replaceSteps path)

/-- Whatever becomes of these calls, and wherever they stop, there is what was there before or the
whole new content. -/
def Files.OldOrNew (path : Path) (steps : List FileStep) (files : Files)
    (content? : Option Bytes) : Prop :=
  ∀ seen, FileStep.Passes steps files seen →
    seen.found? path = files.found? path ∨
      ∃ content ∈ content?, seen.found? path = some (.ok content)

theorem Files.oldOrNew_update {files : Files} {path : Path} {content? : Option Bytes}
    (hs : files.Steady path) (hext : path.extension? ≠ some "tmp") :
    files.OldOrNew path (updateSteps path content?) content? := by
  intro seen hpasses
  cases content? with
  | none =>
    cases hpasses
    exact .inl rfl
  | some content =>
    obtain hold | hnew := found?_of_passes hs hext hpasses
    · exact .inl hold
    · exact .inr ⟨content, rfl, hnew⟩

/-- The values that a call writes, if it writes any. -/
def SettingsCall.update? (values : Dict SettingValue) : SettingsCall → Option (Dict SettingValue)
  | putAll entries => some (values.insertAll entries)
  | put key value => some (values.insertAll [(key, value)])
  | remove key => if values.contains key then some (values.erase key) else none
  | _ => none

/-- The calls by which settings with a document answer a call to them. -/
def SettingsCall.steps (path : Path) (site : SettingsSite) (call : SettingsCall) : List FileStep :=
  Files.updateSteps path ((call.update? site.settings.values).map Settings.encode)

theorem SettingsSite.files_replaceValues {path : Path} {site : SettingsSite}
    (hbacking : site.settings.backing = .document path) (values : Dict SettingValue) :
    (replaceValues values site).2.files =
      (Files.replace path (Settings.encode values) site.files).2 := by
  rw [replaceValues_apply, hbacking, Settings.persist, Action.mapError_apply]
  rcases Files.replace path (Settings.encode values) site.files with ⟨_ | _, files⟩ <;> rfl

theorem SettingsCall.files_ask {path : Path} {site : SettingsSite}
    (hbacking : site.settings.backing = .document path) (call : SettingsCall) :
    (call.ask site).2.files = (FileStep.runAll (call.steps path site) site.files).2 := by
  have hguard : site.settings.backing ≠ .guarded true := by
    rw [hbacking]
    nofun
  have hreplace := SettingsSite.files_replaceValues hbacking
  cases call with
  | putAll entries =>
    rw [ask_putAll hguard]
    exact hreplace _
  | put key value =>
    refine Eq.trans (congrArg (·.2.files) (ask_putAll hguard [(key, value)])) ?_
    exact hreplace _
  | remove key =>
    by_cases hknown : site.settings.values.contains key
    · rw [ask_remove_known hknown, steps, update?, if_pos hknown]
      exact hreplace _
    · rw [ask_remove_unknown hknown, steps, update?, if_neg hknown]
      rfl
  | get key => rfl
  | getInt key default => rfl
  | getString key => rfl

-- ----------------------------------------------------------------------------
-- Updates of vaults
-- ----------------------------------------------------------------------------

/-- The entries that a call writes, if it writes any. -/
def VaultCall.update? (site : VaultSite) (call : VaultCall) : Option (Dict VaultEntry) :=
  match call with
  | generateSymmetricKey keyName bits =>
    (site.vault.admitSymmetric keyName bits).toOption.map fun _ => call.wanted site
  | generateKeyPair keyName spec =>
    (site.vault.admitKeyPair keyName spec).toOption.map fun _ => call.wanted site
  | deleteKey keyName =>
    if site.vault.hasKey keyName = .ok true then some (call.wanted site) else none
  | _ => none

/-- The calls by which a vault with a document answers a call to it. -/
def VaultCall.steps (path : Path) (site : VaultSite) (call : VaultCall) : List FileStep :=
  Files.updateSteps path ((call.update? site).map Vault.encode)

theorem VaultSite.files_replaceEntries {path : Path} {site : VaultSite}
    (hpath : site.vault.path = some path) (entries : Dict VaultEntry) :
    (replaceEntries entries site).2.machine.files =
      (Files.replace path (Vault.encode entries) site.machine.files).2 := by
  rw [replaceEntries_apply, hpath, Vault.persist, Action.mapError_apply]
  rcases Files.replace path (Vault.encode entries) site.machine.files with ⟨_ | _, files⟩ <;> rfl

theorem VaultCall.files_ask {path : Path} {site : VaultSite} (hpath : site.vault.path = some path)
    (call : VaultCall) :
    (call.ask site).2.machine.files =
      (FileStep.runAll (call.steps path site) site.machine.files).2 := by
  have hreplace {r : Request} {entropy : Entropy} (entries : Dict VaultEntry) :
      (VaultSite.replaceEntries entries (site.drawn r entropy)).2.machine.files =
        (Files.replace path (Vault.encode entries) site.machine.files).2 :=
    @VaultSite.files_replaceEntries path (site.drawn r entropy) hpath entries
  cases call with
  | hasKey keyName =>
    exact congrArg (·.2.machine.files) (ask_reading .hasKey (·.vault.hasKey keyName) .known site)
  | symmetricKey keyName =>
    exact congrArg (·.2.machine.files)
      (ask_reading .getSymmetricKey (·.vault.symmetricKey keyName) .symmetricKey site)
  | privateKey keyName =>
    exact congrArg (·.2.machine.files)
      (ask_reading .privateKey (·.vault.privateKey keyName) .privateKey site)
  | unwrap handle bytes =>
    exact congrArg (·.2.machine.files)
      (ask_reading .unwrap (fun site => site.vault.unwrap site.machine.now handle bytes) .key site)
  | wrap publicKey key =>
    rw [ask, VaultSite.wrap, Action.bind_apply, Action.bind_apply, VaultSite.ask_apply]
    cases (site.noted .wrap).vault.ensureUnlocked <;> rfl
  | generateSymmetricKey keyName bits =>
    cases hready : site.vault.admitSymmetric keyName bits with
    | error e =>
      have hrejected : (generateSymmetricKey keyName bits).ask site =
        (.error e, site.noted .generateSymmetricKey) := ask_rejected hready
      rw [hrejected, steps, update?, hready]
      rfl
    | ok size =>
      obtain ⟨-, -, hsize⟩ := Vault.admitSymmetric_ok.mp hready
      rw [ask_generateSymmetricKey hready, steps, update?, hready, wanted, hsize]
      exact hreplace _
  | generateKeyPair keyName spec =>
    cases hready : site.vault.admitKeyPair keyName spec with
    | error e =>
      have hrejected : (generateKeyPair keyName spec).ask site =
        (.error e, site.noted .generateKeyPair) := ask_rejected hready
      rw [hrejected, steps, update?, hready]
      rfl
    | ok _ =>
      rw [ask_generateKeyPair hready, steps, update?, hready, wanted]
      exact hreplace _
  | deleteKey keyName =>
    rcases hknown : site.vault.hasKey keyName with e | _ | _
    · have hrejected : (deleteKey keyName).ask site = (.error e, site.noted .deleteKey) :=
        ask_deleteKey_rejected hknown
      rw [hrejected, steps, update?, hknown]
      rfl
    · rw [ask_deleteKey_unknown hknown, steps, update?, hknown]
      rfl
    · rw [ask_deleteKey_known hknown, steps, update?, hknown, if_pos rfl, wanted]
      exact @VaultSite.files_replaceEntries path (site.noted .deleteKey) hpath _

-- ----------------------------------------------------------------------------
-- Both stores
-- ----------------------------------------------------------------------------

/--
A call to a store with a document makes these calls on the files and no others. At every moment of
them the document is whole: the old one, or none as before, or the new one. `Files.Steady` asks for
a draft that is not another name of the document, and for a path that does not lead up from a
directory that is not there yet.
-/
theorem document_old_or_new {path : Path} (hext : path.extension? ≠ some "tmp") :
    (∀ (site : SettingsSite) (call : SettingsCall), site.settings.backing = .document path →
      site.files.Steady path →
        (call.ask site).2.files = (FileStep.runAll (call.steps path site) site.files).2 ∧
          site.files.OldOrNew path (call.steps path site)
            ((call.update? site.settings.values).map Settings.encode)) ∧
    ∀ (site : VaultSite) (call : VaultCall), site.vault.path = some path →
      site.machine.files.Steady path →
        (call.ask site).2.machine.files =
            (FileStep.runAll (call.steps path site) site.machine.files).2 ∧
          site.machine.files.OldOrNew path (call.steps path site)
            ((call.update? site).map Vault.encode) :=
  ⟨fun _ call hbacking hs => ⟨call.files_ask hbacking, Files.oldOrNew_update hs hext⟩,
    fun _ call hpath hs => ⟨call.files_ask hpath, Files.oldOrNew_update hs hext⟩⟩

/-- First documents, and others in place of those that are there. -/
theorem document_old_or_new_stores :
    let path : Path := ⟨false, ["store.json"]⟩
    let holding (document : Bytes) : Files := ⟨[(["store.json"], .file 0)], [document], [], []⟩
    let values : Dict SettingValue := Dict.empty.insert "k" (.int 1)
    let entries : Dict VaultEntry :=
      Dict.empty.insert "k" (.symmetric ⟨List.replicate 16 0, .inl rfl⟩)
    let settings (values : Dict SettingValue) (files : Files) : SettingsSite :=
      ⟨{ values, backing := .document path }, files⟩
    let vault (entries : Dict VaultEntry) (files : Files) : VaultSite :=
      ⟨{ entries, path := some path }, [], ⟨files, .ofSeed 7, .epoch⟩⟩
    Files.OldOrNew path (SettingsCall.steps path (settings .empty {}) (.put "a" (.int 2))) {}
        (some (Settings.encode (Dict.empty.insertAll [("a", .int 2)]))) ∧
      Files.OldOrNew path
        (SettingsCall.steps path (settings values (holding (Settings.encode values))) (.remove "k"))
        (holding (Settings.encode values)) (some (Settings.encode (values.erase "k"))) ∧
      Files.OldOrNew path
        (VaultCall.steps path (vault .empty {}) (.generateSymmetricKey "a" 128)) {}
        ((VaultCall.update? (vault .empty {}) (.generateSymmetricKey "a" 128)).map Vault.encode) ∧
      Files.OldOrNew path
        (VaultCall.steps path (vault entries (holding (Vault.encode entries))) (.deleteKey "k"))
        (holding (Vault.encode entries)) (some (Vault.encode (entries.erase "k"))) := by
  intro path holding values entries settings vault
  have hext : path.extension? ≠ some "tmp" := by decide
  have hnew : ({} : Files).Steady path :=
    Files.wellFormed_empty.steady (Files.direct_of_up (by decide))
  have hheld (document : Bytes) : (holding document).Steady path := by
    have hw : (holding document).WellFormed := Files.wellFormed_empty.runAll
      [.create ⟨false, ["store.json"]⟩, .write ⟨false, ["store.json"]⟩ document]
    exact hw.steady (Files.direct_of_up (by decide))
  refine ⟨?_, ?_, ?_, ?_⟩
  · exact ((document_old_or_new hext).1 (settings .empty {}) (.put "a" (.int 2)) rfl hnew).2
  · exact ((document_old_or_new hext).1 (settings values _) (.remove "k") rfl (hheld _)).2
  · exact ((document_old_or_new hext).2 (vault .empty {}) (.generateSymmetricKey "a" 128) rfl
      hnew).2
  · exact ((document_old_or_new hext).2 (vault entries _) (.deleteKey "k") rfl (hheld _)).2

/-- Where the document is empty for a moment, it is neither of two that are not. -/
theorem Files.not_oldOrNew_of_emptied {path : Path} {steps : List FileStep} {files seen : Files}
    {old new : Bytes} (hfound : files.found? path = some (.ok old)) (hold : old ≠ [])
    (hnew : new ≠ []) (hpasses : FileStep.Passes steps files seen)
    (hempty : seen.found? path = some (.ok [])) : ¬ files.OldOrNew path steps (some new) := by
  intro h
  have hsame := h seen hpasses
  rw [hempty, hfound] at hsame
  obtain hsame | ⟨_, ⟨⟩, hsame⟩ := hsame
  · exact hold (Except.ok.inj (Option.some.inj hsame)).symm
  · exact hnew (Except.ok.inj (Option.some.inj hsame)).symm

/-- A document that is its own draft, or has it for another name, is emptied before it is written
again. Where the path leads up from a directory that is not there yet, an update that fails can bring
another document to light. -/
theorem document_neither_old_nor_new :
    let values : Dict SettingValue := Dict.empty.insert "k" (.int 1)
    let call : SettingsCall := .put "a" (.int 2)
    let draft : Path := ⟨false, ["store.tmp"]⟩
    let drafted : SettingsSite := ⟨{ values, backing := .document draft },
      ⟨[(["store.tmp"], .file 0)], [Settings.encode values], [], []⟩⟩
    let plain : Path := ⟨false, ["store.json"]⟩
    let linked : SettingsSite :=
      ⟨{ values, backing := .document plain }, Files.linked (Settings.encode values)⟩
    let up : Path := ⟨false, ["new", "..", "store.json"]⟩
    let fresh : SettingsSite :=
      ⟨{ backing := .document up }, Files.obstructed (Settings.encode values)⟩
    ¬ drafted.files.OldOrNew draft (call.steps draft drafted)
        ((call.update? drafted.settings.values).map Settings.encode) ∧
      ¬ linked.files.OldOrNew plain (call.steps plain linked)
        ((call.update? linked.settings.values).map Settings.encode) ∧
      ¬ fresh.files.OldOrNew up (call.steps up fresh)
        ((call.update? fresh.settings.values).map Settings.encode) := by
  intro values call draft drafted plain linked up fresh
  have hold : Settings.encode values ≠ [] := by decide +kernel
  have hnew : Settings.encode (values.insertAll [("a", .int 2)]) ≠ [] := by decide +kernel
  refine ⟨?_, ?_, ?_⟩
  · have hpasses : FileStep.Passes (call.steps draft drafted) drafted.files
        ⟨[(["store.tmp"], .file 0)], [[]], [], []⟩ := .later rfl (.later rfl .now)
    exact Files.not_oldOrNew_of_emptied rfl hold hnew hpasses rfl
  · have hpasses : FileStep.Passes (call.steps plain linked) linked.files (Files.linked []) :=
      .later rfl (.later rfl .now)
    exact Files.not_oldOrNew_of_emptied rfl hold hnew hpasses rfl
  · intro h
    obtain ⟨hmissing, files, hreplace, hfound⟩ := Files.replace_obstructed
      (Settings.encode values) (Settings.encode (Dict.empty.insertAll [("a", .int 2)]))
    have hpasses : FileStep.Passes (call.steps up fresh) fresh.files files := by
      have hend := FileStep.passes_end (call.steps up fresh) fresh.files
      have hrun : FileStep.runAll (call.steps up fresh) fresh.files = _ := hreplace
      rwa [hrun] at hend
    have hother : Settings.encode values ≠
        Settings.encode (Dict.empty.insertAll [("a", .int 2)]) := by decide +kernel
    obtain hsame | ⟨content, hcontent, hsame⟩ := h files hpasses
    · rw [hfound] at hsame
      cases hsame.trans hmissing
    · rw [hfound] at hsame
      cases hcontent
      exact hother (Except.ok.inj (Option.some.inj hsame))

end SealedStream
