import SealedStream.CommandLine.Program
import SealedStream.Proofs.Durable.VaultCalls
import SealedStream.Proofs.Durable.Settings
import SealedStream.Proofs.Files.Confined
import SealedStream.Proofs.Files.Rewriting
import SealedStream.Proofs.Keeping

/-!
# The state directory of a run

A run opens its state in a directory that it has made. From then on vault and settings
are what their documents show, and no look-up touches anything outside of the
directory. A later run over the same files opens the same state.
-/

namespace SealedStream

open SealedStream.Action (Keeps)

namespace Host

variable {directory : Path} {home : Place} {files : Files} {h : Host}

-- ----------------------------------------------------------------------------
-- Documents in the directory
-- ----------------------------------------------------------------------------

theorem names_vaultFile (hr : files.Reaches directory home) :
    files.Names (directory.join vaultFile) home "vault.json" := hr.names (by decide) (by decide)

theorem names_settingsFile (hr : files.Reaches directory home) :
    files.Names (directory.join settingsFile) home "settings.json" :=
  hr.names (by decide) (by decide)

theorem extension?_vaultFile (hr : files.Reaches directory home) :
    (directory.join vaultFile).extension? ≠ some "tmp" := by
  rw [Path.extension?, (names_vaultFile hr).name?]
  decide

theorem extension?_settingsFile (hr : files.Reaches directory home) :
    (directory.join settingsFile).extension? ≠ some "tmp" := by
  rw [Path.extension?, (names_settingsFile hr).name?]
  decide

/-- A host whose documents are in a directory that is there. -/
structure Placed (directory : Path) (home : Place) (h : Host) : Prop where
  wellFormed : h.machine.files.WellFormed
  reaches : h.machine.files.Reaches directory home
  vault : h.vault.path = some (directory.join vaultFile)
  settings : h.settings.backing = .document (directory.join settingsFile)
  clock : h.machine.now.InRange

namespace Placed

variable (hp : h.Placed directory home)

include hp

theorem of_same {h' : Host} (hfiles : h'.machine.files = h.machine.files)
    (hvault : h'.vault = h.vault) (hsettings : h'.settings = h.settings)
    (hnow : h'.machine.now = h.machine.now) : h'.Placed directory home :=
  ⟨hfiles ▸ hp.wellFormed, hfiles ▸ hp.reaches, hvault ▸ hp.vault, hsettings ▸ hp.settings,
    hnow ▸ hp.clock⟩

theorem of_confined {inside : Place → Prop} {files' : Files}
    (hc : Files.Confined inside h.machine.files files') (hw : files'.WellFormed) :
    Placed directory home { h with machine := { h.machine with files := files' } } :=
  ⟨hw, hp.reaches.of_keeps hc.same.1, hp.vault, hp.settings, hp.clock⟩

/-- A change of the vault leaves traces where its document is, and nowhere else. -/
theorem stored (entries : Dict VaultEntry) :
    let after := withVaultSite (VaultSite.replaceEntries entries h.vaultSite).2 h
    after.Placed directory home ∧
      Files.Confined (Files.Beside home "vault.json") h.machine.files after.machine.files := by
  have hpath : h.vaultSite.vault.path = some (directory.join vaultFile) := hp.vault
  have hw := hp.wellFormed.runAll
    (Files.replaceSteps (directory.join vaultFile) (Vault.encode entries))
  have hc := (names_vaultFile hp.reaches).confined_replace hp.wellFormed (Vault.encode entries)
  rw [VaultSite.replaceEntries_apply, hpath, Vault.persist, Action.mapError_apply]
  simp only [Files.replace] at hc ⊢
  rcases hrun : FileStep.runAll _ h.vaultSite.machine.files with ⟨_ | _, files⟩
  all_goals
    have hfiles : FileStep.runAll _ h.machine.files = _ := hrun
    rw [hfiles] at hw hc
    exact ⟨⟨hw, hp.reaches.of_keeps hc.same.1, hp.vault, hp.settings, hp.clock⟩, hc⟩

/-- So does a change of the settings. -/
theorem put (values : Dict SettingValue) :
    let after := withSettingsSite (SettingsSite.replaceValues values h.settingsSite).2 h
    after.Placed directory home ∧
      Files.Confined (Files.Beside home "settings.json") h.machine.files after.machine.files := by
  have hpath : h.settingsSite.settings.backing = .document (directory.join settingsFile) :=
    hp.settings
  have hw := hp.wellFormed.runAll
    (Files.replaceSteps (directory.join settingsFile) (Settings.encode values))
  have hc := (names_settingsFile hp.reaches).confined_replace hp.wellFormed
    (Settings.encode values)
  rw [SettingsSite.replaceValues_apply, hpath, Settings.persist, Action.mapError_apply]
  simp only [Files.replace] at hc ⊢
  rcases hrun : FileStep.runAll _ h.settingsSite.files with ⟨_ | _, files⟩
  all_goals
    have hfiles : FileStep.runAll _ h.machine.files = _ := hrun
    rw [hfiles] at hw hc
    exact ⟨⟨hw, hp.reaches.of_keeps hc.same.1, hp.vault, hp.settings, hp.clock⟩, hc⟩

end Placed

/-- No look-up leaves a trace outside of the directory: what such changes keep is kept. -/
theorem stable_placed (directory : Path) {fits : Files → Prop}
    (hfits : ∀ files files', fits files → files'.WellFormed →
      Files.Confined (home <+: ·) files files' → fits files') :
    Stable fun h => h.Placed directory home ∧ fits h.machine.files where
  noted _ _ hh := ⟨hh.1.of_same rfl rfl rfl rfl, hh.2⟩
  random _ _ hh := ⟨hh.1.of_same rfl rfl rfl rfl, hh.2⟩
  drawn _ _ hh := ⟨hh.1.of_same rfl rfl rfl rfl, hh.2⟩
  stored h keyName entry _ hh := by
    obtain ⟨hplaced, hc⟩ := hh.1.stored (h.vault.entries.insert keyName entry)
    exact ⟨hplaced, hfits _ _ hh.2 hplaced.wellFormed (hc.mono fun _ => Files.Beside.below)⟩
  put h values hh := by
    obtain ⟨hplaced, hc⟩ := hh.1.put values
    exact ⟨hplaced, hfits _ _ hh.2 hplaced.wellFormed (hc.mono fun _ => Files.Beside.below)⟩
  clock _ hh := hh.1.clock

-- ----------------------------------------------------------------------------
-- What the documents show
-- ----------------------------------------------------------------------------

/-- A host whose documents show what it holds. -/
structure Housed (directory : Path) (home : Place) (h : Host) : Prop where
  placed : h.Placed directory home
  vault : h.vaultSite.Documented (directory.join vaultFile)
  settings : h.settingsSite.Documented (directory.join settingsFile)

theorem settings_apart (home : Place) :
    ¬ Files.Beside home "vault.json" (home ++ ["settings.json"]) := by
  rintro (h | h) <;> exact absurd (List.append_cancel_left h) (by decide)

theorem vault_apart (home : Place) :
    ¬ Files.Beside home "settings.json" (home ++ ["vault.json"]) := by
  rintro (h | h) <;> exact absurd (List.append_cancel_left h) (by decide)

theorem Housed.of_same (hh : h.Housed directory home) {h' : Host}
    (hfiles : h'.machine.files = h.machine.files) (hvault : h'.vault = h.vault)
    (hsettings : h'.settings = h.settings) (hnow : h'.machine.now = h.machine.now) :
    h'.Housed directory home := by
  refine ⟨hh.placed.of_same hfiles hvault hsettings hnow, hh.vault.of_spares hvault ?_, ?_⟩
  · simp only [vaultSite, hfiles]
    exact .refl hh.vault.steady
  · simp only [settingsSite, hsettings, hfiles]
    exact hh.settings

theorem Housed.stored (hh : h.Housed directory home) {entries : Dict VaultEntry}
    (hrange : Vault.InRange entries) :
    (withVaultSite (VaultSite.replaceEntries entries h.vaultSite).2 h).Housed directory home := by
  have hreaches := hh.placed.reaches
  obtain ⟨hplaced, hc⟩ := hh.placed.stored entries
  have hupdated := VaultSite.replaceEntries_end hh.vault (extension?_vaultFile hreaches) hrange
  refine ⟨hplaced, ?_, hh.settings.of_spares
    ((names_settingsFile hreaches).spares hplaced.wellFormed hc (settings_apart home))⟩
  generalize VaultSite.replaceEntries entries h.vaultSite = ending at hupdated
  cases hupdated with
  | done hdocumented => exact hdocumented
  | refused hspared => exact hh.vault.of_spares rfl hspared

theorem Housed.put (hh : h.Housed directory home) (values : Dict SettingValue) :
    (withSettingsSite (SettingsSite.replaceValues values h.settingsSite).2 h).Housed
      directory home := by
  have hreaches := hh.placed.reaches
  obtain ⟨hplaced, hc⟩ := hh.placed.put values
  have hupdated :=
    SettingsSite.replaceValues_end hh.settings (extension?_settingsFile hreaches) values
  refine ⟨hplaced, hh.vault.of_spares rfl
    ((names_vaultFile hreaches).spares hplaced.wellFormed hc (vault_apart home)), ?_⟩
  generalize SettingsSite.replaceValues values h.settingsSite = ending at hupdated
  cases hupdated with
  | done hdocumented => exact hdocumented
  | refused hspared => exact hh.settings.of_spares hspared

/-- After every look-up the documents show what the host holds. -/
theorem stable_housed (directory : Path) (home : Place) : Stable (Housed directory home) where
  noted _ _ hh := hh.of_same rfl rfl rfl rfl
  random _ _ hh := hh.of_same rfl rfl rfl rfl
  drawn _ _ hh := hh.of_same rfl rfl rfl rfl
  stored _ _ _ hrange hh := hh.stored (hh.vault.inRange.insert hrange)
  put _ values hh := hh.put values
  clock _ hh := hh.placed.clock

/-- Changes outside of the directory leave the documents as they are. -/
theorem Housed.of_confined (hh : h.Housed directory home) {inside : Place → Prop}
    {files' : Files} (hc : Files.Confined inside h.machine.files files')
    (hw : files'.WellFormed) (hapart : ∀ place, home <+: place → ¬ inside place) :
    Housed directory home { h with machine := { h.machine with files := files' } } where
  placed := hh.placed.of_confined hc hw
  vault := hh.vault.of_spares rfl
    ((names_vaultFile hh.placed.reaches).spares hw hc (hapart _ (List.prefix_append ..)))
  settings := hh.settings.of_spares
    ((names_settingsFile hh.placed.reaches).spares hw hc (hapart _ (List.prefix_append ..)))

end Host

-- ----------------------------------------------------------------------------
-- Opening
-- ----------------------------------------------------------------------------

namespace Files

variable {files files' files'' : Files} {path : Path}

/-- Nothing but directories has been made. -/
structure Grown (files files' : Files) : Prop where
  keeps : files.KeepsDirectories files'
  listed : ∀ place number, files'.node? place = some (.file number) ↔
    files.node? place = some (.file number)
  contents : files'.contents = files.contents
  /-- The faults that are still to come are the last of those that were waiting. -/
  faults : files'.faults <:+ files.faults

namespace Grown

theorem refl (files : Files) : files.Grown files :=
  ⟨.refl files, fun _ _ => .rfl, rfl, List.suffix_rfl⟩

theorem trans (h : files.Grown files') (h' : files'.Grown files'') : files.Grown files'' :=
  ⟨h.keeps.trans h'.keeps, fun place number => (h'.listed place number).trans (h.listed ..),
    h'.contents.trans h.contents, h'.faults.trans h.faults⟩

theorem facing {faults : List (Option Fault)} (h : faults <:+ files.faults) :
    files.Grown (files.facing faults) := ⟨⟨rfl, fun _ => id⟩, fun _ _ => .rfl, rfl, h⟩

theorem makeDir (h : files.makeDir path = .ok files') : files.Grown files' := by
  have hkeeps := keepsDirectories_makeDir h
  obtain ⟨directory, name, slash, -, -, hfree, rfl⟩ := makeDir_ok h
  refine ⟨hkeeps, fun place number => ?_, rfl, List.suffix_rfl⟩
  rw [node?_putName]
  split
  · next hplace => simp [hplace, hfree]
  · exact .rfl

theorem makeDirs (path : Path) (files : Files) : files.Grown (Files.makeDirs path files).2 :=
  makeInnermost_keeps (fun _ _ _ _ hbefore hmade => hbefore.trans (.makeDir hmade)) (.refl files)

theorem run_makeDirs (path : Path) (files : Files) :
    files.Grown ((FileStep.makeDirs path).run files).2 := by
  have hrest : files.Grown (files.facing files.faults.tail) := .facing (List.tail_suffix _)
  rw [run_eq]
  split
  · exact hrest
  · exact hrest.trans (.makeDirs path _)

/-- A file that is there now was there, with the same content. -/
theorem standing (h : files.Grown files') {place : Place} {bytes : Bytes}
    (hplace : files'.standing place = some (some bytes)) :
    files.standing place = some (some bytes) := by
  obtain ⟨node, hnode, hbytes⟩ := Option.map_eq_some_iff.mp hplace
  cases node with
  | directory => cases hbytes
  | file number =>
    unfold Files.standing
    rw [(h.listed place number).mp hnode]
    simpa [content, h.contents] using hbytes

end Grown

end Files

/-- All that an opening does to the files is to meet their faults. -/
theorem Format.opening_facing {ε α β : Type} (format : Format ε α β) (path : Path)
    (files : Files) : ∃ faults, (format.opening path files).2 = files.facing faults ∧
      faults <:+ files.faults := by
  cases hfound : files.found? path with
  | none =>
    rw [opening_missing hfound]
    exact ⟨files.faults, rfl, List.suffix_rfl⟩
  | some answer =>
    rw [opening_present hfound]
    exact ⟨files.faults.tail, rfl, List.tail_suffix _⟩

theorem Vault.openAt_facing (path : Path) (files : Files) :
    ∃ faults, (Vault.openAt path files).2 = files.facing faults ∧ faults <:+ files.faults := by
  rw [openAt_eq]
  exact format.opening_facing path files

theorem Settings.openAt_facing (path : Path) (files : Files) :
    ∃ faults, (Settings.openAt path files).2 = files.facing faults ∧ faults <:+ files.faults := by
  rw [openAt_eq]
  exact format.opening_facing path files

theorem Vault.unlocked_of_openAt {path : Path} {files files' : Files} {vault : Vault}
    (h : Vault.openAt path files = (.ok vault, files')) : vault.locked = false := by
  rw [openAt_eq] at h
  obtain ⟨entries, -, rfl⟩ := map_eq_ok.mp (Prod.mk.inj h).1
  rfl

namespace Host

variable {directory : Path} {home : Place} {machine machine' : Machine} {h : Host}

/-- A host that has just been opened, by a process that starts now. -/
structure OpenedIn (directory : Path) (home : Place) (machine : Machine) (h : Host) : Prop where
  housed : h.Housed directory home
  unlocked : h.vault.locked = false
  clock : h.machine.now = machine.now
  files : ∃ faults, h.machine.files = machine.files.facing faults ∧ faults <:+ machine.files.faults

theorem openIn_ok (hw : machine.files.WellFormed) (hnow : machine.now.InRange)
    (hr : machine.files.Reaches directory home)
    (h' : openIn directory machine = (.ok h, machine')) :
    OpenedIn directory home machine h := by
  unfold openIn at h'
  obtain ⟨vault, m₁, hvault, h'⟩ := Action.bind_ok.mp h'
  obtain ⟨settings, m₂, hsettings, h'⟩ := Action.bind_ok.mp h'
  obtain ⟨files₁, hopen₁, rfl⟩ := Action.zoom_ok.mp hvault
  obtain ⟨files₂, hopen₂, rfl⟩ := Action.zoom_ok.mp hsettings
  rw [Action.mapError_ok] at hopen₁
  rw [Failure.lift, Action.mapError_ok] at hopen₂
  cases h'
  have hsteady₁ := (names_vaultFile hr).steady hw
  have hdocumented := Vault.documented_of_openAt hsteady₁ hopen₁ [] machine.entropy machine.now
  have hlocked := Vault.unlocked_of_openAt hopen₁
  obtain ⟨faults₁, hfiles₁, hsuffix₁⟩ :=
    Vault.openAt_facing (directory.join vaultFile) machine.files
  rw [hopen₁] at hfiles₁
  subst hfiles₁
  have hsteady₂ := ((names_settingsFile hr).steady hw).facing faults₁
  have hdocumented' := Settings.documented_of_openAt hsteady₂ hopen₂
  obtain ⟨faults₂, hfiles₂, hsuffix₂⟩ :=
    Settings.openAt_facing (directory.join settingsFile) (machine.files.facing faults₁)
  rw [hopen₂] at hfiles₂
  subst hfiles₂
  refine ⟨⟨⟨hw.withFaults faults₂, hr, hdocumented.kept, hdocumented'.backing, hnow⟩,
    hdocumented.of_spares rfl ⟨hsteady₁.facing faults₂, rfl⟩, hdocumented'⟩, hlocked, rfl,
    faults₂, rfl, hsuffix₂.trans hsuffix₁⟩

/-- What a process that meets no faults opens is what an earlier one held. -/
structure Reopened (h again : Host) : Prop where
  unlocked : again.vault.locked = false
  held : again.vault.entries.map VaultEntry.held = h.vault.entries.map VaultEntry.held
  settings : again.settings = h.settings
  files : again.machine.files = h.machine.files.facing []

theorem Housed.openIn (hh : h.Housed directory home) (entropy : Entropy) (now : Time) :
    ∃ again, Host.openIn directory ⟨h.machine.files.facing [], entropy, now⟩ =
        (.ok again, again.machine) ∧ Reopened h again ∧ again.machine.now = now := by
  obtain ⟨vault, hvault, hheld⟩ := Vault.openAt_calm hh.vault.document
  have hvault : Vault.openAt (directory.join vaultFile) (h.machine.files.facing []) =
      (.ok vault, h.machine.files.facing []) := by
    obtain ⟨faults, hfiles, hcalm⟩ :=
      Vault.openAt_facing (directory.join vaultFile) (h.machine.files.facing [])
    obtain rfl := List.suffix_nil.mp hcalm
    exact Prod.ext hvault hfiles
  have hsettings : Settings.openAt (directory.join settingsFile) (h.machine.files.facing []) =
      (.ok h.settings, h.machine.files.facing []) := by
    obtain ⟨faults, hfiles, hcalm⟩ :=
      Settings.openAt_facing (directory.join settingsFile) (h.machine.files.facing [])
    obtain rfl := List.suffix_nil.mp hcalm
    exact Prod.ext hh.settings.openAt_calm hfiles
  have hlocked := Vault.unlocked_of_openAt hvault
  let start : Machine := ⟨h.machine.files.facing [], entropy, now⟩
  let opened : Host :=
    { vault, settings := h.settings, random := (RandomSource.create entropy).1,
      machine := { start with entropy := (RandomSource.create entropy).2 } }
  refine ⟨opened, ?_, ⟨hlocked, hheld, rfl, rfl⟩, rfl⟩
  unfold Host.openIn
  refine Action.bind_ok.mpr ⟨vault, start, ?_, Action.bind_ok.mpr ⟨h.settings, start, ?_, rfl⟩⟩
  · exact Action.zoom_ok.mpr ⟨_, Action.mapError_ok.mpr hvault, rfl⟩
  · exact Action.zoom_ok.mpr ⟨_, Action.mapError_ok.mpr hsettings, rfl⟩

end Host

namespace CommandLine

variable {inv : Invocation} {levelBytes : Option Bytes} {machine machine' : Machine}
  {home : SealedStream.Place} {p : Custody}

/-- A run that has opened its state. -/
structure Opened (inv : Invocation) (levelBytes : Option Bytes) (machine : Machine)
    (home : SealedStream.Place) (p : Custody) : Prop where
  there : p.host.machine.files.There (Path.ofString inv.stateDirectory)
  housed : p.host.Housed (Path.ofString inv.stateDirectory) home
  platform : platformOf inv.level levelBytes = .ok p.custodian.platform
  config : p.custodian.config = {}
  cached : p.custodian.cached = none
  unlocked : p.host.vault.locked = false
  grown : machine.files.Grown p.host.machine.files

theorem openCustody_ok (hw : machine.files.WellFormed) (hnow : machine.now.InRange)
    (h : openCustody inv levelBytes machine = (.ok p, machine')) :
    ∃ home, Opened inv levelBytes machine home p := by
  unfold openCustody at h
  obtain ⟨_, m₁, hmake, h⟩ := Action.bind_ok.mp h
  obtain ⟨platform, m₂, hplatform, h⟩ := Action.bind_ok.mp h
  obtain ⟨host, m₃, hhost, h⟩ := Action.bind_ok.mp h
  obtain ⟨custodian, m₄, hcustodian, h⟩ := Action.bind_ok.mp h
  cases h
  rw [Failure.lift, Action.mapError_ok] at hmake
  obtain ⟨files, hrun, rfl⟩ := Action.zoom_ok.mp hmake
  obtain ⟨hlevel, rfl⟩ := Prod.mk.inj hplatform
  rw [Action.mapError_ok] at hhost
  obtain ⟨hcreate, rfl⟩ := Prod.mk.inj hcustodian
  rw [mapError_eq_ok, Custodian.create] at hcreate
  obtain ⟨_, -, hcustodian⟩ := bind_eq_ok.mp hcreate
  cases hcustodian
  have hwell := hw.run (.makeDirs (Path.ofString inv.stateDirectory))
  rw [hrun] at hwell
  have hmade : Files.makeDirs (Path.ofString inv.stateDirectory)
    (machine.files.facing machine.files.faults.tail) = (.ok (), files) := Files.run_ok hrun
  have hthere := Files.there_of_makeDirs hmade
  obtain ⟨home, hreaches⟩ := hthere.reaches
  have hgrown := Files.Grown.run_makeDirs (Path.ofString inv.stateDirectory) machine.files
  rw [hrun] at hgrown
  have hopened : Host.OpenedIn _ home { machine with files } host :=
    Host.openIn_ok hwell hnow hreaches hhost
  obtain ⟨faults, hfaults, hsuffix⟩ := hopened.files
  refine ⟨home, ⟨?_, hopened.housed, mapError_eq_ok.mp hlevel, rfl, rfl, hopened.unlocked, ?_⟩⟩
  · rw [hfaults]
    exact hthere
  · rw [hfaults]
    exact hgrown.trans (.facing hsuffix)

/-- A later run that meets no faults opens what is held over the files that it finds. -/
theorem openCustody_of_housed {h : Host} {platform : Platform}
    (hh : h.Housed (Path.ofString inv.stateDirectory) home)
    (hthere : h.machine.files.There (Path.ofString inv.stateDirectory))
    (hplatform : platformOf inv.level levelBytes = .ok platform) (entropy : Entropy)
    (now : Time) : ∃ again,
      openCustody inv levelBytes ⟨h.machine.files.facing [], entropy, now⟩ =
        (.ok ⟨{ platform, config := {} }, again⟩, again.machine) ∧
      h.Reopened again ∧ again.machine.now = now := by
  obtain ⟨again, hopen, hagain⟩ := hh.openIn entropy now
  refine ⟨again, ?_, hagain⟩
  have hmake : (FileStep.makeDirs (Path.ofString inv.stateDirectory)).run
      (h.machine.files.facing []) = (.ok (), h.machine.files.facing []) := by
    have hthere' : (h.machine.files.facing []).There (Path.ofString inv.stateDirectory) := hthere
    rw [Files.run_calm rfl]
    exact hthere'.makeDirs
  let start : Machine := ⟨h.machine.files.facing [], entropy, now⟩
  have hlevel : (platformOf inv.level levelBytes).mapError Failure.error = .ok platform :=
    mapError_eq_ok.mpr hplatform
  unfold openCustody
  refine Action.bind_ok.mpr ⟨(), start, ?_, Action.bind_ok.mpr ⟨platform, start, ?_,
    Action.bind_ok.mpr ⟨again, again.machine, Action.mapError_ok.mpr hopen, rfl⟩⟩⟩
  · exact Action.mapError_ok.mpr (Action.zoom_ok.mpr ⟨_, hmake, rfl⟩)
  · exact congrArg (·, start) hlevel

/-- Whether the state can be opened or not, no more is made than its directory. -/
theorem openCustody_grown (inv : Invocation) (levelBytes : Option Bytes) (machine : Machine) :
    machine.files.Grown (openCustody inv levelBytes machine).2.files := by
  let fits (m : Machine) : Prop := machine.files.Grown m.files
  have hfiles {ε α : Type} {x : Action Files ε α} (hx : ∀ files, files.Grown (x files).2) :
      Keeps fits (Machine.onFiles x) := fun m hm => hm.trans (hx m.files)
  have hvault (path : Path) (files : Files) : files.Grown (Vault.openAt path files).2 := by
    obtain ⟨faults, hfaults, hsuffix⟩ := Vault.openAt_facing path files
    exact hfaults ▸ .facing hsuffix
  have hsettings (path : Path) (files : Files) : files.Grown (Settings.openAt path files).2 := by
    obtain ⟨faults, hfaults, hsuffix⟩ := Settings.openAt_facing path files
    exact hfaults ▸ .facing hsuffix
  have hhost (directory : Path) : Keeps fits (Host.openIn directory) := by
    unfold Host.openIn
    refine .bind (hfiles fun files => ?_) fun vault => .bind (hfiles fun files => ?_)
      fun settings => .bind (fun m hm => hm) fun random => .bind (.of_same fun _ => rfl)
        fun m => .of_same fun _ => rfl
    · rw [Action.mapError_apply]
      exact hvault _ files
    · rw [Failure.lift, Action.mapError_apply]
      exact hsettings _ files
  have hopen : Keeps fits (openCustody inv levelBytes) := by
    unfold openCustody
    exact .bind (.mapError _ (hfiles (Files.Grown.run_makeDirs _))) fun _ =>
      .bind (.of_same fun _ => rfl) fun platform => .bind (.mapError _ (hhost _)) fun host =>
        .bind (.of_same fun _ => rfl) fun custodian => .of_same fun _ => rfl
  exact hopen machine (.refl machine.files)

/-- What has been opened has the machine that the opening has left. -/
theorem machine_of_openCustody (h : openCustody inv levelBytes machine = (.ok p, machine')) :
    p.host.machine = machine' := by
  unfold openCustody at h
  obtain ⟨_, m₁, -, h⟩ := Action.bind_ok.mp h
  obtain ⟨platform, m₂, -, h⟩ := Action.bind_ok.mp h
  obtain ⟨host, m₃, hhost, h⟩ := Action.bind_ok.mp h
  obtain ⟨custodian, m₄, hcustodian, h⟩ := Action.bind_ok.mp h
  cases h
  obtain ⟨-, rfl⟩ := Prod.mk.inj hcustodian
  rw [Action.mapError_ok, Host.openIn] at hhost
  obtain ⟨vault, _, -, hhost⟩ := Action.bind_ok.mp hhost
  obtain ⟨settings, _, -, hhost⟩ := Action.bind_ok.mp hhost
  obtain ⟨random, _, -, hhost⟩ := Action.bind_ok.mp hhost
  cases hhost
  rfl

theorem action_eq (hcommand : inv.command ≠ .version) :
    inv.action levelBytes = (do
      let p ← openCustody inv levelBytes
      let (answer, p) := inv.command.action p
      set p.host.machine
      Action.ofExcept answer) := by
  unfold Invocation.action
  cases hname : inv.command with
  | version => exact absurd hname hcommand
  | _ => rfl

/-- A command runs on the state that has been opened. -/
theorem action_apply (hcommand : inv.command ≠ .version)
    (hopen : openCustody inv levelBytes machine = (.ok p, machine')) :
    inv.action levelBytes machine =
      ((inv.command.action p).1, (inv.command.action p).2.host.machine) := by
  rw [action_eq hcommand, Action.bind_apply, hopen]
  rfl

theorem action_ok {message : String} (hcommand : inv.command ≠ .version)
    (h : inv.action levelBytes machine = (.ok message, machine')) : ∃ p opened p',
      openCustody inv levelBytes machine = (.ok p, opened) ∧
        inv.command.action p = (.ok message, p') ∧ p'.host.machine = machine' := by
  rcases hopen : openCustody inv levelBytes machine with ⟨e | p, opened⟩
  · rw [action_eq hcommand, Action.bind_apply, hopen] at h
    cases h
  · rw [action_apply hcommand hopen, Prod.mk.injEq] at h
    exact ⟨p, opened, _, rfl, Prod.ext h.1 rfl, h.2⟩

end CommandLine

end SealedStream
