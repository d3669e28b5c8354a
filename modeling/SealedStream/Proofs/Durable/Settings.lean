import SealedStream.Proofs.Documents
import SealedStream.Proofs.Durable.Runs
import SealedStream.Proofs.Stores

/-!
# Settings that are opened again

Settings with a document answer as settings in memory do that are never opened
again and never see the writes that failed. At every moment the document holds
what memory holds: a write changes both or neither.
-/

namespace SealedStream

-- ----------------------------------------------------------------------------
-- Events
-- ----------------------------------------------------------------------------

inductive SettingsAnswer where
  | done
  | known (was : Bool)
  | value (value? : Option SettingValue)
  | int (value : Int64)
  | string (text? : Option String)

inductive SettingsCall where
  | putAll (entries : List (String × SettingValue))
  | put (key : String) (value : SettingValue)
  | remove (key : String)
  | get (key : String)
  | getInt (key : String) (default : Int64)
  | getString (key : String)

namespace SettingsCall

def ask : SettingsCall → Action SettingsSite SettingsError SettingsAnswer
  | putAll entries => do
    SettingsSite.putAll entries
    return .done
  | put key value => do
    SettingsSite.put key value
    return .done
  | remove key => do
    return .known (← SettingsSite.remove key)
  | get key => Action.reads fun site => .ok (.value (site.settings.get? key))
  | getInt key default => Action.reads fun site => (site.settings.getInt key default).map .int
  | getString key => Action.reads fun site => (site.settings.getString? key).map .string

/-- The values that a call is to leave. -/
def wanted (values : Dict SettingValue) : SettingsCall → Dict SettingValue
  | putAll entries => values.insertAll entries
  | put key value => values.insertAll [(key, value)]
  | remove key => values.erase key
  | _ => values

def answers : List SettingsCall → SettingsSite → List (Except SettingsError SettingsAnswer)
  | [], _ => []
  | call :: rest, site => (call.ask site).1 :: answers rest (call.ask site).2

end SettingsCall

/-- What happens to settings with a document, and the faults that it meets. -/
inductive SettingsEvent where
  | asked (call : SettingsCall) (faults : List (Option Fault))
  /-- Opened again. The faults are those of the reading; where it fails, the settings in memory go
  on. -/
  | opened (faults : List (Option Fault))

def SettingsEvent.act (path : Path) :
    SettingsEvent → Action SettingsSite SettingsError SettingsAnswer
  | asked call faults => fun site => call.ask ⟨site.settings, site.files.facing faults⟩
  | opened faults => fun site =>
    match Settings.openAt path (site.files.facing faults) with
    | (.ok settings, files) => (.ok .done, ⟨settings, files⟩)
    | (.error e, files) => (.error e, ⟨site.settings, files⟩)

theorem SettingsEvent.opened_apply (path : Path) (faults : List (Option Fault))
    (site : SettingsSite) : (opened faults).act path site =
      match Settings.openAt path (site.files.facing faults) with
      | (.ok settings, files) => (.ok .done, ⟨settings, files⟩)
      | (.error e, files) => (.error e, ⟨site.settings, files⟩) := rfl

abbrev SettingsMoment := Moment SettingsSite SettingsEvent SettingsError SettingsAnswer

/-- The call of a moment with its answer, unless its write failed. -/
def SettingsMoment.performed? (m : SettingsMoment) :
    Option (SettingsCall × Except SettingsError SettingsAnswer) :=
  match m.event, m.reply with
  | .opened _, _ => none
  | .asked _ _, .error (.io _) => none
  | .asked call _, reply => some (call, reply)

-- ----------------------------------------------------------------------------
-- Documents of settings
-- ----------------------------------------------------------------------------

namespace Settings

variable {files files' : Files} {path : Path} {values : Dict SettingValue}

def format : Format SettingsError (Dict SettingValue) (Dict SettingValue) where
  nothing := .empty
  told := .io
  decode := decode
  kept := id

theorem decode_format (document : Bytes) : format.decode document = decode document := rfl

theorem openAt_eq (path : Path) (files : Files) :
    openAt path files =
      ((format.opening path files).1.map fun values => { values, backing := .document path },
        (format.opening path files).2) := by
  cases hfound : files.found? path with
  | none =>
    rw [openAt, Action.bind_apply, Action.get_apply, Format.opening_missing hfound]
    simp only [Files.exists?_eq, hfound]
    rfl
  | some answer =>
    rw [openAt, Action.bind_apply, Action.get_apply, Format.opening_present hfound]
    simp only [Files.exists?_eq, hfound, Option.isSome_some, if_true, Action.bind_apply,
      Action.mapError_apply, Files.read_apply hfound]
    rcases files.met answer with e | document
    · rfl
    · cases hdecode : decode document <;>
        simp only [Except.mapError, ok_bind, Action.ofExcept, decode_format, hdecode] <;> rfl

theorem openAt_end (hs : files.Steady path) (h : format.Shows (files.found? path) values) :
    ∃ files', Files.Spares path files files' ∧
      (openAt path files = (.ok ⟨values, .document path⟩, files') ∨
        ∃ e, (Files.read path files).1 = .error e ∧
          openAt path files = (.error (.io e), files')) := by
  refine ⟨_, format.spares_opening hs, ?_⟩
  rw [openAt_eq]
  obtain ⟨stored, hopen, hkept⟩ | ⟨e, hread, hopen⟩ := Format.opening_end h
  · obtain rfl : stored = values := hkept
    rw [hopen]
    exact .inl rfl
  · rw [hopen]
    exact .inr ⟨e, hread, rfl⟩

theorem openAt_calm (h : format.Shows (files.found? path) values) :
    (openAt path (files.facing [])).1 = .ok ⟨values, .document path⟩ := by
  obtain ⟨stored, hopen, hkept⟩ := Format.opening_calm h
  obtain rfl : stored = values := hkept
  rw [openAt_eq, hopen]
  rfl

end Settings

/-- Settings whose document holds what they hold. -/
structure SettingsSite.Documented (path : Path) (site : SettingsSite) : Prop where
  steady : site.files.Steady path
  backing : site.settings.backing = .document path
  document : Settings.format.Shows (site.files.found? path) site.settings.values

theorem SettingsSite.Documented.openAt_calm {path : Path} {site : SettingsSite}
    (hd : site.Documented path) :
    (Settings.openAt path (site.files.facing [])).1 = .ok site.settings := by
  rw [Settings.openAt_calm hd.document, ← hd.backing]

theorem SettingsSite.Documented.facing {path : Path} {site : SettingsSite}
    (hd : site.Documented path) (faults : List (Option Fault)) :
    SettingsSite.Documented path ⟨site.settings, site.files.facing faults⟩ :=
  ⟨hd.steady.facing faults, hd.backing, hd.document⟩

theorem SettingsSite.Documented.of_spares {path : Path} {site : SettingsSite}
    (hd : site.Documented path) {files : Files} (hspared : Files.Spares path site.files files) :
    SettingsSite.Documented path ⟨site.settings, files⟩ :=
  ⟨hspared.steady, hd.backing, hspared.found.symm ▸ hd.document⟩

theorem Settings.documented_of_openAt {files files' : Files} {path : Path} {settings : Settings}
    (hs : files.Steady path) (h : Settings.openAt path files = (.ok settings, files')) :
    SettingsSite.Documented path ⟨settings, files'⟩ := by
  have hspared := format.spares_opening hs
  rw [openAt_eq] at h
  obtain ⟨hopen, rfl⟩ := Prod.mk.inj h
  obtain ⟨values, hvalues, rfl⟩ := map_eq_ok.mp hopen
  exact ⟨hspared.steady, rfl, Format.shows_opening (Prod.ext hvalues rfl)⟩

-- ----------------------------------------------------------------------------
-- Calls
-- ----------------------------------------------------------------------------

namespace SettingsSite

variable {path : Path} {site : SettingsSite}

/-- Settings in memory alone with the same values. -/
def inMemory (site : SettingsSite) : SettingsSite :=
  { settings := { values := site.settings.values } }

theorem replaceValues_inMemory (values : Dict SettingValue) (site : SettingsSite) :
    replaceValues values site.inMemory =
      (.ok (), inMemory ⟨{ site.settings with values }, site.files⟩) := by
  rw [replaceValues_apply]
  rfl

inductive Updated (path : Path) (site : SettingsSite) (values : Dict SettingValue) :
    Except SettingsError Unit × SettingsSite → Prop
  | done {files : Files} : Documented path ⟨{ site.settings with values }, files⟩ →
      Updated path site values (.ok (), ⟨{ site.settings with values }, files⟩)
  | refused {e : IoError} {files : Files} : Files.Spares path site.files files →
      (Files.replace path (Settings.encode values) site.files).1 = .error e →
        Updated path site values (.error (.io e), ⟨site.settings, files⟩)

theorem replaceValues_end (hd : site.Documented path) (hext : path.extension? ≠ some "tmp")
    (values : Dict SettingValue) : Updated path site values (replaceValues values site) := by
  have hreplaced := Files.replace_end hd.steady hext (Settings.encode values)
  rw [replaceValues_apply, hd.backing, Settings.persist, Action.mapError_apply]
  rcases hend : Files.replace path (Settings.encode values) site.files with ⟨e | _, files⟩
  · rw [hend] at hreplaced
    cases hreplaced with
    | failed hspared => exact .refused hspared (by rw [hend])
  · rw [hend] at hreplaced
    cases hreplaced with
    | done hsteady hfound =>
      refine .done ⟨hsteady, hd.backing, ?_⟩
      rw [hfound]
      exact .present (Settings.decode_encode values) rfl

end SettingsSite

namespace SettingsCall

variable {path : Path} {site : SettingsSite} {call : SettingsCall}

/-- What a call may come to: what it comes to in memory, or its write has failed. -/
inductive End (path : Path) (site : SettingsSite) (call : SettingsCall) :
    Except SettingsError SettingsAnswer × SettingsSite → Prop
  | performed {reply : Except SettingsError SettingsAnswer} {site' : SettingsSite} :
      site'.Documented path → call.ask site.inMemory = (reply, site'.inMemory) →
        (∀ e, reply = .error e → site' = site ∧ ∀ io, e ≠ .io io) →
          End path site call (reply, site')
  | refused {e : IoError} {files : Files} : Files.Spares path site.files files →
      (Files.replace path (Settings.encode (call.wanted site.settings.values)) site.files).1 =
          .error e →
        End path site call (.error (.io e), ⟨site.settings, files⟩)

theorem ask_putAll (h : site.settings.backing ≠ .guarded true)
    (entries : List (String × SettingValue)) :
    (putAll entries).ask site =
      ((SettingsSite.replaceValues (site.settings.values.insertAll entries) site).1.map
          fun _ => .done,
        (SettingsSite.replaceValues (site.settings.values.insertAll entries) site).2) := by
  rw [ask, Action.bind_apply, SettingsSite.putAll_apply, if_neg h]
  rcases SettingsSite.replaceValues (site.settings.values.insertAll entries) site with
    ⟨_ | _, site'⟩ <;> rfl

theorem ask_remove_known {key : String} (h : site.settings.values.contains key) :
    (remove key).ask site =
      ((SettingsSite.replaceValues (site.settings.values.erase key) site).1.map
          fun _ => .known true,
        (SettingsSite.replaceValues (site.settings.values.erase key) site).2) := by
  rw [ask, Action.bind_apply, SettingsSite.remove, Action.bind_apply, Action.get_apply]
  simp only [h, if_true, Action.bind_apply]
  rcases SettingsSite.replaceValues (site.settings.values.erase key) site with
    ⟨_ | _, site'⟩ <;> rfl

theorem ask_remove_unknown {key : String} (h : ¬ site.settings.values.contains key) :
    (remove key).ask site = (.ok (.known false), site) := by
  rw [ask, Action.bind_apply, SettingsSite.remove, Action.bind_apply, Action.get_apply]
  simp only [h]
  rfl

theorem End.of_update (hd : site.Documented path) (hext : path.extension? ≠ some "tmp")
    {answer : SettingsAnswer}
    (h : call.ask site =
      ((SettingsSite.replaceValues (call.wanted site.settings.values) site).1.map fun _ => answer,
        (SettingsSite.replaceValues (call.wanted site.settings.values) site).2))
    (hmemory : call.ask site.inMemory =
      ((SettingsSite.replaceValues (call.wanted site.settings.values) site.inMemory).1.map
          fun _ => answer,
        (SettingsSite.replaceValues (call.wanted site.settings.values) site.inMemory).2)) :
    End path site call (call.ask site) := by
  rw [SettingsSite.replaceValues_inMemory] at hmemory
  have hupdated := SettingsSite.replaceValues_end hd hext (call.wanted site.settings.values)
  rw [h]
  generalize SettingsSite.replaceValues (call.wanted site.settings.values) site = ending
    at hupdated ⊢
  cases hupdated with
  | done hdocumented => exact .performed hdocumented hmemory nofun
  | refused hspared hreplace => exact .refused hspared hreplace

theorem End.of_reading (hd : site.Documented path) {reply : Except SettingsError SettingsAnswer}
    (h : call.ask site = (reply, site)) (hmemory : call.ask site.inMemory = (reply, site.inMemory))
    (hreply : ∀ io, reply ≠ .error (.io io)) : End path site call (call.ask site) := by
  rw [h]
  refine .performed hd hmemory fun e he => ⟨rfl, ?_⟩
  rintro io rfl
  exact hreply io he

theorem ask_end (hd : site.Documented path) (hext : path.extension? ≠ some "tmp")
    (call : SettingsCall) : End path site call (call.ask site) := by
  have hbacking : site.settings.backing ≠ .guarded true := by
    rw [hd.backing]
    nofun
  have hmemory : site.inMemory.settings.backing ≠ .guarded true := nofun
  cases call with
  | putAll entries => exact .of_update hd hext (ask_putAll hbacking _) (ask_putAll hmemory _)
  | put key value =>
    exact .of_update hd hext (ask_putAll hbacking [(key, value)])
      (ask_putAll hmemory [(key, value)])
  | remove key =>
    by_cases h : site.settings.values.contains key
    · have hin : site.inMemory.settings.values.contains key := h
      exact .of_update hd hext (ask_remove_known h) (ask_remove_known hin)
    · have hin : ¬ site.inMemory.settings.values.contains key := h
      exact .of_reading hd (ask_remove_unknown h) (ask_remove_unknown hin) nofun
  | get key => exact .of_reading hd rfl rfl nofun
  | getInt key default =>
    have hreply (io : IoError) :
        (site.settings.getInt key default).map SettingsAnswer.int ≠ .error (.io io) := by
      unfold Settings.getInt
      rcases site.settings.get? key with _ | _ | _ <;> nofun
    exact .of_reading hd rfl rfl hreply
  | getString key =>
    have hreply (io : IoError) :
        (site.settings.getString? key).map SettingsAnswer.string ≠ .error (.io io) := by
      unfold Settings.getString?
      rcases site.settings.get? key with _ | _ | _ <;> nofun
    exact .of_reading hd rfl rfl hreply

end SettingsCall

-- ----------------------------------------------------------------------------
-- Runs
-- ----------------------------------------------------------------------------

namespace SettingsMoment

variable {path : Path} {m : SettingsMoment}

/-- A call of the file system that failed, and for which there is an error. -/
def Refused (path : Path) (m : SettingsMoment) (e : IoError) : Prop :=
  match m.event with
  | .asked call faults =>
    (Files.replace path (Settings.encode (call.wanted m.before.settings.values))
      (m.before.files.facing faults)).1 = .error e
  | .opened faults => (Files.read path (m.before.files.facing faults)).1 = .error e

structure Faithful (path : Path) (m : SettingsMoment) : Prop where
  /-- An opening that meets no faults gives what memory holds. -/
  durable : (Settings.openAt path (m.after.files.facing [])).1 = .ok m.after.settings
  /-- Whoever is told of an error finds memory and document as they were. -/
  unchanged : ∀ e, m.reply = .error e →
    m.after.settings = m.before.settings ∧
      m.after.files.found? path = m.before.files.found? path
  refused : ∀ e, m.reply = .error (.io e) → m.Refused path e

structure Lasts (path : Path) (m : SettingsMoment) : Prop extends m.Faithful path where
  documented : m.after.Documented path
  /-- In memory there is the same answer to what is performed, and nothing else happens. -/
  remembered : match m.performed? with
    | some (call, reply) => call.ask m.before.inMemory = (reply, m.after.inMemory)
    | none => m.after.inMemory = m.before.inMemory

theorem performed?_asked {before after : SettingsSite} {call : SettingsCall}
    {faults : List (Option Fault)} {reply : Except SettingsError SettingsAnswer}
    (h : ∀ io, reply ≠ .error (.io io)) :
    performed? ⟨before, .asked call faults, reply, after⟩ = some (call, reply) := by
  rcases reply with (io | _ | _ | _) | answer
  · exact absurd rfl (h io)
  all_goals rfl

theorem lasts_asked (hext : path.extension? ≠ some "tmp") {site site' : SettingsSite}
    (hd : site.Documented path) {call : SettingsCall} {faults : List (Option Fault)}
    {reply : Except SettingsError SettingsAnswer}
    (h : call.ask ⟨site.settings, site.files.facing faults⟩ = (reply, site')) :
    Lasts path ⟨site, .asked call faults, reply, site'⟩ := by
  have hmet := hd.facing faults
  have hend := SettingsCall.ask_end hmet hext call
  rw [h] at hend
  cases hend with
  | performed hdocumented hmemory herror =>
    have hreply (io : IoError) : reply ≠ .error (.io io) := fun h => (herror _ h).2 io rfl
    refine ⟨⟨?_, fun e he => ?_, fun e he => absurd he (hreply e)⟩, hdocumented, ?_⟩
    · exact hdocumented.openAt_calm
    · obtain ⟨rfl, -⟩ := herror e he
      exact ⟨rfl, rfl⟩
    · rw [performed?_asked hreply]
      exact hmemory
  | refused hspared hreplace =>
    have hdocumented := hmet.of_spares hspared
    refine ⟨⟨hdocumented.openAt_calm, fun e he => ⟨rfl, hspared.found⟩, fun e he => ?_⟩,
      hdocumented, rfl⟩
    cases he
    exact hreplace

theorem lasts_opened {site site' : SettingsSite} (hd : site.Documented path)
    {faults : List (Option Fault)} {reply : Except SettingsError SettingsAnswer}
    (h : (SettingsEvent.opened faults).act path site = (reply, site')) :
    Lasts path ⟨site, .opened faults, reply, site'⟩ := by
  obtain ⟨files', hspared, hopen | ⟨e, hread, hopen⟩⟩ :=
    Settings.openAt_end (hd.steady.facing faults) hd.document
  · have hsame : (⟨site.settings.values, .document path⟩ : Settings) = site.settings := by
      rw [← hd.backing]
    rw [SettingsEvent.opened_apply, hopen, hsame] at h
    cases h
    have hdocumented := (hd.facing faults).of_spares hspared
    exact ⟨⟨hdocumented.openAt_calm, nofun, nofun⟩, hdocumented, rfl⟩
  · rw [SettingsEvent.opened_apply, hopen] at h
    cases h
    have hdocumented := (hd.facing faults).of_spares hspared
    refine ⟨⟨hdocumented.openAt_calm, fun e he => ⟨rfl, hspared.found⟩, fun e he => ?_⟩,
      hdocumented, rfl⟩
    cases he
    exact hread

theorem lasts (hext : path.extension? ≠ some "tmp") {site site' : SettingsSite}
    (hd : site.Documented path) {event : SettingsEvent}
    {reply : Except SettingsError SettingsAnswer} (h : event.act path site = (reply, site')) :
    Lasts path ⟨site, event, reply, site'⟩ := by
  cases event with
  | asked call faults => exact lasts_asked hext hd h
  | opened faults => exact lasts_opened hd h

theorem answers_performed (hext : path.extension? ≠ some "tmp") {site : SettingsSite}
    (hd : site.Documented path) (events : List SettingsEvent) :
    let performed := (moments (SettingsEvent.act path) events site).filterMap performed?
    performed.map Prod.snd = SettingsCall.answers (performed.map Prod.fst) site.inMemory := by
  induction events generalizing site with
  | nil => rfl
  | cons event rest ih =>
    rcases hact : event.act path site with ⟨reply, site'⟩
    have hlasts := lasts hext hd hact
    have hrest := ih hlasts.documented
    have hremembered := hlasts.remembered
    simp only [moments_cons hact, List.filterMap_cons]
    cases hperformed : performed? ⟨site, event, reply, site'⟩ with
    | none =>
      rw [hperformed] at hremembered
      rw [← hremembered]
      exact hrest
    | some entry =>
      obtain ⟨call, answer⟩ := entry
      rw [hperformed] at hremembered
      simp only [List.map_cons, SettingsCall.answers, hremembered]
      exact congrArg _ hrest

end SettingsMoment

namespace Settings

variable {files files' : Files} {path : Path} {settings : Settings}

/--
Settings with a document answer as settings in memory that are never opened again,
but for the writes that failed; and the document always holds what they hold. All
of that as long as the draft is not another name of the document.
-/
theorem answers_like_memory (hs : files.Steady path) (hext : path.extension? ≠ some "tmp")
    (hopen : openAt path files = (.ok settings, files')) (events : List SettingsEvent) :
    let run := moments (SettingsEvent.act path) events ⟨settings, files'⟩
    let performed := run.filterMap SettingsMoment.performed?
    performed.map Prod.snd =
        SettingsCall.answers (performed.map Prod.fst)
          { settings := { values := settings.values } } ∧
      (∀ m ∈ run, SettingsMoment.Faithful path m) ∧
        ∀ values, decode (encode values) = .ok values := by
  have hd := documented_of_openAt hs hopen
  refine ⟨SettingsMoment.answers_performed hext hd events, fun m hm => ?_, decode_encode⟩
  have hstep : ∀ event ∈ events, ∀ site : SettingsSite,
      site.Documented path → (event.act path site).2.Documented path :=
    fun event _ site hd => (SettingsMoment.lasts hext hd rfl).documented
  obtain ⟨hbefore, -, hact⟩ := of_mem_moments hstep hd hm
  exact (SettingsMoment.lasts hext hbefore hact).toFaithful

/-- A failed write on the way to a new directory leaves the settings as they are. -/
theorem answers_like_memory_new :
    let path : Path := ⟨false, ["new", "settings.json"]⟩
    let events := [
      .asked (.putAll [("level", .int 23), ("level", .int 24)]) [],
      .asked (.put "level" (.int 25)) [none, none, none, none, some ⟨.system .storageFull, 0⟩],
      .opened [some ⟨.system .permissionDenied, 0⟩],
      .opened [],
      .asked (.getInt "level" 19) []]
    let run := moments (SettingsEvent.act path) events ⟨{ backing := .document path }, {}⟩
    let performed := run.filterMap SettingsMoment.performed?
    performed.map Prod.snd = SettingsCall.answers (performed.map Prod.fst) {} ∧
      (∀ m ∈ run, SettingsMoment.Faithful path m) ∧
        ∀ values, decode (encode values) = .ok values :=
  answers_like_memory (Files.wellFormed_empty.steady (Files.direct_of_up (by decide))) (by decide) rfl _

/-- Settings that are opened at a path answer as settings in memory that are never opened again. -/
def AnswersAlike (path : Path) (files : Files) : Prop :=
  ∀ (files' : Files) (settings : Settings) (events : List SettingsEvent),
    openAt path files = (.ok settings, files') →
      let run := moments (SettingsEvent.act path) events ⟨settings, files'⟩
      let performed := run.filterMap SettingsMoment.performed?
      performed.map Prod.snd =
        SettingsCall.answers (performed.map Prod.fst)
          { settings := { values := settings.values } }

/-- A write that fails can bring values to light that memory has never seen. -/
theorem not_answersAlike_obstructed (values : Dict SettingValue)
    (hvalues : values.get? "k" = some (.int 1)) :
    ¬ AnswersAlike ⟨false, ["new", "..", "store.json"]⟩ (Files.obstructed (encode values)) := by
  intro h
  let path : Path := ⟨false, ["new", "..", "store.json"]⟩
  let files := Files.obstructed (encode values)
  obtain ⟨hmissing, files', hreplace, hfound⟩ := Files.replace_obstructed (encode values)
    (encode (Dict.empty.insertAll [("a", .int 2)]))
  have hopen : openAt path files = (.ok { backing := .document path }, files) := by
    rw [openAt_eq, Format.opening_missing hmissing]
    rfl
  have hput : (SettingsEvent.asked (.put "a" (.int 2)) []).act path
      ⟨{ backing := .document path }, files⟩ =
        (.error (.io (.system .isADirectory)), ⟨{ backing := .document path }, files'⟩) := by
    have hcalm : files.facing [] = files := rfl
    have hask := @SettingsCall.ask_putAll ⟨{ backing := .document path }, files⟩ nofun
      [("a", .int 2)]
    rw [SettingsSite.replaceValues_apply, persist, Action.mapError_apply, hreplace] at hask
    exact hcalm.symm ▸ hask
  have hopen' : (SettingsEvent.opened []).act path ⟨{ backing := .document path }, files'⟩ =
      (.ok .done, ⟨⟨values, .document path⟩, files'.facing []⟩) := by
    have hshown : (files'.facing []).found? path = some (.ok (encode values)) := hfound
    rw [SettingsEvent.opened_apply, openAt_eq, Format.opening_present hshown, Files.met_calm,
      Except.mapError, ok_bind, decode_format, decode_encode]
    rfl
  have hget : (SettingsEvent.asked (.get "k") []).act path
      ⟨⟨values, .document path⟩, files'.facing []⟩ =
        (.ok (.value (some (.int 1))), ⟨⟨values, .document path⟩, files'.facing []⟩) := by
    rw [← hvalues]
    rfl
  have := h files _ [.asked (.put "a" (.int 2)) [], .opened [], .asked (.get "k") []] hopen
  rw [moments_cons hput, moments_cons hopen', moments_cons hget] at this
  have hanswers : [Except.ok (SettingsAnswer.value (some (.int 1)))] =
      [(.ok (.value none) : Except SettingsError SettingsAnswer)] := this
  cases hanswers

/-- A write that fails can lose the values that memory has. -/
theorem not_answersAlike_linked (values : Dict SettingValue)
    (hvalues : values.get? "k" = some (.int 1)) :
    ¬ AnswersAlike ⟨false, ["store.json"]⟩ (Files.linked (encode values)) := by
  intro h
  let path : Path := ⟨false, ["store.json"]⟩
  let files := Files.linked (encode values)
  let full : List (Option Fault) := [none, none, some ⟨.system .storageFull, 0⟩]
  have hcalm : files.facing [] = files := rfl
  have hopen : openAt path files = (.ok ⟨values, .document path⟩, files) := by
    have hfound : (files.facing []).found? path = some (.ok (encode values)) := rfl
    rw [← hcalm, openAt_eq, Format.opening_present hfound, Files.met_calm,
      Except.mapError, ok_bind, decode_format, decode_encode]
    rfl
  have hput : (SettingsEvent.asked (.put "a" (.int 2)) full).act path
      ⟨⟨values, .document path⟩, files⟩ =
        (.error (.io (.system .storageFull)), ⟨⟨values, .document path⟩, Files.linked []⟩) := by
    have hask := @SettingsCall.ask_putAll ⟨⟨values, .document path⟩, files.facing full⟩ nofun
      [("a", .int 2)]
    have hreplace : Files.replace path _ (files.facing full) = _ :=
      Files.replace_linked (encode values) (encode (values.insertAll [("a", .int 2)]))
    rw [SettingsSite.replaceValues_apply, persist, Action.mapError_apply, hreplace] at hask
    exact hask
  have hopen' : (SettingsEvent.opened []).act path
      ⟨⟨values, .document path⟩, Files.linked []⟩ =
        (.ok .done, ⟨⟨.empty, .document path⟩, Files.linked []⟩) := by
    have hshown : ((Files.linked []).facing []).found? path = some (.ok []) := rfl
    rw [SettingsEvent.opened_apply, openAt_eq, Format.opening_present hshown, Files.met_calm]
    rfl
  have hget : (SettingsEvent.asked (.get "k") []).act path
      ⟨⟨.empty, .document path⟩, Files.linked []⟩ =
        (.ok (.value none), ⟨⟨.empty, .document path⟩, Files.linked []⟩) := rfl
  have := h files _ [.asked (.put "a" (.int 2)) full, .opened [], .asked (.get "k") []] hopen
  rw [moments_cons hput, moments_cons hopen', moments_cons hget] at this
  have hanswers : [Except.ok (SettingsAnswer.value none)] =
      [(.ok (.value (values.get? "k")) : Except SettingsError SettingsAnswer)] := this
  rw [hvalues] at hanswers
  cases hanswers

/--
Where the path leads up from a directory that is not there yet, a write that fails
can bring values to light that memory has never seen. Where the draft is another
name of the document, it can lose those that memory has.
-/
theorem answers_unlike_memory :
    (¬ ∀ (path : Path) (files : Files), files.WellFormed → path.extension? ≠ some "tmp" →
      AnswersAlike path files) ∧
    ¬ ∀ (path : Path) (files : Files), files.IsTree → files.Direct path →
      path.extension? ≠ some "tmp" → AnswersAlike path files := by
  let values : Dict SettingValue := Dict.empty.insert "k" (.int 1)
  constructor
  · exact fun h => not_answersAlike_obstructed values rfl
      (h _ _ (Files.wellFormed_obstructed _) (by decide))
  · exact fun h => not_answersAlike_linked values rfl
      (h _ _ (Files.isTree_linked _) (Files.direct_of_up (by decide)) (by decide))

end Settings

end SealedStream
