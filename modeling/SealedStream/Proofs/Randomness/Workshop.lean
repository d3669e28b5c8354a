import SealedStream.Exercise.Workbench
import SealedStream.Proofs.Randomness.Spending
import SealedStream.Proofs.Stream.Writing

/-!
# A workshop

Any number of random sources, vaults, custodians and streams at work on one machine. The
log of a run has the draws of every job, and the calls of a cipher are those that finish
a stream which has not been finished yet.
-/

namespace SealedStream

open SealedStream.Action (Keeps)
open SealedStream.Supply (Draws Serves)

-- ----------------------------------------------------------------------------
-- Calls of the cipher
-- ----------------------------------------------------------------------------

/-- A text that is sealed under a key and a vector. -/
structure SealCall where
  key : SymmetricKey
  iv : Bytes
  text : Bytes

def SealCall.answer (call : SealCall) : Except SealDefect Bytes :=
  call.key.sealText call.iv call.text

/-- What is done with a stream that has been begun. -/
inductive StreamStep where
  | call (call : StreamCall)
  | finish
  | abandon

def StreamStep.run : StreamStep → SealingStream → SealingStream
  | call c, stream => (c.run stream).2
  | finish, stream => (SealingStream.finish stream).2
  | abandon, stream => stream.abandon

namespace SealingStream

/-- The key and the vector that a stream is sealed under. -/
def vector? (stream : SealingStream) : Option (SymmetricKey × Bytes) :=
  stream.sealing.map fun s => (s.key, s.iv)

/-- The call of the cipher that an end of the stream would make. -/
def due? (stream : SealingStream) : Option SealCall :=
  match stream.sealing with
  | some s => if s.finished then none else some ⟨s.key, s.iv, s.buffer⟩
  | none => none

/-- The end of a stream, by what the cipher has answered if there was a call to make. -/
def ending (answer? : Option (Except SealDefect Bytes)) : WriteAction Unit := do
  match (← get).sealing, answer? with
  | none, _ => flush
  | some _, none => return
  | some s, some (.error defect) =>
    setSealing { s with finished := true }
    throw (.custom .other (SealError.encryptionFailed defect).message)
  | some s, some (.ok bytes) =>
    setSealing { s with finished := true, buffer := [] }
    onSink (Sink.writeAll bytes)
    flush

/-- An end asks the cipher for what is due, and for nothing else. -/
theorem finish_eq_ending (stream : SealingStream) :
    finish stream = ending (stream.due?.map SealCall.answer) stream := by
  obtain ⟨_ | ⟨key, iv, buffer, _ | _⟩, sink⟩ := stream
  · rfl
  · simp only [finish, finishSealing, ending, due?, SealCall.answer, Action.bind_apply,
      Action.get_apply, setSealing, Action.modify_apply, Bool.false_eq_true, if_false,
      Option.map_some]
    cases key.sealText iv buffer <;> rfl
  · rfl

theorem vector?_of_due? {stream : SealingStream} {call : SealCall} (h : stream.due? = some call) :
    stream.vector? = some (call.key, call.iv) := by
  obtain ⟨_ | ⟨key, iv, buffer, _ | _⟩, sink⟩ := stream <;> cases h
  rfl

/-- However a stream ends, nothing is due any more. -/
theorem finish_settles (stream : SealingStream) :
    (finish stream).2.due? = none ∧ (finish stream).2.vector? = stream.vector? := by
  obtain ⟨_ | ⟨key, iv, buffer, _ | _⟩, sink⟩ := stream
  · exact ⟨rfl, rfl⟩
  · cases hseal : key.sealText iv buffer with
    | error defect =>
      rw [finish_defect hseal]
      exact ⟨rfl, rfl⟩
    | ok body =>
      rw [finish_sealed hseal]
      rcases Sink.writeAll body sink with ⟨_ | _, _⟩ <;> exact ⟨rfl, rfl⟩
  · exact ⟨rfl, rfl⟩

/-- A stream that is not sealed stays so. -/
theorem unsealed_call (call : StreamCall) {stream : SealingStream} (h : stream.sealing = none) :
    (call.run stream).2.sealing = none := by
  have hwrite (bytes : Bytes) : Keeps (·.sealing = none) (write bytes) := by
    rintro ⟨_, sink⟩ rfl
    rfl
  cases call with
  | flush => exact h
  | write bytes => exact (hwrite bytes).discard stream h

end SealingStream

namespace StreamStep

open SealingStream

theorem vector?_run (step : StreamStep) (stream : SealingStream) :
    (step.run stream).vector? = stream.vector? := by
  cases step with
  | finish => exact (finish_settles stream).2
  | abandon => obtain ⟨_ | _, _⟩ := stream <;> rfl
  | call c =>
    obtain ⟨_ | ⟨_, _, _, _ | _⟩, sink⟩ := stream
    · exact congrArg (Option.map _) (unsealed_call c rfl)
    · cases c <;> rfl
    · cases c <;> rfl

/-- What is no longer due never is again. -/
theorem due?_run (step : StreamStep) {stream : SealingStream} (h : stream.due? = none) :
    (step.run stream).due? = none := by
  cases step with
  | finish => exact (finish_settles stream).1
  | abandon => obtain ⟨_ | _, _⟩ := stream <;> rfl
  | call c =>
    obtain ⟨_ | ⟨_, _, _, _ | _⟩, sink⟩ := stream
    · rw [run, due?, unsealed_call c rfl]
    · cases h
    · cases c <;> rfl

end StreamStep

namespace Exercise

-- ----------------------------------------------------------------------------
-- Jobs
-- ----------------------------------------------------------------------------

namespace Workbench

/-- Where the custodian of a name stands, if all of its stores are there. -/
def stand? (b : Workbench) (name : String) : Option Stationed :=
  (b.custodians.get? name).filter fun stand =>
    stand.vault < b.vaults.size ∧ stand.settings < b.settings.size ∧ stand.random < b.randoms.size

/-- The custodian of a codec that takes its vectors from a random source. If that is not the
custodian's own source, the custodian has to have the key at hand, unless there is none to have:
a stream for which it is yet to be looked up is a resolution, and then a stream. -/
def codec? (b : Workbench) (name : String) (random : Nat) : Option Stationed :=
  (b.stand? name).filter fun stand => random < b.randoms.size ∧
    (stand.random = random ∨ stand.custodian.cached.isSome ∨
      ¬ stand.custodian.hostTier.isSupported)

def supply (b : Workbench) : Supply := ⟨b.machine.entropy, b.randoms⟩

variable {b : Workbench} {name : String} {stand : Stationed}

theorem random_of_stand? (h : b.stand? name = some stand) : stand.random < b.randoms.size := by
  have hall := (Option.filter_eq_some_iff.mp h).2
  simp only [decide_eq_true_eq] at hall
  exact hall.2.2

theorem random_of_codec? {random : Nat} (h : b.codec? name random = some stand) :
    random < b.randoms.size := by
  have hall := (Option.filter_eq_some_iff.mp h).2
  simp only [decide_eq_true_eq] at hall
  exact hall.1

theorem supply_custodyOf (b : Workbench) (stand : Stationed) :
    (b.custodyOf stand).host.supply b.randoms stand.random = b.supply := by
  have hrandoms : b.randoms.setIfInBounds stand.random
      (b.randoms.getD stand.random { seed := [] }) = b.randoms := by
    refine Array.ext_getElem? fun i => ?_
    rw [Array.getElem?_setIfInBounds]
    split
    · next hi =>
      subst hi
      split
      · next hsize => simp [hsize]
      · next hsize => simp [hsize]
    · rfl
  exact congrArg (Supply.mk b.machine.entropy) hrandoms

end Workbench

/-- A bench, and the streams that have been begun at it. -/
structure Workshop where
  bench : Workbench
  streams : Array SealingStream := #[]

inductive Job where
  /-- A random source is seeded. -/
  | addRandom
  /-- The surroundings, and the contents of the stores, become other ones. -/
  | surround (files : Files) (now : Time) (vaults : Array WatchedVault) (settings : Array Settings)
  | station (name : String) (platform : Platform) (config : Config) (vault settings random : Nat)
  | resolve (name : String)
  | invalidate (name : String)
  | ask (vault : Nat) (call : VaultCall)
  | take (random length : Nat)
  | openStream (name : String) (source : Source)
  | beginStream (name : String) (random : Nat) (sink : Sink)
  | stream (number : Nat) (step : StreamStep)

/-- Nothing is done to a stream. -/
def Job.AtBench : Job → Prop
  | .beginStream .. => False
  | .stream .. => False
  | _ => True

namespace Workshop

/-- A workshop without a random source. -/
def start (machine : Machine) : Workshop := { bench := { machine } }

def supply (w : Workshop) : Supply := w.bench.supply

def perform : Job → Workshop → Workshop
  | .addRandom, w => { w with bench := w.bench.addRandom }
  | .surround files now vaults settings, w =>
    { w with bench :=
      { w.bench with machine := { w.bench.machine with files, now }, vaults, settings } }
  | .station name platform config vault settings random, w =>
    match Custodian.create platform config with
    | .ok custodian =>
      { w with bench :=
        { w.bench with
          custodians := w.bench.custodians.insert name ⟨custodian, vault, settings, random⟩ } }
    | .error _ => w
  | .resolve name, w =>
    match w.bench.stand? name with
    | some stand =>
      let p := (Custody.resolve (w.bench.custodyOf stand)).2
      { w with bench := w.bench.withCustody name stand p }
    | none => w
  | .invalidate name, w =>
    match w.bench.stand? name with
    | some stand =>
      let p := (Custody.invalidate (w.bench.custodyOf stand)).2
      { w with bench := w.bench.withCustody name stand p }
    | none => w
  | .ask vault call, w =>
    match w.bench.vaults[vault]? with
    | some watched =>
      let site := (call.ask ⟨watched.vault, watched.requests, w.bench.machine⟩).2
      { w with bench :=
        { w.bench with
          machine := site.machine
          vaults := w.bench.vaults.setIfInBounds vault ⟨site.vault, site.requests⟩ } }
    | none => w
  | .take random length, w =>
    match w.bench.randoms[random]? with
    | some r =>
      { w with bench :=
        { w.bench with randoms := w.bench.randoms.setIfInBounds random (r.bytes length).2 } }
    | none => w
  | .openStream name source, w =>
    match w.bench.stand? name with
    | some stand =>
      let p := (Incoming.start { custody := w.bench.custodyOf stand, source }).2.custody
      { w with bench := w.bench.withCustody name stand p }
    | none => w
  | .beginStream name random sink, w =>
    match w.bench.codec? name random with
    | some stand =>
      let custody := w.bench.custodyOf { stand with random }
      let (answer, out) := Outgoing.start { custody, sink }
      let bench := w.bench.withCustody name { stand with random } out.custody
      let stand := { stand with custodian := out.custody.custodian }
      { bench := { bench with custodians := w.bench.custodians.insert name stand }
        streams :=
          match answer with
          | .ok sealing => w.streams.push { sealing, sink := out.sink }
          | .error _ => w.streams }
    | none => w
  | .stream number step, w => { w with streams := w.streams.modify number step.run }

def run (jobs : List Job) (w : Workshop) : Workshop :=
  jobs.foldl (fun w job => w.perform job) w

/-- What a job does with the bytes that are drawn for it. -/
def Accounts (w : Workshop) (draws : List Draw) : Job → Prop
  | .addRandom => ∃ d, draws = [d] ∧ (RandomSource.create w.bench.machine.entropy).1.seed = d.bytes
  | .resolve name =>
    match w.bench.stand? name with
    | some stand =>
      let p := w.bench.custodyOf stand
      p.Spends (Custody.resolve p).2 draws (Custody.resolve p).1
    | none => draws = []
  | .ask vault call =>
    match w.bench.vaults[vault]? with
    | some watched =>
      let outcome := call.ask ⟨watched.vault, watched.requests, w.bench.machine⟩
      call.Spends watched.vault draws outcome.1 outcome.2.vault
    | none => draws = []
  | .take random length =>
    match w.bench.randoms[random]? with
    | some r => ∃ d, draws = [d] ∧ d.spring = .own random ∧ (r.bytes length).1 = d.bytes
    | none => draws = []
  | .openStream name source =>
    match w.bench.stand? name with
    | some stand =>
      let p := w.bench.custodyOf stand
      Incoming.Spends p (Incoming.start { custody := p, source }).2.custody draws
    | none => draws = []
  | .beginStream name random sink =>
    match w.bench.codec? name random with
    | some stand =>
      let p := w.bench.custodyOf { stand with random }
      let outcome := Outgoing.start { custody := p, sink }
      Outgoing.Spends random p outcome.2.custody draws outcome.1
    | none => draws = []
  | _ => draws = []

theorem perform_draws (w : Workshop) (job : Job) :
    ∃ draws, w.Accounts draws job ∧ w.supply.Draws draws (w.perform job).supply := by
  cases job with
  | addRandom => exact ⟨_, ⟨_, rfl, rfl⟩, .one (.seed w.supply)⟩
  | surround files now vaults settings => exact ⟨[], rfl, .nil _⟩
  | station name platform config vault settings random =>
    refine ⟨[], rfl, ?_⟩
    simp only [perform]
    cases Custodian.create platform config <;> exact .nil _
  | stream number step => exact ⟨[], rfl, .nil _⟩
  | take random length =>
    simp only [perform, Accounts]
    cases hr : w.bench.randoms[random]? with
    | none => exact ⟨[], rfl, .nil _⟩
    | some r => exact ⟨_, ⟨_, rfl, rfl, rfl⟩, .one (.own length hr)⟩
  | ask vault call =>
    simp only [perform, Accounts]
    cases w.bench.vaults[vault]? with
    | none => exact ⟨[], rfl, .nil _⟩
    | some watched =>
      obtain ⟨draws, hdraws, hspends⟩ := call.ask_spends w.bench.randoms
        ⟨watched.vault, watched.requests, w.bench.machine⟩
      exact ⟨draws, hspends, hdraws⟩
  | invalidate name =>
    simp only [perform, Accounts]
    cases w.bench.stand? name with
    | none => exact ⟨[], rfl, .nil _⟩
    | some stand =>
      refine ⟨[], rfl, ?_⟩
      show w.supply.Draws [] ((w.bench.custodyOf stand).host.supply w.bench.randoms stand.random)
      rw [Workbench.supply_custodyOf]
      exact .nil _
  | resolve name =>
    simp only [perform, Accounts]
    cases hstand : w.bench.stand? name with
    | none => exact ⟨[], rfl, .nil _⟩
    | some stand =>
      obtain ⟨draws, hdraws, hspends⟩ :=
        Custody.resolve_spends (Workbench.random_of_stand? hstand) (w.bench.custodyOf stand)
      rw [Workbench.supply_custodyOf] at hdraws
      exact ⟨draws, hspends, hdraws⟩
  | openStream name source =>
    simp only [perform, Accounts]
    cases hstand : w.bench.stand? name with
    | none => exact ⟨[], rfl, .nil _⟩
    | some stand =>
      obtain ⟨draws, hdraws, hspends⟩ := Incoming.start_spends
        (Workbench.random_of_stand? hstand) (w.bench.custodyOf stand) source
      rw [Workbench.supply_custodyOf] at hdraws
      exact ⟨draws, hspends, hdraws⟩
  | beginStream name random sink =>
    simp only [perform, Accounts]
    cases hstand : w.bench.codec? name random with
    | none => exact ⟨[], rfl, .nil _⟩
    | some stand =>
      obtain ⟨draws, hdraws, hspends⟩ := Outgoing.start_spends
        (Workbench.random_of_codec? hstand) (w.bench.custodyOf { stand with random }) sink
      rw [Workbench.supply_custodyOf w.bench { stand with random }] at hdraws
      exact ⟨draws, hspends, hdraws⟩

-- ----------------------------------------------------------------------------
-- Vectors
-- ----------------------------------------------------------------------------

/-- The vectors of the streams that are sealed, in the order in which they were begun. -/
def vectors (w : Workshop) : List Bytes :=
  (w.streams.toList.map SealingStream.vector?).filterMap (·.map Prod.snd)

theorem vectors_step (w : Workshop) (number : Nat) (step : StreamStep) :
    (w.perform (.stream number step)).vectors = w.vectors := by
  refine congrArg (List.filterMap _) (List.ext_getElem? fun i => ?_)
  simp only [perform, List.getElem?_map, Array.getElem?_toList, Array.getElem?_modify]
  split
  · rw [Option.map_map]
    exact congrArg (Option.map · _) (funext fun stream => step.vector?_run stream)
  · rfl

theorem vectors_push (streams : Array SealingStream) (stream : SealingStream) (bench : Workbench) :
    vectors ⟨bench, streams.push stream⟩ =
      vectors ⟨bench, streams⟩ ++ (stream.vector?.map Prod.snd).toList := by
  simp only [vectors, Array.toList_push, List.map_append, List.filterMap_append, List.map_cons,
    List.map_nil]
  cases stream.vector? <;> rfl

/-- A job that is done at the bench touches no stream. -/
theorem streams_perform (w : Workshop) {job : Job} (h : job.AtBench) :
    (w.perform job).streams = w.streams := by
  cases job with
  | beginStream => exact h.elim
  | stream => exact h.elim
  | addRandom => rfl
  | surround => rfl
  | _ =>
    simp only [perform]
    split <;> rfl

theorem vectors_atBench (w : Workshop) {job : Job} (h : job.AtBench) :
    (w.perform job).vectors = w.vectors := by
  rw [vectors, vectors, w.streams_perform h]

/-- A job that begins a sealed stream has drawn its vector, and no other job begins one. -/
theorem vectors_perform {w : Workshop} {job : Job} {draws : List Draw}
    (h : w.Accounts draws job) :
    ∃ ds : List Draw, ds.Sublist draws ∧ (∀ d ∈ ds, d.bytes.length = Header.ivSize) ∧
      (w.perform job).vectors = w.vectors ++ ds.map Draw.bytes := by
  have hsame {w' : Workshop} (h : w'.vectors = w.vectors) : ∃ ds : List Draw, ds.Sublist draws ∧
      (∀ d ∈ ds, d.bytes.length = Header.ivSize) ∧ w'.vectors = w.vectors ++ ds.map Draw.bytes :=
    ⟨[], List.nil_sublist _, nofun, by rw [h, List.map_nil, List.append_nil]⟩
  cases job with
  | stream number step => exact hsame (w.vectors_step number step)
  | beginStream name random sink =>
    simp only [perform, Accounts] at h ⊢
    cases hstand : w.bench.codec? name random with
    | none => exact hsame rfl
    | some stand =>
      simp only [hstand] at h ⊢
      generalize Outgoing.start { custody := w.bench.custodyOf { stand with random }, sink } =
        outcome at h ⊢
      obtain ⟨e | sealing?, out⟩ := outcome
      · exact hsame rfl
      · cases h with
        | passed => exact hsame ((vectors_push _ _ _).trans (List.append_nil _))
        | begun _ _ hlength _ _ hanswer =>
          obtain rfl := hanswer _ rfl
          exact ⟨_, List.sublist_append_right _ _, List.forall_mem_singleton.mpr hlength,
            vectors_push _ _ _⟩
  | _ =>
    refine hsame (w.vectors_atBench ?_)
    exact trivial

-- ----------------------------------------------------------------------------
-- Runs
-- ----------------------------------------------------------------------------

/-- A log accounts for a run if each of its entries accounts for a job. -/
inductive Accounted : Workshop → List Job → List (List Draw) → Prop
  | nil (w : Workshop) : Accounted w [] []
  | cons {w : Workshop} {job : Job} {draws : List Draw} {jobs : List Job} {log : List (List Draw)} :
      w.Accounts draws job → Accounted (w.perform job) jobs log →
      Accounted w (job :: jobs) (draws :: log)

theorem run_cons (job : Job) (jobs : List Job) (w : Workshop) :
    run (job :: jobs) w = run jobs (w.perform job) := rfl

theorem run_draws (jobs : List Job) (w : Workshop) :
    ∃ log, w.Accounted jobs log ∧ w.supply.Draws log.flatten (w.run jobs).supply := by
  induction jobs generalizing w with
  | nil => exact ⟨[], .nil w, .nil _⟩
  | cons job jobs ih =>
    obtain ⟨draws, haccounts, hdraws⟩ := w.perform_draws job
    obtain ⟨log, haccounted, hrest⟩ := ih (w.perform job)
    exact ⟨draws :: log, .cons haccounts haccounted, hdraws.append hrest⟩

/-- The vectors of all streams are draws of the log. -/
theorem Accounted.vectors {w : Workshop} {jobs : List Job} {log : List (List Draw)}
    (h : w.Accounted jobs log) :
    ∃ ds : List Draw, ds.Sublist log.flatten ∧ (∀ d ∈ ds, d.bytes.length = Header.ivSize) ∧
      (w.run jobs).vectors = w.vectors ++ ds.map Draw.bytes := by
  induction h with
  | nil w => exact ⟨[], List.nil_sublist _, nofun, (List.append_nil _).symm⟩
  | cons haccounts _ ih =>
    obtain ⟨ds, hsub, hlength, hvectors⟩ := vectors_perform haccounts
    obtain ⟨ds', hsub', hlength', hvectors'⟩ := ih
    refine ⟨ds ++ ds', hsub.append hsub', fun d hd => ?_, ?_⟩
    · exact (List.mem_append.mp hd).elim (hlength d) (hlength' d)
    · rw [run_cons, hvectors', hvectors, List.map_append, List.append_assoc]

-- ----------------------------------------------------------------------------
-- Calls of the cipher in a run
-- ----------------------------------------------------------------------------

/-- The call of the cipher that a job makes, with the number of its stream. -/
def sealCall? (w : Workshop) : Job → Option (Nat × SealCall)
  | .stream number .finish => (w.streams[number]?.bind SealingStream.due?).map (number, ·)
  | _ => none

def sealCalls : List Job → Workshop → List (Nat × SealCall)
  | [], _ => []
  | job :: jobs, w => (w.sealCall? job).toList ++ sealCalls jobs (w.perform job)

theorem sealCall?_eq_some {w : Workshop} {job : Job} {call : Nat × SealCall}
    (h : w.sealCall? job = some call) : job = .stream call.1 .finish ∧
      ∃ stream, w.streams[call.1]? = some stream ∧ stream.due? = some call.2 := by
  unfold sealCall? at h
  split at h
  · obtain ⟨due, hdue, rfl⟩ := Option.map_eq_some_iff.mp h
    obtain ⟨stream, hstream, hdue⟩ := Option.bind_eq_some_iff.mp hdue
    exact ⟨rfl, stream, hstream, hdue⟩
  · cases h

/-- A stream that has been begun goes on under its key and its vector, and with nothing due once
nothing is. -/
theorem stream_perform (w : Workshop) (job : Job) {number : Nat} {stream : SealingStream}
    (h : w.streams[number]? = some stream) :
    ∃ stream', (w.perform job).streams[number]? = some stream' ∧
      stream'.vector? = stream.vector? ∧ (stream.due? = none → stream'.due? = none) := by
  have hsame (h : (w.perform job).streams[number]? = some stream) : ∃ stream',
      (w.perform job).streams[number]? = some stream' ∧ stream'.vector? = stream.vector? ∧
        (stream.due? = none → stream'.due? = none) := ⟨stream, h, rfl, id⟩
  cases job with
  | stream other step =>
    simp only [perform, Array.getElem?_modify, h]
    split
    · exact ⟨_, rfl, step.vector?_run stream, step.due?_run⟩
    · exact ⟨_, rfl, rfl, id⟩
  | beginStream name random sink =>
    refine hsame ?_
    have hne : number ≠ w.streams.size := Nat.ne_of_lt (Array.getElem?_eq_some_iff.mp h).1
    simp only [perform]
    split
    · split
      · rw [Array.getElem?_push, if_neg hne, h]
      · exact h
    · exact h
  | _ =>
    refine hsame ?_
    rw [w.streams_perform, h]
    exact trivial

theorem stream_run (jobs : List Job) (w : Workshop) {number : Nat} {stream : SealingStream}
    (h : w.streams[number]? = some stream) :
    ∃ stream', (w.run jobs).streams[number]? = some stream' ∧ stream'.vector? = stream.vector? := by
  induction jobs generalizing w stream with
  | nil => exact ⟨stream, h, rfl⟩
  | cons job jobs ih =>
    obtain ⟨stream', hstream', hvector, -⟩ := w.stream_perform job h
    obtain ⟨stream'', hstream'', hvector'⟩ := ih _ hstream'
    exact ⟨stream'', hstream'', hvector'.trans hvector⟩

/-- A call is made for a stream of the workshop, under the stream's own key and vector. -/
theorem stream_of_sealCalls (jobs : List Job) (w : Workshop) :
    ∀ call ∈ sealCalls jobs w, ∃ stream, (w.run jobs).streams[call.1]? = some stream ∧
      stream.vector? = some (call.2.key, call.2.iv) := by
  induction jobs generalizing w with
  | nil => exact nofun
  | cons job jobs ih =>
    intro call hcall
    obtain hcall | hcall := List.mem_append.mp hcall
    · obtain ⟨-, stream, hstream, hdue⟩ := sealCall?_eq_some (Option.mem_toList.mp hcall)
      obtain ⟨stream', hstream', hvector⟩ := stream_run (job :: jobs) w hstream
      exact ⟨stream', hstream', hvector.trans (SealingStream.vector?_of_due? hdue)⟩
    · exact ih _ call hcall

/-- What has no call left to make is not sealed any more. -/
theorem not_sealed_again {number : Nat} (jobs : List Job) {w : Workshop} {stream : SealingStream}
    (hstream : w.streams[number]? = some stream) (hdue : stream.due? = none) :
    ∀ call ∈ sealCalls jobs w, number ≠ call.1 := by
  induction jobs generalizing w stream with
  | nil => exact nofun
  | cons job jobs ih =>
    intro call hcall
    obtain ⟨stream', hstream', -, hkept⟩ := w.stream_perform job hstream
    obtain hcall | hcall := List.mem_append.mp hcall
    · rintro rfl
      obtain ⟨-, other, hother, hdue'⟩ := sealCall?_eq_some (Option.mem_toList.mp hcall)
      rw [hstream] at hother
      cases hother
      rw [hdue] at hdue'
      cases hdue'
    · exact ih hstream' (hkept hdue) call hcall

/-- No stream is sealed twice. -/
theorem sealCalls_once (jobs : List Job) (w : Workshop) :
    (sealCalls jobs w).Pairwise fun call call' => call.1 ≠ call'.1 := by
  induction jobs generalizing w with
  | nil => exact .nil
  | cons job jobs ih =>
    rw [sealCalls]
    cases hcall : w.sealCall? job with
    | none => exact ih _
    | some call =>
      obtain ⟨rfl, stream, hstream, -⟩ := sealCall?_eq_some hcall
      have hfinished : (w.perform (.stream call.1 .finish)).streams[call.1]? =
          some (SealingStream.finish stream).2 := by
        simp only [perform, Array.getElem?_modify, if_true, hstream, Option.map_some]
        rfl
      exact .cons (not_sealed_again jobs hfinished stream.finish_settles.1) (ih _)

theorem vectors_apart {w : Workshop} (h : w.vectors.Pairwise (· ≠ ·)) {n m : Nat}
    {stream stream' : SealingStream} {v v' : SymmetricKey × Bytes} (hlt : n < m)
    (hstream : w.streams[n]? = some stream) (hstream' : w.streams[m]? = some stream')
    (hv : stream.vector? = some v) (hv' : stream'.vector? = some v') : v.2 ≠ v'.2 := by
  obtain ⟨hn, rfl⟩ := Array.getElem?_eq_some_iff.mp hstream
  obtain ⟨hm, rfl⟩ := Array.getElem?_eq_some_iff.mp hstream'
  rw [vectors, List.filterMap_map, List.pairwise_filterMap, List.pairwise_iff_getElem] at h
  exact h n m hn hm hlt _ (by simp [hv]) _ (by simp [hv'])

/-- If the vectors of all streams differ, then so do those of all calls. -/
theorem sealCalls_apart {jobs : List Job} {w : Workshop}
    (h : (w.run jobs).vectors.Pairwise (· ≠ ·)) :
    (sealCalls jobs w).Pairwise fun call call' => call.2.iv ≠ call'.2.iv := by
  refine (sealCalls_once jobs w).imp_of_mem fun {call call'} hcall hcall' hne => ?_
  obtain ⟨stream, hstream, hv⟩ := stream_of_sealCalls jobs w call hcall
  obtain ⟨stream', hstream', hv'⟩ := stream_of_sealCalls jobs w call' hcall'
  obtain hlt | hlt := Nat.lt_or_gt_of_ne hne
  · exact vectors_apart h hlt hstream hstream' hv hv'
  · exact (vectors_apart h hlt hstream' hstream hv' hv).symm

-- ----------------------------------------------------------------------------
-- Random bytes of a run
-- ----------------------------------------------------------------------------

/-- Draws of the size of a vector are of different bytes. -/
def Distinct (draws : List Draw) : Prop :=
  draws.Pairwise fun d d' => d.bytes.length = Header.ivSize → d'.bytes.length = Header.ivSize →
    d.bytes ≠ d'.bytes

/-- How the random bytes of a run are used, with the draws of all its jobs in a log. -/
structure Unshared (w : Workshop) (jobs : List Job) (log : List (List Draw)) : Prop where
  accounted : w.Accounted jobs log
  /-- The draws of the log are all that has been drawn. -/
  drawn : w.supply.Draws log.flatten (w.run jobs).supply
  served : ∀ d ∈ log.flatten, (w.run jobs).supply.Served d
  /-- No byte of a spring is in two draws. -/
  apart : log.flatten.Pairwise Draw.Apart
  /-- Each stream is sealed once at most, under its own key and vector. -/
  once : (sealCalls jobs w).Pairwise fun call call' => call.1 ≠ call'.1
  own : ∀ call ∈ sealCalls jobs w, ∃ stream, (w.run jobs).streams[call.1]? = some stream ∧
    stream.vector? = some (call.2.key, call.2.iv)
  distinct : Distinct log.flatten →
    (sealCalls jobs w).Pairwise fun call call' => call.2.iv ≠ call'.2.iv

/-- No vector and no other random byte is used twice, whatever is done in a workshop: every job has
draws of its own, and the end of a stream asks the cipher for the call that is counted and for
nothing else. -/
theorem random_bytes_unshared (machine : Machine) (jobs : List Job) :
    (∃ log, (start machine).Unshared jobs log) ∧ ∀ stream : SealingStream,
      SealingStream.finish stream =
        SealingStream.ending (stream.due?.map SealCall.answer) stream := by
  refine ⟨?_, SealingStream.finish_eq_ending⟩
  obtain ⟨log, haccounted, hdraws⟩ := run_draws jobs (start machine)
  refine ⟨log, haccounted, hdraws, hdraws.served, hdraws.apart, sealCalls_once jobs _,
    stream_of_sealCalls jobs _, fun hdistinct => sealCalls_apart ?_⟩
  obtain ⟨ds, hsub, hlength, hvectors⟩ := haccounted.vectors
  rw [hvectors]
  refine List.pairwise_map.mpr ((hdistinct.sublist hsub).imp_of_mem fun hd hd' hne => ?_)
  exact hne (hlength _ hd) (hlength _ hd')

end Workshop

end Exercise

end SealedStream
