import SealedStream.Proofs.Exercise.RoundTrips

/-!
# Workloads, one after the other and shared out

Workers share the custodian and the tally, and take their steps in any order. Each turn of a
worker counts its round trip or brings it nearer to the end, and none goes wrong: in the end
all that was shared out is counted. What cannot be shared out evenly is left undone, where a
workload without workers does all of it.
-/

namespace SealedStream

namespace Exercise.Workload

open Custody (Healthy GeneratesOnce)

variable {w : Workload} {p p' q : Custody} {k : ContentKey} {requests : List Request} {total : Nat}

-- ----------------------------------------------------------------------------
-- One after the other
-- ----------------------------------------------------------------------------

/-- So many round trips counted: all have succeeded, unless their texts are too long to be sealed. -/
def counted (w : Workload) (n : Nat) : Tally :=
  if w.payloadSize ≤ SymmetricKey.longestText then { successful := n } else { failed := n }

theorem counted_zero (w : Workload) : w.counted 0 = {} := by
  rw [counted]
  split <;> rfl

theorem total_counted (w : Workload) (n : Nat) : (w.counted n).total = n := by
  rw [counted]
  split <;> simp [Tally.total]

theorem count_counted (w : Workload) (n operation : Nat) :
    (w.counted n).count ((w.payload operation).length ≤ SymmetricKey.longestText) =
      w.counted (n + 1) := by
  rw [payload, List.length_replicate, counted, counted]
  split <;> simp [*, Tally.count]

theorem perform_counts (h : Resolves k requests p) (operations : List Nat) (n : Nat) :
    ∃ p', w.perform operations (w.counted n) p = (.ok (w.counted (n + operations.length)), p') ∧
      (p' = p ∨ Keyed k requests p') := by
  induction operations generalizing p n with
  | nil => exact ⟨p, rfl, .inl rfl⟩
  | cons operation operations ih =>
    obtain ⟨p₁, hroundTrip, hp₁⟩ := roundTrip_ok h (w.payload operation)
    obtain ⟨p', hperform, hp'⟩ := ih hp₁.resolves (n + 1)
    refine ⟨p', ?_, .inr (hp'.elim (· ▸ hp₁) id)⟩
    rw [perform, Action.bind_apply, hroundTrip]
    simp only [count_counted, hperform, List.length_cons]
    rw [Nat.add_right_comm, Nat.add_assoc]

theorem sequential_counts (h : Resolves k requests p) (w : Workload) :
    ∃ p', w.sequential p = (.ok (w.counted w.operations), p') ∧
      (p' = p ∨ Keyed k requests p') := by
  have hperform := perform_counts (w := w) h (List.range w.operations) 0
  rwa [counted_zero, List.length_range, Nat.zero_add] at hperform

-- ----------------------------------------------------------------------------
-- A turn
-- ----------------------------------------------------------------------------

/-- How many turns a worker needs at most until all its operations are counted. -/
def Worker.left (worker : Worker) : Nat :=
  match worker.operations with
  | [] => 0
  | _ :: rest => 4 * rest.length + worker.progress.left

theorem Worker.operations_of_left {worker : Worker} (h : worker.left = 0) :
    worker.operations = [] := by
  obtain ⟨operations, progress⟩ := worker
  cases operations with
  | nil => rfl
  | cons operation rest =>
    have := progress.left_pos
    simp only [Worker.left] at h
    omega

theorem Worker.left_idle (operations : List Nat) :
    Worker.left { operations } = 4 * operations.length := by
  cases operations <;> rfl

namespace Shift

def left (s : Shift) (number : Nat) : Nat := (s.workers[number]?.map Worker.left).getD 0

/-- The operations that are not counted yet. -/
def uncounted (workers : List Worker) : Nat := (workers.map (·.operations.length)).sum

theorem uncounted_set {workers : List Worker} {number : Nat} {worker : Worker} (worker' : Worker)
    (h : workers[number]? = some worker) :
    uncounted (workers.set number worker') + worker.operations.length =
      uncounted workers + worker'.operations.length := by
  induction workers generalizing number with
  | nil => cases h
  | cons head workers ih =>
    cases number with
    | zero =>
      obtain rfl := Option.some.inj h
      simp only [List.set_cons_zero, uncounted, List.map_cons, List.sum_cons]
      omega
    | succ number =>
      have := ih (List.getElem?_cons_succ ▸ h)
      simp only [List.set_cons_succ, uncounted, List.map_cons, List.sum_cons] at this ⊢
      omega

/-- What every turn keeps: nobody has begun or the key is cached, no round trip has gone wrong, and
each operation is counted or still to be. -/
structure Steady (w : Workload) (k : ContentKey) (requests : List Request) (p : Custody)
    (total : Nat) (s : Shift) : Prop where
  custody : Keyed k requests s.custody ∨
    s.custody = p ∧ ∀ worker ∈ s.workers, worker.progress = .idle
  sound : ∀ worker ∈ s.workers, ∀ operation ∈ worker.operations.head?,
    worker.progress.Sound k (w.payload operation)
  counted : ∃ n, s.tally = w.counted n ∧ n + uncounted s.workers = total

variable {s : Shift} {number : Nat} {worker : Worker}

theorem step_unjudged {progress : Progress} (hp : ∀ succeeded, progress ≠ .judged succeeded)
    (operation : Nat) (rest : List Nat) :
    step w ⟨operation :: rest, progress⟩ = (do
      let progress ← onCustody (orFailed (progress.next (w.payload operation)))
      return ⟨operation :: rest, progress⟩) := by
  cases progress with
  | judged succeeded => exact absurd rfl (hp succeeded)
  | _ => rfl

section

variable {operation : Nat} {rest : List Nat} {progress : Progress}

/-- What a worker's step has to keep for all to be kept. -/
theorem Steady.set {n : Nat} {worker' : Worker} {custody : Custody} {tally : Tally}
    (h : Steady w k requests p total s) (hworker : s.workers[number]? = some worker)
    (hcustody : Keyed k requests custody)
    (hsound : ∀ operation ∈ worker'.operations.head?,
      worker'.progress.Sound k (w.payload operation))
    (htally : tally = w.counted n)
    (hcounted : n + worker'.operations.length + uncounted s.workers =
      total + worker.operations.length) :
    Steady w k requests p total ⟨custody, s.workers.set number worker', tally⟩ where
  custody := .inl hcustody
  sound other hother := by
    obtain hother | rfl := List.mem_or_eq_of_mem_set hother
    · exact h.sound other hother
    · exact hsound
  counted := by
    have huncounted := uncounted_set worker' hworker
    exact ⟨n, htally, by simp only; omega⟩

theorem count_steady {succeeded : Bool} (h : Steady w k requests p total s)
    (hworker : s.workers[number]? = some ⟨operation :: rest, .judged succeeded⟩) :
    Steady w k requests p total
      ⟨s.custody, s.workers.set number { operations := rest }, s.tally.count succeeded⟩ := by
  have hmem := List.mem_of_getElem? hworker
  have hcustody : Keyed k requests s.custody :=
    h.custody.resolve_right fun hidle => by cases hidle.2 _ hmem
  have hsound : Progress.Sound k (w.payload operation) (.judged succeeded) := h.sound _ hmem _ rfl
  obtain ⟨n, htally, htotal⟩ := h.counted
  refine h.set (n := n + 1) hworker hcustody (fun _ _ => .idle) ?_ ?_
  · cases hsound
    rw [htally]
    exact count_counted ..
  · simp only [List.length_cons]
    omega

theorem advance_steady (hp : Resolves k requests p) (h : Steady w k requests p total s)
    (hworker : s.workers[number]? = some ⟨operation :: rest, progress⟩) :
    ∃ progress' p', orFailed (progress.next (w.payload operation)) s.custody = (.ok progress', p') ∧
      Steady w k requests p total
        ⟨p', s.workers.set number ⟨operation :: rest, progress'⟩, s.tally⟩ ∧
      progress'.left ≤ max 1 (progress.left - 1) := by
  have hmem := List.mem_of_getElem? hworker
  have hsound : progress.Sound k (w.payload operation) := h.sound _ hmem _ rfl
  have hcustody :
      Keyed k requests s.custody ∨ Resolves k requests s.custody ∧ progress = .idle := by
    obtain hkeyed | ⟨hsame, hidle⟩ := h.custody
    · exact .inl hkeyed
    · exact .inr ⟨hsame ▸ hp, hidle _ hmem⟩
  obtain ⟨n, htally, htotal⟩ := h.counted
  obtain ⟨progress', p', hnext, hsound', hp', hleft⟩ := orFailed_next hsound hcustody
  refine ⟨progress', p', hnext, h.set hworker hp' ?_ htally ?_, hleft⟩
  · rintro _ ⟨⟩
    exact hsound'
  · simp only [List.length_cons]
    omega

end

/-- A worker's step counts its round trip or brings it on, if it has one. -/
theorem step_steady (hp : Resolves k requests p) (h : Steady w k requests p total s)
    (hworker : s.workers[number]? = some worker) :
    ∃ worker' s', step w worker s = (.ok worker', s') ∧ s'.workers = s.workers ∧
      Steady w k requests p total { s' with workers := s.workers.set number worker' } ∧
        worker'.left ≤ worker.left - 1 := by
  obtain ⟨operations, progress⟩ := worker
  cases operations with
  | nil =>
    refine ⟨⟨[], progress⟩, s, rfl, rfl, ?_, Nat.zero_le _⟩
    obtain ⟨hlt, hget⟩ := List.getElem?_eq_some_iff.mp hworker
    rw [← hget, List.set_getElem_self]
    exact h
  | cons operation rest =>
    by_cases hjudged : ∃ succeeded, progress = .judged succeeded
    · obtain ⟨succeeded, rfl⟩ := hjudged
      refine ⟨{ operations := rest }, { s with tally := s.tally.count succeeded }, rfl, rfl,
        count_steady h hworker, ?_⟩
      rw [Worker.left_idle, Worker.left, Progress.left]
      exact Nat.le_refl _
    · obtain ⟨progress', p', hnext, hsteady, hleft⟩ := advance_steady hp h hworker
      refine ⟨⟨operation :: rest, progress'⟩, { s with custody := p' }, ?_, rfl, hsteady, ?_⟩
      · rw [step_unjudged (not_exists.mp hjudged), Action.bind_apply, onCustody, Action.zoom_apply,
          hnext]
        rfl
      · have htwo := progress.two_le_left (not_exists.mp hjudged)
        simp only [Worker.left]
        omega

theorem left_set {worker' : Worker} (hworker : s.workers[number]? = some worker)
    (h : worker'.left ≤ worker.left - 1) (custody : Custody) (tally : Tally) (other : Nat) :
    left ⟨custody, s.workers.set number worker', tally⟩ other ≤
      s.left other - [number].count other := by
  obtain ⟨hlt, hget⟩ := List.getElem?_eq_some_iff.mp hworker
  rw [left, left, List.getElem?_set, List.count_singleton]
  by_cases hother : number = other
  · subst hother
    simpa [hlt, hget] using h
  · simp [hother]

theorem turn_steady (hp : Resolves k requests p) (h : Steady w k requests p total s)
    (number : Nat) :
    ∃ s', turn w number s = (.ok (), s') ∧ Steady w k requests p total s' ∧
      ∀ other, s'.left other ≤ s.left other - [number].count other := by
  rcases hworker : s.workers[number]? with _ | worker
  · refine ⟨s, ?_, h, fun other => ?_⟩
    · rw [turn, Action.bind_apply, Action.get_apply]
      simp only [hworker]
      rfl
    · by_cases hother : number = other
      · subst hother
        simp [left, hworker]
      · simp [hother]
  · obtain ⟨worker', s', hstep, hworkers, hsteady, hleft⟩ := step_steady hp h hworker
    refine ⟨_, ?_, hsteady, left_set hworker hleft s'.custody s'.tally⟩
    rw [turn, Action.bind_apply, Action.get_apply]
    simp only [hworker, Action.bind_apply, hstep, Action.modify_apply, hworkers]

/-- Whoever has the turns, each brings its worker nearer to the end. -/
theorem turns_steady (hp : Resolves k requests p) (h : Steady w k requests p total s)
    (turns : List Nat) :
    ∃ s', turns.forM (turn w) s = (.ok (), s') ∧ Steady w k requests p total s' ∧
      ∀ number, s'.left number ≤ s.left number - turns.count number := by
  induction turns generalizing s with
  | nil => exact ⟨s, rfl, h, fun _ => Nat.le_refl _⟩
  | cons first turns ih =>
    obtain ⟨s₁, hturn, hsteady₁, hleft₁⟩ := turn_steady hp h first
    obtain ⟨s', hturns, hsteady, hleft⟩ := ih hsteady₁
    refine ⟨s', ?_, hsteady, fun number => ?_⟩
    · rw [List.forM_eq_forM, List.forM_cons, Action.bind_apply, hturn]
      exact hturns
    · have hcount : (first :: turns).count number = [first].count number + turns.count number := by
        rw [← List.count_append, List.singleton_append]
      have := hleft₁ number
      have := hleft number
      omega

/-- Where no worker has a turn left, all operations are counted. -/
theorem uncounted_of_left (h : ∀ number, s.left number = 0) : uncounted s.workers = 0 := by
  refine List.sum_eq_zero fun length hlength => ?_
  obtain ⟨worker, hworker, rfl⟩ := List.mem_map.mp hlength
  obtain ⟨number, hnumber⟩ := List.mem_iff_getElem?.mp hworker
  have hleft := h number
  rw [left, hnumber, Option.map_some, Option.getD_some] at hleft
  rw [worker.operations_of_left hleft, List.length_nil]

end Shift

-- ----------------------------------------------------------------------------
-- A whole shift
-- ----------------------------------------------------------------------------

theorem share_ok (hw : 0 < w.workers) : w.share = .ok (w.operations / w.workers) :=
  if_neg (Nat.pos_iff_ne_zero.mp hw)

theorem count_inTurn (w : Workload) (share number : Nat) :
    (w.inTurn share).count number = if number < w.workers then 4 * share else 0 := by
  rw [inTurn]
  induction w.workers with
  | zero => simp
  | succ workers ih =>
    rw [List.range_succ, List.flatMap_append, List.count_append, ih, List.flatMap_singleton,
      List.count_replicate]
    grind

theorem uncounted_staff (w : Workload) (share : Nat) :
    Shift.uncounted (w.staff share) = w.workers * share := by
  simp [Shift.uncounted, staff, Function.comp_def]

theorem left_staff (w : Workload) (share : Nat) (p : Custody) (number : Nat) :
    Shift.left { custody := p, workers := w.staff share } number =
      if number < w.workers then 4 * share else 0 := by
  simp only [Shift.left, staff]
  split
  · next h => simp [h, Worker.left_idle]
  · next h => simp [h]

/-- Whatever the order of their steps, all workers' operations are counted in the end. -/
theorem concurrent_counts (h : Resolves k requests p) (w : Workload) (hw : 0 < w.workers)
    (schedule : Nat → List Nat) :
    ∃ p', w.concurrent schedule p =
        (.ok (w.counted (w.workers * (w.operations / w.workers))), p') ∧
      (p' = p ∨ Keyed k requests p') := by
  let share := w.operations / w.workers
  let start : Shift := { custody := p, workers := w.staff share }
  have hidle : ∀ worker ∈ start.workers, worker.progress = .idle := by
    intro worker hworker
    obtain ⟨number, -, rfl⟩ := List.mem_map.mp hworker
    rfl
  have hstart : Shift.Steady w k requests p (w.workers * share) start :=
    ⟨.inr ⟨rfl, hidle⟩, fun worker hworker _ _ => hidle worker hworker ▸ .idle,
      0, (counted_zero w).symm, by rw [Nat.zero_add, uncounted_staff]⟩
  obtain ⟨s, hturns, hsteady, hleft⟩ :=
    Shift.turns_steady h hstart (schedule share ++ w.inTurn share)
  have hdone : Shift.uncounted s.workers = 0 := by
    refine Shift.uncounted_of_left fun number => ?_
    have := hleft number
    rw [left_staff, List.count_append, count_inTurn] at this
    omega
  obtain ⟨n, htally, htotal⟩ := hsteady.counted
  rw [hdone, Nat.add_zero] at htotal
  refine ⟨s.custody, ?_, hsteady.custody.symm.imp_left And.left⟩
  simp only [concurrent, share_ok hw]
  rw [hturns, htally, htotal]
  rfl

/-- What has been asked of the vault when a workload is done is what was asked for the key. -/
theorem generatesOnce_of_keyed (h : GeneratesOnce p p') (hq : q = p ∨ Keyed k p'.host.requests q) :
    GeneratesOnce p q := by
  obtain rfl | hkeyed := hq
  · exact Custody.generatesOnce_refl q
  · obtain ⟨asked, hasked, hone⟩ := h
    exact ⟨asked, hkeyed.requests.trans hasked, hone⟩

theorem sequential_ok (h : Healthy p) (w : Workload) :
    ∃ p', w.sequential p = (.ok (w.counted w.operations), p') ∧ GeneratesOnce p p' := by
  obtain ⟨k, q, hresolve⟩ := h.resolves
  obtain ⟨p', hrun, hend⟩ := sequential_counts ⟨h.isProtected, q, hresolve, rfl⟩ w
  exact ⟨p', hrun, generatesOnce_of_keyed
    (Custody.generatesOnce_of_resolve h.valid h.isProtected hresolve) hend⟩

theorem concurrent_ok (h : Healthy p) (w : Workload) (hw : 0 < w.workers)
    (schedule : Nat → List Nat) :
    ∃ p', w.concurrent schedule p =
        (.ok (w.counted (w.workers * (w.operations / w.workers))), p') ∧ GeneratesOnce p p' := by
  obtain ⟨k, q, hresolve⟩ := h.resolves
  obtain ⟨p', hrun, hend⟩ := concurrent_counts ⟨h.isProtected, q, hresolve, rfl⟩ w hw schedule
  exact ⟨p', hrun, generatesOnce_of_keyed
    (Custody.generatesOnce_of_resolve h.valid h.isProtected hresolve) hend⟩

/--
On a healthy host no round trip fails whose text can be sealed, whether they are made one after the
other or by workers whose steps come in any order, and no more than one key is generated. One after
the other, all operations are counted; workers count as many as can be shared out evenly, so that
the tallies are the same exactly if none is left over.
-/
theorem round_trips_counted (h : Healthy p) (w : Workload) (hw : 0 < w.workers) :
    (∃ p', w.sequential p = (.ok (w.counted w.operations), p') ∧ GeneratesOnce p p') ∧
    ∀ schedule,
      (∃ p', w.concurrent schedule p =
          (.ok (w.counted (w.workers * (w.operations / w.workers))), p') ∧ GeneratesOnce p p') ∧
        ((w.concurrent schedule p).1 = (w.sequential p).1 ↔ w.workers ∣ w.operations) := by
  refine ⟨sequential_ok h w, fun schedule => ⟨concurrent_ok h w hw schedule, ?_⟩⟩
  obtain ⟨_, hsequential, -⟩ := sequential_ok h w
  obtain ⟨_, hconcurrent, -⟩ := concurrent_ok h w hw schedule
  rw [hsequential, hconcurrent, Except.ok.injEq]
  constructor
  · intro htallies
    have htotals := congrArg Tally.total htallies
    rw [total_counted, total_counted] at htotals
    exact Nat.dvd_of_mod_eq_zero (by have := Nat.div_add_mod w.operations w.workers; omega)
  · exact fun hdvd => by rw [Nat.mul_div_cancel' hdvd]

/-- Ten operations among four workers on a new legacy host. -/
theorem round_trips_counted_uneven :
    let p : Custody :=
      ⟨{ platform := ⟨19⟩, config := {} }, .fresh { entropy := .ofSeed 7, now := .epoch }⟩
    let w : Workload := { operations := 10, workers := 4, payloadSize := 3 }
    Healthy p ∧ 0 < w.workers ∧ (w.sequential p).1 = .ok { successful := 10 } ∧
      ∀ schedule, (w.concurrent schedule p).1 = .ok { successful := 8 } := by
  intro p w
  have hhealthy : Healthy p := Custody.healthy_fresh rfl rfl
  have hw : 0 < w.workers := by decide
  obtain ⟨⟨_, hsequential, -⟩, hconcurrent⟩ := round_trips_counted hhealthy w hw
  refine ⟨hhealthy, hw, by rw [hsequential]; rfl, fun schedule => ?_⟩
  obtain ⟨⟨_, hrun, -⟩, -⟩ := hconcurrent schedule
  have hcounted : w.counted (w.workers * (w.operations / w.workers)) = { successful := 8 } := by
    decide
  rw [hrun, hcounted]

/-- Of ten operations, four workers leave two undone. -/
theorem workers_leave_remainder :
    let p : Custody :=
      ⟨{ platform := ⟨23⟩, config := {} }, .fresh { entropy := .ofSeed 1, now := .epoch }⟩
    let w : Workload := { operations := 10, workers := 4, payloadSize := 4 }
    Healthy p ∧ (w.sequential p).1 = .ok { successful := 10 } ∧
      (w.concurrent w.inTurn p).1 = .ok { successful := 8 } := by
  intro p w
  have hhealthy : Healthy p := Custody.healthy_fresh rfl rfl
  obtain ⟨_, hsequential, -⟩ := sequential_ok hhealthy w
  obtain ⟨_, hconcurrent, -⟩ := concurrent_ok hhealthy w (by decide) w.inTurn
  have hcounted : w.counted (w.workers * (w.operations / w.workers)) = { successful := 8 } := by
    decide
  exact ⟨hhealthy, by rw [hsequential]; rfl, by rw [hconcurrent, hcounted]⟩

end Exercise.Workload

end SealedStream
