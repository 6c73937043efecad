import JobQ.Proof.Autoscaler.LayOffs
import JobQ.Proof.Workforce.ScaleTo

/-!
# Running workers are spared

A tick lays off where workers were pending when it read the states. If these still wait when it
comes to the region, the candidates are among them, and no call cancels a worker that runs.
-/

namespace JobQ.Autoscaler
open Workforce MultiRegionWorkforce

variable {s t : State} {a : Action} {i j k : Nat} {m : Manager} {new : List Event} {job : AmlJob}
  {jobs : List AmlJob} {fetched : List (List (Option WorkforceState))}
  {current : List (Option (Option WorkforceState))}

/-- The states are read without an error, and a worker that is pending stays so until the tick is
over. -/
def Waiting (s : State) : Action → Prop
  | .changes i j status => s.phase = .sleeping ∨ ∀ job, (s.region i)[j]? = some job →
      waits job = true → waits { job with status } = true
  | .reads _ answered => answered = true
  | _ => True

structure Spared (s : State) : Prop where
  complete : ∀ fetched current, s.phase = .reading fetched current →
    Complete s.manager.workforces fetched current
  waiting : ∀ k i state, answers s.phase k i = some state →
    0 ≤ state.numPending ∧ state.numPending ≤ pendingIn (s.region i)
  apart : ∀ calls, s.phase = .writing calls → calls.Pairwise Apart
  few : ∀ calls, s.phase = .writing calls → ∀ i (n : Int), .layOff i n ∈ calls →
    n ≤ pendingIn (s.region i)

/-! ## The candidates -/

theorem waits_listed (waiting : waits job = true) : job.status ∈ layoffStatusPriority := by
  have active : job.status ∈ activeStatuses := by
    simpa [isActive] using (Bool.and_eq_true_iff.mp waiting).1
  simp only [activeStatuses, layoffStatusPriority, List.mem_cons] at active ⊢
  tauto

theorem pendingIn_listed (jobs : List AmlJob) :
    pendingIn (listed jobs layoffStatusPriority) = pendingIn jobs := by
  rw [pendingIn, listed, List.countP_filter]
  refine List.countP_congr fun job _ => ?_
  simpa using waits_listed

/-- Among no more candidates than wait there is none that runs. -/
theorem candidates_wait {n : Int} {worker : AmlJob} (positive : 0 < n) (few : n ≤ pendingIn jobs)
    (member : worker ∈ layoffCandidates (listed jobs layoffStatusPriority) n) :
    worker.status ≠ .running := by
  intro running
  obtain ⟨n, rfl⟩ := Int.eq_ofNat_of_zero_le positive.le
  have enough : pendingIn jobs ≤ (listed jobs layoffStatusPriority).length :=
    pendingIn_listed jobs ▸ List.countP_le_length
  obtain ⟨length, kept, spares⟩ := layoffCandidates_spares (listed jobs layoffStatusPriority)
    (show n ≤ _ by omega)
  have known : ∀ job ∈ listed jobs layoffStatusPriority, job.status ∈ layoffStatusPriority :=
    fun job member => by simpa using (List.mem_filter.mp member).2
  have left : kept.countP waits = 0 := by
    rw [List.countP_eq_zero]
    intro other there
    have runs := spares.running known member running other there
    simp [waits, runs, Autoscaler.runs, isRunning]
  have counted := spares.whole.countP_eq waits
  rw [List.countP_append, left, show (listed jobs layoffStatusPriority).countP waits = pendingIn jobs
    from pendingIn_listed jobs] at counted
  have idle : waits worker = false := by simp [waits, running, Autoscaler.runs, isRunning]
  have fewer : (layoffCandidates (listed jobs layoffStatusPriority) n).countP waits <
      (layoffCandidates (listed jobs layoffStatusPriority) n).length := by
    rw [List.countP_lt_length_iff]
    exact ⟨worker, member, by simp [idle]⟩
  omega

/-! ## One step -/

/-- Between ticks there is nothing to keep. -/
theorem spared_idle (reading : ∀ fetched current, s.phase ≠ .reading fetched current)
    (writing : ∀ calls, s.phase ≠ .writing calls) : Spared s := by
  refine ⟨fun _ _ phase => absurd phase (reading _ _), fun k i state found => ?_,
    fun _ phase => absurd phase (writing _), fun _ phase => absurd phase (writing _)⟩
  cases phase : s.phase with
  | reading fetched current => exact absurd phase (reading fetched current)
  | _ =>
      rw [phase] at found
      cases found

/-- The remaining calls lay off what still waits. -/
theorem spared_calls {calls : List Write} {phase : Phase} (follows : phase.Follows calls)
    (same : s.phase = phase) (apart : calls.Pairwise Apart)
    (few : ∀ i (n : Int), .layOff i n ∈ calls → n ≤ pendingIn (s.region i)) : Spared s := by
  rcases follows with rfl | rfl
  · refine ⟨fun _ _ reads => ?_, fun k i state found => ?_, fun _ writes => ?_, fun _ writes => ?_⟩
    · cases same.symm.trans reads
    · rw [same] at found
      cases found
    · cases same.symm.trans writes
      exact apart
    · cases same.symm.trans writes
      exact few
  · exact spared_idle (fun _ _ reads => Phase.noConfusion (same.symm.trans reads))
      fun _ writes => Phase.noConfusion (same.symm.trans writes)

theorem Spared.changes {status : Status} (spared : Spared s)
    (waiting : Waiting s (.changes i j status)) (stored : (s.region i)[j]? = some job) :
    Spared { s with jobs := s.jobs.modify i fun jobs => jobs.set j { job with status } } := by
  rcases waiting with sleeping | waits
  · refine spared_idle ?_ ?_
    · intro fetched current reads
      cases sleeping.symm.trans reads
    · intro calls writes
      cases sleeping.symm.trans writes
  · have more (k : Nat) : pendingIn (s.region k) ≤ pendingIn (State.region
        { s with jobs := s.jobs.modify i fun jobs => jobs.set j { job with status } } k) := by
      rw [region_modify]
      split
      · rename_i here
        exact here.1 ▸ Pool.countP_le_set stored (waits job stored)
      · exact le_rfl
    refine ⟨spared.complete, fun k i state found => ?_, spared.apart, fun calls writes i n member => ?_⟩
    · have before := spared.waiting k i state found
      have grows := more i
      omega
    · have before := spared.few calls writes i n member
      have grows := more i
      omega

theorem Spared.reads (spared : Spared s) (phase : s.phase = .reading fetched current)
    (due : current[i]? = some none) :
    Spared { s with phase := .reading fetched (current.set i (some (read s i true))) } := by
  refine ⟨?_, fun k j state found => ?_, by rintro _ ⟨⟩, by rintro _ ⟨⟩⟩
  · rintro _ _ ⟨⟩
    rw [read_eq]
    exact (spared.complete _ _ phase).reads i
  · rw [answers_read due, read_eq] at found
    split at found
    · rename_i here
      obtain ⟨-, rfl⟩ := here
      cases found
      exact ⟨Int.natCast_nonneg _, le_rfl⟩
    · exact spared.waiting k j state (by rw [phase]; exact found)

theorem Spared.fetches (spared : Spared s) (phase : s.phase = .reading fetched current)
    (whole : current.all Option.isSome = true) :
    Spared { s with phase := .reading (fetched ++ [current.reduceOption]) (unread s.manager) } := by
  refine ⟨?_, fun k j state found => ?_, by rintro _ ⟨⟩, by rintro _ ⟨⟩⟩
  · rintro _ _ ⟨⟩
    exact (spared.complete _ _ phase).fetches whole
  · rw [answers_fetched whole, ← phase] at found
    exact spared.waiting k j state found

theorem Spared.decides {queueSize : Option Nat} {available : Nat → WorkforceState → Option Int}
    {paused : Nat → Option Int} {success : Bool} {calls : List Write} {next : Manager}
    (spared : Spared s) (phase : s.phase = .reading fetched current)
    (whole : fetched.length = Autoscaler.fetches s.manager)
    (ran : run (found s.manager fetched queueSize available paused) s.manager false none =
      .ok (success, calls, next)) :
    Spared { s with manager := next, phase := .writing calls } := by
  have complete := spared.complete _ _ phase
  have known : Known (found s.manager fetched queueSize available paused) s.manager fun i state =>
      0 ≤ state.numPending ∧ state.numPending ≤ pendingIn (s.region i) := by
    intro k bound i region
    obtain ⟨state, found, answer⟩ := complete.found_read (whole ▸ bound) region
    exact ⟨state, found, spared.waiting k i state (phase ▸ answer)⟩
  obtain ⟨apart, few⟩ := @run_layOffs _ _ _ _ _ (fun i => pendingIn (s.region i)) ran known
  exact spared_calls (.inl rfl) rfl apart few

/-- A call that adds jobs, or that cancels where no later call lays off, leaves the others alone. -/
theorem Spared.executes {call : Write} {calls : List Write} {next : Phase}
    {f : List AmlJob → List AmlJob} (spared : Spared s) (writes : s.phase = .writing (call :: calls))
    (follows : next.Follows calls)
    (away : ∀ j n, .layOff j n ∈ calls → i = j → pendingIn (s.region j) ≤ pendingIn (f (s.region j))) :
    Spared { s with jobs := s.jobs.modify i f, phase := next } := by
  refine spared_calls follows rfl (List.pairwise_cons.mp (spared.apart _ writes)).2
    fun j n member => ?_
  have before := spared.few _ writes j n (List.mem_cons_of_mem _ member)
  refine before.trans (Int.ofNat_le.mpr ?_)
  change _ ≤ pendingIn (State.region { s with jobs := s.jobs.modify i f } j)
  rw [region_modify]
  split
  · rename_i here
    exact away j n member here.1
  · exact le_rfl

theorem Spared.step (spared : Spared s) (waiting : Waiting s a) (stepped : Steps s a t new) :
    Spared t := by
  cases stepped with
  | changes stored => exact spared.changes waiting stored
  | ticks phase =>
      refine ⟨?_, fun k i state found => ?_, by rintro _ ⟨⟩, by rintro _ ⟨⟩⟩
      · rintro _ _ ⟨⟩
        exact complete_unread
      · cases (answers_unread (Nat.zero_le k)).symm.trans found
  | reads phase due =>
      obtain rfl : _ = true := waiting
      exact spared.reads phase due
  | fetched phase whole more => exact spared.fetches phase whole
  | fails => exact spared_idle (fun _ _ => Phase.noConfusion) fun _ => Phase.noConfusion
  | decides phase whole ran => exact spared.decides phase whole ran
  | hires writes few follows =>
      refine spared.executes writes follows fun j n member here => ?_
      simp [pendingIn, List.countP_append]
  | cancels writes about picks follows =>
      refine spared.executes writes follows fun j n member here => ?_
      -- the call is a layoff itself, and in another region
      obtain ⟨k, _, same, other⟩ := (List.pairwise_cons.mp (spared.apart _ writes)).1 _ member j n rfl
      rcases about with ⟨_, rfl⟩ | ⟨_, rfl⟩ <;> cases same
      exact absurd here other
  | sleeps phase => exact spared_idle (fun _ _ => Phase.noConfusion) fun _ => Phase.noConfusion

theorem Spared.cancelled (spared : Spared s) (stepped : Steps s a t new)
    (member : Event.cancelled i job ∈ new) : job.status ≠ .running := by
  cases stepped with
  | hires => simp at member
  | cancels writes about picks =>
      obtain ⟨worker, picked, same⟩ := List.mem_map.mp member
      cases same
      rcases picks with ⟨j, n, rfl, positive, candidates⟩ | paused
      · have few := spared.few _ writes j n List.mem_cons_self
        rcases about with ⟨_, same⟩ | ⟨_, same⟩ <;> cases same
        exact candidates_wait positive few (candidates picked)
      · rw [paused job picked]
        exact Status.noConfusion
  | _ => cases member

/-- Any number of ticks cancels no worker that runs, as long as what is pending stays so in the middle
of a tick. -/
theorem running_spared {jobs : List (List AmlJob)} {m : Manager} {t : State} {es : List Event}
    (run : Mealy.Run machine Waiting (initial jobs m, []) es t) {i : Nat} {job : AmlJob}
    (cancelled : .cancelled i job ∈ es) : job.status ≠ .running := by
  have spared := run.invariant
    (P := fun es s => Spared s ∧ ∀ i job, .cancelled i job ∈ es → job.status ≠ .running)
    ⟨spared_idle (fun _ _ => Phase.noConfusion) fun _ => Phase.noConfusion, by simp⟩
    fun es s a t new ⟨spared, earlier⟩ waiting action =>
      ⟨spared.step waiting (step_cases action), fun i job member =>
        (List.mem_append.mp member).elim (earlier i job)
          (spared.cancelled (step_cases action))⟩
  exact spared.2 i job cancelled

/-! ## An empty queue -/

def surplusManager : Manager where
  workforces := 1
  numWorkers := 1
  maxNumWorkers := 4
  useLazyStates := true
  batchedDelayInHiring := true

def surplusJobs : List AmlJob := [⟨"first", .queued⟩, ⟨"second", .running⟩]

def surplusReads : List Action := [.ticks, .reads 0 true, .fetched]

def answered : Action → Bool
  | .changes _ _ _ => false
  | .reads _ answered => answered
  | _ => true

theorem answered_waiting (s : State) (a : Action) (quiet : answered a = true) : Waiting s a := by
  cases a with
  | changes => cases quiet
  | reads => exact quiet
  | _ => trivial

theorem surplus_read : Mealy.execIf machine (fun _ => answered) (initial [surplusJobs] surplusManager, [])
    surplusReads = some (⟨[surplusJobs], surplusManager, .reading [[some ⟨1, 1⟩]] [none]⟩, []) := rfl

def surplusFound : MultiRegionWorkforce.Azure :=
  found surplusManager [[some ⟨1, 1⟩]] (some 0) (fun _ _ => none) fun _ => none

def surplusDetermined : Manager := afterPending surplusFound surplusManager

theorem surplus_decides : ∃ next,
    run surplusFound surplusManager false none = .ok (false, [.layOff 0 1], next) := by
  have distribution : layoffDistribution [1] 2 = [1] := by
    simp [layoffDistribution, byAvailable, distribute]
  have pending : (states surplusFound surplusDetermined).1.map WorkforceState.numPending = [1] := rfl
  have laidOff : layoffQueuedWorkers surplusFound surplusDetermined 2 =
      .ok ([1], [.layOff 0 1], (states surplusFound surplusDetermined).2) := by
    unfold layoffQueuedWorkers
    rw [if_neg (by decide)]
    dsimp only
    rw [pending, distribution]
    rfl
  have down : scaleDown surplusFound surplusDetermined 1 (-2) =
      .ok (false, [.layOff 0 1], (states surplusFound surplusDetermined).2) := by
    unfold scaleDown
    rw [if_pos (by decide), neg_neg, laidOff]
    rfl
  have ran : run surplusFound surplusManager false none =
      scaleDown surplusFound surplusDetermined 1 (-2) := rfl
  exact ⟨_, ran.trans down⟩

theorem surplus_candidates : layoffCandidates (listed surplusJobs layoffStatusPriority) 1 =
    [⟨"first", .queued⟩] := by
  have listed : listed surplusJobs layoffStatusPriority = surplusJobs := rfl
  have sorted : surplusJobs.mergeSort (fun a b => laidOffFirst a.status b.status) = surplusJobs :=
    List.mergeSort_of_pairwise (by decide)
  rw [listed, layoffCandidates, sorted]
  rfl

theorem surplus_cancels (next : Manager) : machine.step
    ⟨[surplusJobs], next, .writing [.layOff 0 1]⟩ (.executes accepting []) =
      some (⟨[[⟨"first", .cancelRequested⟩, ⟨"second", .running⟩]], next, .writing []⟩,
        [.cancelled 0 ⟨"first", .queued⟩]) := by
  have region : State.region ⟨[surplusJobs], next, .writing [.layOff 0 1]⟩ 0 = surplusJobs := rfl
  have attempts : parallelLayOff (answering accepting surplusJobs) 1 =
      runParallel (cancelOne (answering accepting surplusJobs))
        (layoffCandidates (listed surplusJobs layoffStatusPriority) 1) := rfl
  simp only [machine, step, stepExecutes, region, attempts, surplus_candidates]
  rfl

/-- The queue is empty, and of two workers the one that waits is laid off. -/
theorem running_spared_hello : ∃ t, ∃ job : AmlJob, Mealy.Run machine Waiting
    (initial [surplusJobs] surplusManager, []) [.cancelled 0 job] t ∧ job.status ≠ .running := by
  obtain ⟨next, ran⟩ := surplus_decides
  have decided : machine.step ⟨[surplusJobs], surplusManager, .reading [[some ⟨1, 1⟩]] [none]⟩
      (.decides (some 0) (fun _ _ => none) fun _ => none) =
        some (⟨[surplusJobs], next, .writing [.layOff 0 1]⟩, []) := by
    have whole : [[some (⟨1, 1⟩ : WorkforceState)]].length = fetches surplusManager := rfl
    simp only [machine, step, stepDecides, if_pos whole]
    rw [show found surplusManager _ _ _ _ = surplusFound from rfl, ran]
    rfl
  have run := (((Mealy.Run.of_execIf surplus_read).next rfl decided).next rfl
    (surplus_cancels next)).mono answered_waiting
  exact ⟨_, _, run, running_spared run List.mem_cons_self⟩

end JobQ.Autoscaler
