import Mathlib.Algebra.BigOperators.Ring.Finset
import JobQ.Proof.MultiRegionWorkforce.Resume

/-!
# Jobs that change their status during a tick

Without lazy states, the running and the pending workers of a tick are counted in two different
reads. A job that starts in between is in neither count.
-/

namespace JobQ.MultiRegionWorkforce
open Workforce

/-- Jobs that stay active during a tick, with the status in which each read finds them. -/
structure Fleet where
  jobs : Nat → Nat
  status : Nat → Nat → Nat → Status
  active : ∀ read region job, status read region job ∈ activeStatuses
  queueSize : Nat
  available : Nat → WorkforceState → Int
  paused : Nat → Int

def isRunning (status : Status) : Bool := status = .running

namespace Fleet

variable (fleet : Fleet)

def listJobs (read region : Nat) : List Status :=
  (List.range (fleet.jobs region)).map (fleet.status read region)

def azure : Azure where
  queueSize := some fleet.queueSize
  currentState read region := getCurrentState (fleet.listJobs read region)
  availableToHire region state := some (fleet.available region state)
  numPaused region := some (fleet.paused region)

def total (regions : Nat) (count : Nat → Nat) : Nat := ((List.range regions).map count).sum

def numJobs (regions : Nat) : Nat := total regions fleet.jobs

def countJobs (regions : Nat) (p : Nat → Nat → Bool) : Nat :=
  total regions fun region => (List.range (fleet.jobs region)).countP (p region)

def runs (read region job : Nat) : Bool := isRunning (fleet.status read region job)

/-- The jobs that begin to run between a read and the next one. -/
def started (regions read : Nat) : Nat :=
  fleet.countJobs regions fun region job =>
    !fleet.runs read region job && fleet.runs (read + 1) region job

def stopped (regions read : Nat) : Nat :=
  fleet.countJobs regions fun region job =>
    fleet.runs read region job && !fleet.runs (read + 1) region job

def state (read region : Nat) : WorkforceState where
  numPending := (List.range (fleet.jobs region)).countP fun job => !fleet.runs read region job
  numRunning := (List.range (fleet.jobs region)).countP (fleet.runs read region)

def places (regions read : Nat) : Int :=
  ((List.range regions).map fun region =>
    max 0 (fleet.available region (fleet.state read region))).sum

end Fleet

def Write.hired : Write → Int
  | .hire _ n _ => n
  | _ => 0

/-- The workers hired by a list of calls, if each of them succeeds. -/
def hired (calls : List Write) : Int := (calls.map Write.hired).sum

/-! ## One read -/

theorem count_active {jobs : List Status} (state : DetailedState)
    (active : ∀ job ∈ jobs, job ∈ activeStatuses) :
    ∃ counted, jobs.foldlM DetailedState.count state = .ok counted ∧
      counted.numRunning = state.numRunning + jobs.countP isRunning ∧
      counted.numPending = state.numPending + jobs.countP fun job => !isRunning job := by
  induction jobs generalizing state with
  | nil => exact ⟨state, rfl, by simp⟩
  | cons job rest ih =>
      obtain ⟨next, counts, running, pending⟩ : ∃ next, state.count job = .ok next ∧
          next.numRunning = state.numRunning + [job].countP isRunning ∧
          next.numPending = state.numPending + [job].countP fun job => !isRunning job := by
        have known := active job (by simp)
        simp only [activeStatuses, List.mem_cons, List.not_mem_nil, or_false] at known
        rcases known with rfl | rfl | rfl | rfl | rfl | rfl <;>
          refine ⟨_, rfl, by simp [isRunning], ?_⟩ <;>
          simp [DetailedState.numPending, isRunning] <;> omega
      obtain ⟨counted, folds, runningAll, pendingAll⟩ := ih next fun job member =>
        active job (by simp [member])
      refine ⟨counted, ?_, ?_, ?_⟩
      · rw [List.foldlM_cons, counts]
        exact folds
      · rw [runningAll, running, ← List.singleton_append (l := rest), List.countP_append]
        omega
      · rw [pendingAll, pending, ← List.singleton_append (l := rest), List.countP_append]
        omega

variable (fleet : Fleet) {m next determined : Manager} {target : Int} {calls : List Write}
  {success : Bool}

theorem Fleet.reads (read region : Nat) :
    fleet.azure.currentState read region = some (fleet.state read region) := by
  have active : ∀ job ∈ fleet.listJobs read region, job ∈ activeStatuses := by
    intro job member
    obtain ⟨index, -, rfl⟩ := List.mem_map.mp member
    exact fleet.active read region index
  obtain ⟨detailed, counted, running, pending⟩ := count_active {} active
  have called : getDetailedState (fleet.listJobs read region) = .ok detailed := counted
  show getCurrentState (fleet.listJobs read region) = _
  rw [getCurrentState, called]
  simp only [running, pending, Fleet.listJobs, List.countP_map, Fleet.state, Option.some.injEq,
    WorkforceState.mk.injEq]
  constructor
  · simp [DetailedState.numPending, Function.comp_def, Fleet.runs]
  · rw [Nat.zero_add]
    rfl

theorem states_eager (eager : m.useLazyStates = false) :
    (states fleet.azure m).1 = (List.range m.workforces).map (fleet.state m.fetches) ∧
      (states fleet.azure m).2.useLazyStates = false ∧
      (states fleet.azure m).2.fetches = m.fetches + 1 := by
  unfold states
  split
  · rename_i lazy _
    rw [eager] at lazy
    contradiction
  · simp [eager, Fleet.reads]

variable {fleet}

theorem total_cast (regions : Nat) (f : Nat → Nat) :
    ((List.range regions).map fun region => (f region : Int)).sum = Fleet.total regions f := by
  unfold Fleet.total
  rw [Nat.cast_list_sum, List.map_map]
  rfl

/-! ## What is counted -/

theorem countP_two_reads {α : Type*} (p q : α → Bool) (l : List α) :
    l.countP p + (l.countP fun a => !q a) + (l.countP fun a => !p a && q a) =
      l.length + l.countP fun a => p a && !q a := by
  induction l with
  | nil => rfl
  | cons a rest ih =>
      simp only [List.countP_cons, List.length_cons]
      cases p a <;> cases q a <;> simp <;> omega

theorem two_reads (fleet : Fleet) (regions read : Nat) :
    fleet.countJobs regions (fleet.runs read) +
        (fleet.countJobs regions fun region job => !fleet.runs (read + 1) region job) +
        fleet.started regions read =
      fleet.numJobs regions + fleet.stopped regions read := by
  induction regions with
  | zero => rfl
  | succ n ih =>
      have region := countP_two_reads (fleet.runs read n) (fleet.runs (read + 1) n)
        (List.range (fleet.jobs n))
      rw [List.length_range] at region
      simp only [Fleet.started, Fleet.stopped, Fleet.countJobs, Fleet.numJobs, Fleet.total,
        List.range_succ, List.map_append, List.sum_append, List.map_cons, List.map_nil,
        List.sum_cons, List.sum_nil] at ih ⊢
      omega

theorem counted_eq (fleet : Fleet) (eager : m.useLazyStates = false) :
    currentlyRunning fleet.azure m + currentlyPending fleet.azure m +
        fleet.started m.workforces m.fetches =
      fleet.numJobs m.workforces + fleet.stopped m.workforces m.fetches ∧
    0 ≤ currentlyRunning fleet.azure m + currentlyPending fleet.azure m := by
  obtain ⟨first, still, fetched⟩ := states_eager fleet (m := tickStart m) eager
  obtain ⟨second, -, -⟩ := states_eager fleet still
  rw [states_workforces, fetched] at second
  have running : currentlyRunning fleet.azure m =
      fleet.countJobs m.workforces (fleet.runs m.fetches) := by
    rw [currentlyRunning, first, numRunning, List.map_map]
    exact total_cast _ _
  have pending : currentlyPending fleet.azure m =
      fleet.countJobs m.workforces fun region job => !fleet.runs (m.fetches + 1) region job := by
    rw [currentlyPending, afterRunning, second, numPending, List.map_map]
    exact total_cast _ _
  have two := two_reads fleet m.workforces m.fetches
  omega

/-! ## What is hired -/

theorem hired_append (calls more : List Write) : hired (calls ++ more) = hired calls + hired more := by
  simp [hired]

theorem hired_none (idle : ∀ call ∈ calls, call.hired = 0) : hired calls = 0 := by
  apply List.sum_eq_zero
  intro n member
  obtain ⟨call, called, rfl⟩ := List.mem_map.mp member
  exact idle call called

theorem hired_resumes (azure : Azure) (m : Manager) : hired (resumeAllRegions azure m) = 0 := by
  apply hired_none
  intro call member
  obtain ⟨region, -, resumes⟩ := List.mem_filterMap.mp member
  split at resumes
  · split at resumes <;> cases resumes
    rfl
  · cases resumes

theorem hired_layOffs (distribution : List Int) : hired (writes .layOff distribution) = 0 := by
  apply hired_none
  intro call member
  obtain ⟨_, -, rfl⟩ := List.mem_map.mp member
  rfl

theorem sum_filter_positive {entries : List (Int × Nat)} (nonnegative : ∀ e ∈ entries, 0 ≤ e.1) :
    ((entries.filter fun e => e.1 > 0).map Prod.fst).sum = (entries.map Prod.fst).sum := by
  induction entries with
  | nil => rfl
  | cons e rest ih =>
      have first := nonnegative e (by simp)
      have others := ih fun other member => nonnegative other (by simp [member])
      by_cases positive : e.1 > 0
      · simp [positive, others]
      · simp [positive, others]
        omega

theorem hired_hires (m : Manager) {distribution : List Int} (nonnegative : ∀ n ∈ distribution, 0 ≤ n) :
    hired (writes (hireOn m) distribution) = distribution.sum := by
  have entries : ∀ e ∈ distribution.zipIdx, 0 ≤ e.1 := fun e member =>
    nonnegative e.1 (List.fst_mem_of_mem_zipIdx member)
  have sum := sum_filter_positive entries
  rw [List.zipIdx_map_fst] at sum
  rw [← sum, hired, writes, List.map_map]
  rfl

/-- Without a region the plan is empty, and nothing is available. -/
theorem planned_sum {available : List Int} {totalToHire : Int} (positive : 0 < totalToHire) :
    (hiringDistribution available totalToHire).sum =
      min totalToHire (available.map (max 0)).sum := by
  by_cases regions : available = []
  · simp [regions, hiringDistribution, distribute, byAvailable, positive.le]
  · exact hiringDistribution_sum positive regions

theorem scaleUp_hired {azure : Azure} {totalToHire : Int} (positive : 0 < totalToHire) :
    hired (scaleUp azure m totalToHire).2.1 =
      min totalToHire ((availableForHire azure (states azure m).1).map (max 0)).sum := by
  have nonnegative : ∀ n ∈ hiringDistribution (availableForHire azure (states azure m).1)
      totalToHire, 0 ≤ n := by
    intro n member
    obtain ⟨i, bound, rfl⟩ := List.getElem_of_mem member
    have bounds := @hiringDistribution_bounds (availableForHire azure (states azure m).1) _
      positive
    exact (bounds.get bound (bounds.length_eq ▸ bound)).1
  simp only [scaleUp, hired_append, hired_resumes, add_zero]
  rw [hired_hires _ nonnegative]
  exact planned_sum positive

theorem scaleDown_hired {azure : Azure} {pending totalToHire : Int} (surplus : totalToHire < 0)
    (result : scaleDown azure m pending totalToHire = .ok (success, calls, next)) :
    hired calls = 0 := by
  unfold scaleDown at result
  split at result
  · split at result
    · cases result
    · rename_i distribution laidOff rest called
      have none : hired laidOff = 0 := by
        unfold layoffQueuedWorkers at called
        split at called <;> cases called
        exact hired_layOffs _
      split at result
      · cases result
        exact none
      · rw [if_pos (by have := layoff_within (by omega) called; omega)] at result
        cases result
        exact none
  · cases result
    rfl

theorem determined_eager (eager : m.useLazyStates = false)
    (reads : determineNumberOfWorkers fleet.azure m = .ok (target, determined))
    (positive : 0 < target) :
    determined.useLazyStates = false ∧ determined.fetches = m.fetches + 1 ∧
      determined.workforces = m.workforces := by
  obtain ⟨-, still, fetched⟩ := states_eager fleet eager
  have regions := determine_workforces reads
  unfold determineNumberOfWorkers at reads
  split at reads
  · cases reads
  · cases reads
    contradiction
  · dsimp only at reads
    split at reads <;> cases reads
    exact ⟨still, fetched, regions⟩

theorem available_places (regions read : Nat) :
    ((availableForHire fleet.azure ((List.range regions).map (fleet.state read))).map
      (max 0)).sum = fleet.places regions read := by
  unfold availableForHire Fleet.places
  congr 1
  apply List.ext_getElem
  · simp
  · intro region bound _
    simp [Fleet.azure]

/-- A tick hires no more than is missing exactly when no more jobs begin to run between the two
reads than stop running, or what it counts covers the target all the same, or the regions have no
more places than there are workers missing. -/
theorem hires_missing_iff (eager : m.useLazyStates = false)
    (reads : determineNumberOfWorkers fleet.azure (afterPending fleet.azure m) =
      .ok (target, determined))
    (returned : run fleet.azure m false none = .ok (success, calls, next)) :
    hired calls ≤ max 0 (target - fleet.numJobs m.workforces) ↔
      fleet.started m.workforces m.fetches ≤ fleet.stopped m.workforces m.fetches ∨
      target + fleet.started m.workforces m.fetches ≤
        fleet.numJobs m.workforces + fleet.stopped m.workforces m.fetches ∨
      fleet.places m.workforces (m.fetches + 3) ≤ max 0 (target - fleet.numJobs m.workforces) := by
  obtain ⟨target, determined, reads', ticks⟩ := run_cases returned
  obtain ⟨rfl, rfl⟩ : target = _ ∧ determined = _ := by
    simpa [reads] using reads'.symm
  obtain ⟨counted, natural⟩ := counted_eq fleet eager
  generalize same : (success, calls, next) = result at ticks
  cases ticks with
  | settled even =>
      cases same
      simp only [hired, List.map_nil, List.sum_nil]
      omega
  | down surplus scaled =>
      subst same
      rw [scaleDown_hired surplus scaled]
      omega
  | up wanted =>
      obtain ⟨-, stillRunning, fetchedRunning⟩ := states_eager fleet (m := tickStart m) eager
      obtain ⟨-, stillPending, fetchedPending⟩ := states_eager fleet stillRunning
      obtain ⟨still, fetched, regions⟩ := determined_eager stillPending reads (by omega)
      obtain ⟨capacity, -, -⟩ := states_eager fleet still
      have read : determined.fetches = m.fetches + 3 := by
        rw [fetched, fetchedPending, fetchedRunning]
        rfl
      have everywhere : determined.workforces = m.workforces := by
        rw [regions, states_workforces, states_workforces]
        rfl
      have hires : hired calls = min _ _ := same ▸ scaleUp_hired wanted
      rw [capacity, available_places, read, everywhere] at hires
      omega

/-- One region with one job, which the first read finds in another status than the later ones. -/
def oneJob (before after : Status) (active : before ∈ activeStatuses ∧ after ∈ activeStatuses) :
    Fleet where
  jobs _ := 1
  status read _ _ := if read = 0 then before else after
  active read _ _ := by
    split
    · exact active.1
    · exact active.2
  queueSize := 20
  available _ _ := 10
  paused _ := 0

def eagerRegion : Manager := { oneRegion with useLazyStates := false }

theorem run_up {azure : Azure} (reads : determineNumberOfWorkers azure (afterPending azure m) =
      .ok (target, determined))
    (wanted : currentlyRunning azure m + currentlyPending azure m < target) :
    run azure m false none = .ok (scaleUp azure determined
      (target - (currentlyRunning azure m + currentlyPending azure m))) := by
  have positive : 0 < target - (currentlyRunning azure m + currentlyPending azure m) := by omega
  unfold afterPending afterRunning tickStart at reads
  unfold run
  dsimp only
  rw [reads]
  dsimp only
  rw [if_neg Bool.false_ne_true]
  exact (if_neg positive.ne').trans (if_neg positive.not_gt)

theorem run_hires (azure : Azure) (m : Manager) (target : Int)
    (reads : determineNumberOfWorkers azure (afterPending azure m) =
      .ok (target, determined))
    (wanted : currentlyRunning azure m + currentlyPending azure m < target) :
    ∃ success calls next, run azure m false none = .ok (success, calls, next) ∧
      hired calls = min (target - (currentlyRunning azure m + currentlyPending azure m))
        ((availableForHire azure (states azure determined).1).map (max 0)).sum := by
  exact ⟨_, _, _, run_up reads wanted, scaleUp_hired (by omega)⟩

theorem hires_missing_hello : ∃ success calls next,
    run (oneJob .queued .preparing (by decide)).azure eagerRegion false none =
      .ok (success, calls, next) ∧ hired calls ≤ max 0 (5 - 1) := by
  obtain ⟨success, calls, next, returned, -⟩ :=
    run_hires (oneJob .queued .preparing (by decide)).azure eagerRegion 5 rfl (by decide)
  have reads : determineNumberOfWorkers (oneJob .queued .preparing (by decide)).azure
      (afterPending (oneJob .queued .preparing (by decide)).azure eagerRegion) = .ok (5, _) := rfl
  exact ⟨success, calls, next, returned,
    (hires_missing_iff rfl reads returned).mpr (.inl (by decide))⟩

/-- The job is queued at the first read and runs at the second: five workers are hired beside it. -/
theorem starting_job_missed : ¬ ∀ (fleet : Fleet) m target determined success calls next,
    m.useLazyStates = false →
    determineNumberOfWorkers fleet.azure (afterPending fleet.azure m) = .ok (target, determined) →
    run fleet.azure m false none = .ok (success, calls, next) →
    hired calls ≤ max 0 (target - fleet.numJobs m.workforces) := by
  intro claim
  obtain ⟨success, calls, next, returned, hires⟩ :=
    run_hires (oneJob .queued .running (by decide)).azure eagerRegion 5 rfl (by decide)
  have few := claim _ _ 5 _ success calls next rfl rfl returned
  rw [hires] at few
  contradiction

end JobQ.MultiRegionWorkforce
