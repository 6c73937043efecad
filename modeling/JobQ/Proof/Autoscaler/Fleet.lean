import JobQ.Library.Pool
import JobQ.Proof.Autoscaler.Steps

/-!
# The workers of a fleet
-/

namespace JobQ.Autoscaler
open Workforce MultiRegionWorkforce

variable {s t : State} {a : Action} {i j k : Nat} {job : AmlJob} {jobs workers : List AmlJob}
  {status : Status} {new : List Event}

def isActive (job : AmlJob) : Bool := job.status ∈ activeStatuses
def runs (job : AmlJob) : Bool := isRunning job.status
def waits (job : AmlJob) : Bool := isActive job && !runs job

def activeIn (jobs : List AmlJob) : Nat := jobs.countP isActive
def runningIn (jobs : List AmlJob) : Nat := jobs.countP runs
def pendingIn (jobs : List AmlJob) : Nat := jobs.countP waits

/-- The workers of all regions. -/
def active (s : State) : Nat := (s.jobs.map activeIn).sum

/-- What `get_current_state` makes of the jobs of a region. -/
def counts (jobs : List AmlJob) : WorkforceState := ⟨pendingIn jobs, runningIn jobs⟩

theorem runs_active (running : runs job = true) : isActive job = true := by
  have status : job.status = .running := by simpa [runs, isRunning] using running
  simp [isActive, status, activeStatuses]

theorem activeIn_eq (jobs : List AmlJob) : activeIn jobs = runningIn jobs + pendingIn jobs := by
  induction jobs with
  | nil => rfl
  | cons job rest ih =>
      simp only [activeIn, runningIn, pendingIn, List.countP_cons] at ih ⊢
      by_cases running : runs job = true
      · simp [waits, running, runs_active running, ih]
        omega
      · cases active : isActive job <;> simp [waits, running, active, ih]
        omega

theorem read_eq : read s i true = some (counts (s.region i)) := by
  have known : ∀ status ∈ (listed (s.region i) activeStatuses).map AmlJob.status,
      status ∈ activeStatuses := by
    intro status member
    obtain ⟨job, there, rfl⟩ := List.mem_map.mp member
    simpa using (List.mem_filter.mp there).2
  obtain ⟨detailed, counted, running, pending⟩ := count_active {} known
  have called : getDetailedState ((listed (s.region i) activeStatuses).map AmlJob.status) =
    .ok detailed := counted
  have noted : detailed.numRunning = runningIn (s.region i) := by
    simp only [running, Nat.zero_add, List.countP_map, listed, List.countP_filter, runningIn]
    refine List.countP_congr fun job _ => ?_
    cases runs : runs job with
    | true =>
        have active := runs_active runs
        simp_all [Autoscaler.runs, isActive]
    | false => simp_all [Autoscaler.runs]
  have waiting : detailed.numPending = pendingIn (s.region i) := by
    have none : DetailedState.numPending {} = 0 := rfl
    simp only [pending, none, Nat.zero_add, List.countP_map, listed, List.countP_filter, pendingIn]
    refine List.countP_congr fun job _ => ?_
    simp [isActive, runs, waits, and_comm]
  simp only [read, if_true, getCurrentState, called, counts, noted, waiting]

/-! ## Changes in one region -/

theorem region_modify (f : List AmlJob → List AmlJob) (k : Nat) :
    State.region { s with jobs := s.jobs.modify i f } k =
      if i = k ∧ k < s.jobs.length then f (s.region k) else s.region k := by
  simp only [State.region, List.getD_eq_getElem?_getD, List.getElem?_modify]
  by_cases bound : k < s.jobs.length
  · by_cases same : i = k <;> simp [bound, same]
  · simp [bound]

theorem sum_modify {regions : List (List AmlJob)} {f : List AmlJob → List AmlJob} {more : Nat}
    (grows : ∀ jobs, activeIn (f jobs) ≤ activeIn jobs + more) (i : Nat) :
    ((regions.modify i f).map activeIn).sum ≤ (regions.map activeIn).sum + more := by
  induction regions generalizing i with
  | nil => simp
  | cons jobs rest ih =>
      cases i with
      | zero =>
          have first := grows jobs
          simp only [List.modify_zero_cons, List.map_cons, List.sum_cons]
          omega
      | succ i =>
          have others := ih i
          simp only [List.modify_succ_cons, List.map_cons, List.sum_cons]
          omega

theorem sum_modify_at {regions : List (List AmlJob)} {f : List AmlJob → List AmlJob}
    (shrinks : activeIn (f (regions.getD i [])) ≤ activeIn (regions.getD i [])) :
    ((regions.modify i f).map activeIn).sum ≤ (regions.map activeIn).sum := by
  induction regions generalizing i with
  | nil => simp
  | cons jobs rest ih =>
      cases i with
      | zero =>
          simp only [List.modify_zero_cons, List.map_cons, List.sum_cons]
          simp only [List.getD_cons_zero] at shrinks
          omega
      | succ i =>
          have others := ih (i := i) (by simpa using shrinks)
          simp only [List.modify_succ_cons, List.map_cons, List.sum_cons]
          omega

theorem countP_cancel {p : AmlJob → Bool}
    (ends : ∀ job : AmlJob, p { job with status := .cancelRequested } = false) :
    (jobs.map (cancel workers)).countP p ≤ jobs.countP p := by
  rw [List.countP_map]
  refine List.countP_mono_left fun job _ counts => ?_
  simp only [Function.comp, cancel] at counts
  split at counts
  · rw [ends] at counts
    contradiction
  · exact counts

theorem cancel_inactive (job : AmlJob) :
    isActive { job with status := .cancelRequested } = false := by
  simp [isActive, activeStatuses]

end JobQ.Autoscaler
