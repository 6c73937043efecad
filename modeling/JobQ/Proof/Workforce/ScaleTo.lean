import JobQ.Library.StableSort
import JobQ.Model.Workforce.LayOff
import JobQ.Proof.MultiRegionWorkforce.OverHire

/-!
# Scaling a workforce

`scale_to` reaches its target, and lays off the jobs that have come least far.
-/

namespace JobQ.Workforce

variable {azure : Azure} {jobs cancelled kept : List AmlJob} {n : Int}

/-! ## Whom to lay off -/

/-- The later the status, the more work is lost. -/
def progress (status : Status) : Nat := layoffStatusPriority.idxOf status

theorem laidOffFirst_iff (a b : Status) : laidOffFirst a b ↔ progress a ≤ progress b := by
  cases a <;> cases b <;> decide

/-- The jobs are divided into those that are cancelled and those that are kept. -/
structure Spares (jobs cancelled kept : List AmlJob) : Prop where
  whole : (cancelled ++ kept).Perm jobs
  order : ∀ worker ∈ cancelled, ∀ other ∈ kept, progress worker.status ≤ progress other.status
  listing : ∀ status, cancelled.filter (·.status = status) ++ kept.filter (·.status = status) =
    jobs.filter (·.status = status)

theorem Spares.running (spares : Spares jobs cancelled kept)
    (active : ∀ job ∈ jobs, job.status ∈ layoffStatusPriority) {worker : AmlJob}
    (member : worker ∈ cancelled) (runs : worker.status = .running) :
    ∀ other ∈ kept, other.status = .running := by
  intro other left
  have order := spares.order worker member other left
  have known := active other (spares.whole.subset (List.mem_append_right _ left))
  rw [runs] at order
  simp only [layoffStatusPriority, List.mem_cons, List.not_mem_nil, or_false] at known
  rcases known with status | status | status | status | status | status <;> rw [status] at order ⊢
  all_goals contradiction

theorem Spares.idle (jobs : List AmlJob) : Spares jobs [] jobs :=
  ⟨.refl _, by simp, by simp⟩

theorem layoffCandidates_spares (jobs : List AmlJob) {n : Nat} (few : n ≤ jobs.length) :
    (layoffCandidates jobs n).length = n ∧ ∃ kept, Spares jobs (layoffCandidates jobs n) kept := by
  let le : AmlJob → AmlJob → Bool := fun a b => laidOffFirst a.status b.status
  have le_iff (a b : AmlJob) : le a b ↔ progress a.status ≤ progress b.status :=
    laidOffFirst_iff a.status b.status
  have trans : ∀ a b c, le a b → le b c → le a c := by
    intro a b c
    simp only [le_iff]
    exact le_trans
  have total : ∀ a b, le a b || le b a := by
    intro a b
    simp only [Bool.or_eq_true, le_iff]
    exact le_total _ _
  have chosen : layoffCandidates jobs n = (jobs.mergeSort le).take n := by
    rw [layoffCandidates, if_neg (by omega), sliceTo, if_neg (by omega), Int.toNat_natCast]
  rw [chosen]
  refine ⟨by simpa using few, (jobs.mergeSort le).drop n, ?_, ?_, ?_⟩
  · rw [List.take_append_drop]
    exact List.mergeSort_perm _ _
  · intro worker taken other left
    exact (le_iff _ _).mp (StableSort.take_le_drop trans total n taken left)
  · intro status
    rw [← List.filter_append, List.take_append_drop]
    refine StableSort.filter_mergeSort trans total fun a b first second => ?_
    simp only [decide_eq_true_eq] at first second
    rw [le_iff, first, second]

/-! ## The target -/

theorem currentState_length (listed : azure.listJobs activeStatuses = .ok jobs)
    (active : ∀ job ∈ jobs, job.status ∈ activeStatuses) :
    ∃ state, currentState azure = .ok state ∧ state.numRunning + state.numPending = jobs.length := by
  obtain ⟨detailed, counted, running, pending⟩ :=
    @MultiRegionWorkforce.count_active (jobs.map AmlJob.status) {} (by simpa using active)
  refine ⟨detailed, ?_, ?_⟩
  · have called : getDetailedState (jobs.map AmlJob.status) = .ok detailed := counted
    simp only [currentState, listed, bind, Except.bind, called]
    rfl
  · have all := List.length_eq_countP_add_countP MultiRegionWorkforce.isRunning
      (l := jobs.map AmlJob.status)
    rw [List.length_map] at all
    simp only [running, pending, all]
    simp [DetailedState.numPending]

theorem hire_all (submits : ∀ job, azure.createOrUpdate job = none) :
    (hire azure.createOrUpdate 0 n).raised = none ∧
      (hire azure.createOrUpdate 0 n).attempts.length = n.toNat := by
  have quiet : ∀ job ∈ List.range' 0 n.toNat, submitJob azure.createOrUpdate job = none := by
    simp [submitJob, submits]
  rw [hire, Sweep.sequential_raised_eq_none, Sweep.sequential_quiet quiet, List.length_range']
  exact ⟨quiet, rfl⟩

theorem layOff_all (listed : azure.listJobs layoffStatusPriority = .ok jobs)
    (cancels : ∀ name, azure.beginCancel name = none) :
    (layOff azure n).raised = none ∧ (layOff azure n).attempts = layoffCandidates jobs n := by
  have quiet : ∀ worker ∈ layoffCandidates jobs n, cancelOne azure worker = none := by
    simp [cancelOne, cancels]
  simp only [layOff, onCandidates, listed]
  exact ⟨Sweep.sequential_raised_eq_none.mpr quiet, Sweep.sequential_quiet quiet⟩

/-- The missing workers are hired, and the surplus is laid off where less work is lost. -/
theorem scale_to_target (azure : Azure) (n : Int) (withLayoffs : Bool) (natural : 0 ≤ n)
    (active : ∀ job ∈ jobs, job.status ∈ activeStatuses)
    (counted : azure.listJobs activeStatuses = .ok jobs)
    (listed : azure.listJobs layoffStatusPriority = .ok jobs)
    (submits : ∀ job, azure.createOrUpdate job = none)
    (cancels : ∀ name, azure.beginCancel name = none) :
    let scaling := scaleTo azure n withLayoffs
    scaling.raised = none ∧ (scaling.submitted.length : Int) = max 0 (n - jobs.length) ∧
      (withLayoffs = false → scaling.cancelled = []) ∧
      (withLayoffs = true → (scaling.cancelled.length : Int) = max 0 (jobs.length - n) ∧
        ∃ kept, Spares jobs scaling.cancelled kept ∧
          ((∃ worker ∈ scaling.cancelled, worker.status = .running) →
            ∀ other ∈ kept, other.status = .running)) := by
  obtain ⟨state, read, workers⟩ := currentState_length counted active
  intro scaling
  have scaled : scaling = scaleTo azure n withLayoffs := rfl
  rw [scaleTo, read] at scaled
  dsimp only at scaled
  split at scaled
  · obtain ⟨quiet, hired⟩ := hire_all (n := n - state.numRunning - state.numPending) submits
    rw [scaled]
    dsimp only
    rw [hired]
    refine ⟨quiet, by omega, fun _ => rfl, fun _ => ⟨by simp; omega, jobs, .idle jobs, by simp⟩⟩
  · split at scaled
    · obtain ⟨surplus, layoffs⟩ := ‹_ ∧ _›
      have same : -(n - (state.numRunning : Int) - state.numPending) =
        ((jobs.length - n).toNat : Nat) := by omega
      rw [same] at scaled
      obtain ⟨quiet, laidOff⟩ := layOff_all (n := ((jobs.length - n).toNat : Nat)) listed cancels
      obtain ⟨length, kept, spares⟩ := layoffCandidates_spares jobs
        (show (jobs.length - n).toNat ≤ jobs.length by omega)
      rw [scaled]
      dsimp only
      rw [laidOff]
      refine ⟨quiet, ?_, by simp [layoffs], fun _ => ⟨by omega, kept, spares, ?_⟩⟩
      · rw [List.length_nil]
        omega
      · rintro ⟨worker, member, runs⟩
        refine spares.running (fun job listed => ?_) member runs
        have known := active job listed
        simp only [activeStatuses, layoffStatusPriority, List.mem_cons] at known ⊢
        tauto
    · have enough : withLayoffs = true → 0 ≤ n - (state.numRunning : Int) - state.numPending :=
        fun layoffs => not_lt.mp fun surplus => ‹¬ (_ ∧ _)› ⟨surplus, layoffs⟩
      rw [scaled]
      refine ⟨rfl, ?_, fun _ => rfl, fun layoffs => ⟨?_, jobs, .idle jobs, by simp⟩⟩
      · rw [List.length_nil]
        omega
      · have := enough layoffs
        rw [List.length_nil]
        omega

def threeJobs : List AmlJob := [⟨"running", .running⟩, ⟨"queued", .queued⟩, ⟨"paused", .paused⟩]

def steady (jobs : List AmlJob) : Azure where
  listJobs _ := .ok jobs
  createOrUpdate _ := none
  beginCancel _ := none
  workspaceName := some "workspace"
  getToken _ := none
  post _ _ := .ok ⟨202, ""⟩

theorem scale_to_one : ((scaleTo (steady threeJobs) 1 true).cancelled.length : Int) = 2 :=
  ((@scale_to_target threeJobs (steady threeJobs) 1 true (by decide) (by decide) rfl rfl
    (fun _ => rfl) (fun _ => rfl)).2.2.2 rfl).1

end JobQ.Workforce
