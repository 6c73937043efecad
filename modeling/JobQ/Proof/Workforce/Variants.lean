import JobQ.Model.Workforce.LayOff

/-!
# The sequential and the parallel variants

A job that cannot be cancelled or resumed ends the sequential variants. And their slice of the
candidates is not empty for every negative number.
-/

namespace JobQ.Workforce

variable {azure : Azure} {jobs paused items : List AmlJob} {status : List Status}
  {candidates : List AmlJob → List AmlJob} {call : AmlJob → Option Raised} {n : Int}

/-- The jobs that are tried go by their names. -/
def SameJobs (first other : Sweep AmlJob Raised) : Prop :=
  ∀ name, name ∈ first.attempts.map AmlJob.name ↔ name ∈ other.attempts.map AmlJob.name

/-- No other job comes after one that fails. -/
def LastToFail (call : AmlJob → Option Raised) (candidates : List AmlJob) : Prop :=
  ∀ before failed after, candidates = before ++ failed :: after → call failed ≠ none →
    ∀ worker ∈ after, worker.name ∈ (before ++ [failed]).map AmlJob.name

theorem variants_agree_iff (listed : azure.listJobs status = .ok jobs) :
    SameJobs (onCandidates azure status candidates (Sweep.sequential call))
        (onCandidates azure status candidates (runParallel call)) ↔
      LastToFail call (candidates jobs) := by
  unfold LastToFail
  rw [← Sweep.sequential_reaches_iff]
  simp only [SameJobs, onCandidates, listed, runParallel, Sweep.pooled_attempts]
  constructor
  · intro same worker member
    exact (same worker.name).mpr (List.mem_map_of_mem member)
  · intro reaches name
    refine ⟨fun tried => List.map_subset _ Sweep.sequential_subset tried, fun chosen => ?_⟩
    obtain ⟨worker, member, rfl⟩ := List.mem_map.mp chosen
    exact reaches worker member

theorem idle_agrees_iff (listed : azure.listJobs status = .ok jobs) :
    SameJobs (onCandidates azure status candidates (Sweep.sequential call)) {} ↔
      candidates jobs = [] := by
  simp only [SameJobs, onCandidates, listed]
  cases candidates jobs with
  | nil => simp [Sweep.sequential]
  | cons worker rest =>
      refine iff_of_false (fun same => ?_) (List.cons_ne_nil _ _)
      have tried := (same worker.name).mp (by simp [Sweep.sequential_attempts_cons])
      simp at tried

theorem sliceTo_eq_nil (negative : n ≤ 0) :
    sliceTo items n = [] ↔ n < 0 → (items.length : Int) ≤ -n := by
  unfold sliceTo
  split
  · rw [List.take_eq_nil_iff, ← List.length_eq_zero_iff]
    omega
  · rw [show n = 0 by omega]
    simp

theorem layoffCandidates_eq_nil (negative : n ≤ 0) :
    layoffCandidates jobs n = [] ↔ n < 0 → (jobs.length : Int) ≤ -n := by
  unfold layoffCandidates
  rw [if_neg (by omega), sliceTo_eq_nil negative, List.length_mergeSort]

theorem pausedCandidates_eq_nil (negative : n ≤ 0) :
    pausedCandidates jobs n = [] ↔ n < 0 → (jobs.length : Int) ≤ -n := by
  unfold pausedCandidates
  rw [if_neg (by omega), sliceTo_eq_nil negative]

/-- Both pairs agree exactly when a negative number leaves nobody in the slices, and nobody is
chosen after a job that fails. -/
theorem variants_same_iff (azure : Azure) (n : Int)
    (active : azure.listJobs layoffStatusPriority = .ok jobs)
    (listed : azure.listJobs [.paused] = .ok paused) :
    SameJobs (layOff azure n) (parallelLayOff azure n) ∧
        SameJobs (resume azure n) (parallelResume azure n) ↔
      (n < 0 → (jobs.length : Int) ≤ -n ∧ (paused.length : Int) ≤ -n) ∧
      (0 < n → LastToFail (cancelOne azure) (layoffCandidates jobs n) ∧
        LastToFail (resumeOne azure) (pausedCandidates paused n)) := by
  unfold layOff parallelLayOff resume parallelResume
  split
  · rw [idle_agrees_iff active, idle_agrees_iff listed, layoffCandidates_eq_nil ‹_›,
      pausedCandidates_eq_nil ‹_›, ← imp_and]
    exact (and_iff_left fun positive => absurd positive (by omega)).symm
  · rw [variants_agree_iff active, variants_agree_iff listed]
    constructor
    · exact fun last => ⟨fun negative => absurd negative (by omega), fun _ => last⟩
    · exact fun condition => condition.2 (by omega)

/-- Two paused jobs. The first cannot be resumed, as the service is down for it. -/
def twoPaused : Azure where
  listJobs _ := .ok [⟨"first", .paused⟩, ⟨"second", .paused⟩]
  createOrUpdate _ := none
  beginCancel _ := none
  workspaceName := some "workspace"
  getToken _ := none
  post worker _ := .ok ⟨if worker = "first" then 503 else 202, "unavailable"⟩

/-- The service is down for the last job of three only. -/
def threePaused : Azure := { twoPaused with
  listJobs := fun _ => .ok [⟨"third", .paused⟩, ⟨"second", .paused⟩, ⟨"first", .paused⟩] }

theorem lastToFail_snoc {fine : List AmlJob} (last : AmlJob)
    (succeed : ∀ worker ∈ fine, call worker = none) : LastToFail call (fine ++ [last]) := by
  intro before failed after split fails worker member
  rcases List.eq_nil_or_concat after with rfl | ⟨rest, other, rfl⟩
  · cases member
  · have same : fine = before ++ failed :: rest := by
      rw [List.concat_eq_append, ← List.cons_append, ← List.append_assoc] at split
      exact (List.append_inj' split rfl).1
    exact absurd (succeed failed (by simp [same])) fails

theorem variants_same_three : SameJobs (layOff threePaused 3) (parallelLayOff threePaused 3) ∧
    SameJobs (resume threePaused 3) (parallelResume threePaused 3) := by
  refine (variants_same_iff threePaused 3 rfl rfl).mpr
    ⟨fun negative => absurd negative (by decide), fun _ => ⟨?_, ?_⟩⟩
  · have chosen : layoffCandidates
        [⟨"third", .paused⟩, ⟨"second", .paused⟩, ⟨"first", .paused⟩] 3 =
        [⟨"third", .paused⟩, ⟨"second", .paused⟩] ++ [⟨"first", .paused⟩] := by
      have sorted : [⟨"third", .paused⟩, ⟨"second", .paused⟩, ⟨"first", .paused⟩].Pairwise
          fun a b : AmlJob => laidOffFirst a.status b.status := by decide
      simp [layoffCandidates, sliceTo, List.mergeSort_of_pairwise sorted]
    rw [chosen]
    exact lastToFail_snoc _ fun _ _ => rfl
  · show LastToFail _ ([⟨"third", .paused⟩, ⟨"second", .paused⟩] ++ [⟨"first", .paused⟩])
    refine lastToFail_snoc _ fun worker member => ?_
    rcases List.mem_pair.mp member with rfl | rfl <;> rfl

theorem resume_aborted : ¬ ∀ azure n jobs paused,
    azure.listJobs layoffStatusPriority = .ok jobs → azure.listJobs [.paused] = .ok paused →
    SameJobs (layOff azure n) (parallelLayOff azure n) ∧
      SameJobs (resume azure n) (parallelResume azure n) := by
  intro claim
  have same := (claim twoPaused 2 _ _ rfl rfl).2 "second"
  revert same
  decide

end JobQ.Workforce
