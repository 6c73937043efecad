import JobQ.Proof.MultiRegionWorkforce.OverHire
import JobQ.Proof.Workforce.Hire

/-!
# What a tick says it has hired

The result of `run` compares the plan with what was wanted. Submissions that fail are not counted.
-/

namespace JobQ.MultiRegionWorkforce
open Workforce

variable {submit : Nat → Option Raised} {createOrUpdate : Nat → Nat → Option Raised}
  {n batchSize : Int} {inBatches : Bool} {calls : List Write}

/-! ## One region -/

/-- The size of the batches. Without batches only the first job begins one: 0 divides nothing else. -/
def size (inBatches : Bool) : Nat := if inBatches then 512 else 0

/-- No batch up to the one of the job ends at its first submission, and what the job raises is
not caught. -/
def Interrupts (submit : Nat → Option Raised) (batchSize job : Nat) : Prop :=
  ¬ Caught submit job ∧ ∀ first < job, batchSize ∣ first → submitJob submit first = none

theorem uncaught_eq_none {raised : Option Raised} :
    uncaught raised = none ↔ ∀ exc, raised = some exc → exc.isException := by
  simp [uncaught, Option.filter_eq_none_iff]

theorem uncaught_or {first later : Option Raised} : uncaught (first.or later) = none ↔
    uncaught first = none ∧ (first = none → uncaught later = none) := by
  cases first <;> simp [uncaught]

theorem runParallel_uncaught {jobs : List Nat} :
    uncaught (runParallel (submitJob submit) jobs).raised = none ↔
      ∀ job ∈ jobs, Caught submit job := by
  constructor
  · intro quiet
    apply Sweep.pooled_raised_eq_none.mp
    cases raised : (runParallel (submitJob submit) jobs).raised with
    | none => exact raised
    | some exc =>
        have escapes := List.find?_some raised
        simp [uncaught_eq_none.mp quiet exc raised] at escapes
  · intro caught
    rw [runParallel, Sweep.pooled_raised_eq_none.mpr caught]
    rfl

theorem parallelHire_uncaught {size built : Nat}
    (begun : ∀ first < built, size ∣ first → submitJob submit first = none)
    (aligned : ∀ job ∈ List.range' built n.toNat, size ∣ job ↔ job = built) :
    uncaught (parallelHire submit built n).raised = none ↔
      ∀ job ∈ List.range' built n.toNat, ¬ Interrupts submit size job := by
  by_cases positive : 0 < n
  · have first : (hire submit built 1).raised = submitJob submit built := by
      rw [hire, show (1 : Int).toNat = 1 from rfl]
      simp [Sweep.sequential, Sweep.andThen_raised]
    rw [parallelHire_cons positive, Sweep.andThen_raised, uncaught_or, first,
      runParallel_uncaught, uncaught_eq_none]
    rw [range'_hired positive] at aligned ⊢
    -- Of the submissions that begin a batch, only the first of this one is not known to succeed.
    have others (job : Nat) (member : job ∈ List.range' (built + 1) (n - 1).toNat) :
        Interrupts submit size job ↔ submitJob submit built = none ∧ ¬ Caught submit job := by
      rw [Interrupts, and_comm, and_congr_left_iff]
      refine fun _ => ⟨fun begins => ?_, fun succeeds first before divides => ?_⟩
      · refine begins built ?_ ((aligned built (by simp)).mpr rfl)
        simp only [List.mem_range'_1] at member
        omega
      · by_cases earlier : first < built
        · exact begun first earlier divides
        · have : first ∈ built :: List.range' (built + 1) (n - 1).toNat := by
            simp only [List.mem_cons, List.mem_range'_1] at member ⊢
            omega
          rwa [(aligned first this).mp divides]
    rw [List.forall_mem_cons, Interrupts, and_iff_left begun, not_not]
    refine and_congr_right fun _ => ⟨fun caught job member => ?_, fun free succeeds job member => ?_⟩
    · rw [others job member]
      exact fun interrupts => interrupts.2 (caught interrupts.1 job member)
    · by_contra escapes
      exact free job member ((others job member).mpr ⟨succeeds, escapes⟩)
  · rw [parallelHire, if_pos (not_lt.mp positive), show n.toNat = 0 by omega]
    simp [uncaught]

theorem hireBatches_uncaught {batches hired : Nat} (remaining : Remaining n batchSize batches hired)
    (begun : ∀ first < hired, batchSize.toNat ∣ first → submitJob submit first = none) :
    uncaught (hireBatches submit n batchSize batches hired).raised = none ↔
      ∀ job ∈ List.range' hired (n - hired).toNat, ¬ Interrupts submit batchSize.toNat job := by
  induction batches generalizing hired with
  | zero =>
      have := remaining.enough
      rw [show (n - hired).toNat = 0 by simp at this; omega]
      simp [hireBatches, uncaught]
  | succ batches ih =>
      have sized := remaining.sized
      rw [hireBatches, Sweep.andThen_raised, uncaught_or, hired_split remaining,
        List.forall_mem_append,
        parallelHire_uncaught begun fun job member => remaining.starts member]
      refine and_congr_right fun free => ?_
      by_cases first : submitJob submit hired = none
      · -- The first job of the batch succeeds and the others are caught, so the next batch begins.
        have upTo : ∀ first < hired + (min batchSize (n - hired)).toNat,
            batchSize.toNat ∣ first → submitJob submit first = none := by
          intro job before divides
          by_cases earlier : job < hired
          · exact begun job earlier divides
          · have := (remaining.starts (List.mem_range'_1.mpr ⟨by omega, before⟩)).mp divides
            rwa [this]
        have quiet : (parallelHire submit hired (min batchSize (n - hired))).raised = none := by
          rw [parallelHire_raised]
          intro job member
          refine ⟨by rintro rfl; exact first, ?_⟩
          by_contra escapes
          refine free job member ⟨escapes, fun other before => upTo other ?_⟩
          rw [List.mem_range'_1] at member
          omega
        rw [← ih remaining.next upTo]
        exact ⟨fun later => later quiet, fun later _ => later⟩
      · have := remaining.missing
        have head : hired ∈ List.range' hired (min batchSize (n - hired)).toNat := by
          rw [List.mem_range'_1]
          omega
        constructor
        · intro _ job member interrupts
          rw [List.mem_range'_1] at member
          exact first (interrupts.2 hired (by omega) ((remaining.starts head).mpr rfl))
        · intro _ quiet
          exact absurd ((parallelHire_raised.mp quiet hired head).1 rfl) first

theorem size_sized : (512 : Int).toNat = size true := rfl

theorem submissions_uncaught (region : Nat) :
    uncaught (submissions createOrUpdate region n inBatches).raised = none ↔
      ∀ job < n.toNat, ¬ Interrupts (createOrUpdate region) (size inBatches) job := by
  have all (p : Nat → Prop) : (∀ job ∈ List.range' 0 n.toNat, p job) ↔ ∀ job < n.toNat, p job := by
    simp [List.mem_range'_1]
  cases inBatches with
  | false =>
      rw [← all]
      refine parallelHire_uncaught (by simp) fun job _ => ?_
      rw [size, if_neg Bool.false_ne_true]
      exact zero_dvd_iff
  | true =>
      rw [submissions, if_pos rfl, parallelHireInBatches]
      split
      · rw [show n.toNat = 0 by omega]
        simp [uncaught]
      · have uncaught_iff := @hireBatches_uncaught (createOrUpdate region) n 512 _ _
          (Remaining.first (by omega) (by decide)) (by simp)
        rw [if_neg (by decide), uncaught_iff, ← all, Nat.cast_zero, sub_zero, size_sized]

theorem submissions_starts (region : Nat) :
    (submissions createOrUpdate region n inBatches).attempts <+: List.range n.toNat := by
  rw [List.range_eq_range']
  cases inBatches with
  | false => exact parallelHire_starts
  | true =>
      rw [submissions, if_pos rfl, parallelHireInBatches]
      split
      · exact List.nil_prefix
      · have begun := @hireBatches_starts (createOrUpdate region) n 512 _ _
          (Remaining.first (by omega) (by decide))
        rw [Nat.cast_zero, sub_zero] at begun
        exact begun

theorem submissions_all (region : Nat)
    (succeed : ∀ job < n.toNat, submitJob (createOrUpdate region) job = none) :
    (submissions createOrUpdate region n inBatches).attempts = List.range n.toNat := by
  have caught : ∀ job < n.toNat, Caught (createOrUpdate region) job := by
    intro job planned exc fails
    rw [succeed job planned] at fails
    cases fails
  cases inBatches with
  | false =>
      rw [List.range_eq_range']
      refine parallelHire_attempts (parallelHire_raised.mpr fun job member => ?_)
      have planned : job < n.toNat := by simpa [List.mem_range'_1] using member
      exact ⟨fun _ => succeed job planned, caught job planned⟩
  | true =>
      have quiet := (@parallelHireInBatches_raised _ n 512 (by decide)).mpr
        fun job planned => ⟨fun _ => succeed job planned, caught job planned⟩
      exact (parallelHireInBatches_attempts (by decide) quiet).1

def succeeds (createOrUpdate : Nat → Nat → Option Raised) (attempt : Nat × Nat) : Bool :=
  submitJob (createOrUpdate attempt.1) attempt.2 = none

theorem submissions_count (region : Nat) (nonnegative : 0 ≤ n) :
    let count := ((submissions createOrUpdate region n inBatches).attempts.map
      (Prod.mk region)).countP (succeeds createOrUpdate)
    (count : Int) ≤ n ∧
      (count = n ↔ ∀ job < n.toNat, submitJob (createOrUpdate region) job = none) := by
  intro count
  let p := succeeds createOrUpdate ∘ Prod.mk region
  have planned : count ≤ (List.range n.toNat).countP p := by
    rw [← List.countP_map]
    exact ((submissions_starts region).sublist.map _).countP_le
  have all : (List.range n.toNat).countP p ≤ n.toNat := by
    simpa using List.countP_le_length (p := p) (l := List.range n.toNat)
  have every : (List.range n.toNat).countP p = n.toNat ↔
      ∀ job < n.toNat, submitJob (createOrUpdate region) job = none := by
    simpa [p, succeeds] using List.countP_eq_length (p := p) (l := List.range n.toNat)
  refine ⟨by omega, fun whole => every.mp (by omega), fun succeed => ?_⟩
  have counted := every.mpr succeed
  rw [← List.countP_map, ← submissions_all region succeed] at counted
  change count = n.toNat at counted
  omega

/-! ## All regions -/

/-- The job is one of those that the calls are to submit in the region. -/
def Planned (calls : List Write) (region job : Nat) (inBatches : Bool) : Prop :=
  ∃ n, .hire region n inBatches ∈ calls ∧ job < n.toNat

theorem planned_cons {call : Write} {region job : Nat} : Planned (call :: calls) region job inBatches ↔
    (∃ n, call = .hire region n inBatches ∧ job < n.toNat) ∨ Planned calls region job inBatches := by
  simp only [Planned, List.mem_cons, or_and_right, exists_or, eq_comm]

theorem hireRegions_raised : (hireRegions createOrUpdate calls).raised = none ↔
    ∀ region job inBatches, Planned calls region job inBatches →
      ¬ Interrupts (createOrUpdate region) (size inBatches) job := by
  induction calls with
  | nil => simp [hireRegions, Planned]
  | cons call rest ih =>
      simp only [planned_cons, or_imp, forall_and, ← ih]
      cases call with
      | hire region n inBatches =>
          rw [hireRegions, Sweep.andThen_raised_eq_none, submissions_uncaught]
          refine and_congr_left fun _ => ⟨?_, ?_⟩
          · rintro free _ job _ ⟨_, ⟨rfl, rfl, rfl⟩, planned⟩
            exact free job planned
          · exact fun free job planned => free region job inBatches ⟨n, rfl, planned⟩
      | layOff region n => simp [hireRegions]
      | resume region n => simp [hireRegions]

theorem hireRegions_count (nonnegative : ∀ region n inBatches, .hire region n inBatches ∈ calls → 0 ≤ n)
    (quiet : (hireRegions createOrUpdate calls).raised = none) :
    let count := (hireRegions createOrUpdate calls).attempts.countP (succeeds createOrUpdate)
    (count : Int) ≤ hired calls ∧
      (count = hired calls ↔ ∀ region job inBatches, Planned calls region job inBatches →
        submitJob (createOrUpdate region) job = none) := by
  induction calls with
  | nil => simp [hireRegions, Planned, hired]
  | cons call rest ih =>
      have others := ih fun region n inBatches member =>
        nonnegative region n inBatches (List.mem_cons_of_mem _ member)
      simp only [planned_cons, or_imp, forall_and]
      cases call with
      | hire region n inBatches =>
          rw [hireRegions, Sweep.andThen_raised_eq_none] at quiet
          obtain ⟨fewer, whole⟩ := @submissions_count createOrUpdate n inBatches region
            (nonnegative region n inBatches (by simp))
          obtain ⟨fewerOthers, wholeOthers⟩ := others quiet.2
          have counts : hired (.hire region n inBatches :: rest) = n + hired rest := by
            simp [hired, Write.hired]
          rw [hireRegions, Sweep.andThen_attempts quiet.1, List.countP_append, counts, ← wholeOthers]
          have here : (∀ region' job inBatches', (∃ n', Write.hire region n inBatches =
                .hire region' n' inBatches' ∧ job < n'.toNat) →
                submitJob (createOrUpdate region') job = none) ↔
              ∀ job < n.toNat, submitJob (createOrUpdate region) job = none := by
            constructor
            · exact fun free job planned => free region job inBatches ⟨n, rfl, planned⟩
            · rintro free _ job _ ⟨_, ⟨rfl, rfl, rfl⟩, planned⟩
              exact free job planned
          rw [here, ← whole]
          push_cast
          omega
      | layOff region n => simpa [hireRegions, hired, Write.hired] using others quiet
      | resume region n => simpa [hireRegions, hired, Write.hired] using others quiet

/-! ## The tick -/

variable {azure : Azure} {m determined : Manager} {target totalToHire : Int}

def capacity (azure : Azure) (m : Manager) : Int :=
  ((availableForHire azure (states azure m).1).map (max 0)).sum

/-- The distribution gives the region more jobs than that number. -/
def InPlan (azure : Azure) (m : Manager) (totalToHire : Int) (region job : Nat) : Prop :=
  ∃ n, (hiringDistribution (availableForHire azure (states azure m).1) totalToHire)[region]? = some n ∧
    job < n.toNat

theorem hire_mem_scaleUp {region : Nat} :
    .hire region n inBatches ∈ (scaleUp azure m totalToHire).2.1 ↔
      inBatches = m.batchedDelayInHiring ∧ 0 < n ∧
        (hiringDistribution (availableForHire azure (states azure m).1) totalToHire)[region]? =
          some n := by
  have batched : (states azure m).2.batchedDelayInHiring = m.batchedDelayInHiring := by
    unfold states
    split <;> rfl
  have resumes : .hire region n inBatches ∉ resumeAllRegions azure (states azure m).2 := by
    intro member
    obtain ⟨i, -, resumes⟩ := List.mem_filterMap.mp member
    split at resumes
    · split at resumes <;> cases resumes
    · cases resumes
  unfold scaleUp
  simp only [List.mem_append, resumes, or_false, writes, hireOn, List.mem_map, List.mem_filter,
    batched, Prod.exists, List.mem_zipIdx_iff_getElem?, decide_eq_true_eq, Write.hire.injEq]
  constructor
  · rintro ⟨planned, i, ⟨stored, positive⟩, rfl, rfl, rfl⟩
    exact ⟨rfl, positive, stored⟩
  · rintro ⟨rfl, positive, stored⟩
    exact ⟨n, region, ⟨stored, positive⟩, rfl, rfl, rfl⟩

theorem planned_scaleUp {region job : Nat} :
    Planned (scaleUp azure m totalToHire).2.1 region job inBatches ↔
      inBatches = m.batchedDelayInHiring ∧ InPlan azure m totalToHire region job := by
  unfold Planned InPlan
  simp only [hire_mem_scaleUp]
  constructor
  · rintro ⟨n, ⟨batched, -, stored⟩, before⟩
    exact ⟨batched, n, stored, before⟩
  · rintro ⟨batched, n, stored, before⟩
    exact ⟨n, ⟨batched, by omega, stored⟩, before⟩

/-- If the tick returns `True`, as many submissions succeeded as were wanted. -/
def TellsTheTruth (azure : Azure) (createOrUpdate : Nat → Nat → Option Raised) (m : Manager)
    (totalToHire : Int) : Prop :=
  (runSubmitting azure createOrUpdate m false none).1 = some true →
    ((runSubmitting azure createOrUpdate m false none).2.countP (succeeds createOrUpdate) : Int) =
      totalToHire

/-- A tick that wants to hire tells the truth exactly when the regions have too few places, or all
submissions that are planned succeed, or one is interrupted. -/
theorem run_truthful_iff (azure : Azure) (createOrUpdate : Nat → Nat → Option Raised) (m : Manager)
    (reads : determineNumberOfWorkers azure (afterPending azure m) = .ok (target, determined))
    (wanted : currentlyRunning azure m + currentlyPending azure m < target) :
    let totalToHire := target - (currentlyRunning azure m + currentlyPending azure m)
    TellsTheTruth azure createOrUpdate m totalToHire ↔
      capacity azure determined < totalToHire ∨
      (∀ region job, InPlan azure determined totalToHire region job →
        submitJob (createOrUpdate region) job = none) ∨
      ∃ region job, InPlan azure determined totalToHire region job ∧
        Interrupts (createOrUpdate region) (size determined.batchedDelayInHiring) job := by
  intro totalToHire
  have positive : 0 < totalToHire := by omega
  have succeeded : (scaleUp azure determined totalToHire).1 = true ↔
      totalToHire ≤ capacity azure determined := by
    simp only [scaleUp, decide_eq_true_eq, planned_sum positive]
    exact min_eq_left_iff
  have hires := @scaleUp_hired determined azure _ positive
  have raised := @hireRegions_raised createOrUpdate (scaleUp azure determined totalToHire).2.1
  have count := @hireRegions_count createOrUpdate (scaleUp azure determined totalToHire).2.1
    fun region n inBatches member => (hire_mem_scaleUp.mp member).2.1.le
  rw [hires] at count
  simp only [planned_scaleUp, and_imp, forall_eq] at raised count
  have up : run azure m false none = .ok (scaleUp azure determined totalToHire) :=
    run_up reads wanted
  have returned : (runSubmitting azure createOrUpdate m false none).1 = some true ↔
      (hireRegions createOrUpdate (scaleUp azure determined totalToHire).2.1).raised = none ∧
        totalToHire ≤ capacity azure determined := by
    rw [runSubmitting, up, ← succeeded]
    dsimp only
    split
    · rw [Option.some_inj]
      exact (and_iff_right ‹_›).symm
    · exact iff_of_false (Option.some_ne_none true).symm fun both => absurd both.1 ‹_›
  have attempts : (runSubmitting azure createOrUpdate m false none).2 =
      (hireRegions createOrUpdate (scaleUp azure determined totalToHire).2.1).attempts := by
    rw [runSubmitting, up]
  rw [TellsTheTruth, returned, attempts]
  constructor
  · intro truthful
    by_cases places : totalToHire ≤ capacity azure determined
    · right
      by_cases quiet : (hireRegions createOrUpdate
          (scaleUp azure determined totalToHire).2.1).raised = none
      · left
        have whole := (count quiet).2.mp
          ((truthful ⟨quiet, places⟩).trans (min_eq_left places).symm)
        exact whole
      · right
        rw [raised] at quiet
        push Not at quiet
        exact quiet
    · exact .inl (not_le.mp places)
  · rintro (few | succeed | ⟨region, job, planned, interrupts⟩) ⟨quiet, places⟩
    · exact absurd places (not_le.mpr few)
    · rw [(count quiet).2.mpr succeed]
      exact min_eq_left places
    · exact absurd interrupts (raised.mp quiet region job planned)

def emptyRegion (queueSize : Nat) : Azure where
  queueSize := some queueSize
  currentState _ _ := some ⟨0, 0⟩
  availableToHire _ _ := some 10
  numPaused _ := some 0

theorem run_truthful_hello : TellsTheTruth (emptyRegion 20) (fun _ _ => none) oneRegion 5 := by
  have reads : determineNumberOfWorkers (emptyRegion 20) (afterPending (emptyRegion 20) oneRegion) =
      .ok (5, _) := rfl
  exact (run_truthful_iff (emptyRegion 20) (fun _ _ => none) oneRegion reads (by decide)).mpr
    (.inr (.inl fun _ _ _ => rfl))

theorem emptyRegion_up : ∃ next,
    run (emptyRegion 20) oneRegion false none = .ok (true, [.hire 0 5 true], next) := by
  have available : availableForHire (emptyRegion 20)
      (states (emptyRegion 20) (afterPending (emptyRegion 20) oneRegion)).1 = [10] := rfl
  have distribution : hiringDistribution [10] 5 = [5] := by
    simp [hiringDistribution, byAvailable, distribute]
  have up : scaleUp (emptyRegion 20) (afterPending (emptyRegion 20) oneRegion) 5 =
      (true, [.hire 0 5 true], afterPending (emptyRegion 20) oneRegion) := by
    unfold scaleUp
    dsimp only
    rw [available, distribution]
    rfl
  have reads : determineNumberOfWorkers (emptyRegion 20) (afterPending (emptyRegion 20) oneRegion) =
      .ok (5, afterPending (emptyRegion 20) oneRegion) := rfl
  exact ⟨_, (run_up reads (by decide)).trans (congrArg _ up)⟩

/-- The first of five submissions fails, no other one is made, and the tick returns `True`. -/
theorem run_untruthful : ¬ ∀ azure createOrUpdate m target determined,
    determineNumberOfWorkers azure (afterPending azure m) = .ok (target, determined) →
    currentlyRunning azure m + currentlyPending azure m < target →
    TellsTheTruth azure createOrUpdate m
      (target - (currentlyRunning azure m + currentlyPending azure m)) := by
  intro claim
  obtain ⟨next, returned⟩ := emptyRegion_up
  have truthful := claim (emptyRegion 20) (fun _ => failing 0) oneRegion 5 _ rfl (by decide)
  rw [TellsTheTruth, runSubmitting, returned] at truthful
  have wrong : (0 : Int) = 5 := truthful rfl
  contradiction

end JobQ.MultiRegionWorkforce
