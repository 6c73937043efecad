import Mathlib.Algebra.Order.Ring.Int
import Mathlib.Tactic.Linarith
import Mathlib.Tactic.Ring
import JobQ.Model.Workforce.Hire

/-!
# Submissions that fail

A pool gets over the submissions that fail in it. The first one of every batch is not made in the
pool.
-/

namespace JobQ.Workforce

variable {createOrUpdate : Nat → Option Raised} {n batchSize : Int} {built : Nat}

/-- What the submission of a job raises, if anything, is caught in a pool. -/
def Caught (createOrUpdate : Nat → Option Raised) (job : Nat) : Prop :=
  ∀ exc, submitJob createOrUpdate job = some exc → exc.isException

/-! ## One batch -/

theorem hire_one_raised :
    (hire createOrUpdate built 1).raised = none ↔ submitJob createOrUpdate built = none := by
  simp [hire, Sweep.sequential_raised_eq_none]

theorem hire_one_attempts : (hire createOrUpdate built 1).attempts = [built] := by
  rw [hire, show (1 : Int).toNat = 1 from rfl, List.range'_one, Sweep.sequential_attempts_cons]
  simp [Sweep.sequential]

theorem range'_hired (positive : 0 < n) (built : Nat) :
    List.range' built n.toNat = built :: List.range' (built + 1) (n - 1).toNat := by
  rw [show n.toNat = (n - 1).toNat + 1 by omega, List.range'_succ]

theorem parallelHire_cons (positive : 0 < n) : parallelHire createOrUpdate built n =
    (hire createOrUpdate built 1).andThen
      (runParallel (submitJob createOrUpdate) (List.range' (built + 1) (n - 1).toNat)) := by
  rw [parallelHire, if_neg (not_le.mpr positive)]
  dsimp only
  split
  · rename_i last
    rw [last]
    rfl
  · rfl

theorem parallelHire_raised : (parallelHire createOrUpdate built n).raised = none ↔
    ∀ job ∈ List.range' built n.toNat,
      (job = built → submitJob createOrUpdate job = none) ∧ Caught createOrUpdate job := by
  by_cases positive : 0 < n
  · rw [parallelHire_cons positive, Sweep.andThen_raised_eq_none, hire_one_raised, runParallel,
      Sweep.pooled_raised_eq_none, range'_hired positive, List.forall_mem_cons]
    constructor
    · rintro ⟨first, others⟩
      refine ⟨⟨fun _ => first, by simp [Caught, first]⟩, fun job member => ⟨?_, others job member⟩⟩
      rintro rfl
      simp at member
    · rintro ⟨⟨first, -⟩, others⟩
      exact ⟨first rfl, fun job member => (others job member).2⟩
  · rw [parallelHire, if_pos (not_lt.mp positive), show n.toNat = 0 by omega]
    simp

theorem parallelHire_attempts (quiet : (parallelHire createOrUpdate built n).raised = none) :
    (parallelHire createOrUpdate built n).attempts = List.range' built n.toNat := by
  by_cases positive : 0 < n
  · rw [parallelHire_cons positive, Sweep.andThen_raised_eq_none] at quiet
    rw [parallelHire_cons positive, Sweep.andThen_attempts quiet.1, hire_one_attempts,
      range'_hired positive]
    rfl
  · rw [parallelHire, if_pos (not_lt.mp positive), show n.toNat = 0 by omega]
    rfl

theorem parallelHire_starts :
    (parallelHire createOrUpdate built n).attempts <+: List.range' built n.toNat := by
  by_cases positive : 0 < n
  · by_cases first : (hire createOrUpdate built 1).raised = none
    · rw [parallelHire_cons positive, Sweep.andThen_attempts first, hire_one_attempts,
        range'_hired positive]
      exact List.prefix_rfl
    · rw [parallelHire_cons positive, Sweep.andThen_of_raised first, hire_one_attempts,
        range'_hired positive]
      exact ⟨_, rfl⟩
  · rw [parallelHire, if_pos (not_lt.mp positive)]
    exact List.nil_prefix

/-! ## The batches -/

/-- Submissions that end neither a batch of that size nor the batches after it. -/
def GetsThrough (createOrUpdate : Nat → Option Raised) (batchSize job : Nat) : Prop :=
  (batchSize ∣ job → submitJob createOrUpdate job = none) ∧ Caught createOrUpdate job

/-- The batches that are left take the workers that are left, and no fewer batches do. -/
structure Remaining (n batchSize : Int) (batches hired : Nat) : Prop where
  sized : 0 < batchSize
  aligned : batches ≠ 0 → batchSize.toNat ∣ hired
  enough : n ≤ hired + batches * batchSize
  needed : hired + batches * batchSize < n + batchSize

/-- Only the last batch may be smaller than the others. -/
theorem Remaining.full {batches hired : Nat} (more : batches ≠ 0)
    (remaining : Remaining n batchSize (batches + 1) hired) :
    min batchSize (n - hired) = batchSize := by
  have needed := remaining.needed
  have := le_mul_of_one_le_left remaining.sized.le (show 1 ≤ (batches : Int) by omega)
  push_cast at needed
  refine min_eq_left ?_
  linarith

theorem Remaining.missing {batches hired : Nat}
    (remaining : Remaining n batchSize (batches + 1) hired) : (hired : Int) < n := by
  have needed := remaining.needed
  have := mul_nonneg (Int.natCast_nonneg batches) remaining.sized.le
  push_cast at needed
  linarith

theorem Remaining.next {batches hired : Nat}
    (remaining : Remaining n batchSize (batches + 1) hired) :
    Remaining n batchSize batches (hired + (min batchSize (n - hired)).toNat) := by
  obtain ⟨sized, aligned, enough, needed⟩ := remaining
  have whole : ((batches + 1 : Nat) : Int) * batchSize = batches * batchSize + batchSize := by
    push_cast
    ring
  by_cases last : batches = 0
  · subst last
    simp only [zero_add, Nat.cast_one, one_mul] at enough needed
    refine ⟨sized, fun more => absurd rfl more, ?_, ?_⟩ <;>
      · rw [Nat.cast_zero, zero_mul]
        omega
  · rw [Remaining.full last ⟨sized, aligned, enough, needed⟩]
    refine ⟨sized, fun _ => (Nat.dvd_add_right (aligned (by simp))).mpr (dvd_refl _), ?_, ?_⟩ <;>
      · rw [Nat.cast_add, Int.toNat_of_nonneg sized.le]
        linarith

theorem Remaining.first (positive : 0 < n) (sized : 0 < batchSize) :
    Remaining n batchSize ((n + batchSize - 1).fdiv batchSize).toNat 0 := by
  rw [Int.fdiv_eq_ediv_of_nonneg _ sized.le]
  have rounded := Int.emod_add_mul_ediv (n + batchSize - 1) batchSize
  have := Int.emod_nonneg (n + batchSize - 1) sized.ne'
  have := Int.emod_lt_of_pos (n + batchSize - 1) sized
  have : 0 ≤ (n + batchSize - 1) / batchSize := Int.ediv_nonneg (by omega) sized.le
  refine ⟨sized, fun _ => dvd_zero _, ?_, ?_⟩ <;>
    · rw [Int.toNat_of_nonneg this, mul_comm, Nat.cast_zero]
      omega

theorem hired_split {batches hired : Nat} (remaining : Remaining n batchSize (batches + 1) hired) :
    List.range' hired (n - hired).toNat =
      List.range' hired (min batchSize (n - hired)).toNat ++
        List.range' (hired + (min batchSize (n - hired)).toNat)
          (n - (hired + (min batchSize (n - hired)).toNat : Nat)).toNat := by
  rw [List.range'_append_1]
  congr 1
  have := remaining.sized
  omega

/-- A batch begins with the only one of its jobs that the size divides. -/
theorem Remaining.starts {batches hired job : Nat}
    (remaining : Remaining n batchSize (batches + 1) hired)
    (member : job ∈ List.range' hired (min batchSize (n - hired)).toNat) :
    batchSize.toNat ∣ job ↔ job = hired := by
  have aligned := remaining.aligned (by simp)
  rw [List.mem_range'_1] at member
  constructor
  · intro divides
    have := Nat.eq_zero_of_dvd_of_lt (Nat.dvd_sub divides aligned) (by omega)
    omega
  · rintro rfl
    exact aligned

theorem hireBatches_raised {batches hired : Nat} (remaining : Remaining n batchSize batches hired) :
    (hireBatches createOrUpdate n batchSize batches hired).raised = none ↔
      ∀ job ∈ List.range' hired (n - hired).toNat,
        GetsThrough createOrUpdate batchSize.toNat job := by
  induction batches generalizing hired with
  | zero =>
      have := remaining.enough
      rw [show (n - hired).toNat = 0 by simp at this; omega]
      simp [hireBatches]
  | succ batches ih =>
      rw [hireBatches, Sweep.andThen_raised_eq_none, ih remaining.next, hired_split remaining,
        List.forall_mem_append, parallelHire_raised]
      refine and_congr_left fun _ => forall₂_congr fun job member => and_congr_left fun _ => ?_
      rw [remaining.starts member]

theorem hireBatches_ne_nil {batches hired : Nat} :
    (hireBatches createOrUpdate n batchSize (batches + 1) hired).attempts ≠ [] := by
  rw [hireBatches, Sweep.andThen]
  split <;> simp

theorem hireBatches_attempts {batches hired : Nat}
    (remaining : Remaining n batchSize batches hired)
    (quiet : (hireBatches createOrUpdate n batchSize batches hired).raised = none) :
    let sweep := hireBatches createOrUpdate n batchSize batches hired
    sweep.attempts.flatten = List.range' hired (n - hired).toNat ∧
      (∀ batch ∈ sweep.attempts, (batch.length : Int) ≤ batchSize) ∧
      ∀ batch ∈ sweep.attempts.dropLast, (batch.length : Int) = batchSize := by
  induction batches generalizing hired with
  | zero =>
      have := remaining.enough
      rw [show (n - hired).toNat = 0 by simp at this; omega]
      simp [hireBatches]
  | succ batches ih =>
      have sized := remaining.sized
      rw [hireBatches, Sweep.andThen_raised_eq_none] at quiet
      obtain ⟨flattened, small, full⟩ := ih remaining.next quiet.2
      dsimp only
      rw [hireBatches, Sweep.andThen_attempts quiet.1]
      simp only [parallelHire_attempts quiet.1, List.singleton_append]
      refine ⟨?_, ?_, ?_⟩
      · rw [List.flatten_cons, flattened, ← hired_split remaining]
      · rw [List.forall_mem_cons, List.length_range']
        exact ⟨by omega, small⟩
      · cases batches with
        | zero => simp [hireBatches]
        | succ batches =>
            rw [List.dropLast_cons_of_ne_nil hireBatches_ne_nil, List.forall_mem_cons,
              List.length_range']
            refine ⟨?_, full⟩
            rw [remaining.full (by simp)]
            omega

theorem hireBatches_starts {batches hired : Nat} (remaining : Remaining n batchSize batches hired) :
    (hireBatches createOrUpdate n batchSize batches hired).attempts.flatten <+:
      List.range' hired (n - hired).toNat := by
  induction batches generalizing hired with
  | zero => exact List.nil_prefix
  | succ batches ih =>
      rw [hireBatches, hired_split remaining]
      have begun := @parallelHire_starts createOrUpdate (min batchSize (n - hired)) hired
      cases ended : (parallelHire createOrUpdate hired (min batchSize (n - hired))).raised with
      | none =>
          rw [Sweep.andThen_none, List.flatten_append, List.flatten_singleton,
            parallelHire_attempts ended, List.prefix_append_right_inj]
          exact ih remaining.next
      | some exc =>
          rw [Sweep.andThen_some, List.flatten_singleton]
          exact begun.trans (List.prefix_append _ _)

/-! ## Both variants -/

def HiresAll (sweep : Sweep Nat Raised) (n : Int) : Prop :=
  sweep.attempts.length = max n 0 ∧ sweep.raised = none

structure HiresInBatches (sweep : Sweep (List Nat) Raised) (n batchSize : Int) : Prop where
  all : (sweep.attempts.flatten.length : Int) = max n 0
  small : ∀ batch ∈ sweep.attempts, (batch.length : Int) ≤ batchSize
  full : ∀ batch ∈ sweep.attempts.dropLast, (batch.length : Int) = batchSize
  returns : sweep.raised = none

theorem parallelHireInBatches_raised (sized : 1 ≤ batchSize) :
    (parallelHireInBatches createOrUpdate n batchSize).raised = none ↔
      ∀ job < n.toNat, GetsThrough createOrUpdate batchSize.toNat job := by
  unfold parallelHireInBatches
  split
  · rw [show n.toNat = 0 by omega]
    simp
  · rw [if_neg (by omega), hireBatches_raised (Remaining.first (by omega) (by omega))]
    simp [List.mem_range'_1]

theorem parallelHireInBatches_attempts (sized : 1 ≤ batchSize)
    (quiet : (parallelHireInBatches createOrUpdate n batchSize).raised = none) :
    (parallelHireInBatches createOrUpdate n batchSize).attempts.flatten = List.range n.toNat ∧
      HiresInBatches (parallelHireInBatches createOrUpdate n batchSize) n batchSize := by
  have returns := quiet
  unfold parallelHireInBatches at quiet returns ⊢
  split
  · rw [show n.toNat = 0 by omega]
    exact ⟨rfl, by simp; omega, by simp, by simp, rfl⟩
  · rw [if_neg ‹_›, if_neg (by omega)] at quiet
    rw [if_neg (by omega)]
    obtain ⟨flattened, small, full⟩ :=
      hireBatches_attempts (Remaining.first (by omega) (by omega)) quiet
    rw [Nat.cast_zero, sub_zero, ← List.range_eq_range'] at flattened
    refine ⟨flattened, ?_, small, full, quiet⟩
    rw [flattened, List.length_range]
    omega

/-- Both variants get over any failures, except of a submission that begins a batch, or through what
is no `Exception`. -/
theorem hires_all_iff (n batchSize : Int) (sized : 1 ≤ batchSize) :
    HiresAll (parallelHire createOrUpdate 0 n) n ∧
        HiresInBatches (parallelHireInBatches createOrUpdate n batchSize) n batchSize ↔
      ∀ job < n.toNat, (batchSize.toNat ∣ job → submitJob createOrUpdate job = none) ∧
        Caught createOrUpdate job := by
  constructor
  · rintro ⟨-, batches⟩
    exact (parallelHireInBatches_raised sized).mp batches.returns
  · intro through
    have quiet : (parallelHire createOrUpdate 0 n).raised = none := by
      rw [parallelHire_raised]
      intro job member
      have known := through job (by simpa [List.mem_range'_1] using member)
      exact ⟨fun first => known.1 (first ▸ dvd_zero _), known.2⟩
    refine ⟨⟨?_, quiet⟩, ?_⟩
    · rw [parallelHire_attempts quiet, List.length_range']
      omega
    · exact (parallelHireInBatches_attempts sized
        ((parallelHireInBatches_raised sized).mpr through)).2

def failing (number : Nat) : Nat → Option Raised :=
  fun job => if job = number then some .otherException else none

theorem submitJob_failing (number job : Nat) :
    submitJob (failing number) job = failing number job := by
  by_cases same : job = number <;> simp [submitJob, failing, same]

theorem hires_all_third : HiresAll (parallelHire (failing 2) 0 4) 4 ∧
    HiresInBatches (parallelHireInBatches (failing 2) 4 512) 4 512 := by
  refine (hires_all_iff 4 512 (by decide)).mpr fun job bound => ⟨?_, ?_⟩
  · intro begins
    rw [Nat.eq_zero_of_dvd_of_lt begins (by omega)]
    rfl
  · intro exc fails
    rw [submitJob_failing, failing] at fails
    split at fails <;> cases fails
    rfl

theorem hire_aborted : ¬ ∀ createOrUpdate n batchSize, 1 ≤ batchSize →
    HiresAll (parallelHire createOrUpdate 0 n) n ∧
      HiresInBatches (parallelHireInBatches createOrUpdate n batchSize) n batchSize := by
  intro claim
  have counted := (claim (failing 0) 2 512 (by decide)).1.1
  revert counted
  decide

end JobQ.Workforce
