import JobQ.Library.FairShare
import JobQ.Model.MultiRegionWorkforce

/-!
# Who hires and who lays off how many

Both distributions are shares with a carry, dealt out in ascending order of what is available. They
differ in how the average is rounded.
-/

namespace JobQ.MultiRegionWorkforce
open FairShare

theorem sum_set_zero {distribution : List Int} {i : Nat} (fresh : distribution[i]? = some 0)
    (n : Int) : (distribution.set i n).sum = distribution.sum + n := by
  obtain ⟨bound, zero⟩ := List.getElem?_eq_some_iff.mp fresh
  rw [List.sum_set', dif_pos bound, zero]
  omega

def capacities (entries : List (Int × Nat)) : List Int := entries.map fun e => max 0 e.1

def Fresh (entries : List (Int × Nat)) (distribution : List Int) : Prop :=
  (entries.map Prod.snd).Nodup ∧ ∀ e ∈ entries, distribution[e.2]? = some 0

theorem Fresh.tail {e : Int × Nat} {rest : List (Int × Nat)} {distribution : List Int}
    (fresh : Fresh (e :: rest) distribution) (n : Int) : Fresh rest (distribution.set e.2 n) := by
  obtain ⟨nodup, zero⟩ := fresh
  simp only [List.map_cons, List.nodup_cons] at nodup
  refine ⟨nodup.2, fun other member => ?_⟩
  have distinct : e.2 ≠ other.2 := by
    intro same
    exact nodup.1 (List.mem_map.mpr ⟨other, member, same.symm⟩)
  rw [List.getElem?_set_ne distinct]
  exact zero other (by simp [member])

theorem positive_part (n : Int) : (if n > 0 then n else 0) = max 0 n := by omega

variable {average total : Int}

theorem distribute_sum {entries : List (Int × Nat)} {distribution : List Int} {carry : Int}
    (fresh : Fresh entries distribution) :
    (distribute average total entries distribution carry).sum = distribution.sum +
      (shares average total (capacities entries) carry distribution.sum).sum := by
  induction entries generalizing distribution carry with
  | nil => simp [distribute, shares, capacities]
  | cons e rest ih =>
      have zero := fresh.2 e (by simp)
      rw [distribute, ih (fresh.tail _), sum_set_zero zero, positive_part]
      simp only [capacities, List.map_cons, shares, List.sum_cons]
      omega

theorem distribute_length {entries : List (Int × Nat)} {distribution : List Int} {carry : Int} :
    (distribute average total entries distribution carry).length = distribution.length := by
  induction entries generalizing distribution carry with
  | nil => rfl
  | cons e rest ih => rw [distribute, ih, List.length_set]

theorem distribute_other {entries : List (Int × Nat)} {distribution : List Int} {carry : Int}
    {i : Nat} (other : i ∉ entries.map Prod.snd) :
    (distribute average total entries distribution carry)[i]? = distribution[i]? := by
  induction entries generalizing distribution carry with
  | nil => rfl
  | cons e rest ih =>
      simp only [List.map_cons, List.mem_cons, not_or] at other
      rw [distribute, ih other.2, List.getElem?_set_ne (Ne.symm other.1)]

theorem distribute_bounds {entries : List (Int × Nat)} {distribution : List Int} {carry : Int}
    (fresh : Fresh entries distribution) (fair : 0 ≤ average) (owed : 0 ≤ carry)
    (left : distribution.sum ≤ total) {available : Int} {i : Nat} (member : (available, i) ∈ entries) :
    ∃ n, (distribute average total entries distribution carry)[i]? = some n ∧ 0 ≤ n ∧
      n ≤ max 0 available := by
  induction entries generalizing distribution carry with
  | nil => cases member
  | cons e rest ih =>
      obtain ⟨capacity, index⟩ := e
      have zero := fresh.2 (capacity, index) (by simp)
      obtain ⟨bound, -⟩ := List.getElem?_eq_some_iff.mp zero
      rw [distribute, positive_part]
      rcases List.mem_cons.mp member with here | later
      · cases here
        refine ⟨_, (distribute_other (List.nodup_cons.mp fresh.1).1).trans
          (List.getElem?_set_self bound), ?_, ?_⟩
        · omega
        · omega
      · refine ih (fresh.tail _) ?_ ?_ later
        · omega
        · rw [sum_set_zero zero]
          omega

/-! ## The order of the regions -/

theorem byAvailable_perm (available : List Int) : (byAvailable available).Perm available.zipIdx :=
  List.mergeSort_perm _ _

theorem byAvailable_ascending (available : List Int) :
    (capacities (byAvailable available)).Pairwise (· ≤ ·) := by
  have sorted : (byAvailable available).Pairwise fun a b => decide (a.1 ≤ b.1) = true :=
    List.pairwise_mergeSort (by simp; omega) (by simp; omega) _
  unfold capacities
  rw [List.pairwise_map]
  apply sorted.imp
  intro a b le
  simp only [decide_eq_true_eq] at le
  omega

theorem byAvailable_fresh (available : List Int) :
    Fresh (byAvailable available) (List.replicate available.length 0) := by
  constructor
  · have indices := (byAvailable_perm available).map Prod.snd
    rw [List.zipIdx_map_snd] at indices
    exact indices.nodup_iff.mpr List.nodup_range'
  · intro e member
    have position := List.mem_zipIdx' ((byAvailable_perm available).mem_iff.mp member)
    simp [position.1]

theorem capacities_sum (available : List Int) :
    (capacities (byAvailable available)).sum = (available.map (max 0)).sum := by
  have values : available.zipIdx.map (max 0 ∘ Prod.fst) = available.map (max 0) := by
    rw [← List.map_map, List.zipIdx_map_fst]
  rw [← values]
  exact ((byAvailable_perm available).map _).sum_eq

/-! ## Any average -/

variable {available : List Int}

theorem distribution_bounds (fair : 0 ≤ average) (demand : 0 ≤ total) :
    List.Forall₂ (fun n c => 0 ≤ n ∧ n ≤ max 0 c)
      (distribute average total (byAvailable available) (List.replicate available.length 0) 0)
      available := by
  rw [List.forall₂_iff_get]
  refine ⟨by simp [distribute_length], fun i given bound => ?_⟩
  have member : (available[i], i) ∈ byAvailable available := by
    rw [(byAvailable_perm available).mem_iff]
    exact List.mk_mem_zipIdx_iff_getElem?.mpr (by simp [bound])
  obtain ⟨n, stored, bounds⟩ := distribute_bounds (byAvailable_fresh available) fair (le_refl 0)
    (by simpa using demand) member
  obtain ⟨_, rfl⟩ := List.getElem?_eq_some_iff.mp stored
  exact bounds

theorem distribution_sum (demand : 0 ≤ total) :
    (distribute average total (byAvailable available) (List.replicate available.length 0) 0).sum =
      min (min (available.map (max 0)).sum (available.length * average)) total := by
  have nonnegative : ∀ c ∈ capacities (byAvailable available), 0 ≤ c := by
    intro c member
    obtain ⟨e, -, rfl⟩ := List.mem_map.mp member
    exact le_max_left _ _
  have length : (capacities (byAvailable available)).length = available.length := by
    simp [capacities, byAvailable]
  rw [distribute_sum (byAvailable_fresh available), shares_sum nonnegative
    (byAvailable_ascending available) (le_refl 0) (by simpa using demand), capacities_sum, length]
  simp

/-! ## Hiring -/

section

variable {totalToHire : Int} (positive : 0 < totalToHire)
include positive

theorem hiringDistribution_bounds :
    List.Forall₂ (fun n c => 0 ≤ n ∧ n ≤ max 0 c) (hiringDistribution available totalToHire)
      available := by
  have average : 0 ≤ totalToHire.fdiv available.length := by
    rw [Int.fdiv_eq_ediv_of_nonneg _ (Int.natCast_nonneg _)]
    exact Int.ediv_nonneg positive.le (Int.natCast_nonneg _)
  apply distribution_bounds _ positive.le
  split <;> omega

theorem hiringDistribution_sum (regions : available ≠ []) :
    (hiringDistribution available totalToHire).sum =
      min totalToHire (available.map (max 0)).sum := by
  have some : 0 < (available.length : Int) := by
    exact_mod_cast List.length_pos_iff.mpr regions
  have enough := Int.lt_ediv_add_one_mul_self totalToHire some
  unfold hiringDistribution
  rw [if_neg regions, Int.fdiv_eq_ediv_of_nonneg _ some.le, distribution_sum positive.le,
    add_comm 1, mul_comm]
  omega

end

/-- The average is rounded up, past the demand if need be. -/
theorem hiring_distribution_exact {totalToHire : Int} (regions : available ≠ [])
    (positive : 0 < totalToHire) :
    List.Forall₂ (fun n c => 0 ≤ n ∧ n ≤ max 0 c) (hiringDistribution available totalToHire)
      available ∧
    (hiringDistribution available totalToHire).sum =
      min totalToHire (available.map (max 0)).sum :=
  ⟨hiringDistribution_bounds positive, hiringDistribution_sum positive regions⟩

theorem hiring_distribution_hello :
    (hiringDistribution [3, -1, 1] 5).sum = min 5 ([3, -1, 1].map (max 0)).sum :=
  (hiring_distribution_exact (by simp) (by decide)).2

/-! ## Laying off -/

def LaysOff (pending : List Int) (totalToLayoff : Int) (distribution : List Int) : Prop :=
  List.Forall₂ (fun n p => 0 ≤ n ∧ n ≤ p) distribution pending ∧
    distribution.sum = min totalToLayoff pending.sum

theorem max_zero_eq {pending : List Int} (nonnegative : ∀ p ∈ pending, 0 ≤ p) :
    pending.map (max 0) = pending := by
  conv_rhs => rw [← List.map_id pending]
  apply List.map_congr_left
  intro p member
  exact max_eq_right (nonnegative p member)

theorem mul_ediv_le {total : Int} (demand : 0 ≤ total) (n : Nat) : n * (total / n) ≤ total := by
  rcases Nat.eq_zero_or_pos n with rfl | positive
  · simpa using demand
  · exact Int.mul_ediv_self_le (by omega)

theorem layoffDistribution_bounds {pending : List Int} {totalToLayoff : Int}
    (nonnegative : ∀ p ∈ pending, 0 ≤ p) (demand : 0 ≤ totalToLayoff) :
    List.Forall₂ (fun n p => 0 ≤ n ∧ n ≤ p) (layoffDistribution pending totalToLayoff) pending := by
  have average : 0 ≤ totalToLayoff.fdiv pending.length := by
    rw [Int.fdiv_eq_ediv_of_nonneg _ (Int.natCast_nonneg _)]
    exact Int.ediv_nonneg demand (Int.natCast_nonneg _)
  conv_rhs => rw [← max_zero_eq nonnegative]
  exact List.forall₂_map_right_iff.mpr (distribution_bounds average demand)

theorem layoffDistribution_sum {pending : List Int} {totalToLayoff : Int}
    (nonnegative : ∀ p ∈ pending, 0 ≤ p) (demand : 0 ≤ totalToLayoff) :
    (layoffDistribution pending totalToLayoff).sum =
      min pending.sum (pending.length * (totalToLayoff / pending.length)) := by
  have rounded := mul_ediv_le demand pending.length
  unfold layoffDistribution
  rw [distribution_sum demand, max_zero_eq nonnegative,
    Int.fdiv_eq_ediv_of_nonneg _ (Int.natCast_nonneg _)]
  omega

/-- The average is rounded down, so what is left of the division is asked of nobody. -/
theorem layoff_distribution_exact_iff (azure : Azure) (m : Manager) (totalToLayoff : Int)
    (regions : 0 < m.workforces) (demand : 0 ≤ totalToLayoff)
    (nonnegative : ∀ state ∈ (states azure m).1, 0 ≤ state.numPending) :
    (∃ distribution laidOff next,
      layoffQueuedWorkers azure m totalToLayoff = .ok (distribution, laidOff, next) ∧
      LaysOff ((states azure m).1.map WorkforceState.numPending) totalToLayoff distribution) ↔
    ((states azure m).1.length : Int) ∣ totalToLayoff ∨
      numPending (states azure m).1 ≤
        (states azure m).1.length * (totalToLayoff / (states azure m).1.length) := by
  have called : layoffQueuedWorkers azure m totalToLayoff =
      .ok (layoffDistribution ((states azure m).1.map WorkforceState.numPending) totalToLayoff,
        writes .layOff (layoffDistribution ((states azure m).1.map WorkforceState.numPending)
          totalToLayoff), (states azure m).2) := by
    simp [layoffQueuedWorkers, regions.ne']
  have counts : ∀ p ∈ (states azure m).1.map WorkforceState.numPending, 0 ≤ p := by
    simpa using nonnegative
  have bounds := layoffDistribution_bounds counts demand
  have sum := layoffDistribution_sum counts demand
  have rounded := mul_ediv_le demand (states azure m).1.length
  rw [List.length_map] at sum
  constructor
  · rintro ⟨distribution, laidOff, next, result, -, dealt⟩
    rw [called] at result
    cases result
    rw [sum] at dealt
    by_cases few : numPending (states azure m).1 ≤
        (states azure m).1.length * (totalToLayoff / (states azure m).1.length)
    · exact .inr few
    · left
      refine ⟨totalToLayoff / (states azure m).1.length, ?_⟩
      unfold numPending at few
      omega
  · intro condition
    refine ⟨_, _, _, called, bounds, ?_⟩
    rw [sum]
    rcases condition with divides | few
    · rw [Int.mul_ediv_cancel' divides]
      exact min_comm _ _
    · unfold numPending at few
      omega

def twoRegions : Manager where
  workforces := 2
  numWorkers := 1
  maxNumWorkers := 50000
  useLazyStates := true
  batchedDelayInHiring := true
  cachedStates := some [⟨10, 0⟩, ⟨10, 0⟩]

def silentAzure : Azure where
  queueSize := none
  currentState _ _ := none
  availableToHire _ _ := none
  numPaused _ := none

theorem layoff_distribution_exact_hello :
    ∃ distribution laidOff next,
      layoffQueuedWorkers silentAzure twoRegions 6 = .ok (distribution, laidOff, next) ∧
      LaysOff [10, 10] 6 distribution :=
  (layoff_distribution_exact_iff silentAzure twoRegions 6 (by decide) (by decide)
    (by simp [states, twoRegions])).mpr (.inl (by decide))

/-- Four of five workers are laid off although twenty are pending. -/
theorem layoff_distribution_short : ¬ ∀ azure m totalToLayoff, 0 < m.workforces →
    0 ≤ totalToLayoff → (∀ state ∈ (states azure m).1, 0 ≤ state.numPending) →
    ∃ distribution laidOff next,
      layoffQueuedWorkers azure m totalToLayoff = .ok (distribution, laidOff, next) ∧
      LaysOff ((states azure m).1.map WorkforceState.numPending) totalToLayoff distribution := by
  intro claim
  obtain ⟨distribution, laidOff, next, result, -, dealt⟩ :=
    claim silentAzure twoRegions 5 (by decide) (by decide) (by simp [states, twoRegions])
  cases result
  have short : (layoffDistribution [10, 10] 5).sum = 4 :=
    layoffDistribution_sum (by decide) (by decide)
  have wrong : (4 : Int) = 5 := short.symm.trans dealt
  contradiction

end JobQ.MultiRegionWorkforce
