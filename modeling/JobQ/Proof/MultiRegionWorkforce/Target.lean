import JobQ.Proof.MultiRegionWorkforce.Resume

/-!
# The target size

The tiers and the caps of `determine_number_of_workers` keep the order of what they are applied to.
-/

namespace JobQ.MultiRegionWorkforce

variable {azure azure' : Azure} {m m' : Manager} {queueSize queueSize' : Nat} {running running' : Int}

/-- The size of the fleet by the jobs that each of its workers would have. -/
def tier (perWorker : Int) : Int :=
  if perWorker > 100000 then 5000
  else if perWorker > 50000 then 2000
  else if perWorker > 10000 then 1000
  else if perWorker > 1000 then 400
  else if perWorker > 100 then 50
  else if perWorker > 20 then 15
  else if perWorker > 10 then 5
  else 1

theorem tier_positive (perWorker : Int) : 1 ≤ tier perWorker := by
  unfold tier
  omega

theorem tier_mono {few many : Int} (more : few ≤ many) : tier few ≤ tier many := by
  unfold tier
  omega

theorem scaleTo_eq : scaleTo m queueSize running =
    min (min (min ((1 + running) * 10) (tier ((queueSize : Int).fdiv m.numWorkers))) queueSize)
      m.maxNumWorkers := by
  unfold scaleTo tier
  dsimp only
  split_ifs <;> rfl

theorem perWorker_mono (longer : queueSize ≤ queueSize') (workers : 1 ≤ m'.numWorkers)
    (fewer : m'.numWorkers ≤ m.numWorkers) :
    (queueSize : Int).fdiv m.numWorkers ≤ (queueSize' : Int).fdiv m'.numWorkers := by
  rw [Int.fdiv_eq_ediv_of_nonneg _ (by omega), Int.fdiv_eq_ediv_of_nonneg _ (by omega)]
  have share : 0 ≤ (queueSize : Int) / m.numWorkers :=
    Int.ediv_nonneg (Int.natCast_nonneg _) (by omega)
  refine Int.le_ediv_of_mul_le (by omega) ?_
  calc
    (queueSize : Int) / m.numWorkers * m'.numWorkers ≤ queueSize / m.numWorkers * m.numWorkers :=
      mul_le_mul_of_nonneg_left fewer share
    _ ≤ queueSize := Int.ediv_mul_le _ (by omega)
    _ ≤ queueSize' := by omega

theorem scaleTo_bounds (some : 0 < queueSize) (limit : 1 ≤ m.maxNumWorkers) (natural : 0 ≤ running) :
    1 ≤ scaleTo m queueSize running ∧
      scaleTo m queueSize running ≤ min (min (queueSize : Int) m.maxNumWorkers) (10 * (1 + running)) := by
  have := tier_positive ((queueSize : Int).fdiv m.numWorkers)
  rw [scaleTo_eq]
  omega

theorem scaleTo_mono (longer : queueSize ≤ queueSize') (workers : 1 ≤ m'.numWorkers)
    (fewer : m'.numWorkers ≤ m.numWorkers) (limit : m'.maxNumWorkers = m.maxNumWorkers)
    (more : running ≤ running') : scaleTo m queueSize running ≤ scaleTo m' queueSize' running' := by
  have := tier_mono (perWorker_mono longer workers fewer)
  rw [scaleTo_eq, scaleTo_eq, limit]
  omega

theorem determined_eq (read : azure.queueSize = some queueSize) (workers : 1 ≤ m.numWorkers) :
    ∃ next, determineNumberOfWorkers azure m = .ok (if queueSize = 0 then 0
      else scaleTo m queueSize (numRunning (states azure m).1), next) := by
  have same : (states azure m).2.numWorkers = m.numWorkers ∧
      (states azure m).2.maxNumWorkers = m.maxNumWorkers := by
    unfold states
    split <;> exact ⟨rfl, rfl⟩
  unfold determineNumberOfWorkers
  cases queueSize with
  | zero => exact ⟨m, by simp [read]⟩
  | succ queueSize =>
      refine ⟨(states azure m).2, ?_⟩
      simp only [read]
      rw [if_neg (by omega), if_neg (by omega)]
      simp only [scaleTo, same]

/-- The target lies within its bounds, and it does not decrease when the queue or the fleet grows, or
when a worker has fewer jobs at a time. -/
theorem target_bounded_monotone (azure azure' : Azure) (m m' : Manager)
    (read : azure.queueSize = some queueSize)
    (read' : azure'.queueSize = some queueSize') (longer : queueSize ≤ queueSize')
    (workers : 1 ≤ m'.numWorkers) (fewer : m'.numWorkers ≤ m.numWorkers)
    (limit : 1 ≤ m.maxNumWorkers) (same : m'.maxNumWorkers = m.maxNumWorkers)
    (natural : 0 ≤ numRunning (states azure m).1)
    (more : numRunning (states azure m).1 ≤ numRunning (states azure' m').1) :
    ∃ target next target' next', determineNumberOfWorkers azure m = .ok (target, next) ∧
      determineNumberOfWorkers azure' m' = .ok (target', next') ∧
      (queueSize = 0 → target = 0) ∧
      (queueSize ≠ 0 → 1 ≤ target ∧ target ≤ min (min (queueSize : Int) m.maxNumWorkers)
        (10 * (1 + numRunning (states azure m).1))) ∧
      target ≤ target' := by
  obtain ⟨next, determined⟩ := determined_eq (m := m) read (by omega)
  obtain ⟨next', determined'⟩ := determined_eq read' workers
  refine ⟨_, next, _, next', determined, determined', fun none => if_pos none, fun some => ?_, ?_⟩
  · rw [if_neg some]
    exact scaleTo_bounds (by omega) limit natural
  · by_cases some' : queueSize' = 0
    · rw [if_pos some', if_pos (by omega)]
    · rw [if_neg some']
      split
      · have := (@scaleTo_bounds m' queueSize' _ (by omega) (by omega) (natural.trans more)).1
        omega
      · exact scaleTo_mono longer workers fewer same more

def queueAzure (queueSize : Nat) (running : Int) : Azure where
  queueSize := some queueSize
  currentState _ _ := some ⟨0, running⟩
  availableToHire _ _ := some 0
  numPaused _ := some 0

theorem target_longer_queue : ∃ target next target' next',
    determineNumberOfWorkers (queueAzure 20 0) oneRegion = .ok (target, next) ∧
    determineNumberOfWorkers (queueAzure 2001 4) oneRegion = .ok (target', next') ∧
    (20 = 0 → target = 0) ∧
    (20 ≠ 0 → 1 ≤ target ∧ target ≤ min (min ((20 : Nat) : Int) 50000) (10 * (1 + 0))) ∧
    target ≤ target' :=
  target_bounded_monotone (queueAzure 20 0) (queueAzure 2001 4) oneRegion oneRegion rfl rfl
    (by decide) (by decide) (by decide) (by decide) rfl (by decide) (by decide)

end JobQ.MultiRegionWorkforce
