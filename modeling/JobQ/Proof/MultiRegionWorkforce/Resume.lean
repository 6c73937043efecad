import JobQ.Proof.MultiRegionWorkforce.Distribution

/-!
# The resume pass

The pass over the paused workers stands at the end of a tick, behind the early returns. Only a tick
that wants to hire gets there.
-/

namespace JobQ.MultiRegionWorkforce

variable {azure : Azure} {m next : Manager} {calls : List Write} {success : Bool}

theorem states_workforces (azure : Azure) (m : Manager) :
    (states azure m).2.workforces = m.workforces := by
  unfold states
  split <;> rfl

theorem determine_workforces {target : Int}
    (determined : determineNumberOfWorkers azure m = .ok (target, next)) :
    next.workforces = m.workforces := by
  unfold determineNumberOfWorkers at determined
  split at determined
  · cases determined
  · cases determined
    rfl
  · dsimp only at determined
    split at determined <;> cases determined
    exact states_workforces azure m

def tickStart (m : Manager) : Manager := { m with cachedStates := none }
def afterRunning (azure : Azure) (m : Manager) : Manager := (states azure (tickStart m)).2
def afterPending (azure : Azure) (m : Manager) : Manager := (states azure (afterRunning azure m)).2

def currentlyRunning (azure : Azure) (m : Manager) : Int :=
  numRunning (states azure (tickStart m)).1
def currentlyPending (azure : Azure) (m : Manager) : Int :=
  numPending (states azure (afterRunning azure m)).1

/-- The queue calls for more workers than the fleet has. -/
def WantsMore (azure : Azure) (m : Manager) : Prop :=
  ∃ target determined, determineNumberOfWorkers azure (afterPending azure m) =
    .ok (target, determined) ∧ currentlyRunning azure m + currentlyPending azure m < target

def Paused (azure : Azure) (m : Manager) (region : Nat) (n : Int) : Prop :=
  region < m.workforces ∧ azure.numPaused region = some n ∧ 0 < n

def ResumesPaused (azure : Azure) (m : Manager) (calls : List Write) : Prop :=
  ∀ region n, Paused azure m region n → .resume region n ∈ calls

theorem resume_mem {region : Nat} {n : Int} :
    .resume region n ∈ resumeAllRegions azure m ↔ Paused azure m region n := by
  unfold resumeAllRegions Paused
  simp only [List.mem_filterMap, List.mem_range]
  constructor
  · rintro ⟨i, bound, call⟩
    split at call
    · split at call <;> cases call
      exact ⟨bound, ‹_›, ‹_›⟩
    · cases call
  · rintro ⟨bound, read, positive⟩
    exact ⟨region, bound, by simp [read, positive]⟩

theorem layOff_only (distribution : List Int) (region : Nat) (n : Int) :
    .resume region n ∉ writes .layOff distribution := by
  simp [writes]

theorem scaleUp_resumes {totalToHire : Int} :
    ResumesPaused azure m (scaleUp azure m totalToHire).2.1 := by
  intro region n paused
  unfold scaleUp
  apply List.mem_append_right
  rw [resume_mem]
  exact ⟨(states_workforces azure m).symm ▸ paused.1, paused.2⟩

theorem layoff_within {distribution : List Int} {totalToLayoff : Int} (demand : 0 ≤ totalToLayoff)
    (laidOff : layoffQueuedWorkers azure m totalToLayoff = .ok (distribution, calls, next)) :
    distribution.sum ≤ totalToLayoff ∧ ∀ region n, .resume region n ∉ calls := by
  unfold layoffQueuedWorkers at laidOff
  split at laidOff
  · cases laidOff
  · cases laidOff
    refine ⟨?_, layOff_only _⟩
    unfold layoffDistribution
    rw [distribution_sum demand]
    exact min_le_right _ _

theorem scaleDown_silent {pending totalToHire : Int} (surplus : totalToHire < 0)
    (result : scaleDown azure m pending totalToHire = .ok (success, calls, next)) (region : Nat)
    (n : Int) : .resume region n ∉ calls := by
  unfold scaleDown at result
  split at result
  · split at result
    · cases result
    · rename_i distribution laidOff rest called
      obtain ⟨within, silent⟩ := layoff_within (by omega) called
      split at result
      · cases result
        exact silent region n
      · rw [if_pos (by omega)] at result
        cases result
        exact silent region n
  · cases result
    simp

inductive Ticks (azure : Azure) (m determined : Manager) (totalToHire : Int) :
    Bool × List Write × Manager → Prop
  | settled (even : totalToHire = 0) : Ticks azure m determined totalToHire (true, [], determined)
  | down {result : Bool × List Write × Manager} (surplus : totalToHire < 0)
      (scaled : scaleDown azure determined (currentlyPending azure m) totalToHire = .ok result) :
      Ticks azure m determined totalToHire result
  | up (wanted : 0 < totalToHire) :
      Ticks azure m determined totalToHire (scaleUp azure determined totalToHire)

theorem run_cases {result : Bool × List Write × Manager} (returned : run azure m false none = .ok result) :
    ∃ target determined, determineNumberOfWorkers azure (afterPending azure m) =
        .ok (target, determined) ∧
      Ticks azure m determined (target - (currentlyRunning azure m + currentlyPending azure m))
        result := by
  unfold run at returned
  dsimp only at returned
  split at returned
  · cases returned
  · rename_i target determined reads
    refine ⟨target, determined, reads, ?_⟩
    rw [if_neg Bool.false_ne_true] at returned
    split at returned
    · cases returned
      exact .settled ‹_›
    · split at returned
      · exact .down ‹_› returned
      · rename_i unequal positive
        cases returned
        exact .up (lt_of_le_of_ne (not_lt.mp positive) (Ne.symm unequal))

/-- A tick that returns resumes the paused workers exactly when it wants to hire, or nobody is
paused. -/
theorem paused_resumed_iff (returned : run azure m false none = .ok (success, calls, next)) :
    ResumesPaused azure m calls ↔
      WantsMore azure m ∨ ∀ region n, ¬ Paused azure m region n := by
  obtain ⟨target, determined, reads, ticks⟩ := run_cases returned
  have regions : determined.workforces = m.workforces := by
    rw [determine_workforces reads, afterPending, states_workforces, afterRunning,
      states_workforces]
    rfl
  have unwanted (even : target ≤ currentlyRunning azure m + currentlyPending azure m)
      (silent : ∀ region n, .resume region n ∉ calls) :
      ResumesPaused azure m calls ↔ WantsMore azure m ∨ ∀ region n, ¬ Paused azure m region n := by
    constructor
    · intro resumes
      exact .inr fun region n paused => silent region n (resumes region n paused)
    · rintro (⟨other, _, again, wanted⟩ | nobody)
      · rw [reads] at again
        cases again
        omega
      · exact fun region n paused => absurd paused (nobody region n)
  generalize same : (success, calls, next) = result at ticks
  cases ticks with
  | settled even =>
      cases same
      exact unwanted (by omega) (by simp)
  | down surplus scaled =>
      cases same
      exact unwanted (by omega) (scaleDown_silent surplus scaled)
  | up wanted =>
      have called : calls = (scaleUp azure determined
          (target - (currentlyRunning azure m + currentlyPending azure m))).2.1 := by rw [← same]
      refine ⟨fun _ => .inl ⟨target, determined, reads, by omega⟩, fun _ region n paused => ?_⟩
      rw [called]
      exact scaleUp_resumes region n ⟨regions ▸ paused.1, paused.2⟩

def pausedAzure : Azure where
  queueSize := some 1
  currentState _ _ := some ⟨1, 0⟩
  availableToHire _ _ := some 0
  numPaused _ := some 1

def oneRegion : Manager where
  workforces := 1
  numWorkers := 1
  maxNumWorkers := 50000
  useLazyStates := true
  batchedDelayInHiring := true

theorem oneRegion_returns : ∃ next, run pausedAzure oneRegion false none = .ok (true, [], next) :=
  ⟨_, rfl⟩

theorem paused_resumed_hello : ∃ success calls next,
    run { pausedAzure with queueSize := some 20 } oneRegion false none =
      .ok (success, calls, next) ∧
    ResumesPaused { pausedAzure with queueSize := some 20 } oneRegion calls :=
  ⟨_, _, _, rfl, (paused_resumed_iff rfl).mpr (.inl ⟨5, _, rfl, by decide⟩)⟩

/-- The fleet is complete, but its worker is paused. -/
theorem paused_left : ¬ ∀ azure m success calls next,
    run azure m false none = .ok (success, calls, next) → ResumesPaused azure m calls := by
  intro claim
  obtain ⟨next, returned⟩ := oneRegion_returns
  have resumes := claim _ _ _ _ _ returned 0 1 ⟨by decide, rfl, by decide⟩
  cases resumes

end JobQ.MultiRegionWorkforce
