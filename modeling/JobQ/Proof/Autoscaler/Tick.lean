import JobQ.Proof.Autoscaler.Fleet

/-!
# What a tick decides from what it has read
-/

namespace JobQ.Autoscaler
open Workforce MultiRegionWorkforce

variable {azure : MultiRegionWorkforce.Azure} {m next : Manager} {calls : List Write}
  {success : Bool} {n : Int}

/-! ## The manager -/

/-- The manager is one of the same fleet, whatever it has cached. -/
structure Alike (m next : Manager) : Prop where
  workforces : next.workforces = m.workforces
  maxNumWorkers : next.maxNumWorkers = m.maxNumWorkers
  useLazyStates : next.useLazyStates = m.useLazyStates

theorem Alike.rfl : Alike m m := ⟨Eq.refl _, Eq.refl _, Eq.refl _⟩

theorem Alike.trans {other : Manager} (first : Alike m next) (second : Alike next other) :
    Alike m other :=
  ⟨second.1.trans first.1, second.2.trans first.2, second.3.trans first.3⟩

theorem states_cases (azure : MultiRegionWorkforce.Azure) (m : Manager) :
    (∃ cached, m.useLazyStates = true ∧ m.cachedStates = some cached ∧ states azure m = (cached, m)) ∨
      (m.useLazyStates = true → m.cachedStates = none) ∧ ∃ reading : Nat → Option WorkforceState,
        (∀ i state, azure.currentState m.fetches i = some state → reading i = some state) ∧
          states azure m = ((List.range m.workforces).map fun i => (reading i).getD ⟨0, 0⟩, { m with
            cachedStates := some ((List.range m.workforces).map fun i => (reading i).getD ⟨0, 0⟩)
            lastGoodState := reading
            fetches := m.fetches + 1 }) := by
  unfold states
  split
  · rename_i cached lazy there
    exact .inl ⟨cached, lazy, there, rfl⟩
  · rename_i unknown
    refine .inr ⟨fun lazy => ?_, _, fun i state found => ?_, rfl⟩
    · cases stored : m.cachedStates with
      | none => rfl
      | some cached => exact (unknown cached lazy stored).elim
    · simp only [found]

theorem alike_states (azure : MultiRegionWorkforce.Azure) (m : Manager) :
    Alike m (states azure m).2 := by
  rcases states_cases azure m with ⟨_, _, _, same⟩ | ⟨_, _, _, same⟩ <;> rw [same]
  · exact .rfl
  · exact ⟨rfl, rfl, rfl⟩

theorem alike_pending (azure : MultiRegionWorkforce.Azure) (m : Manager) :
    Alike m (afterPending azure m) := by
  have start : Alike m (tickStart m) := ⟨rfl, rfl, rfl⟩
  exact (start.trans (alike_states azure _)).trans (alike_states azure _)

theorem alike_determined {target : Int}
    (determined : determineNumberOfWorkers azure m = .ok (target, next)) : Alike m next := by
  unfold determineNumberOfWorkers at determined
  split at determined
  · cases determined
  · cases determined
    exact .rfl
  · dsimp only at determined
    split at determined <;> cases determined
    exact alike_states azure m

theorem alike_scaleDown {pending : Int}
    (scaled : scaleDown azure m pending n = .ok (success, calls, next)) : Alike m next := by
  unfold scaleDown at scaled
  split at scaled
  · split at scaled
    · cases scaled
    · rename_i distribution calls rest called
      have laidOff : Alike m rest := by
        unfold layoffQueuedWorkers at called
        split at called <;> cases called
        exact alike_states azure m
      split at scaled
      · cases scaled
        exact laidOff
      · split at scaled <;> cases scaled
        · exact laidOff
        · exact laidOff.trans (alike_states azure _)
  · cases scaled
    exact .rfl

theorem alike_run (ran : run azure m false none = .ok (success, calls, next)) : Alike m next := by
  obtain ⟨target, determined, reads, ticks⟩ := run_cases ran
  have known := (alike_pending azure m).trans (alike_determined reads)
  generalize same : (success, calls, next) = result at ticks
  cases ticks with
  | settled =>
      cases same
      exact known
  | down _ scaled => exact known.trans (alike_scaleDown (same ▸ scaled))
  | up =>
      cases same
      exact known.trans (alike_states azure _)

/-! ## What is decided -/

def places : Write → Nat
  | .hire _ n _ => n.toNat
  | _ => 0

/-- How many workers the calls may bring. -/
def allowance (calls : List Write) : Nat := (calls.map places).sum

theorem allowance_cons (call : Write) (calls : List Write) :
    allowance (call :: calls) = places call + allowance calls := rfl

theorem allowance_hired (positive : ∀ i n inBatches, .hire i n inBatches ∈ calls → 0 ≤ n) :
    (allowance calls : Int) = hired calls := by
  induction calls with
  | nil => rfl
  | cons call rest ih =>
      have others := ih fun i n inBatches member => positive i n inBatches (by simp [member])
      have first : (places call : Int) = call.hired := by
        cases call with
        | hire i n inBatches => exact Int.toNat_of_nonneg (positive i n inBatches (by simp))
        | _ => rfl
      simp only [allowance, hired, List.map_cons, List.sum_cons, Nat.cast_add] at others ⊢
      omega

theorem writes_positive {write : Nat → Int → Write} {distribution : List Int} {call : Write}
    (member : call ∈ writes write distribution) :
    ∃ i n, call = write i n ∧ 0 < n ∧ distribution[i]? = some n := by
  obtain ⟨⟨n, i⟩, entry, rfl⟩ := List.mem_map.mp member
  obtain ⟨stored, positive⟩ := List.mem_filter.mp entry
  exact ⟨i, n, rfl, by simpa using positive, List.mem_zipIdx_iff_getElem?.mp stored⟩

theorem scaleUp_positive {i : Nat} {inBatches : Bool} {k : Int}
    (member : .hire i k inBatches ∈ (scaleUp azure m n).2.1) : 0 ≤ k := by
  rcases List.mem_append.mp member with hires | resumes
  · obtain ⟨_, _, same, positive, -⟩ := writes_positive hires
    cases same
    exact positive.le
  · obtain ⟨_, -, call⟩ := List.mem_filterMap.mp resumes
    split at call
    · split at call <;> cases call
    · cases call

theorem scaleDown_layOffs {pending : Int} (surplus : n < 0)
    (scaled : scaleDown azure m pending n = .ok (success, calls, next)) :
    calls = [] ∨ calls = writes .layOff (layoffDistribution
      ((states azure m).1.map WorkforceState.numPending) (-n)) := by
  unfold scaleDown at scaled
  split at scaled
  · split at scaled
    · cases scaled
    · rename_i distribution laidOff rest called
      have made : laidOff = writes .layOff (layoffDistribution
          ((states azure m).1.map WorkforceState.numPending) (-n)) := by
        unfold layoffQueuedWorkers at called
        split at called <;> cases called
        rfl
      split at scaled
      · cases scaled
        exact .inr made
      · rw [if_pos (by have := layoff_within (by omega) called; omega)] at scaled
        cases scaled
        exact .inr made
  · cases scaled
    exact .inl rfl

theorem target_bounded {target : Int}
    (determined : determineNumberOfWorkers azure m = .ok (target, next)) :
    target ≤ max 0 m.maxNumWorkers := by
  unfold determineNumberOfWorkers at determined
  split at determined
  · cases determined
  · cases determined
    exact le_max_left _ _
  · dsimp only at determined
    split at determined <;> cases determined
    rw [← (alike_states azure m).maxNumWorkers]
    exact (min_le_right _ _).trans (le_max_right _ _)

/-- What a tick hires fills the fleet that it has counted up to the limit at most. -/
theorem run_allowance (ran : run azure m false none = .ok (success, calls, next))
    (natural : 0 ≤ currentlyRunning azure m + currentlyPending azure m) :
    allowance calls = 0 ∨
      currentlyRunning azure m + currentlyPending azure m + allowance calls ≤ m.maxNumWorkers := by
  obtain ⟨target, determined, reads, ticks⟩ := run_cases ran
  have bounded := target_bounded reads
  rw [(alike_pending azure m).maxNumWorkers] at bounded
  generalize same : (success, calls, next) = result at ticks
  cases ticks with
  | settled =>
      cases same
      exact .inl rfl
  | down surplus scaled =>
      subst same
      have none : ∀ i n inBatches, .hire i n inBatches ∉ calls := by
        rcases scaleDown_layOffs surplus scaled with rfl | rfl
        · simp
        · intro i n inBatches member
          obtain ⟨_, _, same, -⟩ := writes_positive member
          cases same
      have free := allowance_hired fun i n inBatches member => absurd member (none i n inBatches)
      rw [scaleDown_hired surplus scaled] at free
      exact .inl (by omega)
  | up wanted =>
      right
      have filled : hired calls = min _ _ := same ▸ scaleUp_hired wanted
      have positive : ∀ i n inBatches, .hire i n inBatches ∈ calls → 0 ≤ n := by
        cases same
        exact fun i n inBatches => scaleUp_positive
      rw [allowance_hired positive, filled]
      omega

end JobQ.Autoscaler
