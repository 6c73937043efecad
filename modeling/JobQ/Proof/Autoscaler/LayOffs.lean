import JobQ.Proof.Autoscaler.Reads

/-!
# What a tick lays off

A tick that has too many workers lays off in distinct regions, and in none of them more than were
found to be pending.
-/

namespace JobQ.Autoscaler
open Workforce MultiRegionWorkforce

variable {azure : MultiRegionWorkforce.Azure} {m base next : Manager} {calls : List Write}
  {P : Nat → WorkforceState → Prop} {k i j : Nat} {success : Bool}

/-! ## The states in the middle of a tick -/

/-- After at most `k` fetches, all of which have found what meets `P`. -/
structure Mid (P : Nat → WorkforceState → Prop) (base : Manager) (k : Nat) (m : Manager) : Prop where
  alike : Alike base m
  later : base.fetches ≤ m.fetches
  few : m.fetches ≤ base.fetches + k
  cached : ∀ states, m.cachedStates = some states → ∀ i state, states[i]? = some state → P i state
  fresh : base.useLazyStates = true → m.cachedStates = none → m.fetches = base.fetches

/-- All that a tick can fetch is known, and meets `P`. -/
def Known (azure : MultiRegionWorkforce.Azure) (base : Manager) (P : Nat → WorkforceState → Prop) : Prop :=
  ∀ k < fetches base, ∀ i < base.workforces,
    ∃ state, azure.currentState (base.fetches + k) i = some state ∧ P i state

theorem mid_start (P : Nat → WorkforceState → Prop) (m : Manager) : Mid P m 0 (tickStart m) where
  alike := ⟨rfl, rfl, rfl⟩
  later := le_rfl
  few := le_rfl
  cached _ same := by cases same
  fresh _ _ := rfl

theorem Mid.more (mid : Mid P base k m) (l : Nat) : Mid P base (k + l) m :=
  ⟨mid.alike, mid.later, mid.few.trans (by omega), mid.cached, mid.fresh⟩

theorem Mid.states (mid : Mid P base k m) (known : Known azure base P) (bound : k < 4) :
    (∀ i state, (states azure m).1[i]? = some state → P i state) ∧
      Mid P base (k + 1) (MultiRegionWorkforce.states azure m).2 := by
  rcases states_cases azure m with ⟨cached, _, there, same⟩ | ⟨none, reading, reads, same⟩
  · rw [same]
    exact ⟨mid.cached _ there, mid.more 1⟩
  · have later := mid.later
    have few := mid.few
    -- with lazy states nothing has been fetched before
    have within : m.fetches - base.fetches < fetches base := by
      unfold fetches
      split
      · rename_i lazy
        have fresh := mid.fresh lazy (none (mid.alike.useLazyStates.trans lazy))
        omega
      · omega
    have holds : ∀ i state,
        ((List.range m.workforces).map fun i => (reading i).getD ⟨0, 0⟩)[i]? = some state →
          P i state := by
      intro i state stored
      rw [List.getElem?_map, Option.map_eq_some_iff] at stored
      obtain ⟨j, ranged, rfl⟩ := stored
      obtain ⟨region, rfl⟩ := List.getElem?_eq_some_iff.mp ranged
      rw [List.length_range] at region
      obtain ⟨state, found, holds⟩ := known _ within i (mid.alike.workforces ▸ region)
      rw [Nat.add_sub_cancel' later] at found
      rw [List.getElem_range, reads i state found]
      exact holds
    rw [same]
    refine ⟨holds, mid.alike.trans ⟨rfl, rfl, rfl⟩, later.trans (Nat.le_succ _),
      Nat.succ_le_succ few, ?_, ?_⟩
    · rintro _ ⟨⟩
      exact holds
    · rintro _ ⟨⟩

theorem Mid.determined {target : Int} (mid : Mid P base k m) (known : Known azure base P)
    (bound : k < 4) (determined : determineNumberOfWorkers azure m = .ok (target, next)) :
    Mid P base (k + 1) next := by
  unfold determineNumberOfWorkers at determined
  split at determined
  · cases determined
  · cases determined
    exact mid.more 1
  · dsimp only at determined
    split at determined <;> cases determined
    exact (mid.states known bound).2

theorem mid_pending (known : Known azure m P) : Mid P m 2 (afterPending azure m) :=
  (((mid_start P m).states known (by omega)).2.states known (by omega)).2

/-! ## The calls -/

/-- A later call that lays off is about another region, and the earlier one lays off as well. -/
def Apart (earlier later : Write) : Prop :=
  ∀ i n, later = .layOff i n → ∃ j k, earlier = .layOff j k ∧ j ≠ i

theorem layOffs_apart (distribution : List Int) : (writes .layOff distribution).Pairwise Apart := by
  have positions : distribution.zipIdx.Pairwise fun a b => a.2 ≠ b.2 := by
    rw [← List.pairwise_map, List.zipIdx_map_snd]
    exact List.nodup_range'
  refine List.pairwise_map.mpr ((positions.filter _).imp ?_)
  rintro ⟨n, i⟩ ⟨k, j⟩ other _ _ ⟨⟩
  exact ⟨i, n, rfl, other⟩

theorem apart_none (none : ∀ i n, .layOff i n ∉ calls) : calls.Pairwise Apart := by
  refine List.pairwise_of_forall_mem_list fun _ _ later member i n same => ?_
  exact absurd (same ▸ member) (none i n)

theorem scaleUp_layOffs (azure : MultiRegionWorkforce.Azure) (m : Manager) (total : Int) (i : Nat)
    (n : Int) : .layOff i n ∉ (scaleUp azure m total).2.1 := by
  intro member
  rcases List.mem_append.mp member with hires | resumes
  · obtain ⟨_, _, same, -⟩ := writes_positive hires
    cases same
  · obtain ⟨_, -, call⟩ := List.mem_filterMap.mp resumes
    split at call
    · split at call <;> cases call
    · cases call

/-- In every region a tick lays off at most once, and at most the workers that were found pending. -/
theorem run_layOffs {pending : Nat → Int} (ran : run azure m false none = .ok (success, calls, next))
    (known : Known azure m fun i state => 0 ≤ state.numPending ∧ state.numPending ≤ pending i) :
    calls.Pairwise Apart ∧ ∀ i n, .layOff i n ∈ calls → n ≤ pending i := by
  obtain ⟨target, determined, reads, ticks⟩ := run_cases ran
  have mid := (mid_pending known).determined known (by omega) reads
  obtain ⟨states, -⟩ := mid.states known (by omega)
  generalize same : (success, calls, next) = result at ticks
  cases ticks with
  | settled =>
      cases same
      exact ⟨.nil, by simp⟩
  | up =>
      cases same
      exact ⟨apart_none (scaleUp_layOffs _ _ _), fun i n member =>
        absurd member (scaleUp_layOffs _ _ _ i n)⟩
  | down surplus scaled =>
      subst same
      rcases scaleDown_layOffs surplus scaled with rfl | rfl
      · exact ⟨.nil, by simp⟩
      · refine ⟨layOffs_apart _, fun i n member => ?_⟩
        obtain ⟨_, _, same, -, stored⟩ := writes_positive member
        cases same
        have natural : ∀ p ∈ (MultiRegionWorkforce.states azure determined).1.map
            WorkforceState.numPending, 0 ≤ p := by
          intro p found
          obtain ⟨state, there, rfl⟩ := List.mem_map.mp found
          obtain ⟨j, found⟩ := List.mem_iff_getElem?.mp there
          exact (states j state found).1
        have bounds := layoffDistribution_bounds natural (neg_nonneg.mpr surplus.le)
        obtain ⟨laid, rfl⟩ := List.getElem?_eq_some_iff.mp stored
        have there := bounds.length_eq ▸ laid
        have least := (List.forall₂_iff_get.mp bounds).2 i laid there
        rw [List.length_map] at there
        exact least.2.trans (by simpa using (states i _ (List.getElem?_eq_getElem there)).2)

end JobQ.Autoscaler
