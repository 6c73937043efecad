import JobQ.Proof.MultiRegionWorkforce.MapRegions

/-!
# The last good state of each region

The cache holds what the most recent read of a region that succeeded has returned, after any history
of evaluations, and each region is reported by its own reads alone.
-/

namespace JobQ.MultiRegionWorkforce
open Workforce

variable {workforces : List Nat}

def mostRecent (reads : List (Except Raised WorkforceState)) : Option WorkforceState :=
  reads.reverse.findSome? Except.toOption

/-- What is to be reported of a region, after these reads of it. -/
def report (before : List (Except Raised WorkforceState)) :
    Except Raised WorkforceState → WorkforceState
  | .ok state => state
  | .error _ => (mostRecent before).getD ⟨0, 0⟩

theorem mostRecent_snoc (reads : List (Except Raised WorkforceState))
    (read : Except Raised WorkforceState) :
    mostRecent (reads ++ [read]) = read.toOption.or (mostRecent reads) := by
  rw [mostRecent, List.reverse_concat, List.findSome?_cons]
  cases read <;> rfl

/-! ## One evaluation -/

variable (e : Evaluation workforces.length) (lastGood : LastGoodState)

def fetched (wf : Nat) : Reading WorkforceState where
  value := ((e.getCurrentState wf).toOption.or (lastGood wf)).getD ⟨0, 0⟩
  duration := e.elapsed wf
  ok := (e.getCurrentState wf).toOption.isSome

theorem fetchOne_eq (idx total wf : Nat) : fetchOne e.getCurrentState e.elapsed idx total wf lastGood =
    (.ok (fetched e lastGood wf),
      Function.update lastGood wf ((e.getCurrentState wf).toOption.or (lastGood wf))) := by
  unfold fetchOne fetched
  cases read : e.getCurrentState wf with
  | ok state => rfl
  | error exc =>
      simp only [e.fails wf exc read, if_true, Except.toOption, Option.none_or,
        Function.update_eq_self]
      cases lastGood wf <;> rfl

theorem freshStates_ok (distinct : workforces.Nodup) :
    ∃ records, (freshStates workforces e lastGood).1 = .ok records ∧
      records.results = workforces.map (fun wf => some (fetched e lastGood wf).value) ∧
      ∀ wf ∈ workforces, (freshStates workforces e lastGood).2 wf =
        (e.getCurrentState wf).toOption.or (lastGood wf) := by
  -- The regions that have been read are up to date, and the others are as before.
  let Inv (done : List Nat) (cache : LastGoodState) : Prop := ∀ k wf, workforces[k]? = some wf →
    cache wf = if k ∈ done then (e.getCurrentState wf).toOption.or (lastGood wf) else lastGood wf
  let reading (k : Nat) : Reading WorkforceState := fetched e lastGood (workforces[k]?.getD 0)
  have step : ∀ done k wf cache, workforces[k]? = some wf → k ∉ done → Inv done cache →
      ∃ next, fetchOne e.getCurrentState e.elapsed (k + 1) workforces.length wf cache =
        (.ok (reading k), next) ∧ Inv (k :: done) next := by
    intro done k wf cache stored new inv
    have unread : cache wf = lastGood wf := by rw [inv k wf stored, if_neg new]
    rw [fetchOne_eq]
    refine ⟨_, Prod.ext ?_ rfl, ?_⟩
    · simp [reading, stored, fetched, unread]
    · intro j other found
      by_cases same : j = k
      · obtain rfl : wf = other := by simpa [same, stored] using found
        simp [same, unread]
      · have : other ≠ wf := by
          rintro rfl
          have bound := (List.getElem?_eq_some_iff.mp found).1
          exact same ((List.getElem?_inj bound distinct).mp (found.trans stored.symm))
        simp [this, same, inv j other found]
  obtain ⟨done, final, whole, fetched, inv⟩ :=
    mapRegions_ok step e.parallelRegionReads e.schedule (show Inv [] lastGood by simp [Inv])
  refine ⟨_, congrArg Prod.fst fetched, ?_, fun wf member => ?_⟩
  · apply List.ext_getElem?
    intro k
    by_cases bound : k < workforces.length <;> simp [Records.filled, reading, bound]
  · obtain ⟨k, stored⟩ := List.mem_iff_getElem?.mp member
    have read : k ∈ done :=
      whole.mem_iff.mpr (List.mem_range.mpr (List.getElem?_eq_some_iff.mp stored).1)
    have cached := inv k wf stored
    rw [if_pos read] at cached
    rw [← cached]
    exact congrArg (fun result => result.2 wf) fetched

/-! ## A history of evaluations -/

def reads (history : List (Evaluation workforces.length)) (wf : Nat) :
    List (Except Raised WorkforceState) :=
  history.map fun e => e.getCurrentState wf

theorem reads_snoc (history : List (Evaluation workforces.length)) (wf : Nat) :
    reads (history ++ [e]) wf = reads history wf ++ [e.getCurrentState wf] := by
  simp [reads]

theorem lastGoodAfter_snoc (history : List (Evaluation workforces.length)) :
    lastGoodAfter workforces (history ++ [e]) =
      (freshStates workforces e (lastGoodAfter workforces history)).2 := by
  simp [lastGoodAfter]

theorem lastGoodAfter_eq (distinct : workforces.Nodup)
    (history : List (Evaluation workforces.length)) :
    ∀ wf ∈ workforces, lastGoodAfter workforces history wf = mostRecent (reads history wf) := by
  induction history using List.reverseRecOn with
  | nil => exact fun _ _ => rfl
  | append_singleton history e ih =>
      intro wf member
      obtain ⟨_, -, -, cached⟩ := freshStates_ok e (lastGoodAfter workforces history) distinct
      rw [lastGoodAfter_snoc, cached wf member, ih wf member, reads_snoc, mostRecent_snoc]

/-- After any history, an evaluation reports each region by its own reads: the one just made, or the
most recent one that succeeded, or no workers. -/
theorem states_fall_back (workforces : List Nat) (distinct : workforces.Nodup)
    (history : List (Evaluation workforces.length)) (e : Evaluation workforces.length) :
    ∃ records, (freshStates workforces e (lastGoodAfter workforces history)).1 = .ok records ∧
      records.results =
        workforces.map fun wf => some (report (reads history wf) (e.getCurrentState wf)) := by
  obtain ⟨records, returned, results, -⟩ :=
    freshStates_ok e (lastGoodAfter workforces history) distinct
  refine ⟨records, returned, ?_⟩
  rw [results]
  refine List.map_congr_left fun wf member => ?_
  rw [fetched, lastGoodAfter_eq distinct history wf member]
  cases e.getCurrentState wf <;> rfl

def threeRegions (read : Nat → Except Raised WorkforceState)
    (fails : ∀ wf exc, read wf = .error exc → exc.isException) : Evaluation 3 where
  parallelRegionReads := true
  schedule := ⟨[2, 0, 1], [1, 2, 0], by decide, by decide⟩
  getCurrentState := read
  fails := fails
  elapsed _ := 0

def unavailable (wf : Nat) : Except Raised WorkforceState :=
  if wf = 7 then .ok ⟨1, 2⟩ else .error (.runtimeError "unavailable")

theorem unavailable_fails (wf : Nat) (exc : Raised) (fails : unavailable wf = .error exc) :
    exc.isException := by
  unfold unavailable at fails
  split at fails <;> cases fails
  rfl

theorem states_fall_back_one : ∃ records,
    (freshStates [4, 7, 9] (threeRegions (fun _ => .error .otherException) (by rintro _ _ ⟨⟩; rfl))
      (lastGoodAfter [4, 7, 9] [threeRegions unavailable unavailable_fails])).1 = .ok records ∧
    records.results = [some ⟨0, 0⟩, some ⟨1, 2⟩, some ⟨0, 0⟩] :=
  states_fall_back [4, 7, 9] (by decide) [threeRegions unavailable unavailable_fails]
    (threeRegions (fun _ => .error .otherException) (by rintro _ _ ⟨⟩; rfl))

/-! ## The states of a tick -/

theorem states_fresh {azure : Azure} {m : Manager}
    (fresh : m.useLazyStates = false ∨ m.cachedStates = none) :
    (states azure m).1 = (List.range m.workforces).map (fun i =>
      ((azure.currentState m.fetches i).or (m.lastGoodState i)).getD ⟨0, 0⟩) ∧
    ∀ i, (states azure m).2.lastGoodState i =
      (azure.currentState m.fetches i).or (m.lastGoodState i) := by
  unfold states
  split
  · simp_all
  · refine ⟨List.map_congr_left fun i _ => ?_, fun i => ?_⟩ <;>
      cases read : azure.currentState m.fetches i <;> simp [read]

/-- `states` of the tick is an evaluation, for which the regions go by their indices. -/
theorem states_simulated {azure : Azure} {m : Manager} (distinct : workforces.Nodup)
    (regions : workforces.length = m.workforces)
    (fresh : m.useLazyStates = false ∨ m.cachedStates = none)
    (same : ∀ i wf, workforces[i]? = some wf →
      azure.currentState m.fetches i = (e.getCurrentState wf).toOption ∧
        m.lastGoodState i = lastGood wf) :
    ∃ records, (freshStates workforces e lastGood).1 = .ok records ∧
      records.results = (states azure m).1.map some ∧
      ∀ i wf, workforces[i]? = some wf →
        (states azure m).2.lastGoodState i = (freshStates workforces e lastGood).2 wf := by
  obtain ⟨records, returned, results, cached⟩ := freshStates_ok e lastGood distinct
  obtain ⟨reported, kept⟩ := @states_fresh azure _ fresh
  refine ⟨records, returned, ?_, fun i wf stored => ?_⟩
  · rw [results, reported]
    apply List.ext_getElem?
    intro i
    by_cases bound : i < workforces.length
    · obtain ⟨current, last⟩ := same i _ (List.getElem?_eq_getElem bound)
      simp [bound, regions ▸ bound, current, last, fetched]
    · simp [bound, regions ▸ bound]
  · obtain ⟨current, last⟩ := same i wf stored
    rw [cached wf (List.mem_of_getElem? stored), kept, current, last]

end JobQ.MultiRegionWorkforce
