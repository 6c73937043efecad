import JobQ.Library.Pool
import JobQ.Model.MapRegions

/-!
# Reading the regions in a pool

The order of the calls and the order of the completions are not seen in what is recorded.
-/

namespace JobQ.MultiRegionWorkforce
open Workforce

variable {Region Value Shared : Type*} {workforces : List Region}
  {fn : Nat → Nat → Region → Shared → Except Raised (Reading Value) × Shared}

/-! ## The futures -/

theorem futures_getElem? (workforces : List Region) (k : Nat) :
    (futures workforces)[k]? = workforces[k]?.map fun region => ⟨k + 1, region, k⟩ := by
  rw [futures, List.getElem?_map, List.getElem?_zipIdx]
  cases workforces[k]? <;> simp [Nat.add_comm]

def ordered (workforces : List Region) (order : List Nat) : List (Future Region) :=
  order.filterMap fun k => (futures workforces)[k]?

theorem ordered_cons {k : Nat} {region : Region} {rest : List Nat}
    (stored : workforces[k]? = some region) :
    ordered workforces (k :: rest) = ⟨k + 1, region, k⟩ :: ordered workforces rest := by
  simp [ordered, futures_getElem?, stored]

theorem ordered_range (workforces : List Region) :
    ordered workforces (List.range workforces.length) = futures workforces := by
  have length : (futures workforces).length = workforces.length := by simp [futures]
  rw [ordered, ← length]
  exact Pool.filterMap_range (futures workforces)

/-! ## What is recorded -/

namespace Records

def recordAll (reading : Nat → Reading Value) (order : List Nat) (r : Records Value) :
    Records Value :=
  order.foldl (fun r k => r.record k (reading k)) r

/-- Every region has its own reading. -/
def filled (reading : Nat → Reading Value) (n : Nat) : Records Value where
  results := (List.range n).map fun k => some (reading k).value
  durations := (List.range n).map fun k => (reading k).duration
  oks := (List.range n).map fun k => (reading k).ok

theorem recordAll_eq (reading : Nat → Reading Value) (order : List Nat) (r : Records Value) :
    recordAll reading order r =
      ⟨order.foldl (fun l k => l.set k (some (reading k).value)) r.results,
        order.foldl (fun l k => l.set k (reading k).duration) r.durations,
        order.foldl (fun l k => l.set k (reading k).ok) r.oks⟩ := by
  induction order generalizing r with
  | nil => rfl
  | cons k rest ih => exact ih (r.record k (reading k))

theorem recordAll_perm {reading : Nat → Reading Value} {order : List Nat} {n : Nat}
    (whole : order.Perm (List.range n)) : recordAll reading order (initial n) = filled reading n := by
  rw [recordAll_eq]
  simp only [initial, Pool.foldl_set_replicate whole, filled]

end Records

/-! ## Any order of the calls -/

section

variable {Inv : List Nat → Shared → Prop} {reading : Nat → Reading Value} {order done : List Nat}
  {shared : Shared}
  (step : ∀ done k region shared, workforces[k]? = some region → k ∉ done → Inv done shared →
    ∃ next, fn (k + 1) workforces.length region shared = (.ok (reading k), next) ∧
      Inv (k :: done) next)
include step

theorem readSequentially_ok (records : Records Value) (within : ∀ k ∈ order, k < workforces.length)
    (fresh : (order ++ done).Nodup) (inv : Inv done shared) :
    ∃ final, readSequentially fn workforces.length (ordered workforces order) records shared =
        (.ok (records.recordAll reading order), final) ∧
      Inv (order.reverse ++ done) final := by
  induction order generalizing done records shared with
  | nil => exact ⟨shared, rfl, inv⟩
  | cons k rest ih =>
      have stored := List.getElem?_eq_getElem (within k (by simp))
      have new : k ∉ rest ++ done := (List.nodup_cons.mp fresh).1
      obtain ⟨next, called, after⟩ := step done k _ shared stored (by simp at new; tauto) inv
      obtain ⟨final, others, last⟩ := ih (records.record k (reading k))
        (fun j member => within j (by simp [member]))
        (List.perm_middle.symm.nodup fresh) after
      refine ⟨final, ?_, by simpa using last⟩
      rw [ordered_cons stored, readSequentially, called]
      exact others

theorem callAll_ok (within : ∀ k ∈ order, k < workforces.length) (fresh : (order ++ done).Nodup)
    (inv : Inv done shared) :
    ∃ final, callAll fn workforces.length (ordered workforces order) shared =
        (order.map fun k => (k + 1, .ok (reading k)), final) ∧
      Inv (order.reverse ++ done) final := by
  induction order generalizing done shared with
  | nil => exact ⟨shared, rfl, inv⟩
  | cons k rest ih =>
      have stored := List.getElem?_eq_getElem (within k (by simp))
      have new : k ∉ rest ++ done := (List.nodup_cons.mp fresh).1
      obtain ⟨next, called, after⟩ := step done k _ shared stored (by simp at new; tauto) inv
      obtain ⟨final, others, last⟩ := ih (fun j member => within j (by simp [member]))
        (List.perm_middle.symm.nodup fresh) after
      refine ⟨final, ?_, by simpa using last⟩
      rw [ordered_cons stored, callAll, called]
      simp only [others, List.map_cons]

omit step in
theorem lookup_outcomes {k : Nat} (made : k ∈ order) :
    (order.map fun k => (k + 1, (.ok (reading k) : Except Raised (Reading Value)))).lookup (k + 1) =
      some (.ok (reading k)) := by
  induction order with
  | nil => simp at made
  | cons j rest ih =>
      by_cases same : k = j
      · simp [same]
      · have made : k ∈ rest := by simpa [same] using made
        have other : (k + 1 == j + 1) = false := by simpa using same
        rw [List.map_cons, List.lookup_cons, other]
        exact ih made

omit step in
theorem collect_ok {outcomes : List (Nat × Except Raised (Reading Value))} (records : Records Value)
    (within : ∀ k ∈ order, k < workforces.length)
    (returned : ∀ k ∈ order, outcomes.lookup (k + 1) = some (.ok (reading k))) :
    collect outcomes (ordered workforces order) records = .ok (records.recordAll reading order) := by
  induction order generalizing records with
  | nil => rfl
  | cons k rest ih =>
      have stored := List.getElem?_eq_getElem (within k (by simp))
      rw [ordered_cons stored, collect]
      simp only [returned k (by simp)]
      exact ih (records.record k (reading k)) (fun j member => within j (by simp [member]))
        fun j member => returned j (by simp [member])

theorem mapRegions_ok (parallelRegionReads : Bool) (schedule : Schedule workforces.length)
    (inv : Inv [] shared) :
    ∃ done final, done.Perm (List.range workforces.length) ∧
      mapRegions fn parallelRegionReads workforces schedule shared =
        (.ok (.filled reading workforces.length), final) ∧ Inv done final := by
  unfold mapRegions
  dsimp only
  split
  · rename_i none
    rw [none]
    exact ⟨[], shared, .refl _, rfl, inv⟩
  have within {order : List Nat} (whole : order.Perm (List.range workforces.length)) :
      ∀ k ∈ order, k < workforces.length := fun k member => List.mem_range.mp (whole.subset member)
  have fresh {order : List Nat} (whole : order.Perm (List.range workforces.length)) :
      (order ++ []).Nodup := by
    rw [List.append_nil]
    exact whole.symm.nodup List.nodup_range
  by_cases pooled : (if parallelRegionReads then regionParallelism workforces.length else 1) > 1
  · rw [if_pos pooled]
    obtain ⟨calls, completions, whole, completed⟩ := schedule
    obtain ⟨final, called, last⟩ := callAll_ok step (within whole) (fresh whole) inv
    refine ⟨calls.reverse ++ [], final, ?_, ?_, last⟩
    · rw [List.append_nil]
      exact (List.reverse_perm _).trans whole
    · have collected := collect_ok (.initial workforces.length) (within completed) fun k member =>
        @lookup_outcomes _ reading _ _ (whole.mem_iff.mpr (completed.subset member))
      rw [Records.recordAll_perm completed] at collected
      unfold readPooled
      simp only [ordered] at called collected
      simp only [called, collected]
  · rw [if_neg pooled]
    obtain ⟨final, recorded, last⟩ := readSequentially_ok step (.initial workforces.length)
      (within (.refl _)) (fresh (.refl _)) inv
    refine ⟨_, final, ?_, ?_, last⟩
    · rw [List.append_nil]
      exact List.reverse_perm _
    · rw [ordered_range, Records.recordAll_perm (.refl _)] at recorded
      exact recorded

end

/-! ## A function of the region -/

def logged (f : Nat → Nat → Region → Reading Value) (idx total : Nat) (region : Region)
    (calls : List (Nat × Nat × Region)) :
    Except Raised (Reading Value) × List (Nat × Nat × Region) :=
  (.ok (f idx total region), calls ++ [(idx, total, region)])

def arguments (workforces : List Region) : List (Nat × Nat × Region) :=
  (futures workforces).map fun future => (future.idx, workforces.length, future.region)

theorem futures_map {α : Type*} (g : Future Region → α) (h : Nat → α)
    (same : ∀ k region, workforces[k]? = some region → h k = g ⟨k + 1, region, k⟩) :
    (List.range workforces.length).map h = (futures workforces).map g := by
  apply List.ext_getElem?
  intro k
  rw [List.getElem?_map, List.getElem?_map, futures_getElem?]
  by_cases bound : k < workforces.length
  · have stored := List.getElem?_eq_getElem bound
    simp [bound, same k _ stored]
  · simp [bound]

/-- Every order of the calls and of their completions gives the records of the sequential loop, with
one call for each region. -/
theorem parallel_reads_same (f : Nat → Nat → Region → Reading Value) (workforces : List Region)
    (schedule other : Schedule workforces.length) :
    let parallel := mapRegions (logged f) true workforces schedule []
    let sequential := mapRegions (logged f) false workforces other []
    ∃ records, parallel.1 = .ok records ∧ sequential.1 = .ok records ∧
      records.results = (arguments workforces).map (fun x => some (f x.1 x.2.1 x.2.2).value) ∧
      records.failures = (arguments workforces).countP (fun x => !(f x.1 x.2.1 x.2.2).ok) ∧
      parallel.2.Perm (arguments workforces) ∧ sequential.2.Perm (arguments workforces) := by
  cases workforces with
  | nil => exact ⟨.initial 0, rfl, rfl, rfl, rfl, .refl _, .refl _⟩
  | cons first rest =>
      generalize nonempty : first :: rest = workforces at *
      let region (k : Nat) : Region := workforces[k]?.getD first
      let call (k : Nat) : Nat × Nat × Region := (k + 1, workforces.length, region k)
      let reading (k : Nat) : Reading Value := f (k + 1) workforces.length (region k)
      have known : ∀ k stored, workforces[k]? = some stored → region k = stored := by
        intro k stored found
        simp [region, found]
      have step : ∀ done k stored calls, workforces[k]? = some stored → k ∉ done →
          calls = done.reverse.map call → ∃ next, logged f (k + 1) workforces.length stored calls =
            (.ok (reading k), next) ∧ next = (k :: done).reverse.map call := by
        rintro done k stored calls found - rfl
        refine ⟨done.reverse.map call ++ [(k + 1, workforces.length, stored)], ?_, ?_⟩
        · simp [logged, reading, known k stored found]
        · simp [call, known k stored found]
      have none : [] = ([] : List Nat).reverse.map call := rfl
      obtain ⟨_, _, pooledWhole, parallel, rfl⟩ := mapRegions_ok step true schedule none
      obtain ⟨_, _, whole, sequential, rfl⟩ := mapRegions_ok step false other none
      have all {done : List Nat} (whole : done.Perm (List.range workforces.length)) :
          (done.reverse.map call).Perm (arguments workforces) := by
        unfold arguments
        rw [← futures_map _ call fun k stored found => by simp [call, known k stored found]]
        exact ((List.reverse_perm _).trans whole).map call
      refine ⟨.filled reading workforces.length, by rw [parallel], by rw [sequential], ?_, ?_, ?_, ?_⟩
      · rw [arguments, List.map_map]
        exact futures_map _ _ fun k stored found => by simp [reading, known k stored found]
      · have oks := @futures_map _ workforces _ (fun future =>
          (f future.idx workforces.length future.region).ok) (fun k => (reading k).ok)
          fun k stored found => by simp [reading, known k stored found]
        rw [Records.failures, Records.filled, oks, arguments, List.countP_map, List.countP_map]
        rfl
      · rw [parallel]
        exact all pooledWhole
      · rw [sequential]
        exact all whole

end JobQ.MultiRegionWorkforce
