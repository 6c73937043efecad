import Mathlib.Data.List.Perm.Basic
import JobQ.Model.MultiRegionWorkforce

/-!
# Reading the regions

`_map_regions` and `states` in `ai4s/jobq/orchestration/multiregion_workforce.py`, with the threads
of the pool. A call of the function reads or writes what the calls share once, so the calls take
place one at a time, in an order of their own; the futures complete in any other order. The progress
lines are left out.
-/

namespace JobQ.MultiRegionWorkforce
open Workforce

variable {Region Value Shared : Type*}

def maxRegionParallelism : Nat := 32

def regionParallelism (n : Nat) : Nat := if n ≤ 5 then 1 else min (n / 5 + 1) maxRegionParallelism

structure Reading (Value : Type*) where
  value : Value
  duration : Int
  ok : Bool

structure Records (Value : Type*) where
  results : List (Option Value)
  durations : List Int
  oks : List Bool
deriving DecidableEq

namespace Records

def initial (n : Nat) : Records Value :=
  ⟨List.replicate n none, List.replicate n 0, List.replicate n false⟩

def record (r : Records Value) (i : Nat) (reading : Reading Value) : Records Value where
  results := r.results.set i (some reading.value)
  durations := r.durations.set i reading.duration
  oks := r.oks.set i reading.ok

def failures (r : Records Value) : Nat := r.oks.countP fun ok => !ok

end Records

/-- The orders in which the calls are made and in which their futures complete. -/
structure Schedule (n : Nat) where
  calls : List Nat
  completions : List Nat
  calls_perm : calls.Perm (List.range n)
  completions_perm : completions.Perm (List.range n)

/-- A future is known by the index in its call. Its place is the one in `future_to_i`. -/
structure Future (Region : Type*) where
  idx : Nat
  region : Region
  i : Nat

def futures (workforces : List Region) : List (Future Region) :=
  (workforces.zipIdx 1).map fun x => ⟨x.2, x.1, x.2 - 1⟩

variable (fn : Nat → Nat → Region → Shared → Except Raised (Reading Value) × Shared)

def readSequentially (n : Nat) :
    List (Future Region) → Records Value → Shared → Except Raised (Records Value) × Shared
  | [], records, shared => (.ok records, shared)
  | future :: rest, records, shared =>
    match fn future.idx n future.region shared with
    | (.error exc, shared) => (.error exc, shared)
    | (.ok reading, shared) => readSequentially n rest (records.record future.i reading) shared

def callAll (n : Nat) : List (Future Region) → Shared →
    List (Nat × Except Raised (Reading Value)) × Shared
  | [], shared => ([], shared)
  | future :: rest, shared =>
    let (outcome, shared) := fn future.idx n future.region shared
    let (outcomes, shared) := callAll n rest shared
    ((future.idx, outcome) :: outcomes, shared)

def collect (outcomes : List (Nat × Except Raised (Reading Value))) :
    List (Future Region) → Records Value → Except Raised (Records Value)
  | [], records => .ok records
  | future :: rest, records =>
    match outcomes.lookup future.idx with
    | some (.ok reading) => collect outcomes rest (records.record future.i reading)
    | some (.error exc) => .error exc
    | none => collect outcomes rest records

def readPooled (workforces : List Region) (schedule : Schedule workforces.length)
    (shared : Shared) : Except Raised (Records Value) × Shared :=
  let submitted := futures workforces
  let (outcomes, shared) := callAll fn workforces.length
    (schedule.calls.filterMap fun k => submitted[k]?) shared
  (collect outcomes (schedule.completions.filterMap fun k => submitted[k]?)
    (.initial workforces.length), shared)

def mapRegions (parallelRegionReads : Bool) (workforces : List Region)
    (schedule : Schedule workforces.length) (shared : Shared) :
    Except Raised (Records Value) × Shared :=
  let n := workforces.length
  if n = 0 then (.ok (.initial 0), shared)
  else
    let threads := if parallelRegionReads then regionParallelism n else 1
    if threads > 1 then readPooled fn workforces schedule shared
    else readSequentially fn n (futures workforces) (.initial n) shared

/-! ## The states -/

abbrev LastGoodState := Nat → Option WorkforceState

/-- One evaluation of `states` that is not answered from the last one. A region fails with an
`Exception`. -/
structure Evaluation (n : Nat) where
  parallelRegionReads : Bool
  schedule : Schedule n
  getCurrentState : Nat → Except Raised WorkforceState
  fails : ∀ wf exc, getCurrentState wf = .error exc → exc.isException
  elapsed : Nat → Int

def fetchOne (read : Nat → Except Raised WorkforceState) (elapsed : Nat → Int) (_idx _total wf : Nat)
    (lastGood : LastGoodState) : Except Raised (Reading WorkforceState) × LastGoodState :=
  match read wf with
  | .error exc =>
    if exc.isException then
      match lastGood wf with
      | some cached => (.ok ⟨cached, elapsed wf, false⟩, lastGood)
      | none => (.ok ⟨⟨0, 0⟩, elapsed wf, false⟩, lastGood)
    else (.error exc, lastGood)
  | .ok state => (.ok ⟨state, elapsed wf, true⟩, Function.update lastGood wf (some state))

def freshStates (workforces : List Nat) (e : Evaluation workforces.length)
    (lastGood : LastGoodState) : Except Raised (Records WorkforceState) × LastGoodState :=
  mapRegions (fetchOne e.getCurrentState e.elapsed) e.parallelRegionReads workforces e.schedule
    lastGood

def lastGoodAfter (workforces : List Nat) (history : List (Evaluation workforces.length)) :
    LastGoodState :=
  history.foldl (fun lastGood e => (freshStates workforces e lastGood).2) fun _ => none

end JobQ.MultiRegionWorkforce
