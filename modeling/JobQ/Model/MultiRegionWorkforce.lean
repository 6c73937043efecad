import Mathlib.Data.List.Sort
import Mathlib.Algebra.Order.Ring.Int
import JobQ.Model.Workforce.Hire

/-!
# One tick of the autoscaler

`MultiRegionWorkforce` in `ai4s/jobq/orchestration/multiregion_workforce.py`. The answers of Azure
and of the queue are an input. The regions are distinct `Workforce` objects, known by their index,
and every call that changes something there is recorded: an `Exception` of such a call is caught and
logged. Logging, timing and the threads of the reads are left out.
-/

namespace JobQ.MultiRegionWorkforce

structure WorkforceState where
  numPending : Int
  numRunning : Int

/-- `get_current_state`, on the jobs that the service lists. -/
def getCurrentState (jobs : List Workforce.Status) : Option WorkforceState :=
  match Workforce.getDetailedState jobs with
  | .ok detailed => some ⟨detailed.numPending, detailed.numRunning⟩
  | .error _ => none

/-- What the reads return: `none` where they raise. The states are fetched anew several times. -/
structure Azure where
  queueSize : Option Nat
  currentState : Nat → Nat → Option WorkforceState
  availableToHire : Nat → WorkforceState → Option Int
  numPaused : Nat → Option Int

inductive Write where
  | hire (region : Nat) (n : Int) (inBatches : Bool)
  | layOff (region : Nat) (n : Int)
  | resume (region : Nat) (n : Int)

inductive Exc where
  | queueSize
  | zeroDivision

structure Manager where
  workforces : Nat
  numWorkers : Int
  maxNumWorkers : Int
  useLazyStates : Bool
  batchedDelayInHiring : Bool
  cachedStates : Option (List WorkforceState) := none
  lastGoodState : Nat → Option WorkforceState := fun _ => none
  fetches : Nat := 0

variable (azure : Azure)

/-- The property `states`. A failed read falls back to the last good one, or to no workers. -/
def states (m : Manager) : List WorkforceState × Manager :=
  match m.useLazyStates, m.cachedStates with
  | true, some states => (states, m)
  | _, _ =>
    let reading (i : Nat) : Option WorkforceState :=
      match azure.currentState m.fetches i with
      | some state => some state
      | none => m.lastGoodState i
    let states := (List.range m.workforces).map fun i => (reading i).getD ⟨0, 0⟩
    (states, { m with
      cachedStates := some states, lastGoodState := reading, fetches := m.fetches + 1 })

def numRunning (states : List WorkforceState) : Int := (states.map WorkforceState.numRunning).sum
def numPending (states : List WorkforceState) : Int := (states.map WorkforceState.numPending).sum

/-- The thresholds of `determine_number_of_workers`, for a queue that is not empty. -/
def scaleTo (m : Manager) (queueSize : Nat) (running : Int) : Int :=
  let perWorker := (queueSize : Int).fdiv m.numWorkers
  let maxNumberAfterScaling := (1 + running) * 10
  let scale :=
    if perWorker > 100000 then min maxNumberAfterScaling 5000
    else if perWorker > 50000 then min maxNumberAfterScaling 2000
    else if perWorker > 10000 then min maxNumberAfterScaling 1000
    else if perWorker > 1000 then min maxNumberAfterScaling 400
    else if perWorker > 100 then min maxNumberAfterScaling 50
    else if perWorker > 20 then min maxNumberAfterScaling 15
    else if perWorker > 10 then min maxNumberAfterScaling 5
    else min maxNumberAfterScaling 1
  min (min scale queueSize) m.maxNumWorkers

def determineNumberOfWorkers (m : Manager) : Except Exc (Int × Manager) :=
  match azure.queueSize with
  | none => .error .queueSize
  | some 0 => .ok (0, m)
  | some queueSize =>
    let (states, m) := states azure m
    if m.numWorkers = 0 then .error .zeroDivision
    else .ok (scaleTo m queueSize (numRunning states), m)

/-! ## The distributions -/

def distribute (average total : Int) : List (Int × Nat) → List Int → Int → List Int
  | [], distribution, _ => distribution
  | (available, index) :: rest, distribution, carry =>
    let planned := min (min (average + carry) (if available > 0 then available else 0))
      (total - distribution.sum)
    distribute average total rest (distribution.set index planned) (carry + (average - planned))

/-- `sorted(enumerate(available), key=lambda e: e[1])` -/
def byAvailable (available : List Int) : List (Int × Nat) :=
  available.zipIdx.mergeSort fun a b => a.1 ≤ b.1

def hiringDistribution (available : List Int) (totalToHire : Int) : List Int :=
  let avgNumToHire := if available = [] then 0 else 1 + totalToHire.fdiv available.length
  distribute avgNumToHire totalToHire (byAvailable available) (List.replicate available.length 0) 0

def layoffDistribution (available : List Int) (totalToLayoff : Int) : List Int :=
  let avgNumToLayoff := totalToLayoff.fdiv available.length
  distribute avgNumToLayoff totalToLayoff (byAvailable available)
    (List.replicate available.length 0) 0

def writes (write : Nat → Int → Write) (distribution : List Int) : List Write :=
  (distribution.zipIdx.filter fun x => x.1 > 0).map fun x => write x.2 x.1

def layoffQueuedWorkers (m : Manager) (totalToLayoff : Int) :
    Except Exc (List Int × List Write × Manager) :=
  if m.workforces = 0 then .error .zeroDivision
  else
    let (states, m) := states azure m
    let distribution := layoffDistribution (states.map WorkforceState.numPending) totalToLayoff
    .ok (distribution, writes .layOff distribution, m)

/-! ## The tick -/

def hireOn (m : Manager) (region : Nat) (n : Int) : Write :=
  .hire region n m.batchedDelayInHiring

def applyUniformChange (m : Manager) (delta : Int) : List Write :=
  if delta = 0 then []
  else (List.range m.workforces).map fun i =>
    if delta > 0 then hireOn m i delta else .layOff i (-delta)

def resumeAllRegions (m : Manager) : List Write :=
  (List.range m.workforces).filterMap fun i =>
    match azure.numPaused i with
    | some n => if n > 0 then some (.resume i n) else none
    | none => none

def availableForHire (states : List WorkforceState) : List Int :=
  states.zipIdx.map fun x => (azure.availableToHire x.2 x.1).getD 0

def scaleUp (m : Manager) (totalToHire : Int) : Bool × List Write × Manager :=
  let (states, m) := states azure m
  let distribution := hiringDistribution (availableForHire azure states) totalToHire
  (distribution.sum = totalToHire, writes (hireOn m) distribution ++ resumeAllRegions azure m, m)

def scaleDown (m : Manager) (pending totalToHire : Int) :
    Except Exc (Bool × List Write × Manager) :=
  if pending > 0 then
    match layoffQueuedWorkers azure m (-totalToHire) with
    | .error exc => .error exc
    | .ok (distribution, laidOff, m) =>
      if distribution.sum = -totalToHire then .ok (true, laidOff, m)
      else if totalToHire + distribution.sum < 0 then .ok (false, laidOff, m)
      else
        let (hired, resumed, m) := scaleUp azure m (totalToHire + distribution.sum)
        .ok (hired, laidOff ++ resumed, m)
  else .ok (false, [], m)

def scaleToZero (m : Manager) : List Write × Manager :=
  let (states, m) := states azure m
  (writes .layOff (states.map fun s => s.numRunning + s.numPending), m)

def run (m : Manager) (toZero : Bool) (manualHire : Option Int) :
    Except Exc (Bool × List Write × Manager) :=
  let m := { m with cachedStates := none }
  let (states₁, m) := states azure m
  let currentlyRunning := numRunning states₁
  let (states₂, m) := states azure m
  let currentlyPending := numPending states₂
  match determineNumberOfWorkers azure m with
  | .error exc => .error exc
  | .ok (nbScaleTo, m) =>
    if toZero then
      let (laidOff, m) := scaleToZero azure m
      .ok (true, laidOff, m)
    else
      match manualHire with
      | some delta => .ok (true, applyUniformChange m delta, m)
      | none =>
        let totalToHire := nbScaleTo - (currentlyRunning + currentlyPending)
        if totalToHire = 0 then .ok (true, [], m)
        else if totalToHire < 0 then scaleDown azure m currentlyPending totalToHire
        else .ok (scaleUp azure m totalToHire)

/-! ## The submissions of a tick -/

section
open Workforce

variable (createOrUpdate : Nat → Nat → Option Raised)

/-- `except Exception` -/
def uncaught (raised : Option Raised) : Option Raised := raised.filter fun exc => !exc.isException

def submissions (region : Nat) (n : Int) (inBatches : Bool) : Sweep Nat Raised :=
  if inBatches then
    let sweep := parallelHireInBatches (createOrUpdate region) n 512
    ⟨sweep.attempts.flatten, sweep.raised⟩
  else parallelHire (createOrUpdate region) 0 n

/-- The jobs that are submitted go with their region. -/
def hireRegions : List Write → Sweep (Nat × Nat) Raised
  | [] => {}
  | .hire region n inBatches :: rest =>
    let sweep := submissions createOrUpdate region n inBatches
    Sweep.andThen ⟨sweep.attempts.map (Prod.mk region), uncaught sweep.raised⟩ (hireRegions rest)
  | _ :: rest => hireRegions rest

/-- What `run` returns, if it does, and the submissions that it makes. -/
def runSubmitting (m : Manager) (toZero : Bool) (manualHire : Option Int) :
    Option Bool × List (Nat × Nat) :=
  match run azure m toZero manualHire with
  | .error _ => (none, [])
  | .ok (success, calls, _) =>
    let sweep := hireRegions createOrUpdate calls
    (if sweep.raised = none then some success else none, sweep.attempts)

end

end JobQ.MultiRegionWorkforce
