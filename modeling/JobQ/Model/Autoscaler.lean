import JobQ.Library.Machine
import JobQ.Model.MultiRegionWorkforce
import JobQ.Model.Workforce.LayOff

/-!
# The autoscaler and its fleet

`MultiRegionWorkforce.run_forever` in `ai4s/jobq/orchestration/multiregion_workforce.py`, tick after
tick, on the jobs of its regions. A job may change its status at any time, also while a tick reads
the states of the regions or is about to hire. A tick reads one region at a time, as often as it
needs the states, decides as `run` does, and hires, lays off and resumes in one region at a time.
The regions are numbered, and nobody else submits jobs under their experiments.
-/

namespace JobQ.Autoscaler
open Workforce MultiRegionWorkforce

/-- In the middle of a tick: what the fetches of the states have found so far, with the reads of the
one that is going on, or the calls that are still to be made. -/
inductive Phase where
  | sleeping
  | reading (fetched : List (List (Option WorkforceState)))
      (current : List (Option (Option WorkforceState)))
  | writing (calls : List Write)
  | raised

structure State where
  jobs : List (List AmlJob)
  manager : Manager
  phase : Phase := .sleeping

inductive Action where
  | changes (region job : Nat) (status : Status)
  | ticks
  | reads (region : Nat) (answered : Bool)
  | fetched
  | decides (queueSize : Option Nat) (availableToHire : Nat → WorkforceState → Option Int)
      (numPaused : Nat → Option Int)
  /-- What the service answers, and the jobs that it makes of what is submitted. -/
  | executes (azure : Workforce.Azure) (created : List AmlJob)
  | sleeps

inductive Event where
  | hired (region : Nat) (job : AmlJob)
  | cancelled (region : Nat) (job : AmlJob)
deriving DecidableEq

def State.region (s : State) (i : Nat) : List AmlJob := s.jobs.getD i []

def listed (jobs : List AmlJob) (statuses : List Status) : List AmlJob :=
  jobs.filter fun job => job.status ∈ statuses

/-! ## Reading and deciding -/

/-- A tick without lazy states fetches them four times: for the running workers, for the pending
ones, for the target and for the capacity. -/
def fetches (m : Manager) : Nat := if m.useLazyStates then 1 else 4

def unread (m : Manager) : List (Option (Option WorkforceState)) := List.replicate m.workforces none

def read (s : State) (i : Nat) (answered : Bool) : Option WorkforceState :=
  if answered then getCurrentState ((listed (s.region i) activeStatuses).map AmlJob.status) else none

/-- What a tick has found out when it decides. -/
def found (m : Manager) (fetched : List (List (Option WorkforceState))) (queueSize : Option Nat)
    (availableToHire : Nat → WorkforceState → Option Int) (numPaused : Nat → Option Int) :
    MultiRegionWorkforce.Azure where
  queueSize := queueSize
  currentState fetch i := ((fetched[fetch - m.fetches]?).bind fun answers => answers[i]?).join
  availableToHire := availableToHire
  numPaused := numPaused

def stepReads (s : State) (i : Nat) (answered : Bool) : Option State :=
  match s.phase with
  | .reading fetched current =>
    match current[i]? with
    | some none =>
      some { s with phase := .reading fetched (current.set i (some (read s i answered))) }
    | _ => none
  | _ => none

def stepFetched (s : State) : Option State :=
  match s.phase with
  | .reading fetched current =>
    if current.all Option.isSome ∧ fetched.length < fetches s.manager then
      some { s with phase := .reading (fetched ++ [current.reduceOption]) (unread s.manager) }
    else none
  | _ => none

def stepDecides (s : State) (queueSize : Option Nat)
    (availableToHire : Nat → WorkforceState → Option Int) (numPaused : Nat → Option Int) :
    Option State :=
  match s.phase with
  | .reading fetched _ =>
    if fetched.length = fetches s.manager then
      match run (found s.manager fetched queueSize availableToHire numPaused) s.manager false none with
      | .error _ => some { s with phase := .raised }
      | .ok (_, calls, manager) => some { s with manager, phase := .writing calls }
    else none
  | _ => none

/-! ## Writing -/

/-- The service lists the jobs of the region as they are, unless the listing fails. -/
def answering (azure : Workforce.Azure) (jobs : List AmlJob) : Workforce.Azure :=
  { azure with listJobs := fun statuses =>
      match azure.listJobs statuses with
      | .error exc => .error exc
      | .ok _ => .ok (listed jobs statuses) }

/-- The paused worker had run too long, and is cancelled. -/
def expired (azure : Workforce.Azure) (worker : AmlJob) : Bool :=
  match azure.workspaceName, azure.getToken worker.name,
      postResume azure worker.name resumeMaxRetries 0 with
  | some _, none, .ok response =>
    400 ≤ response.statusCode && response.statusCode < 500 &&
      contains "exceeded max job execution time" response.text &&
        azure.beginCancel worker.name = none
  | _, _, _ => false

def cancel (workers : List AmlJob) (job : AmlJob) : AmlJob :=
  if job.name ∈ workers.map AmlJob.name then { job with status := .cancelRequested } else job

/-- `except Exception` around each call; what is not caught ends `run_forever`. -/
def next (raised : Option Raised) (calls : List Write) : Phase :=
  match uncaught raised with
  | none => .writing calls
  | some _ => .raised

def State.cancels (s : State) (i : Nat) (workers : List AmlJob) (phase : Phase) :
    State × List Event :=
  ({ s with jobs := s.jobs.modify i (List.map (cancel workers)), phase },
    workers.map (.cancelled i))

def stepExecutes (s : State) (azure : Workforce.Azure) (created : List AmlJob) :
    Option (State × List Event) :=
  match s.phase with
  | .writing (.hire i n inBatches :: calls) =>
    let sweep := submissions (fun _ => azure.createOrUpdate) i n inBatches
    -- a job may have been created although its request failed
    if created.length ≤ sweep.attempts.length ∧
        (sweep.attempts.filter fun job => azure.createOrUpdate job = none).length ≤ created.length then
      some ({ s with jobs := s.jobs.modify i (· ++ created), phase := next sweep.raised calls },
        created.map (.hired i))
    else none
  | .writing (.layOff i n :: calls) =>
    let azure := answering azure (s.region i)
    let sweep := parallelLayOff azure n
    some (s.cancels i (sweep.attempts.filter fun worker => azure.beginCancel worker.name = none)
      (next sweep.raised calls))
  | .writing (.resume i n :: calls) =>
    let azure := answering azure (s.region i)
    let sweep := parallelResume azure n
    some (s.cancels i (sweep.attempts.filter (expired azure)) (next sweep.raised calls))
  | _ => none

def stepChanges (s : State) (i j : Nat) (status : Status) : Option State :=
  match (s.region i)[j]? with
  | some job =>
    some { s with jobs := s.jobs.modify i fun jobs => jobs.set j { job with status } }
  | none => none

def step (s : State) : Action → Option (State × List Event)
  | .changes i j status => (stepChanges s i j status).map (·, [])
  | .ticks =>
    match s.phase with
    | .sleeping => some ({ s with phase := .reading [] (unread s.manager) }, [])
    | _ => none
  | .reads i answered => (stepReads s i answered).map (·, [])
  | .fetched => (stepFetched s).map (·, [])
  | .decides queueSize availableToHire numPaused =>
    (stepDecides s queueSize availableToHire numPaused).map (·, [])
  | .executes azure created => stepExecutes s azure created
  | .sleeps =>
    match s.phase with
    | .writing [] => some ({ s with phase := .sleeping }, [])
    | _ => none

def machine : Mealy.Machine State Action Event := ⟨step⟩

/-- Before the first tick. -/
def initial (jobs : List (List AmlJob)) (m : Manager) : State where
  jobs := jobs
  manager := { m with workforces := jobs.length }

end JobQ.Autoscaler
