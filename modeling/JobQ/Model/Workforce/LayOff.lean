import JobQ.Model.Workforce.Hire

/-!
# Laying off, resuming and scaling in one region

`scale_to`, `lay_off`, `resume` and their parallel variants in
`ai4s/jobq/orchestration/workforce.py`. What Azure answers is an input. A job is known there by its
name, and the address of a request by the job that it is about. Retried requests are numbered, and
the waits between them are left out, as are logging and progress bars.
-/

namespace JobQ.Workforce

structure AmlJob where
  name : String
  status : Status
deriving DecidableEq

structure Response where
  statusCode : Nat
  text : String

structure Azure where
  listJobs : List Status → Except Raised (List AmlJob)
  createOrUpdate : Nat → Option Raised
  beginCancel : String → Option Raised
  workspaceName : Option String
  getToken : String → Option Raised
  post : String → Nat → Except Raised Response

/-- `items[:n]`. A negative index counts from the end. -/
def sliceTo {Item : Type*} (items : List Item) (n : Int) : List Item :=
  if n < 0 then items.take (items.length + n).toNat else items.take n.toNat

def layoffStatusPriority : List Status :=
  [.paused, .queued, .waiting, .preparing, .starting, .running]

/-- A tuple, compared lexicographically. -/
def layoffKey (status : Status) : List Bool := layoffStatusPriority.map fun s => status == s

/-- Not less by its key. In reverse the sort is stable as well. -/
def laidOffFirst (a b : Status) : Bool :=
  !(layoffKey a).lex (layoffKey b) fun x y => !x && y

def layoffCandidates (candidates : List AmlJob) (n : Int) : List AmlJob :=
  let n := if candidates.length < n then (candidates.length : Int) else n
  sliceTo (candidates.mergeSort fun a b => laidOffFirst a.status b.status) n

def pausedCandidates (candidates : List AmlJob) (n : Int) : List AmlJob :=
  let n := if candidates.length < n then (candidates.length : Int) else n
  sliceTo candidates n

variable (azure : Azure)

def cancelOne (worker : AmlJob) : Option Raised :=
  match azure.beginCancel worker.name with
  | some (.httpResponseError message code) =>
    if contains "Cannot execute Cancel because user does not have sufficient permission." message
    then none
    else some (.httpResponseError message code)
  | outcome => outcome

/-- The first of `retries + 1` responses that is no server error, or else the last. -/
def postResume (worker : String) : Nat → Nat → Except Raised Response
  | 0, attempt => azure.post worker attempt
  | retries + 1, attempt => do
    let response ← azure.post worker attempt
    if response.statusCode < 500 then pure response else postResume worker retries (attempt + 1)

def resumeMaxRetries : Nat := 3

def resumeOne (worker : AmlJob) : Option Raised :=
  match azure.workspaceName, azure.getToken worker.name with
  | none, _ => some (.runtimeError "Workspace name is not set in the AzureML client.")
  | some _, some exc => some exc
  | some _, none =>
    match postResume azure worker.name resumeMaxRetries 0 with
    | .error exc => some exc
    | .ok response =>
      if 200 ≤ response.statusCode ∧ response.statusCode < 300 then none
      else if 400 ≤ response.statusCode ∧ response.statusCode < 500 then
        if contains "exceeded max job execution time" response.text then cancelOne azure worker
        else none
      else
        some (.runtimeError ("Failed to resume worker " ++ worker.name ++ ": HTTP " ++
          toString response.statusCode ++ ": " ++ response.text))

/-- The candidates among the jobs that are listed, if the listing does not raise. -/
def onCandidates (status : List Status) (candidates : List AmlJob → List AmlJob)
    (sweep : List AmlJob → Sweep AmlJob Raised) : Sweep AmlJob Raised :=
  match azure.listJobs status with
  | .error exc => ⟨[], some exc⟩
  | .ok jobs => sweep (candidates jobs)

def layOff (n : Int) : Sweep AmlJob Raised :=
  onCandidates azure layoffStatusPriority (layoffCandidates · n) (Sweep.sequential (cancelOne azure))

def parallelLayOff (n : Int) : Sweep AmlJob Raised :=
  if n ≤ 0 then {}
  else onCandidates azure layoffStatusPriority (layoffCandidates · n) (runParallel (cancelOne azure))

def resume (n : Int) : Sweep AmlJob Raised :=
  onCandidates azure [.paused] (pausedCandidates · n) (Sweep.sequential (resumeOne azure))

def parallelResume (n : Int) : Sweep AmlJob Raised :=
  if n ≤ 0 then {}
  else onCandidates azure [.paused] (pausedCandidates · n) (runParallel (resumeOne azure))

structure Scaling where
  submitted : List Nat := []
  cancelled : List AmlJob := []
  raised : Option Raised := none

def currentState : Except Raised DetailedState := do
  let jobs ← azure.listJobs activeStatuses
  match getDetailedState (jobs.map AmlJob.status) with
  | .ok detailed => pure detailed
  | .error (.runtimeError message) => throw (.runtimeError message)

def scaleTo (numWorkers : Int) (withLayoffs : Bool) : Scaling :=
  match currentState azure with
  | .error exc => { raised := some exc }
  | .ok state =>
    let numToStart := numWorkers - state.numRunning - state.numPending
    if numToStart > 0 then
      let hired := hire azure.createOrUpdate 0 numToStart
      { submitted := hired.attempts, raised := hired.raised }
    else if numToStart < 0 ∧ withLayoffs then
      let laidOff := layOff azure (-numToStart)
      { cancelled := laidOff.attempts, raised := laidOff.raised }
    else {}

end JobQ.Workforce
