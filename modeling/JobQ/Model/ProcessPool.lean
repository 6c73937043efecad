import JobQ.Library.Machine

/-!
# A process pool that is replaced on shutdown

`ProcessPool` in `ai4s/jobq/work.py` between `__aenter__` and `__aexit__`. Any number of coroutines
call `submit`, `kill_all_subprocesses` and `resume` on it, and take turns at their suspensions. The
executors that it creates go by numbers; their children and the threads of `run_in_executor` run on
their own. A child may die of a signal, which breaks its executor. Of the temporary directory and the
background sync that `submit` enters for `bg_dirsync_to` there is whether they raise; neither suspends
the coroutine. The environment of the function is left out, and so is logging.
-/

namespace JobQ.ProcessPool

variable {Result : Type*}

inductive Exc where
  | workerCanceled
  | cancelledError
  | brokenProcessPool
  | runtimeError
  | attributeError
  | other
deriving DecidableEq

inductive Outcome (Result : Type*) where
  | returned (result : Result)
  | raised (exc : Exc)

/-! ## What the pool is made of -/

/-- How far the executor's `shutdown` has come. At its end `_processes` is `None`. -/
inductive Stage where
  | accepting
  | shuttingDown
  | down
deriving DecidableEq

structure Executor where
  stage : Stage := .accepting
  broken : Bool := false

/-- A function that was submitted. It runs from when it is handed to a child. -/
structure Job (Result : Type*) where
  executor : Nat
  running : Bool := false
  future : Option (Outcome Result) := none

inductive ThreadStage where
  | queued
  | joining
  | finished
  | cancelled
deriving DecidableEq

structure Thread where
  executor : Nat
  stage : ThreadStage := .queued

/-- Where a coroutine is suspended: in `submit`, or in the two places of `_kill_subprocesses`. -/
inductive Pc where
  | idle
  | submitting (job : Nat) (bgDirsync : Bool)
  | killing (thread : Nat)
  | sleeping
deriving DecidableEq

structure State (Result : Type*) where
  executors : List Executor := [{}]
  pool : Nat := 0
  inShutdown : Bool := false
  jobs : List (Job Result) := []
  threads : List Thread := []
  coroutines : List Pc

inductive Action (Result : Type*) where
  | submits (i : Nat) (bgDirsync enterRaises exitRaises : Bool)
  | returns (i : Nat) (exitRaises : Bool)
  | kills (i : Nat)
  | assigns (i : Nat)
  | wakes (i : Nat)
  | cancels (i : Nat) (exitRaises : Bool)
  | resumes
  | begins (j : Nat)
  | ends (j : Nat) (outcome : Outcome Result)
  | breaks (e : Nat)
  | shutsDown (k : Nat)
  | joins (k : Nat)

inductive Event (Result : Type*) where
  | submitted (i : Nat) (outcome : Outcome Result)
  | signalled (e : Nat)
  | killed (i : Nat) (exc : Option Exc)

def initial (coroutines : Nat) : State Result where
  coroutines := List.replicate coroutines .idle

def State.put (s : State Result) (i : Nat) (pc : Pc) : State Result :=
  { s with coroutines := s.coroutines.set i pc }

/-! ## Executors -/

/-- The executor's `submit` -/
def Executor.refuses (x : Executor) : Option Exc :=
  if x.broken then some .brokenProcessPool
  else if x.stage ≠ .accepting then some .runtimeError
  else none

def Job.begin (job : Job Result) : Option (Job Result) :=
  if job.running ∨ job.future.isSome then none else some { job with running := true }

def Job.finish (job : Job Result) (outcome : Outcome Result) : Option (Job Result) :=
  if job.running then
    some { job with running := false, future := job.future.or (some outcome) }
  else none

/-- The future fails at once, also when the function still runs. -/
def Job.break (job : Job Result) (e : Nat) : Job Result :=
  if job.executor = e then { job with future := job.future.or (some (.raised .brokenProcessPool)) }
  else job

def Job.cancel (job : Job Result) : Job Result :=
  if job.running then job else { job with future := job.future.or (some (.raised .cancelledError)) }

def Job.over (job : Job Result) : Bool := !job.running && job.future.isSome

def Thread.cancel (thread : Thread) : Thread :=
  if thread.stage = .queued then { thread with stage := .cancelled } else thread

/-! ## Coroutines -/

/-- The end of the `with` block. What the contexts raise replaces the outcome. -/
def leave (bgDirsync exitRaises : Bool) (outcome : Outcome Result) : Outcome Result :=
  if bgDirsync && exitRaises then .raised .other else outcome

def stepSubmits (s : State Result) (i : Nat) (bgDirsync enterRaises exitRaises : Bool) :
    Option (State Result × List (Event Result)) :=
  match s.coroutines[i]?, s.executors[s.pool]? with
  | some .idle, some x =>
    -- `int` of a frequency, for one
    if bgDirsync && enterRaises then some (s, [.submitted i (.raised .other)])
    else
      match x.refuses with
      | some exc => some (s, [.submitted i (leave bgDirsync exitRaises (.raised exc))])
      | none =>
        some ({ s with
          jobs := s.jobs ++ [{ executor := s.pool }]
          coroutines := s.coroutines.set i (.submitting s.jobs.length bgDirsync) }, [])
  | _, _ => none

def stepReturns (s : State Result) (i : Nat) (exitRaises : Bool) :
    Option (State Result × List (Event Result)) :=
  match s.coroutines[i]? with
  | some (.submitting j bgDirsync) =>
    match s.jobs[j]?.bind Job.future with
    | some (.returned result) =>
      let outcome := if s.inShutdown then .raised .workerCanceled else .returned result
      some (s.put i .idle, [.submitted i (leave bgDirsync exitRaises outcome)])
    | some (.raised exc) =>
      some (s.put i .idle, [.submitted i (leave bgDirsync exitRaises (.raised exc))])
    | none => none
  | _ => none

def stepKills (s : State Result) (i : Nat) : Option (State Result × List (Event Result)) :=
  match s.coroutines[i]?, s.executors[s.pool]? with
  | some .idle, some x =>
    if x.stage = .down then
      -- `None` has no `items`
      some ({ s with inShutdown := true }, [.killed i (some .attributeError)])
    else
      some ({ s with
        inShutdown := true
        threads := s.threads ++ [{ executor := s.pool }]
        coroutines := s.coroutines.set i (.killing s.threads.length) }, [.signalled s.pool])
  | _, _ => none

/-- `_create_pool` does not suspend. -/
def stepAssigns (s : State Result) (i : Nat) : Option (State Result) :=
  match s.coroutines[i]? with
  | some (.killing k) =>
    if s.threads[k]?.any (·.stage = .finished) then
      some { s with
        executors := s.executors ++ [{}]
        pool := s.executors.length
        coroutines := s.coroutines.set i .sleeping }
    else none
  | _ => none

def stepWakes (s : State Result) (i : Nat) : Option (State Result × List (Event Result)) :=
  match s.coroutines[i]? with
  | some .sleeping => some (s.put i .idle, [.killed i none])
  | _ => none

def stepCancels (s : State Result) (i : Nat) (exitRaises : Bool) :
    Option (State Result × List (Event Result)) :=
  match s.coroutines[i]? with
  | some (.submitting j bgDirsync) =>
    some ({ s with
      jobs := s.jobs.modify j Job.cancel
      coroutines := s.coroutines.set i .idle },
      [.submitted i (leave bgDirsync exitRaises (.raised .cancelledError))])
  | some (.killing k) =>
    some ({ s with
      threads := s.threads.modify k Thread.cancel
      coroutines := s.coroutines.set i .idle }, [.killed i (some .cancelledError)])
  | some .sleeping => some (s.put i .idle, [.killed i (some .cancelledError)])
  | _ => none

/-! ## Children and threads -/

def stepBegins (s : State Result) (j : Nat) : Option (State Result) :=
  (s.jobs[j]?.bind Job.begin).map fun job => { s with jobs := s.jobs.set j job }

def stepEnds (s : State Result) (j : Nat) (outcome : Outcome Result) : Option (State Result) :=
  (s.jobs[j]?.bind (·.finish outcome)).map fun job => { s with jobs := s.jobs.set j job }

def stepBreaks (s : State Result) (e : Nat) : Option (State Result) :=
  match s.executors[e]? with
  | some x =>
    if x.stage = .down then none
    else some { s with
      executors := s.executors.set e { x with broken := true }
      jobs := s.jobs.map (·.break e) }
  | none => none

def stepShutsDown (s : State Result) (k : Nat) : Option (State Result) :=
  match s.threads[k]? with
  | some ⟨e, .queued⟩ =>
    some { s with
      executors := s.executors.modify e fun x =>
        if x.stage = .accepting then { x with stage := .shuttingDown } else x
      threads := s.threads.set k ⟨e, .joining⟩ }
  | _ => none

/-- `shutdown` waits for every function that was submitted to the executor. -/
def stepJoins (s : State Result) (k : Nat) : Option (State Result) :=
  match s.threads[k]? with
  | some ⟨e, .joining⟩ =>
    if s.jobs.all fun job => job.executor ≠ e || job.over then
      some { s with
        executors := s.executors.modify e fun x => { x with stage := .down }
        threads := s.threads.set k ⟨e, .finished⟩ }
    else none
  | _ => none

def step (s : State Result) : Action Result → Option (State Result × List (Event Result))
  | .submits i bgDirsync enterRaises exitRaises => stepSubmits s i bgDirsync enterRaises exitRaises
  | .returns i exitRaises => stepReturns s i exitRaises
  | .kills i => stepKills s i
  | .assigns i => (stepAssigns s i).map (·, [])
  | .wakes i => stepWakes s i
  | .cancels i exitRaises => stepCancels s i exitRaises
  | .resumes => some ({ s with inShutdown := false }, [])
  | .begins j => (stepBegins s j).map (·, [])
  | .ends j outcome => (stepEnds s j outcome).map (·, [])
  | .breaks e => (stepBreaks s e).map (·, [])
  | .shutsDown k => (stepShutsDown s k).map (·, [])
  | .joins k => (stepJoins s k).map (·, [])

def machine (Result : Type*) : Mealy.Machine (State Result) (Action Result) (Event Result) := ⟨step⟩

end JobQ.ProcessPool
