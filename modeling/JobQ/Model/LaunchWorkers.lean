import JobQ.Library.Machine

/-!
# Workers and shutdown requests

`launch_workers` in `ai4s/jobq/orchestration/manager.py`, with the `PreemptionEventHandler` of
`ai4s/jobq/scheduled_events.py`. The workers, the main coroutine and the poll of Azure's scheduled
events take turns at their suspensions; a signal handler may run between any two steps. Nothing is
assumed of the processor and of `pull_and_execute`, or of how long a call takes. The caller of
`launch_workers` does not cancel it. Logging, progress and telemetry are left out.
-/

namespace JobQ.LaunchWorkers

inductive Exc where
  | lockLostError
  | workerCanceled
  | emptyQueue
  | tooManyFailuresException
  | assertionError
  | cancelledError
  | other
deriving DecidableEq

inductive Result where
  | returned (success : Bool)
  | raised (exc : Exc)
deriving DecidableEq

inductive Outcome where
  | returned
  | raised (exc : Exc)
deriving DecidableEq

structure Config where
  maxConsecutiveFailures : Int
  disabled : Bool := false

/-! ## Shutdown requests -/

structure Signals where
  shutdownEvent : Bool := false
  hardStopEvent : Bool := false
  flagResumeIfNotKilled : Bool := true
  flagPassSignalToSubprocess : Bool := true
  scheduledEventInitiatedByUs : Bool := false
  /-- The steps that are already due still run. -/
  loopStopped : Bool := false

inductive Request where
  | sigterm
  | sigint
  | sigusr1
  | sigusr2
  | timeLimit
deriving DecidableEq

def Request.hard : Request → Bool
  | .sigint => true
  | _ => false

def Request.resumeIfNotKilled : Request → Bool
  | .sigterm => true
  | _ => false

def Request.passSignalToSubprocess : Request → Bool
  | .sigusr1 => false
  | _ => true

def shutdownHandler (signals : Signals) (r : Request) : Signals :=
  let signals := { signals with
    flagResumeIfNotKilled := r.resumeIfNotKilled
    flagPassSignalToSubprocess := r.passSignalToSubprocess }
  let signals := if r.hard then { signals with hardStopEvent := true } else signals
  let signals :=
    if signals.shutdownEvent then
      if signals.hardStopEvent then { signals with loopStopped := true }
      else { signals with hardStopEvent := true }
    else signals
  { signals with shutdownEvent := true }

structure ScheduledEvent where
  eventId : String
  eventType : String

/-- `_get_scheduled_events`; `none` is a request that fails. -/
def getScheduledEvents (answer : Option (List ScheduledEvent)) : List ScheduledEvent :=
  answer.getD []

def isPreempted (events : List ScheduledEvent) : Bool :=
  events.any fun event => event.eventType = "Preempt"

/-! ## One worker -/

/-- The task of `pull_and_execute`. One that a worker leaves behind is not followed any further. -/
inductive Pull where
  | absent
  | running
  | ended (result : Result)
deriving DecidableEq

/-- The task of `shutdown_event.wait()`: it waits for the event, is about to run because the event
was set, or has run; `done` also when there is none yet. -/
inductive ShutdownTask where
  | waiting
  | woken
  | done
deriving DecidableEq

inductive Next where
  | again
  | leave (how : Outcome)
deriving DecidableEq

/-- The suspensions of `worker`, and two places between which a signal makes a difference: the head
of the loop, and before `shutdown_event.clear()`. `finishing` awaits the pull after a request that
does not cancel it, and `inTry` is lost in `except WorkerCanceled`. -/
inductive Pc where
  | starting
  | ready
  | waiting
  | shuttingDown (pending : Bool)
  | cancellingPull
  | finishing
  | flushing (inTry : Bool)
  | bracing (inTry : Bool)
  | gathering (inTry : Bool)
  | clearing (inTry : Bool)
  | resuming (inTry : Bool)
  | cleaningUp (next : Next)
  | leaving (how : Outcome)
  | ended (how : Outcome)
deriving DecidableEq

structure Worker where
  pc : Pc := .starting
  pull : Pull := .absent
  shutdownTask : ShutdownTask := .done
  numConsecutiveFailures : Nat := 0
  /-- A `CancelledError` is due at the current suspension. -/
  cancelRequested : Bool := false

inductive WorkerAction where
  | begins (late : Bool)
  | shutdownTaskRuns
  | pullEnds (result : Result)
  | proceeds
  | raises (exc : Exc)
  | cancelled

inductive WorkerEvent where
  | began
  | pullEnded (result : Result)
  | shutDown
  | braced
  | cleared
  | ended (how : Outcome)
deriving DecidableEq

namespace Worker

def goOn (w : Worker) : Next → Worker
  | .again => { w with pc := .ready }
  | .leave how => { w with pc := .leaving how }

/-- The `finally` clause, which waits for the shutdown task unless it is done. -/
def cleanUp (w : Worker) (next : Next) : Worker :=
  match w.shutdownTask with
  | .done => w.goOn next
  | _ => { w with pc := .cleaningUp next }

def raise (w : Worker) (inTry : Bool) (exc : Exc) : Worker :=
  match inTry, exc with
  | true, .lockLostError => w.cleanUp .again
  | true, .workerCanceled => { w with pc := .flushing false }
  | true, .emptyQueue => w.cleanUp (.leave .returned)
  | _, exc => w.cleanUp (.leave (.raised exc))

def count (w : Worker) (maxConsecutiveFailures : Int) (success : Bool) : Worker :=
  if success then { w with numConsecutiveFailures := 0 }.cleanUp .again
  else
    let w := { w with numConsecutiveFailures := w.numConsecutiveFailures + 1 }
    if maxConsecutiveFailures < w.numConsecutiveFailures then w.raise true .tooManyFailuresException
    else w.cleanUp .again

/-- `with suppress(asyncio.CancelledError): await task` -/
def pullCancelled (w : Worker) : Result → Worker
  | .returned _ | .raised .cancelledError => { w with pc := .flushing true }
  | .raised exc => w.raise true exc

/-- `await worker_task` and `raise WorkerCanceled` -/
def pullFinished (w : Worker) : Result → Worker
  | .returned _ => w.raise true .workerCanceled
  | .raised exc => w.raise true exc

def begin (w : Worker) (signals : Signals) (late : Bool) : Worker × List WorkerEvent :=
  if late then ({ w with pc := .leaving .returned }, [])
  else
    -- the shutdown task runs first, and before anything that may change the event
    let shutdownTask := if signals.shutdownEvent then .done else .waiting
    ({ w with pc := .waiting, pull := .running, shutdownTask }, [.began])

def waited (w : Worker) (maxConsecutiveFailures : Int) (signals : Signals) :
    Option (Worker × List WorkerEvent) :=
  match w.shutdownTask, w.pull with
  | .done, pull =>
    if signals.flagPassSignalToSubprocess then
      if signals.shutdownEvent then
        some ({ w with pc := .shuttingDown (pull = .running) }, [.shutDown])
      else some (w.raise true .assertionError, [])
    else
      match pull with
      | .ended result => some (w.pullFinished result, [])
      | _ => some ({ w with pc := .finishing }, [])
  | _, .ended (.returned success) => some (w.count maxConsecutiveFailures success, [])
  | _, .ended (.raised exc) => some (w.raise true exc, [])
  | _, _ => none

def waitForHardStop (w : Worker) (signals : Signals) (inTry : Bool) : Worker × List WorkerEvent :=
  if signals.hardStopEvent ∨ signals.flagResumeIfNotKilled = false then
    (w.cleanUp (.leave .returned), [])
  else ({ w with pc := .bracing inTry }, [.braced])

def gathered (w : Worker) (signals : Signals) (inTry : Bool) : Worker :=
  if signals.hardStopEvent ∨ signals.flagResumeIfNotKilled = false then
    w.cleanUp (.leave .returned)
  else { w with pc := .clearing inTry }

def proceed (w : Worker) (maxConsecutiveFailures : Int) (signals : Signals) :
    Option (Signals × Worker × List WorkerEvent) :=
  match w.pc with
  | .starting => some (signals, { w with pc := .ready }, [])
  | .waiting =>
    match w.waited maxConsecutiveFailures signals with
    | some (w, events) => some (signals, w, events)
    | none => none
  | .shuttingDown false => some (signals, { w with pc := .flushing true }, [])
  | .shuttingDown true =>
    match w.pull with
    | .ended result => some (signals, w.pullCancelled result, [])
    | _ => some (signals, { w with pc := .cancellingPull }, [])
  | .cancellingPull =>
    match w.pull with
    | .ended result => some (signals, w.pullCancelled result, [])
    | _ => none
  | .finishing =>
    match w.pull with
    | .ended result => some (signals, w.pullFinished result, [])
    | _ => none
  | .flushing inTry => some (signals, w.waitForHardStop signals inTry)
  -- the hard stop, a clear that the poll has seen, or the timeout
  | .bracing inTry => some (signals, { w with pc := .gathering inTry }, [])
  | .gathering inTry => some (signals, w.gathered signals inTry, [])
  | .clearing inTry =>
    some ({ signals with shutdownEvent := false }, { w with pc := .resuming inTry }, [.cleared])
  | .resuming _ => some (signals, w.cleanUp .again, [])
  | .cleaningUp next => some (signals, w.goOn next, [])
  | .leaving how => some (signals, { w with pc := .ended how }, [.ended how])
  | .ready | .ended _ => none

def callRaises (w : Worker) (exc : Exc) : Option (Worker × List WorkerEvent) :=
  match w.pc with
  | .starting => some ({ w with pc := .leaving (.raised exc) }, [])
  | .shuttingDown _ => some (w.raise true exc, [])
  | .flushing inTry | .resuming inTry => some (w.raise inTry exc, [])
  | .leaving _ => some ({ w with pc := .ended (.raised exc) }, [.ended (.raised exc)])
  | _ => none

def cancelled (w : Worker) : Option (Worker × List WorkerEvent) :=
  let v := { w with cancelRequested := false }
  match w.pc with
  | .starting => some ({ v with pc := .leaving (.raised .cancelledError) }, [])
  | .waiting | .shuttingDown _ | .finishing => some (v.raise true .cancelledError, [])
  | .cancellingPull => some ({ v with pc := .flushing true }, [])
  | .flushing inTry | .bracing inTry | .gathering inTry | .resuming inTry =>
    some (v.raise inTry .cancelledError, [])
  | .leaving _ =>
    some ({ v with pc := .ended (.raised .cancelledError) }, [.ended (.raised .cancelledError)])
  | .ready | .clearing _ | .cleaningUp _ | .ended _ => none

/-- `task.cancel()`. The `finally` clause swallows it, and a worker that awaits its pull hands it
on to that. -/
def cancel (w : Worker) : Worker :=
  match w.pc with
  | .ended _ | .cleaningUp _ => w
  | .finishing | .cancellingPull =>
    if w.pull = .running then w else { w with cancelRequested := true }
  | _ => { w with cancelRequested := true }

def wake (w : Worker) : Worker :=
  match w.shutdownTask with
  | .waiting => { w with shutdownTask := .woken }
  | _ => w

def isSuspended (w : Worker) : Bool :=
  match w.pc with
  | .ready | .clearing _ => false
  | _ => true

def step (w : Worker) (maxConsecutiveFailures : Int) (signals : Signals) :
    WorkerAction → Option (Signals × Worker × List WorkerEvent)
  | .begins late =>
    match w.pc with
    | .ready => some (signals, w.begin signals late)
    | _ => none
  | .shutdownTaskRuns =>
    match w.shutdownTask with
    | .woken => some (signals, { w with shutdownTask := .done }, [])
    | _ => none
  | .pullEnds result =>
    match w.pull with
    | .running =>
      -- a shutdown task that is already woken runs before the worker hears of the end
      let shutdownTask := if w.shutdownTask = .woken then .done else w.shutdownTask
      some (signals, { w with pull := .ended result, shutdownTask }, [.pullEnded result])
    | _ => none
  | .proceeds =>
    if w.cancelRequested ∧ w.isSuspended then none else w.proceed maxConsecutiveFailures signals
  | .raises exc =>
    if w.cancelRequested then none
    else
      match w.callRaises exc with
      | some (w, events) => some (signals, w, events)
      | none => none
  | .cancelled =>
    if w.cancelRequested then
      match w.cancelled with
      | some (w, events) => some (signals, w, events)
      | none => none
    else none

end Worker

/-! ## All of them -/

/-- The main coroutine, which awaits the workers in the order in which they end. -/
inductive Main where
  | collecting (n : Nat)
  /-- All workers are cancelled, and the first `n` were done then. -/
  | draining (n : Nat)
  | leaving (how : Outcome)
  | ended (how : Outcome)
deriving DecidableEq

structure State where
  signals : Signals := {}
  workers : List Worker
  completed : List Outcome := []
  main : Main := .collecting 0

inductive MainAction where
  | collects
  | drains (k : Nat)
  | leaves (exc : Option Exc)

inductive Action where
  | request (r : Request)
  | polled (answer : Option (List ScheduledEvent))
  | worker (i : Nat) (a : WorkerAction)
  | main (a : MainAction)

inductive Event where
  | requested (r : Request)
  | announced (events : List ScheduledEvent)
  | withdrawn
  | worker (i : Nat) (e : WorkerEvent)

def initial (numWorkers : Nat) : State where
  workers := List.replicate numWorkers {}

/-- `shutdown_handler`. Setting the event wakes every shutdown task that waits for it. -/
def stepRequest (s : State) (r : Request) : State × List Event :=
  ({ s with signals := shutdownHandler s.signals r, workers := s.workers.map Worker.wake },
    [.requested r])

def stepPolled (c : Config) (s : State) (answer : Option (List ScheduledEvent)) :
    State × List Event :=
  if c.disabled then (s, [])
  else if isPreempted (getScheduledEvents answer) then
    ({ s with
        signals := { s.signals with shutdownEvent := true, scheduledEventInitiatedByUs := true }
        workers := s.workers.map Worker.wake },
      [.announced (getScheduledEvents answer)])
  else if s.signals.shutdownEvent ∧ s.signals.scheduledEventInitiatedByUs then
    ({ s with
        signals := { s.signals with shutdownEvent := false, scheduledEventInitiatedByUs := false } },
      [.withdrawn])
  else (s, [])

def WorkerEvent.ended? : WorkerEvent → Option Outcome
  | .ended how => some how
  | _ => none

def stepWorker (c : Config) (s : State) (i : Nat) (a : WorkerAction) :
    Option (State × List Event) :=
  match s.workers[i]? with
  | some w =>
    match w.step c.maxConsecutiveFailures s.signals a with
    | some (signals, w, events) =>
      some ({ s with
          signals
          workers := s.workers.set i w
          completed := s.completed ++ events.filterMap WorkerEvent.ended? },
        events.map (.worker i))
    | none => none
  | none => none

def stepMain (s : State) : MainAction → Option State
  | .collects =>
    match s.main with
    | .collecting n =>
      match s.completed[n]? with
      | some .returned | some (.raised .cancelledError) =>
        some { s with main := .collecting (n + 1) }
      | some (.raised .tooManyFailuresException) =>
        some { s with workers := s.workers.map Worker.cancel, main := .draining s.completed.length }
      | some (.raised exc) => some { s with main := .leaving (.raised exc) }
      | none => if n = s.workers.length then some { s with main := .leaving .returned } else none
    | _ => none
  | .drains k =>
    match s.main with
    | .draining n =>
      match s.completed[k]? with
      | some (.raised exc) =>
        -- the workers that are done come first, and one of them has failed
        if k < n ∧ exc ≠ .cancelledError then some { s with main := .leaving (.raised exc) } else none
      | _ => none
    | _ => none
  | .leaves exc =>
    match s.main with
    | .leaving how => some { s with main := .ended (exc.elim how .raised) }
    | _ => none

def step (c : Config) (s : State) : Action → Option (State × List Event)
  | .request r => some (stepRequest s r)
  | .polled answer =>
    match s.main with
    | .ended _ => none
    | _ => some (stepPolled c s answer)
  | .worker i a => stepWorker c s i a
  | .main a =>
    match stepMain s a with
    | some t => some (t, [])
    | none => none

def machine (c : Config) : Mealy.Machine State Action Event := ⟨step c⟩

end JobQ.LaunchWorkers
