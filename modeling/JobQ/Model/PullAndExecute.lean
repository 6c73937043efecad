import JobQ.Library.Machine
import JobQ.Model.Entities
import JobQ.Model.Renewal

/-!
# One delivery

`JobQ.pull_and_execute` in `ai4s/jobq/jobq.py` from the moment a message has been received and its
task deserialized, with the envelopes and the context managers of both backends. The coroutine
runs from one suspension to the next in one step; between two steps the renewal task, the callback
and a cancellation of the coroutine may act. Durations, the environment, what a callback does to the
values that it gets and what is logged are left out, except for the cached lines of the task's log,
which have to be read before a failure is settled.
-/

namespace JobQ
open JsonText

inductive Outcome where
  | returned (ret : Json)
  | raised (exc : Exc)

/-- What the call `command_callback(**kwargs)` itself does: it makes a coroutine, or it ends at
once, as a callback that is not async does, or an async one that does not accept its arguments. -/
inductive CallResult where
  | coroutine
  | ended (outcome : Outcome)

inductive LogMessage where
  | text (text : String)
  | other (typeName : String)

abbrev TaskLog : Type := Option (Except String (List LogMessage))

structure Config where
  backend : Backend
  withHeartbeat : Bool
  renewal : RenewalConfig
  workerId : Option String
  parameters : Except String (List String)
  log : TaskLog := none

def sequenceItems (i : Nat) : List LogMessage → Except String (List String)
  | [] => .ok []
  | .text text :: messages => (sequenceItems (i + 1) messages).map (text :: ·)
  | .other typeName :: _ =>
    .error ("sequence item " ++ toString i ++ ": expected str instance, " ++ typeName ++ " found")

def joinLines (messages : List LogMessage) : Except String String :=
  (sequenceItems 0 messages).map (String.intercalate "\n")

def TaskLog.read : TaskLog → Except String (Option String)
  | none => .ok none
  | some (.error text) => .error text
  | some (.ok messages) => (joinLines messages).map some

def Backend.accepts : Backend → Task → Bool
  | .storageQueue, task => !task.replyRequested
  | .serviceBus, _ => true

inductive Settlement where
  | complete
  | requeue
  | replace (task : Task)
  | deadLetter (error : String)

inductive Request where
  | updateMessage (popReceipt : Receipt) (content : String)
  | deleteMessage (popReceipt : Receipt)
  | sendDeadLetter (content : String)
  | completeMessage
  | unlockMessage
  | deadletterMessage (reason : String)
deriving DecidableEq

inductive Result where
  | returned (value : Bool)
  | raised (exc : Exc)

/-- What is left to do once the heartbeat is cancelled: `except WorkerCanceled`, `except Exception`,
or the `else` clause of the `try` statement, with its variables. -/
inductive After where
  | requeue
  | failed (exc : Exc) (lockLost : Bool)
  | succeeded (ret : Json) (lockLost : Bool)

inductive Pc where
  | waiting
  | cancelAwaitLock
  | cancelAwaitCallback
  | lostAwaitCallback
  | doneAwaitLock
  | cancelHeartbeat (after : After)
  | settling (settlement : Settlement) (request : Request)
  | exiting (result : Result)
  | finished (result : Result)

inductive CallbackTask where
  | absent
  | running
  | ended (outcome : Outcome)

structure State where
  pc : Pc
  task : Task
  renewal : Renewal
  callback : CallbackTask := .absent
  lockTaskDone : Bool := false
  /-- A `CancelledError` is due at the current suspension. -/
  interrupted : Bool := false

inductive Action where
  | renewal (a : RenewalAction)
  | callbackEnds (outcome : Outcome)
  | lockTaskRuns
  | cancel
  | resume
  | answer (result : Except String Unit)

inductive Event where
  | renewal (e : RenewalEvent)
  | callbackEnded (outcome : Outcome)
  | cancelled (callbackRunning : Bool)
  | settlement (s : Settlement)
  | request (r : Request)
  | answered (r : Request) (success : Bool)

abbrev Step := State × List Event

def Event.request? : Event → Option Request
  | .request r => some r
  | _ => none

namespace Delivery

def requests (log : List Event) : List Request := log.filterMap Event.request?

def reply (backend : Backend) (_response : Response) : Except Exc Unit :=
  .error <| .notImplementedError <| match backend with
    | .storageQueue => "Reply is not implemented for StorageQueueBackend"
    | .serviceBus => "REST ServiceBus backend does not support replies yet."

/-- Leaving `receive_message`. On the Storage Queue the context manager of the heartbeat is a
generator without `finally`: an exception passes through it and leaves the heartbeat alone. -/
def leave (cfg : Config) (s : State) (result : Result) : Step :=
  match cfg.backend, result with
  | .storageQueue, .raised _ => ({ s with pc := .finished result }, [])
  | _, _ =>
    let s := { s with renewal := { s.renewal with stop := true } }
    if s.renewal.isOver then ({ s with pc := .finished result }, [])
    else ({ s with pc := .exiting result }, [])

def firstRequest (backend : Backend) (task : Task) (popReceipt : Receipt) :
    Settlement → Option Request
  | .complete =>
    match backend with
    | .storageQueue => some (.deleteMessage popReceipt)
    | .serviceBus => some .completeMessage
  | .requeue =>
    match backend with
    | .storageQueue => some (.updateMessage popReceipt task.serialize)
    | .serviceBus => some .unlockMessage
  | .replace task =>
    match backend with
    | .storageQueue => some (.updateMessage popReceipt task.serialize)
    | .serviceBus => none
  | .deadLetter error =>
    match backend with
    | .storageQueue => some (.sendDeadLetter (Task.serialize { task with error := some error }))
    | .serviceBus => some (.deadletterMessage (if error = "" then "Failed" else error))

def settle (cfg : Config) (s : State) (settlement : Settlement) : Step :=
  match firstRequest cfg.backend s.task s.renewal.popReceipt settlement with
  | some request =>
    ({ s with pc := .settling settlement request }, [.settlement settlement, .request request])
  | none =>
    let (s, events) := leave cfg s (.returned false)
    (s, .settlement settlement :: events)

def settleAnswered (cfg : Config) (s : State) (settlement : Settlement) (request : Request)
    (result : Except String Unit) : Step :=
  match settlement, request, result with
  -- `except Exception` around the reply and the delete
  | .complete, _, _ => leave cfg s (.returned true)
  -- `except Exception` around the requeue, then `raise`
  | .requeue, _, _ => leave cfg s (.raised .workerCanceled)
  -- `deadletter_message` catches its own failures
  | .deadLetter _, .deadletterMessage _, _ => leave cfg s (.returned false)
  | .deadLetter _, .sendDeadLetter _, .ok () =>
    let next := .deleteMessage s.renewal.popReceipt
    ({ s with pc := .settling settlement next }, [.request next])
  | .deadLetter _, _, .ok () => leave cfg s (.returned false)
  | .replace _, _, .ok () => leave cfg s (.returned false)
  | _, _, .error text => leave cfg s (.raised (.brokerError text))

inductive Decision where
  | settle (settlement : Settlement)
  | leave (result : Result)

def lockLostError (task : Task) : Exc := .lockLostError task.id

def giveUp (cfg : Config) (task : Task) (exc : Exc) : Decision :=
  match exc.str with
  | .error text => .leave (.raised (.other text))
  | .ok text =>
    if task.replyRequested then
      match reply cfg.backend ⟨false, .str text⟩ with
      | .ok () => .settle (.deadLetter text)
      | .error replyExc => .leave (.raised replyExc)
    else .settle (.deadLetter text)

def decision (cfg : Config) (task : Task) : After → Decision
  | .requeue => .settle .requeue
  | .succeeded _ true | .failed _ true => .leave (.raised (lockLostError task))
  | .succeeded ret false =>
    if task.replyRequested then
      match reply cfg.backend ⟨true, ret⟩ with
      | .ok () => .settle .complete
      | .error _ => .leave (.returned true)
    else .settle .complete
  | .failed exc false =>
    match cfg.log.read with
    | .error text => .leave (.raised (.other text))
    | .ok _log =>
      if final : task.numRetries ≤ 0 then giveUp cfg task exc
      else .settle (.replace { task with retries := task.retries.pred (task.left final) })

def proceed (cfg : Config) (s : State) (after : After) : Step :=
  match decision cfg s.task after with
  | .settle settlement => settle cfg s settlement
  | .leave result => leave cfg s result

def cancelHeartbeat (cfg : Config) (s : State) (after : After) : Step :=
  let s := { s with renewal := { s.renewal with stop := true } }
  if s.renewal.isOver then proceed cfg s after else ({ s with pc := .cancelHeartbeat after }, [])

def handle (cfg : Config) (s : State) : Exc → Step
  | .cancelledError => leave cfg s (.raised .cancelledError)
  | .workerCanceled => cancelHeartbeat cfg s .requeue
  | exc => cancelHeartbeat cfg s (.failed exc s.renewal.lockLost)

def callbackResult (cfg : Config) (s : State) : Outcome → Step
  | .returned ret => cancelHeartbeat cfg s (.succeeded ret s.renewal.lockLost)
  | .raised exc => handle cfg s exc

/-- After `await callback_task` in the handler of a cancellation: `done` was never bound. -/
def cancelledResult (cfg : Config) (s : State) : Outcome → Step
  | .returned _ => handle cfg s (.unboundLocalError "done")
  | .raised exc => handle cfg s exc

def awaitCancelled (cfg : Config) (s : State) : Step :=
  match s.callback with
  | .ended outcome => cancelledResult cfg s outcome
  | _ => ({ s with pc := .cancelAwaitCallback }, [])

def awaitLost (cfg : Config) (s : State) : Step :=
  match s.callback with
  | .ended _ => cancelHeartbeat cfg s (.succeeded .null true)
  | _ => ({ s with pc := .lostAwaitCallback }, [])

/-- `kwargs[key] = value` on the dictionary of the task itself. -/
def setKwarg (task : Task) (key : String) (value : Option String) : Task :=
  match value with
  | some text => { task with kwargs := task.kwargs.setItem key (.str text) Str.ofString_joined }
  | none => { task with kwargs := task.kwargs.setItem key .null trivial }

def magicKwargs (cfg : Config) (parameters : List String) (task : Task) : Task :=
  let task := if "_job_id" ∈ parameters then setKwarg task "_job_id" task.id else task
  if "_worker_id" ∈ parameters then setKwarg task "_worker_id" cfg.workerId else task

def received (cfg : Config) (task : Task) (popReceipt : Receipt) : State where
  pc := .waiting
  task := task
  renewal := { loop := if cfg.withHeartbeat then .ready else .absent, popReceipt }

def start (cfg : Config) (task : Task) (popReceipt : Receipt) (call : CallResult) : Step :=
  let s := received cfg task popReceipt
  match cfg.parameters with
  | .error text => handle cfg s (.other text)
  | .ok parameters =>
    let s := { s with task := magicKwargs cfg parameters task }
    match call with
    | .coroutine => ({ s with callback := .running }, [])
    | .ended outcome =>
      let (s, events) := callbackResult cfg { s with callback := .ended outcome } outcome
      (s, .callbackEnded outcome :: events)

def isRunning (s : State) : Bool :=
  match s.callback with
  | .running => true
  | _ => false

/-- `task.cancel()`, by what the coroutine awaits. Awaiting a task passes the cancellation on to
that task; both waits for `lock_lost_task` suppress it. -/
def cancel (cfg : Config) (s : State) : Option Step :=
  let event := Event.cancelled (isRunning s)
  let throw : Option Step := some ({ s with interrupted := true }, [event])
  let abort : Option Step :=
    let (renewal, events) := ServiceBus.abort s.renewal
    some ({ s with renewal := renewal }, event :: events.map .renewal)
  match s.pc with
  | .waiting | .settling _ _ => throw
  | .cancelAwaitLock | .doneAwaitLock => some (s, [event])
  | .cancelAwaitCallback | .lostAwaitCallback => if isRunning s then some (s, [event]) else throw
  | .cancelHeartbeat _ | .exiting _ =>
    match cfg.backend with
    | .storageQueue => throw
    | .serviceBus => abort
  | .finished _ => none

def interrupt (cfg : Config) (s : State) : Option Step :=
  match s.pc with
  | .waiting =>
    if s.lockTaskDone then some (awaitCancelled cfg s)
    else some ({ s with pc := .cancelAwaitLock }, [])
  | .cancelAwaitCallback => some (handle cfg s .cancelledError)
  -- `suppress` takes it
  | .lostAwaitCallback => some (cancelHeartbeat cfg s (.succeeded .null true))
  | .cancelHeartbeat _ | .settling _ _ => some (leave cfg s (.raised .cancelledError))
  | .exiting _ => some ({ s with pc := .finished (.raised .cancelledError) }, [])
  | .cancelAwaitLock | .doneAwaitLock | .finished _ => none

def resume (cfg : Config) (s : State) : Option Step :=
  if s.interrupted then interrupt cfg { s with interrupted := false }
  else
    match s.pc, s.callback with
    | .waiting, .ended _ =>
      if s.lockTaskDone then some (awaitLost cfg s) else some ({ s with pc := .doneAwaitLock }, [])
    | .waiting, _ => if s.lockTaskDone then some (awaitLost cfg s) else none
    | .cancelAwaitLock, _ => some (awaitCancelled cfg s)
    | .cancelAwaitCallback, .ended outcome => some (cancelledResult cfg s outcome)
    | .lostAwaitCallback, .ended _ => some (cancelHeartbeat cfg s (.succeeded .null true))
    | .doneAwaitLock, .ended outcome => some (callbackResult cfg s outcome)
    | .cancelHeartbeat after, _ => if s.renewal.isOver then some (proceed cfg s after) else none
    | .exiting result, _ =>
      if s.renewal.isOver then some ({ s with pc := .finished result }, []) else none
    | _, _ => none

def isOk : Except String Unit → Bool
  | .ok _ => true
  | .error _ => false

def step (cfg : Config) (s : State) : Action → Option Step
  | .renewal a =>
    match s.renewal.step cfg.backend cfg.renewal a with
    | some (renewal, events) => some ({ s with renewal := renewal }, events.map .renewal)
    | none => none
  | .callbackEnds outcome =>
    if isRunning s then some ({ s with callback := .ended outcome }, [.callbackEnded outcome])
    else none
  | .lockTaskRuns =>
    match s.pc with
    | .waiting =>
      if s.renewal.lockLost ∧ s.lockTaskDone = false then some ({ s with lockTaskDone := true }, [])
      else none
    | _ => none
  | .cancel => cancel cfg s
  | .resume => resume cfg s
  | .answer result =>
    match s.pc with
    | .settling settlement request =>
      if s.interrupted then none
      else
        let (s, events) := settleAnswered cfg s settlement request result
        some (s, .answered request (isOk result) :: events)
    | _ => none

def machine (cfg : Config) : Mealy.Machine State Action Event := ⟨step cfg⟩

end Delivery

end JobQ
