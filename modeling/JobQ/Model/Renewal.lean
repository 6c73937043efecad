import JobQ.Library.Machine
import Mathlib.Algebra.Order.Ring.Unbundled.Rat

/-!
# The task that keeps a message reserved

`_heartbeat` in `ai4s/jobq/backend/storage_queue.py` and `_renew_loop` in
`ai4s/jobq/backend/servicebus_rest.py`. Both run beside the delivery and share events with it: a
stop request (`cancel_heartbeat_event`, `stop_event`), the loss of the lock (`lock_lost_event`),
and on the Storage Queue the pop receipt of the message.

One step runs the task from one `await` to the next. `time.monotonic()` is an input of the step.
-/

namespace JobQ

inductive Backend where
  | storageQueue
  | serviceBus
deriving DecidableEq

abbrev Receipt := Nat

/-- How a renewal request ended. On the Storage Queue a success carries the new pop receipt. -/
inductive RenewalAnswer where
  | ok (popReceipt : Receipt)
  | status (code : Nat)
  | error
deriving DecidableEq

def RenewalAnswer.meansLost (backend : Backend) : RenewalAnswer → Bool
  | .status code =>
    match backend with
    | .storageQueue => code = 400 ∨ code = 404
    | .serviceBus => code = 404
  | _ => false

inductive Loop where
  | absent
  | ready
  | sleeping
  | inFlight (attempt : Nat)
  /-- In the `asyncio.sleep` after a failed attempt, which nothing interrupts (Service Bus). -/
  | backoff (attempt : Nat)
  | done
deriving DecidableEq

structure Renewal where
  loop : Loop
  popReceipt : Receipt
  stop : Bool := false
  lockLost : Bool := false
  lastSuccess : Rat := 0
  lockLostLogged : Bool := false

/-- No renewal request can come any more. On the Storage Queue this is also when
`heartbeat_cancelled_event` is set: by the `finally` of the task, or at once without one. -/
def Renewal.isOver (r : Renewal) : Bool := r.loop = .absent ∨ r.loop = .done

def Renewal.isInFlight (r : Renewal) : Bool :=
  match r.loop with
  | .inFlight _ => true
  | _ => false

structure RenewalConfig where
  lockDuration : Rat
  atLeast : 10 ≤ lockDuration
  deadline : Rat

inductive RenewalAction where
  | wake (now : Rat)
  | answer (a : RenewalAnswer) (now : Rat)

inductive RenewalEvent where
  | sent (popReceipt : Receipt)
  | answered (a : RenewalAnswer)
  | aborted
deriving DecidableEq

namespace StorageQueue

def heartbeat (r : Renewal) : RenewalAction → Option (Renewal × List RenewalEvent)
  | .wake _ =>
    match r.loop with
    | .ready | .sleeping =>
      -- `while not cancel_heartbeat_event.is_set()`
      if r.stop then some ({ r with loop := .done }, [])
      else some ({ r with loop := .inFlight 0 }, [.sent r.popReceipt])
    | _ => none
  | .answer a _ =>
    match r.loop with
    | .inFlight _ =>
      match a with
      | .ok popReceipt =>
        some ({ r with loop := .sleeping, popReceipt := popReceipt }, [.answered a])
      | .status code =>
        if code = 400 ∨ code = 404 then
          some ({ r with loop := .done, lockLost := true }, [.answered a])
        else some ({ r with loop := .sleeping }, [.answered a])
      | .error => some ({ r with loop := .sleeping }, [.answered a])
    | _ => none

end StorageQueue

namespace ServiceBus

def maxFastRetries : Nat := 2

def loopHead (cfg : RenewalConfig) (now : Rat) (r : Renewal) : Renewal :=
  if now < cfg.deadline ∧ r.stop = false then { r with loop := .sleeping }
  else { r with loop := .done }

def endOfCycle (cfg : RenewalConfig) (now : Rat) (r : Renewal) : Renewal :=
  if now - r.lastSuccess > cfg.lockDuration ∧ r.lockLostLogged = false then
    loopHead cfg now { r with lockLostLogged := true, lockLost := true }
  else loopHead cfg now r

def failedAttempt (cfg : RenewalConfig) (now : Rat) (attempt : Nat) (r : Renewal) : Renewal :=
  if r.stop then { r with loop := .done }
  else if attempt < maxFastRetries then { r with loop := .backoff attempt }
  else endOfCycle cfg now r

def renewLoop (cfg : RenewalConfig) (r : Renewal) :
    RenewalAction → Option (Renewal × List RenewalEvent)
  | .wake now =>
    match r.loop with
    | .ready => some (loopHead cfg now { r with lastSuccess := now }, [])
    | .sleeping =>
      if r.stop then some ({ r with loop := .done }, [])
      else some ({ r with loop := .inFlight 0 }, [.sent r.popReceipt])
    -- the next attempt does not look at the stop event
    | .backoff attempt => some ({ r with loop := .inFlight (attempt + 1) }, [.sent r.popReceipt])
    | _ => none
  | .answer a now =>
    match r.loop with
    | .inFlight attempt =>
      match a with
      | .ok _ =>
        some (endOfCycle cfg now { r with lastSuccess := now, lockLostLogged := false },
          [.answered a])
      | .status code =>
        if code = 404 then
          -- after the stop event a 404 is put down to the settlement
          if r.stop then some ({ r with loop := .done }, [.answered a])
          else some ({ r with loop := .done, lockLost := true }, [.answered a])
        else some (failedAttempt cfg now attempt r, [.answered a])
      | .error => some (failedAttempt cfg now attempt r, [.answered a])
    | _ => none

/-- `task.cancel()` on the renewal task: every `await` in it lets the `CancelledError` through to
the outermost handler, which ends the task. -/
def abort (r : Renewal) : Renewal × List RenewalEvent :=
  if r.isOver then (r, [])
  else ({ r with loop := .done }, if r.isInFlight then [.aborted] else [])

inductive LoopAction where
  | runs (a : RenewalAction)
  | stops
  | cancels

def startLockRenewal (lockToken : Receipt) : Renewal := { loop := .ready, popReceipt := lockToken }

def lockRenewal (cfg : RenewalConfig) : Mealy.Machine Renewal LoopAction RenewalEvent where
  step r
    | .runs a => renewLoop cfg r a
    | .stops => some ({ r with stop := true }, [])
    | .cancels => some (abort r)

def maxLockRenewalSeconds : Nat := 60 * 60 * 24 * 21

def interval (lockDuration : Rat) : Rat := max (lockDuration / 2) 5

def perRequestTimeout (lockDuration : Rat) : Rat := max (lockDuration / 3) 5

def retryDelay (attempt : Nat) : Rat := min (2 ^ attempt) 5

end ServiceBus

def Renewal.step (backend : Backend) (cfg : RenewalConfig) (r : Renewal) (a : RenewalAction) :
    Option (Renewal × List RenewalEvent) :=
  match backend with
  | .storageQueue => StorageQueue.heartbeat r a
  | .serviceBus => ServiceBus.renewLoop cfg r a

end JobQ
