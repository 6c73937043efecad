import JobQ.Library.Machine
import JobQ.Model.Renewal

/-!
# The context of a received message

`StorageQueueBackend._heartbeat_worker` in `ai4s/jobq/backend/storage_queue.py`, entered by
`receive_message(with_heartbeat=True)`, around a body of which nothing is assumed: the
deserialization of the task and whatever the caller of `receive_message` does.
-/

namespace JobQ.StorageQueue

inductive Phase where
  | body
  | leaving
  | exited
deriving DecidableEq

structure HeartbeatWorker where
  phase : Phase
  renewal : Renewal

inductive Exit where
  | normal
  | exception
deriving DecidableEq

inductive WorkerAction where
  | renewal (a : RenewalAction)
  | cancelHeartbeat
  | exit (how : Exit)
  | resume
  | cancel

namespace HeartbeatWorker

def entered (popReceipt : Receipt) : HeartbeatWorker where
  phase := .body
  renewal := { loop := .ready, popReceipt }

/-- The generator has neither `try` nor `finally` around its `yield`. -/
def exit (w : HeartbeatWorker) : Exit → HeartbeatWorker
  | .exception => { w with phase := .exited }
  | .normal =>
    let renewal := { w.renewal with stop := true }
    { phase := if renewal.isOver then .exited else .leaving, renewal }

def step (w : HeartbeatWorker) : WorkerAction → Option (HeartbeatWorker × List RenewalEvent)
  | .renewal a =>
    match heartbeat w.renewal a with
    | some (renewal, events) => some ({ w with renewal }, events)
    | none => none
  | .cancelHeartbeat =>
    if w.phase = .body then some ({ w with renewal := { w.renewal with stop := true } }, []) else none
  | .exit how => if w.phase = .body then some (w.exit how, []) else none
  | .resume =>
    if w.phase = .leaving ∧ w.renewal.isOver then some ({ w with phase := .exited }, []) else none
  | .cancel => if w.phase = .leaving then some ({ w with phase := .exited }, []) else none

def machine : Mealy.Machine HeartbeatWorker WorkerAction RenewalEvent := ⟨step⟩

end HeartbeatWorker

end JobQ.StorageQueue
