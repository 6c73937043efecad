import Mathlib.Data.List.Basic

/-!
# A callback in the background

`_call_periodically` and `worker_heartbeat_fn` in `ai4s/jobq/orchestration/manager.py`. What a
callback does and when the body ends are inputs. The caller is not cancelled while it awaits the
task, and the exceptions that leave the event loop itself are left out.
-/

namespace JobQ.CallPeriodically

inductive Exc where
  | cancelledError
  | serviceResponseError
  | clientConnectorError
  | retryError
  | other (name : String)
deriving DecidableEq

abbrev Outcome := Except Exc Unit

/-- `worker_heartbeat_fn`, with the queue size that it logs. The decorator prints what is left and
raises it again. -/
def workerHeartbeatFn : Except Exc Int → Except Exc Int
  | .ok queueSize => .ok queueSize
  | .error .serviceResponseError => .ok (-1)
  | .error .clientConnectorError => .ok (-1)
  | .error .retryError => .ok (-1)
  | .error exc => .error exc

inductive Task where
  | alive
  | finished (exc : Exc)
deriving DecidableEq

def heartbeat : List Outcome → Task
  | [] => .alive
  | .ok () :: rest => heartbeat rest
  | .error exc :: _ => .finished exc

inductive Place where
  | sleeping
  | calling (reaction : Outcome)

structure Scenario where
  finished : List Outcome
  place : Place
  later : List Outcome
  body : Outcome

/-- `task.cancel()` raises at the one place where the task is; a callback that goes on to return has
used it up. -/
def cancel (later : List Outcome) : Place → Task
  | .sleeping => .finished .cancelledError
  | .calling reaction => heartbeat (reaction :: later)

inductive Ending where
  | over (outcome : Outcome) (task : Task)
  | waiting
deriving DecidableEq

def awaitTask : Task → Ending
  | .alive => .waiting
  | .finished .cancelledError => .over (.ok ()) (.finished .cancelledError)
  | .finished exc => .over (.error exc) (.finished exc)

/-- The context of `_call_periodically`. Its `yield` has neither `try` nor `finally` around it. -/
def callPeriodically (s : Scenario) : Ending :=
  match s.body, heartbeat s.finished with
  | .error exc, task => .over (.error exc) task
  | .ok (), .alive => awaitTask (cancel s.later s.place)
  | .ok (), .finished exc => awaitTask (.finished exc)

end JobQ.CallPeriodically
