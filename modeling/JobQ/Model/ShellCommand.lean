import JobQ.Model.PullAndExecute
import JobQ.Model.RunCmd

/-!
# Tasks that are shell commands

`ShellCommandProcessor.__call__` in `ai4s/jobq/work.py`, with `ProcessPool.submit`. What
`run_cmd_and_log_outputs` raises in a child of the pool is raised again in the parent. The call may
fail before there is a process, and `submit` whatever becomes of it.
-/

namespace JobQ.ShellCommandProcessor
open JsonText

structure ProgressStats where
  numSucceededJobqTasks : Nat := 0
  numFailedJobqTasks : Nat := 0

inductive Future where
  | ended (result : RunCmd.Result)
  /-- The process could not be started, or the executor refused the function or broke. -/
  | failed (text : String)
  | cancelled

/-- With `_in_shutdown` as it is at the end, and the text of what the contexts for `bg_dirsync_to`
raised last. -/
def submit (contexts : Option String) (inShutdown : Bool) (future : Future) : Except Exc Int :=
  match contexts, future with
  | some text, _ => .error (.other text)
  | none, .failed text => .error (.other text)
  | none, .cancelled => .error .cancelledError
  | none, .ended .workerCanceled => .error .workerCanceled
  | none, .ended .unboundLocalError => .error (.unboundLocalError "ret")
  | none, .ended (.returned ret) => if inShutdown then .error .workerCanceled else .ok ret

def failure (repr : Json → String) (cmd : Json) (ret : Int) : String :=
  "Command " ++ repr cmd ++ " failed with return code " ++ toString ret

structure Call where
  /-- `cmd`, or the text of what is raised before `submit`: the arguments do not fit, there is no
  log queue, or `env` is no dictionary. -/
  arguments : Except String Json
  contexts : Option String := none
  future : Future
  inShutdown : Bool := false
  stats : ProgressStats := {}

def call (repr : Json → String) (c : Call) : Outcome × ProgressStats :=
  match c.arguments with
  | .error text => (.raised (.other text), c.stats)
  | .ok cmd =>
    match submit c.contexts c.inShutdown c.future with
    | .error exc => (.raised exc, c.stats)
    | .ok ret =>
      if ret ≠ 0 then
        (.raised (.other (failure repr cmd ret)),
          { c.stats with numFailedJobqTasks := c.stats.numFailedJobqTasks + 1 })
      else
        (.returned (.int ret),
          { c.stats with numSucceededJobqTasks := c.stats.numSucceededJobqTasks + 1 })

end JobQ.ShellCommandProcessor
