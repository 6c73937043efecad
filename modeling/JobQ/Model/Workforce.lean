/-!
# The jobs of one region

`get_detailed_state` in `ai4s/jobq/orchestration/workforce.py`. The service is asked for the jobs
that are active, and every one it lists is counted under its status.
-/

namespace JobQ.Workforce

inductive Status where
  | cancelRequested
  | canceled
  | completed
  | failed
  | finalizing
  | notStarted
  | paused
  | preparing
  | queued
  | running
  | starting
  | succeeded
  | validating
  | waiting
deriving DecidableEq

def Status.text : Status → String
  | .cancelRequested => "Cancel requested"
  | .canceled => "Canceled"
  | .completed => "Completed"
  | .failed => "Failed"
  | .finalizing => "Finalizing"
  | .notStarted => "Not started"
  | .paused => "Paused"
  | .preparing => "Preparing"
  | .queued => "Queued"
  | .running => "Running"
  | .starting => "Starting"
  | .succeeded => "Succeeded"
  | .validating => "Validating"
  | .waiting => "Waiting"

/-- What `get_detailed_state` filters by. -/
def activeStatuses : List Status := [.paused, .preparing, .queued, .running, .starting, .waiting]

structure DetailedState where
  numRunning : Nat := 0
  numPaused : Nat := 0
  numQueued : Nat := 0
  numPreparing : Nat := 0
  numStarting : Nat := 0
  numWaiting : Nat := 0
deriving DecidableEq

def DetailedState.numPending (state : DetailedState) : Nat :=
  state.numPaused + state.numQueued + state.numPreparing + state.numStarting + state.numWaiting

inductive Exc where
  | runtimeError (message : String)
deriving DecidableEq

def DetailedState.count (state : DetailedState) : Status → Except Exc DetailedState
  | .running => .ok { state with numRunning := state.numRunning + 1 }
  | .paused => .ok { state with numPaused := state.numPaused + 1 }
  | .queued => .ok { state with numQueued := state.numQueued + 1 }
  | .preparing => .ok { state with numPreparing := state.numPreparing + 1 }
  | .starting => .ok { state with numStarting := state.numStarting + 1 }
  | .waiting => .ok { state with numWaiting := state.numWaiting + 1 }
  | status => .error (.runtimeError ("Unknown job status: " ++ status.text))

def getDetailedState (jobs : List Status) : Except Exc DetailedState :=
  jobs.foldlM DetailedState.count {}

end JobQ.Workforce
