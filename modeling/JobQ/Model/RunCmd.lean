import JobQ.Library.Clock

/-!
# One shell command

`run_cmd_and_log_outputs` in `ai4s/jobq/work.py`, from the moment its signal handler is installed.
The process, the two readers of its output, and the handler of SIGUSR1 act between any two steps of
the coroutine, the handler also where the coroutine does not suspend. `process.wait()` is over some
time after the process has exited: there are versions of asyncio where it also waits for the pipes
to close. Times are in milliseconds. The command line and the log are left out.
-/

namespace JobQ.RunCmd

structure Config where
  killTimeout : Int

def pollInterval : Nat := 100

def drainTimeout : Nat := 5 * 1000

inductive Result where
  | returned (ret : Int)
  | workerCanceled
  /-- `return ret` where `ret` was never bound. -/
  | unboundLocalError
deriving DecidableEq

inductive Pc where
  | polling (wakesAt : Nat)
  /-- The kill is due: before `os.killpg`. -/
  | escalating
  /-- Between `os.killpg` and `_terminated_at = None`. -/
  | escalated
  | waiting
  | draining (ret : Int) (deadline : Nat)
  | cancelling (ret : Option Int)
  | leaving (ret : Option Int)
  | ended (result : Result)
deriving DecidableEq

inductive Stream where
  | stdout
  | stderr
deriving DecidableEq

/-- The coroutine does not suspend there: only the signal handler may run. -/
def Pc.isBusy : Pc → Bool
  | .escalating | .escalated | .leaving _ => true
  | _ => false

inductive Killpg where
  | sent
  | processLookupError
  | permissionError
deriving DecidableEq

inductive Why where
  | escalation
  | orphans
  | error
deriving DecidableEq

structure State where
  pc : Pc := .polling 0
  now : Nat := 0
  returncode : Option Int := none
  /-- `process.wait()` is over. -/
  waited : Bool := false
  stdoutDone : Bool := false
  stderrDone : Bool := false
  terminated : Bool := false
  terminatedAt : Option Nat := none

inductive Action where
  | tick
  | signal
  | exits (returncode : Int)
  | readerEnds (stream : Stream)
  | waitEnds
  | resume (killpg : Killpg)
  | timesOut (killpg : Killpg)

inductive Event where
  | sigusr1 (time : Nat)
  | sigterm
  | sigkill (why : Why) (time : Nat)
  | exited (returncode : Int) (time : Nat)
  | readerEnded (stream : Stream)
  | waited (time : Nat)
  | ended (result : Result)
deriving DecidableEq

namespace State

def readTaskDone (s : State) : Bool := s.stdoutDone && s.stderrDone

def endReader (s : State) : Stream → State
  | .stdout => { s with stdoutDone := true }
  | .stderr => { s with stderrDone := true }

def handleShutdownSignal (s : State) : State × List Event :=
  ({ s with terminated := true, terminatedAt := some s.now },
    .sigusr1 s.now :: if s.returncode.isNone then [.sigterm] else [])

def killDue (c : Config) (s : State) : Bool :=
  match s.terminatedAt with
  | some terminatedAt => 0 < c.killTimeout ∧ c.killTimeout * 1000 ≤ (s.now : Int) - terminatedAt
  | none => false

def escalate (s : State) : Killpg → State × List Event
  | .sent => ({ s with pc := .escalated }, [.sigkill .escalation s.now])
  | .processLookupError => ({ s with pc := .escalated }, [])
  | .permissionError => ({ s with pc := .cancelling none }, [])

def poll (c : Config) (s : State) : State :=
  match s.returncode with
  | some ret =>
    if s.readTaskDone then { s with pc := .leaving (some ret) }
    else { s with pc := .draining ret (s.now + drainTimeout) }
  | none =>
    if s.readTaskDone then { s with pc := .waiting }
    else if s.killDue c then { s with pc := .escalating }
    else { s with pc := .polling (s.now + pollInterval) }

def killProcess (s : State) : Killpg → List Event
  | .sent => [.sigkill .error s.now]
  | .processLookupError | .permissionError =>
    if s.returncode.isNone then [.sigkill .error s.now] else []

def leave (s : State) (ret : Option Int) : Result :=
  if s.terminated then .workerCanceled
  else
    match ret with
    | some ret => .returned ret
    | none => .unboundLocalError

def resume (c : Config) (s : State) (killpg : Killpg) : Option (State × List Event) :=
  match s.pc with
  | .polling wakesAt => if wakesAt ≤ s.now then some (s.poll c, []) else none
  | .escalating => some (s.escalate killpg)
  | .escalated =>
    some ({ s with terminatedAt := none, pc := .polling (s.now + pollInterval) }, [])
  | .waiting => if s.waited then some ({ s with pc := .leaving s.returncode }, []) else none
  | .draining ret _ => if s.readTaskDone then some ({ s with pc := .leaving (some ret) }, []) else none
  | .cancelling (some ret) => some ({ s with pc := .leaving (some ret) }, [])
  | .cancelling none => some ({ s with pc := .leaving none }, s.killProcess killpg)
  | .leaving ret => some ({ s with pc := .ended (s.leave ret) }, [.ended (s.leave ret)])
  | .ended _ => none

def timesOut (s : State) (killpg : Killpg) : Option (State × List Event) :=
  match s.pc with
  | .draining ret deadline =>
    if deadline ≤ s.now then
      some ({ s with pc := .cancelling (some ret) },
        if killpg = .sent then [.sigkill .orphans s.now] else [])
    else none
  | _ => none

def step (c : Config) (s : State) : Action → Option (State × List Event)
  | .tick => some ({ s with now := s.now + 1 }, [])
  | .signal => some s.handleShutdownSignal
  | .exits returncode =>
    if s.pc.isBusy = false ∧ s.returncode.isNone then
      some ({ s with returncode := some returncode }, [.exited returncode s.now])
    else none
  | .readerEnds stream =>
    if s.pc.isBusy then none else some (s.endReader stream, [.readerEnded stream])
  | .waitEnds =>
    if s.pc = .waiting ∧ s.returncode.isSome ∧ s.waited = false then
      some ({ s with waited := true }, [.waited s.now])
    else none
  | .resume killpg => s.resume c killpg
  | .timesOut killpg => s.timesOut killpg

end State

def machine (c : Config) : Mealy.Machine State Action Event := ⟨State.step c⟩

end JobQ.RunCmd
