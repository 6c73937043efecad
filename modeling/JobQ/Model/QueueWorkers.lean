import JobQ.Model.LaunchWorkers
import JobQ.Model.QueueSystem

/-!
# `launch_workers` on a Storage Queue

Every worker of `launch_workers` calls `pull_and_execute`, which asks for a message, reads the answer
and delivers what it brings. Here the coroutines of both machines, the queue service and whoever
pushes tasks take turns.
-/

namespace JobQ.QueueWorkers
open QueueSystem

inductive Progress where
  | asking
  | toldEmpty
  /-- The service has handed a message out, and answer `i` brings it. -/
  | answered (i : Nat)
  | executing (d : AttemptId)

structure State where
  launch : LaunchWorkers.State
  sys : System
  pulls : List Progress

inductive Action where
  | launch (a : LaunchWorkers.Action)
  | hands (i : Nat) (m : MessageId)
  | tellsEmpty (i : Nat)
  | receives (i : Nat) (cfg : Config) (call : CallResult)
  | queue (a : Act)

def initial (numWorkers : Nat) : State where
  launch := LaunchWorkers.initial numWorkers
  sys := System.initial
  pulls := List.replicate numWorkers .asking

def exc : Exc → LaunchWorkers.Exc
  | .lockLostError _ => .lockLostError
  | .workerCanceled => .workerCanceled
  | .cancelledError => .cancelledError
  | .notImplementedError _ | .unboundLocalError _ | .brokerError _ | .other _ | .unprintable _ => .other

def pullResult : Result → LaunchWorkers.Result
  | .returned success => .returned success
  | .raised e => .raised (exc e)

/-- Without a delivery the pull can only end with an exception of `receive_message`. -/
def unreceived : LaunchWorkers.Result → Bool
  | .raised .cancelledError | .raised .other => true
  | _ => false

def State.mayEnd (s : State) (i : Nat) (result : LaunchWorkers.Result) : Bool :=
  match s.pulls[i]? with
  | some .asking | some (.answered _) => unreceived result
  | some .toldEmpty => result = .raised .emptyQueue ∨ unreceived result
  | some (.executing d) =>
    match s.sys.attempts[d]? with
    | some a =>
      match a.state.pc with
      | .finished r => pullResult r = result
      | _ => false
    | none => false
  | none => false

def stepLaunch (c : LaunchWorkers.Config) (s : State) (a : LaunchWorkers.Action) :
    Option (State × List LaunchWorkers.Event) :=
  match LaunchWorkers.step c s.launch a with
  | none => none
  | some (launch, events) =>
    match a with
    | .worker i (.begins _) => some ({ s with launch, pulls := s.pulls.set i .asking }, events)
    | .worker i (.pullEnds result) =>
      if s.mayEnd i result then some ({ s with launch }, events) else none
    | _ => some ({ s with launch }, events)

def State.isAsking (s : State) (i : Nat) : Bool :=
  match s.launch.workers[i]?, s.pulls[i]? with
  | some w, some .asking => w.pull = .running
  | _, _ => false

def stepHands (s : State) (i : Nat) (m : MessageId) : Option State :=
  if s.isAsking i then
    match s.sys.hand m with
    | some sys => some { s with sys, pulls := s.pulls.set i (.answered s.sys.answers.length) }
    | none => none
  else none

def stepTellsEmpty (s : State) (i : Nat) : Option State :=
  if s.isAsking i then some { s with pulls := s.pulls.set i .toldEmpty } else none

def stepReceives (s : State) (i : Nat) (cfg : Config) (call : CallResult) : Option State :=
  match s.launch.workers[i]?, s.pulls[i]? with
  | some w, some (.answered k) =>
    if w.pull = .running then
      match s.sys.receive k cfg call with
      | some sys =>
        let progress :=
          if s.sys.attempts.length < sys.attempts.length then .executing s.sys.attempts.length
          else .answered k
        some { s with sys, pulls := s.pulls.set i progress }
      | none => none
    else none
  | _, _ => none

/-- What others do with the queue. Among them is a request for a message whose worker has stopped
waiting for the answer. -/
def stepQueue (s : State) : Act → Option State
  | .receive _ _ _ | .crash _ => none
  | a => (s.sys.step a).map fun sys => { s with sys }

def step (c : LaunchWorkers.Config) (s : State) :
    Action → Option (State × List LaunchWorkers.Event)
  | .launch a => stepLaunch c s a
  | .hands i m => (stepHands s i m).map (·, [])
  | .tellsEmpty i => (stepTellsEmpty s i).map (·, [])
  | .receives i cfg call => (stepReceives s i cfg call).map (·, [])
  | .queue a => (stepQueue s a).map (·, [])

def machine (c : LaunchWorkers.Config) : Mealy.Machine State Action LaunchWorkers.Event := ⟨step c⟩

end JobQ.QueueWorkers
