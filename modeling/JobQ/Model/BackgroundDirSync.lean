import JobQ.Model.Syncer

/-!
# Flushing a directory in the background

`BackgroundDirSync` in `ai4s/jobq/ext/background_dirsync.py`, after `start`: the sync process, the
thread that listens for the flush file, the threads that call `flush`, and the one that calls
`shutdown`. They share four events. A wait without a timeout goes on when the event is set, or has
been set since, even if it is clear again by then. A failed pass is logged and counts as done. The
records of the log are left out.
-/

namespace JobQ.BackgroundDirSync

variable {Content : Type*}

/-- `_run` -/
inductive ProcessPc where
  | waiting
  | clearing
  | starting
  | syncing
  | signalling
  | testingFlush
  | testingShutdown
  | exited
deriving DecidableEq

/-- `_flush_listener` -/
inductive ListenerPc where
  | waiting
  | checking
  | clearing
  | setting
  | entering
  | blocked
  | unlinking
  | ended
deriving DecidableEq

/-- `flush`, which tests `sync_process` and clears `done_event` in one step. -/
inductive CallerPc where
  | idle
  | setting (wait : Bool)
  | entering
  | blocked
  | woken
  | returned
deriving DecidableEq

/-- `shutdown` -/
inductive MainPc where
  | running
  | settingFlush
  | settingShutdown
  | joiningProcess
  | settingLogShutdown
  | joiningLogging
  | joiningListener
  | done
deriving DecidableEq

structure State (Content : Type*) where
  syncer : Syncer.State Content
  process : ProcessPc := .waiting
  listener : ListenerPc := .waiting
  logging : Bool := true
  callers : List CallerPc
  main : MainPc := .running
  flushEvent : Bool := false
  doneEvent : Bool := false
  shutdownEvent : Bool := false
  logShutdownEvent : Bool := false
  watchFile : Bool := false

inductive Action (Content : Type*) where
  | syncer (a : Syncer.Action Content)
  | process
  | triggers
  | listener
  | logging
  | calls (i : Nat) (wait : Bool)
  | caller (i : Nat)
  | main

inductive Event where
  | pass (e : Syncer.Event)
  | left
  | shutdownCalled
deriving DecidableEq

def initial (syncer : Syncer.State Content) (callers : Nat) : State Content where
  syncer
  callers := List.replicate callers .idle

def ListenerPc.wake : ListenerPc → ListenerPc
  | .blocked => .unlinking
  | pc => pc

def CallerPc.wake : CallerPc → CallerPc
  | .blocked => .woken
  | pc => pc

/-- `done_event.set()` -/
def setDone (s : State Content) : State Content :=
  { s with
    doneEvent := true
    listener := s.listener.wake
    callers := s.callers.map CallerPc.wake }

/-- The job writes at any time, and a pass runs inside the loop. -/
def duringPass (pc : ProcessPc) : Syncer.Action Content → Option ProcessPc
  | .begins => if pc = .starting then some .syncing else none
  | .ends | .raises => if pc = .syncing then some .signalling else none
  | _ => some pc

def stepSyncer (c : Syncer.Config) (s : State Content) (a : Syncer.Action Content) :
    Option (State Content × List Event) :=
  match duringPass s.process a, Syncer.step c s.syncer a with
  | some process, some (syncer, events) => some ({ s with syncer, process }, events.map .pass)
  | _, _ => none

def stepProcess (s : State Content) : Option (State Content × List Event) :=
  match s.process with
  | .waiting =>
    -- the wait is over when the event is set, or after `freq` seconds
    some ({ s with process := if s.flushEvent then .clearing else .starting }, [])
  | .clearing => some ({ s with flushEvent := false, process := .starting }, [])
  | .signalling => some ({ setDone s with process := .testingFlush }, [])
  | .testingFlush =>
    some ({ s with process := if s.flushEvent then .waiting else .testingShutdown }, [])
  | .testingShutdown =>
    if s.shutdownEvent then some ({ s with process := .exited }, [.left])
    else some ({ s with process := .waiting }, [])
  | .starting | .syncing | .exited => none

def stepListener (s : State Content) : Option (State Content) :=
  match s.listener with
  | .waiting => some { s with listener := if s.logShutdownEvent then .ended else .checking }
  | .checking => some { s with listener := if s.watchFile then .clearing else .waiting }
  | .clearing => some { s with doneEvent := false, listener := .setting }
  | .setting => some { s with flushEvent := true, listener := .entering }
  | .entering => some { s with listener := if s.doneEvent then .unlinking else .blocked }
  | .unlinking =>
    -- `os.unlink` raises if somebody else has removed the file
    some { s with watchFile := false, listener := if s.watchFile then .waiting else .ended }
  | .blocked | .ended => none

def stepCalls (s : State Content) (i : Nat) (wait : Bool) : Option (State Content) :=
  match s.callers[i]? with
  | some .idle =>
    if s.main = .done then
      some { s with callers := s.callers.set i (if wait then .returned else .idle) }
    else some { s with doneEvent := false, callers := s.callers.set i (.setting wait) }
  | _ => none

def stepCaller (s : State Content) (i : Nat) : Option (State Content) :=
  match s.callers[i]? with
  | some (.setting wait) =>
    some { s with flushEvent := true, callers := s.callers.set i (if wait then .entering else .idle) }
  | some .entering =>
    some { s with callers := s.callers.set i (if s.doneEvent then .returned else .blocked) }
  | some .woken => some { s with callers := s.callers.set i .returned }
  | some .returned => some { s with callers := s.callers.set i .idle }
  | _ => none

def stepMain (s : State Content) : Option (State Content × List Event) :=
  match s.main with
  | .running => some ({ s with main := .settingFlush }, [.shutdownCalled])
  | .settingFlush => some ({ s with flushEvent := true, main := .settingShutdown }, [])
  | .settingShutdown => some ({ s with shutdownEvent := true, main := .joiningProcess }, [])
  | .joiningProcess =>
    if s.process = .exited then some ({ s with main := .settingLogShutdown }, []) else none
  | .settingLogShutdown => some ({ s with logShutdownEvent := true, main := .joiningLogging }, [])
  | .joiningLogging => if s.logging then none else some ({ s with main := .joiningListener }, [])
  | .joiningListener =>
    if s.listener = .ended then some ({ s with main := .done }, []) else none
  | .done => none

def step (c : Syncer.Config) (s : State Content) : Action Content → Option (State Content × List Event)
  | .syncer a => stepSyncer c s a
  | .process => stepProcess s
  | .triggers => some ({ s with watchFile := true }, [])
  | .listener => (stepListener s).map (·, [])
  | .logging => if s.logging ∧ s.logShutdownEvent then some ({ s with logging := false }, []) else none
  | .calls i wait => (stepCalls s i wait).map (·, [])
  | .caller i => (stepCaller s i).map (·, [])
  | .main => stepMain s

def machine (Content : Type*) (c : Syncer.Config) :
    Mealy.Machine (State Content) (Action Content) Event :=
  ⟨step c⟩

end JobQ.BackgroundDirSync
