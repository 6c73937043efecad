import JobQ.Library.AsyncQueue
import JobQ.Library.Machine

/-!
# Listing and pushing in parallel

`batch_enqueue` in `ai4s/jobq/orchestration/manager.py`. The main coroutine puts seeds into one
bounded queue, list workers turn them into tasks in another one, and enqueue workers push these.
Seeds and tasks of a work specification may be `None`, which the workers take for a stop sign. The
coroutines take turns at their suspensions.
-/

namespace JobQ.BatchEnqueue
open Asyncio

inductive End where
  | stopped
  | failed
  | cancelled
  /-- Cancelled with an item in hand. -/
  | cutOff
deriving DecidableEq

inductive ListWorker (Seed Task : Type) where
  | waiting
  | listing (seed : Seed)
  | putting (seed : Seed) (item : Option Task)
  | ended (how : End)

inductive EnqueueWorker (Task Job : Type) where
  | waiting
  | considering (task : Task)
  | pushing (job : Job)
  | ended (how : End)

inductive Main (Seed : Type) where
  | seeding
  | putting (seed : Option Seed)
  | joinEnum
  | joinEnqueue
  | collecting
  | returned
  | raised

structure State (Seed Task Job Future : Type) where
  main : Main Seed := .seeding
  enumJobs : Queue (Option Seed)
  enqueueJobs : Queue (Option Task)
  listWorkers : List (ListWorker Seed Task)
  enqueueWorkers : List (EnqueueWorker Task Job)
  futures : List Future := []
  cancelled : Bool := false

inductive Yield (α : Type) where
  | yields (item : Option α)
  | exhausted
  | raises

inductive ListAction (Task : Type) where
  | take
  | lists (next : Yield Task)
  | put
  | cancelled

inductive EnqueueAction (Job Future : Type) where
  | take
  | considered (job : Option Job)
  | pushed (future : Future)
  | raises
  | cancelled

inductive Action (Seed Task Job Future : Type) where
  | seeds (next : Yield Seed)
  | putSeed
  | joined
  /-- `await fut` raises, for a list worker that failed, or `as_completed` times out. -/
  | collectRaises
  | collected
  | list (i : Nat) (a : ListAction Task)
  | enqueue (i : Nat) (a : EnqueueAction Job Future)

inductive Event (Seed Task Job Future : Type) where
  | listed (seed : Seed) (task : Option Task)
  | considered (task : Task) (job : Option Job)
  | pushed (job : Job) (future : Future)
  | failed

variable {Seed Task Job Future : Type}

def ListWorker.isEnded : ListWorker Seed Task → Bool
  | .ended _ => true
  | _ => false

def EnqueueWorker.isEnded : EnqueueWorker Task Job → Bool
  | .ended _ => true
  | _ => false

def maxsize : Nat := 10000

def initial (numListTaskWorkers numEnqueueWorkers : Nat) : State Seed Task Job Future where
  enumJobs := { maxsize }
  enqueueJobs := { maxsize }
  listWorkers := List.replicate numListTaskWorkers .waiting
  enqueueWorkers := List.replicate numEnqueueWorkers .waiting

abbrev Step (Seed Task Job Future : Type) :=
  State Seed Task Job Future × List (Event Seed Task Job Future)

def stepSeeds (s : State Seed Task Job Future) (next : Yield Seed) :
    Option (Step Seed Task Job Future) :=
  match s.main, next with
  | .seeding, .yields seed => some ({ s with main := .putting seed }, [])
  | .seeding, .exhausted => some ({ s with main := .joinEnum }, [])
  | .seeding, .raises => some ({ s with main := .raised }, [])
  | _, _ => none

def stepPutSeed (s : State Seed Task Job Future) : Option (Step Seed Task Job Future) :=
  match s.main with
  | .putting seed =>
    match s.enumJobs.put seed with
    | some q => some ({ s with main := .seeding, enumJobs := q }, [])
    | none => none
  | _ => none

def stepJoined (s : State Seed Task Job Future) : Option (Step Seed Task Job Future) :=
  match s.main with
  | .joinEnum => if s.enumJobs.joined then some ({ s with main := .joinEnqueue }, []) else none
  | .joinEnqueue =>
    if s.enqueueJobs.joined then some ({ s with main := .collecting, cancelled := true }, []) else none
  | _ => none

def listFailed (s : State Seed Task Job Future) : Bool :=
  s.listWorkers.any fun w => w matches .ended .failed

def allEnded (s : State Seed Task Job Future) : Bool :=
  s.listWorkers.all ListWorker.isEnded ∧ s.enqueueWorkers.all EnqueueWorker.isEnded

def stepCollected (s : State Seed Task Job Future) : Option (Step Seed Task Job Future) :=
  match s.main with
  | .collecting =>
    if allEnded s ∧ listFailed s = false then some ({ s with main := .returned }, []) else none
  | _ => none

def stepCollectRaises (s : State Seed Task Job Future) : Option (Step Seed Task Job Future) :=
  match s.main with
  | .collecting =>
    if listFailed s ∨ allEnded s = false then some ({ s with main := .raised }, []) else none
  | _ => none

/-- `enum_worker`. Its `finally` marks the seed as done, however the listing ends. -/
def stepList (s : State Seed Task Job Future) (i : Nat) (w : ListWorker Seed Task) :
    ListAction Task → Option (Step Seed Task Job Future)
  | .take =>
    match w with
    | .waiting =>
      match s.enumJobs.get with
      | some (some seed, q) =>
        some ({ s with enumJobs := q, listWorkers := s.listWorkers.set i (.listing seed) }, [])
      | some (none, q) =>
        some ({ s with
          enumJobs := q.taskDone, listWorkers := s.listWorkers.set i (.ended .stopped) }, [])
      | none => none
    | _ => none
  | .lists next =>
    match w with
    | .listing seed =>
      match next with
      | .yields item =>
        some ({ s with listWorkers := s.listWorkers.set i (.putting seed item) },
          [.listed seed item])
      | .exhausted =>
        some ({ s with
          enumJobs := s.enumJobs.taskDone, listWorkers := s.listWorkers.set i .waiting }, [])
      | .raises =>
        some ({ s with
          enumJobs := s.enumJobs.taskDone
          listWorkers := s.listWorkers.set i (.ended .failed) }, [.failed])
    | _ => none
  | .put =>
    match w with
    | .putting seed item =>
      match s.enqueueJobs.put item with
      | some q =>
        some ({ s with enqueueJobs := q, listWorkers := s.listWorkers.set i (.listing seed) }, [])
      | none => none
    | _ => none
  | .cancelled =>
    match w with
    | .waiting => some ({ s with listWorkers := s.listWorkers.set i (.ended .cancelled) }, [])
    | .listing _ | .putting _ _ =>
      some ({ s with
        enumJobs := s.enumJobs.taskDone, listWorkers := s.listWorkers.set i (.ended .cutOff) }, [])
    | .ended _ => none

/-- `enqueue_worker`. It leaves its loop on `None`, without `task_done`, and on an exception. -/
def stepEnqueue (dryRun : Bool) (s : State Seed Task Job Future) (i : Nat)
    (w : EnqueueWorker Task Job) :
    EnqueueAction Job Future → Option (Step Seed Task Job Future)
  | .take =>
    match w with
    | .waiting =>
      match s.enqueueJobs.get with
      | some (some task, q) =>
        some ({ s with
          enqueueJobs := q, enqueueWorkers := s.enqueueWorkers.set i (.considering task) }, [])
      | some (none, q) =>
        some ({ s with
          enqueueJobs := q, enqueueWorkers := s.enqueueWorkers.set i (.ended .stopped) }, [])
      | none => none
    | _ => none
  | .considered job =>
    match w with
    | .considering task =>
      match job, dryRun with
      | some job, false =>
        some ({ s with enqueueWorkers := s.enqueueWorkers.set i (.pushing job) },
          [.considered task (some job)])
      | job, _ =>
        some ({ s with
          enqueueJobs := s.enqueueJobs.taskDone
          enqueueWorkers := s.enqueueWorkers.set i .waiting }, [.considered task job])
    | _ => none
  | .pushed future =>
    match w with
    | .pushing job =>
      some ({ s with
        enqueueJobs := s.enqueueJobs.taskDone
        enqueueWorkers := s.enqueueWorkers.set i .waiting
        futures := s.futures ++ [future] }, [.pushed job future])
    | _ => none
  | .raises =>
    match w with
    | .considering _ | .pushing _ =>
      some ({ s with
        enqueueJobs := s.enqueueJobs.taskDone
        enqueueWorkers := s.enqueueWorkers.set i (.ended .failed) }, [.failed])
    | _ => none
  | .cancelled =>
    match w with
    | .waiting => some ({ s with enqueueWorkers := s.enqueueWorkers.set i (.ended .cancelled) }, [])
    | .considering _ | .pushing _ =>
      some ({ s with enqueueWorkers := s.enqueueWorkers.set i (.ended .cutOff) }, [])
    | .ended _ => none

def ListAction.suits (cancelled : Bool) : ListAction Task → Bool
  | .cancelled => cancelled
  | _ => !cancelled

def EnqueueAction.suits (cancelled : Bool) : EnqueueAction Job Future → Bool
  | .cancelled => cancelled
  | _ => !cancelled

def step (dryRun : Bool) (s : State Seed Task Job Future) :
    Action Seed Task Job Future → Option (Step Seed Task Job Future)
  | .seeds next => stepSeeds s next
  | .putSeed => stepPutSeed s
  | .joined => stepJoined s
  | .collectRaises => stepCollectRaises s
  | .collected => stepCollected s
  | .list i a =>
    match s.listWorkers[i]? with
    | some w => if a.suits s.cancelled then stepList s i w a else none
    | none => none
  | .enqueue i a =>
    match s.enqueueWorkers[i]? with
    | some w => if a.suits s.cancelled then stepEnqueue dryRun s i w a else none
    | none => none

def machine (dryRun : Bool) : Mealy.Machine (State Seed Task Job Future)
    (Action Seed Task Job Future) (Event Seed Task Job Future) := ⟨step dryRun⟩

end JobQ.BatchEnqueue
