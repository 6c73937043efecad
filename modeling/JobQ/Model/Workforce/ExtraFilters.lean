import JobQ.Library.Machine
import JobQ.Model.Workforce.ListJobs

/-!
# One list of extra filters for many calls

A caller passes one list as `extra_filters` to `list_jobs`, `get_detailed_state` and
`get_current_state` in `ai4s/jobq/orchestration/workforce.py`. A generator that `list_jobs` returns
runs only while it is asked for a job, and the caller may have many of them.
-/

namespace JobQ.ExtraFilters

open JsonText ListJobs Workforce

section

variable {DateTime Number : Type}

structure Call where
  withStatus : Option (List Status) := none
  ordering : ListJobs.Ordering := .asc
  maxJobs : Option Int := none
  rounds : List Round

inductive Generator (DateTime Number : Type) where
  | created (call : Call)
  | suspended (withStatus : Option (List Status)) (run : ListJobs.Run DateTime Number)
  | executing
  | finished

structure State (DateTime Number : Type) where
  filters : List Json
  generators : List (Generator DateTime Number) := []

inductive Action where
  | listJobs (call : Call)
  | next (i : Nat)
  | getDetailedState (rounds : List Round)
  | getCurrentState (rounds : List Round)

structure CurrentState where
  numPending : Nat
  numRunning : Nat
deriving DecidableEq

/-- A request is kept with the statuses of the call that makes it. A result that is missing is still
awaited. -/
inductive Event (DateTime Number : Type) where
  | requested (withStatus : Option (List Status)) (request : ListJobs.Request)
  | yielded (i : Nat) (job : ListJobs.AmlJob DateTime Number)
  | ended (i : Nat) (ending : Ending)
  | detailed (result : Option (Except ListJobs.Raised DetailedState))
  | current (result : Option (Except ListJobs.Raised CurrentState))

/-! ## Counting -/

def countJobs (ending : Ending) (state : DetailedState) : List (ListJobs.Event DateTime Number) →
    List ListJobs.Request × Option (Except ListJobs.Raised DetailedState)
  | [] =>
    match ending with
    | .stops => ([], some (.ok state))
    | .raises exc => ([], some (.error exc))
    | .awaits => ([], none)
  | .requested request :: rest =>
    let (requests, result) := countJobs ending state rest
    (request :: requests, result)
  | .yielded job :: rest =>
    match state.count job.status with
    | .ok state => countJobs ending state rest
    | .error (.runtimeError message) => ([], some (.error (.runtimeError message)))

variable (readers : Readers DateTime Number) (config : ListJobs.Config)

def getDetailedState (extraFilters : List Json) (rounds : List Round) :
    List ListJobs.Request × Option (Except ListJobs.Raised DetailedState) :=
  let run := listJobs readers config (some activeStatuses) .asc none (some extraFilters) rounds
  countJobs run.ending {} run.events

def getCurrentState (extraFilters : List Json) (rounds : List Round) :
    List ListJobs.Request × Option (Except ListJobs.Raised CurrentState) :=
  let (requests, result) := getDetailedState readers config extraFilters rounds
  (requests, result.map fun result =>
    result.map fun detailed => ⟨detailed.numPending, detailed.numRunning⟩)

/-! ## Generators -/

def advance : List (ListJobs.Event DateTime Number) →
    List ListJobs.Request × Option (ListJobs.AmlJob DateTime Number × List (ListJobs.Event DateTime Number))
  | [] => ([], none)
  | .requested request :: rest =>
    let (requests, left) := advance rest
    (request :: requests, left)
  | .yielded job :: rest => ([], some (job, rest))

def State.put (s : State DateTime Number) (i : Nat) (g : Generator DateTime Number) :
    State DateTime Number :=
  { s with generators := s.generators.set i g }

def resume (s : State DateTime Number) (i : Nat) (withStatus : Option (List Status))
    (run : ListJobs.Run DateTime Number) : State DateTime Number × List (Event DateTime Number) :=
  match advance run.events with
  | (requests, some (job, rest)) =>
    (s.put i (.suspended withStatus ⟨rest, run.ending⟩),
      requests.map (.requested withStatus) ++ [.yielded i job])
  | (requests, none) =>
    let after := match run.ending with
      | .awaits => .executing
      | _ => .finished
    (s.put i after, requests.map (.requested withStatus) ++ [.ended i run.ending])

/-! ## Steps -/

/-- The list that is given is extended in place, before anything else. -/
def step (s : State DateTime Number) :
    Action → Option (State DateTime Number × List (Event DateTime Number))
  | .listJobs call => some ({ s with generators := s.generators ++ [.created call] }, [])
  | .next i =>
    match s.generators[i]? with
    | some (.created call) =>
      let run := listJobs readers config call.withStatus call.ordering call.maxJobs (some s.filters)
        call.rounds
      some (resume { s with filters := extend s.filters call.withStatus } i call.withStatus run)
    | some (.suspended withStatus run) => some (resume s i withStatus run)
    | some .finished => some (s, [.ended i .stops])
    | some .executing | none => none
  | .getDetailedState rounds =>
    let (requests, result) := getDetailedState readers config s.filters rounds
    some ({ s with filters := extend s.filters (some activeStatuses) },
      requests.map (.requested (some activeStatuses)) ++ [.detailed result])
  | .getCurrentState rounds =>
    let (requests, result) := getCurrentState readers config s.filters rounds
    some ({ s with filters := extend s.filters (some activeStatuses) },
      requests.map (.requested (some activeStatuses)) ++ [.current result])

def machine : Mealy.Machine (State DateTime Number) Action (Event DateTime Number) :=
  ⟨step readers config⟩

end

end JobQ.ExtraFilters
