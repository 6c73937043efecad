import Mathlib.Algebra.Order.Ring.Int
import JobQ.Library.Json
import JobQ.Library.IntLiteral
import JobQ.Library.PeekLock

/-!
# Shutdown messages and the processes of a node

`_check_for_shutdown_events` in `ai4s/jobq/orchestration/workforce_monitor.py`, with
`send_signal_by_glob` and `check_pid` in `ai4s/jobq/orchestration/pid_file.py`. Any number of
processes on any number of nodes run such a monitor, and all of them share one subscription. The pid
files are those of one queue, and anybody may write or remove one at any time. A step is one call of
the operating system or of the broker. Logging is left out, and the name of the directory has no
character that is special to `glob`.
-/

namespace JobQ.WorkforceMonitor
open JsonText

inductive Signal where
  | sigusr1
  | sigusr2
deriving DecidableEq

structure Process where
  node : Nat
  pid : Nat
  pgid : Nat
  uid : Nat
  alive : Bool := true

/-- The content is the text of the file, unless it is not UTF-8. -/
structure File where
  node : Nat
  path : String
  content : Option String
deriving DecidableEq

/-- A message, the lock on it and the signal that it asks for. -/
structure Job where
  number : Nat
  lockToken : Nat
  signal : Signal

/-- What a monitor does next; `rest` is what is left of the pid files that `glob` has listed. -/
inductive Pc where
  | connecting
  | receiving
  | globbing (job : Job)
  | opening (job : Job) (path : String) (rest : List String)
  | probing (job : Job) (pid : Int) (rest : List String)
  | sending (job : Job) (pid : Int) (rest : List String)
  | completing (job : Job)
  | ended

structure Monitor where
  process : Nat
  pc : Pc := .connecting

structure State where
  processes : List Process := []
  files : List File := []
  broker : PeekLock.Broker Nat String := {}
  monitors : List Monitor := []

inductive Move where
  | connects
  | receives (n : Nat)
  | globs (paths : List String)
  | goesOn
  | completes (answered : Bool)
  | fails
  | cancelled

inductive Action where
  | starts (process : Process)
  | dies (i : Nat)
  | writes (file : File)
  | removes (node : Nat) (path : String)
  | posts (id : Nat) (text : String)
  | expires (n : Nat)
  | exceeds (n : Nat)
  | monitors (i : Nat)
  | monitor (m : Nat) (move : Move)

inductive Event where
  | delivered (m n : Nat) (text : String)
  | read (m : Nat) (path text : String)
  | signalled (m i : Nat) (signal : Signal)
  | completed (m n : Nat)
  | ended (m : Nat)
deriving DecidableEq

def maxDeliveryCount : Nat := 10

/-! ## The operating system -/

inductive KillError where
  | processLookupError
  | permissionError
  | overflowError
deriving DecidableEq

/-- Whom `os.kill(pid, …)` is about when `sender` calls it. -/
def addressed (sender : Process) (pid : Int) (p : Process) : Bool :=
  p.alive && p.node = sender.node &&
    if 0 < pid then (p.pid : Int) = pid
    else if pid = 0 then p.pgid = sender.pgid
    else if pid = -1 then p.pid ≠ 1 && p.pid ≠ sender.pid
    else (p.pgid : Int) = -pid

def permitted (sender p : Process) : Bool := sender.uid = 0 || sender.uid = p.uid

/-- The processes that get the signal. -/
def kill (s : State) (sender : Process) (pid : Int) : Except KillError (List Nat) :=
  if pid < -2 ^ 31 ∨ 2 ^ 31 ≤ pid then .error .overflowError
  else
    let targets := s.processes.zipIdx.filter fun x => addressed sender pid x.1
    let reached := targets.filter fun x => permitted sender x.1
    if targets = [] then .error .processLookupError
    else if reached = [] then .error .permissionError
    else .ok (reached.map Prod.snd)

def State.file (s : State) (node : Nat) (path : String) : Option File :=
  s.files.find? fun f => f.node = node ∧ f.path = path

def State.paths (s : State) (node : Nat) : List String :=
  (s.files.filter fun f => f.node = node).map File.path

def State.without (s : State) (node : Nat) (path : String) : State :=
  { s with files := s.files.filter fun f => !(f.node = node ∧ f.path = path) }

/-! ## Messages -/

def signalOf (operation : Str) : Option Signal :=
  if operation = "do-not-accept-new-tasks" then some .sigusr1
  else if operation = "graceful-downscale" then some .sigusr2
  else none

/-- `none` is a text that raises, and an operation that is none of the two. -/
def requested (text : String) : Option Signal :=
  match loads text with
  | some (.obj members) =>
    match getItem members "operation" with
    | some (.str operation) => signalOf operation
    | _ => none
  | _ => none

/-! ## Steps -/

def State.put (s : State) (m : Nat) (mon : Monitor) (pc : Pc) : State :=
  { s with monitors := s.monitors.set m { mon with pc } }

/-- The loop over the pid files. -/
def nextFile (job : Job) : List String → Pc
  | [] => .completing job
  | path :: rest => .opening job path rest

def stepReceives (s : State) (m : Nat) (mon : Monitor) (n : Nat) : Option (State × List Event) :=
  match s.broker.step maxDeliveryCount (.lock n), s.broker.queue n with
  | some (broker, _), some message =>
    let pc :=
      match requested message.content with
      | some signal => .globbing ⟨n, s.broker.nextToken, signal⟩
      | none => .receiving
    some ({ s with broker }.put m mon pc, [.delivered m n message.content])
  | _, _ => none

/-- What leaves `send_signal_by_glob` is caught, and the monitor goes back to receiving. -/
def stepGoesOn (s : State) (m : Nat) (mon : Monitor) (p : Process) : Option (State × List Event) :=
  match mon.pc with
  | .opening job path rest =>
    match s.file p.node path with
    -- `FileNotFoundError`
    | none => some (s.put m mon .receiving, [])
    | some file =>
      match file.content with
      -- `UnicodeDecodeError` is a `ValueError`, and `pid_str` has no value to be logged
      | none => some (s.put m mon .receiving, [])
      | some text =>
        match IntLiteral.int text.toList with
        | some pid => some (s.put m mon (.probing job pid rest), [.read m path text])
        | none => some (s.put m mon (nextFile job rest), [.read m path text])
  | .probing job pid rest =>
    match kill s p pid with
    | .ok _ => some (s.put m mon (.sending job pid rest), [])
    | .error .overflowError => some (s.put m mon .receiving, [])
    | .error _ => some (s.put m mon (nextFile job rest), [])
  | .sending job pid rest =>
    match kill s p pid with
    | .ok reached =>
      some (s.put m mon (nextFile job rest), reached.map fun i => .signalled m i job.signal)
    | .error .overflowError => some (s.put m mon .receiving, [])
    | .error _ => some (s.put m mon (nextFile job rest), [])
  | _ => none

/-- The broker may take a request whose answer gets lost. -/
def stepCompletes (s : State) (m : Nat) (mon : Monitor) (answered : Bool) :
    Option (State × List Event) :=
  match mon.pc with
  | .completing job =>
    match s.broker.step maxDeliveryCount (.complete job.number job.lockToken) with
    | some (broker, _) =>
      let s := { s with broker }
      if answered then
        some (s.put m mon .ended, [.completed m job.number, .ended m])
      else some (s.put m mon .receiving, [.completed m job.number])
    | none => none
  | _ => none

def stepMonitor (s : State) (m : Nat) (mon : Monitor) (p : Process) :
    Move → Option (State × List Event)
  | .connects =>
    match mon.pc with
    | .connecting => some (s.put m mon .receiving, [])
    | _ => none
  | .receives n =>
    match mon.pc with
    | .receiving => stepReceives s m mon n
    | _ => none
  | .globs paths =>
    match mon.pc with
    | .globbing job =>
      if paths.Perm (s.paths p.node) then some (s.put m mon (nextFile job paths), []) else none
    | _ => none
  | .goesOn => stepGoesOn s m mon p
  | .completes answered => stepCompletes s m mon answered
  | .fails =>
    match mon.pc with
    | .connecting => some (s.put m mon .ended, [.ended m])
    | .receiving | .opening .. | .completing _ => some (s.put m mon .receiving, [])
    | _ => none
  | .cancelled =>
    match mon.pc with
    | .connecting | .receiving | .completing _ => some (s.put m mon .ended, [.ended m])
    | _ => none

def perform (s : State) (op : PeekLock.Op Nat String) : Option (State × List Event) :=
  (s.broker.step maxDeliveryCount op).map fun next => ({ s with broker := next.1 }, [])

/-- No two processes of a node that are alive have one pid. -/
def step (s : State) : Action → Option (State × List Event)
  | .starts p =>
    if s.processes.any fun q => q.alive && q.node = p.node && q.pid = p.pid then none
    else some ({ s with processes := s.processes ++ [{ p with alive := true }] }, [])
  | .dies i =>
    match s.processes[i]? with
    | some p => some ({ s with processes := s.processes.set i { p with alive := false } }, [])
    | none => none
  | .writes file =>
    some ({ s with files := (s.without file.node file.path).files ++ [file] }, [])
  | .removes node path => some (s.without node path, [])
  | .posts id text => perform s (.send id text)
  | .expires n => perform s (.expire n)
  | .exceeds n => perform s (.exceed n)
  | .monitors i =>
    match s.processes[i]? with
    | some _ => some ({ s with monitors := s.monitors ++ [{ process := i }] }, [])
    | none => none
  | .monitor m move =>
    match s.monitors[m]? with
    | some mon =>
      match s.processes[mon.process]? with
      | some p => if p.alive then stepMonitor s m mon p move else none
      | none => none
    | none => none

def machine : Mealy.Machine State Action Event := ⟨step⟩

end JobQ.WorkforceMonitor
