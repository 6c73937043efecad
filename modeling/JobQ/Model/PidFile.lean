import JobQ.Library.Machine

/-!
# A pid file as a lock

`PidFile` in `ai4s/jobq/orchestration/pid_file.py`, with any number of processes that enter and leave
it on one path. A step is one call of the operating system, and any of them may fail. A file goes by
a number, which it keeps when it is removed from the path. It is empty until the pid is written to
it, and holds the pid from then on. Logging is left out.
-/

namespace JobQ.PidFile

inductive Exc where
  | processRunning (pid : Nat)
  | fileNotFound
  | fileExists
  | osError
deriving DecidableEq

/-- `exception_type` of `__exit__` -/
inductive ExceptionType where
  | processRunning
  | other
deriving DecidableEq

/-- What `__enter__`, `check_pid` and `__exit__` do next. `file` is the one that `check_pid` has
opened. -/
inductive Pc where
  | outside
  | makingDirs
  | creating
  | opening
  | reading (file : Nat)
  | probing (file pid : Nat)
  | removing (file : Nat)
  | recreating
  | writing
  | closing
  | inside
  | leaving
  | dead
deriving DecidableEq

structure Pidfd where
  fd : Nat
  file : Nat

structure Process where
  pid : Nat
  uid : Nat
  pidfd : Option Pidfd := none
  pc : Pc := .outside

structure State where
  processes : List Process := []
  path : Option Nat := none
  files : List (Option Nat) := []

inductive Move where
  | enters
  /-- `os.open` with `O_EXCL`; a file that it creates is open as `fd`. -/
  | creates (fd : Nat)
  | goesOn
  | fails
  | exits (exc : Option ExceptionType)
  | dies

inductive Action where
  | starts (pid uid : Nat)
  | process (i : Nat) (m : Move)

inductive Event where
  | entered (i : Nat)
  | raised (i : Nat) (exc : Exc)
  | left (i : Nat)
deriving DecidableEq

def Process.alive (p : Process) : Bool := p.pc ≠ .dead

/-! ## The operating system -/

inductive Errno where
  | esrch
  | eperm
deriving DecidableEq

/-- `os.kill(pid, 0)` by a process of the user `uid` -/
def kill (s : State) (uid pid : Nat) : Except Errno Unit :=
  match s.processes.find? fun p => p.alive && p.pid = pid with
  | none => .error .esrch
  | some p => if uid = 0 ∨ uid = p.uid then .ok () else .error .eperm

def State.put (s : State) (i : Nat) (p : Process) : State :=
  { s with processes := s.processes.set i p }

def create (s : State) (i : Nat) (p : Process) (fd : Nat) : State where
  processes := s.processes.set i { p with pidfd := some ⟨fd, s.files.length⟩, pc := .writing }
  path := some s.files.length
  files := s.files ++ [none]

/-! ## Steps -/

def raises (s : State) (i : Nat) (p : Process) (exc : Exc) : State × List Event :=
  (s.put i { p with pc := .outside }, [.raised i exc])

def stepCreates (s : State) (i : Nat) (p : Process) (fd : Nat) : Option (State × List Event) :=
  match p.pc, s.path with
  | .creating, none | .recreating, none => some (create s i p fd, [])
  | .creating, some _ => some (s.put i { p with pc := .opening }, [])
  | .recreating, some _ => some (raises s i p .fileExists)
  | _, _ => none

def stepGoesOn (s : State) (i : Nat) (p : Process) : Option (State × List Event) :=
  match p.pc with
  | .makingDirs => some (s.put i { p with pc := .creating }, [])
  | .opening =>
    match s.path with
    | some file => some (s.put i { p with pc := .reading file }, [])
    | none => some (raises s i p .fileNotFound)
  | .reading file =>
    match s.files[file]? with
    | some (some pid) => some (s.put i { p with pc := .probing file pid }, [])
    -- `int` raises a `ValueError`, and `check_pid` returns `None`
    | some none => some (s.put i { p with pc := .removing file }, [])
    | none => none
  | .probing file pid =>
    match kill s p.uid pid with
    | .ok () => some (raises s i { p with pidfd := none } (.processRunning pid))
    -- `except OSError`, whatever its `errno`
    | .error _ => some (s.put i { p with pc := .removing file }, [])
  | .removing _ =>
    match s.path with
    | some _ => some ({ s with path := none }.put i { p with pc := .recreating }, [])
    | none => some (raises s i p .fileNotFound)
  | .writing =>
    match p.pidfd with
    | some pidfd =>
      some ({ s with files := s.files.set pidfd.file (some p.pid) }.put i { p with pc := .closing }, [])
    | none => none
  | .closing => some (s.put i { p with pc := .inside }, [.entered i])
  | .leaving =>
    match s.path with
    | some _ => some ({ s with path := none }.put i { p with pc := .outside }, [.left i])
    | none => some (raises s i p .fileNotFound)
  | .outside | .creating | .recreating | .inside | .dead => none

/-- An `OSError` of another kind. `check_pid` catches the one of `os.kill`. -/
def stepFails (s : State) (i : Nat) (p : Process) : Option (State × List Event) :=
  match p.pc with
  | .outside | .probing .. | .inside | .dead => none
  | _ => some (raises s i p .osError)

def stepExits (s : State) (i : Nat) (p : Process) (exc : Option ExceptionType) :
    Option (State × List Event) :=
  match p.pc, exc with
  | .inside, none => some (s.put i { p with pc := .leaving }, [])
  | .inside, some .processRunning => some (s.put i { p with pc := .outside }, [.left i])
  | .inside, some .other =>
    if p.pidfd.any (·.fd ≠ 0) then some (s.put i { p with pc := .leaving }, [])
    else some (s.put i { p with pc := .outside }, [.left i])
  | _, _ => none

def stepProcess (s : State) (i : Nat) (p : Process) : Move → Option (State × List Event)
  | .enters => if p.pc = .outside then some (s.put i { p with pc := .makingDirs }, []) else none
  | .creates fd => stepCreates s i p fd
  | .goesOn => stepGoesOn s i p
  | .fails => stepFails s i p
  | .exits exc => stepExits s i p exc
  | .dies => if p.alive then some (s.put i { p with pc := .dead }, []) else none

/-- No two processes that are alive have one pid. -/
def step (s : State) : Action → Option (State × List Event)
  | .starts pid uid =>
    if s.processes.any fun p => p.alive && p.pid = pid then none
    else some ({ s with processes := s.processes ++ [{ pid, uid }] }, [])
  | .process i m =>
    match s.processes[i]? with
    | some p => stepProcess s i p m
    | none => none

def machine : Mealy.Machine State Action Event := ⟨step⟩

end JobQ.PidFile
