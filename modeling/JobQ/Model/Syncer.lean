import JobQ.Library.Machine

/-!
# One directory copied to another

The copy phase of `Syncer.sync` in `ai4s/jobq/ext/background_dirsync.py`, while a job writes to the
source. The files are known by a number, and each of them is listed, compared and copied on its own:
the walk and the threads of the pool take any order. The times of a file are kept in nanoseconds, and
compared as floats. The phase that removes files from the destination is left out, and so is logging.
-/

namespace JobQ.Syncer

variable {Content : Type*}

structure Config where
  skips : Nat → Bool
  deleteAfterCopy : Bool

/-- A file as `os.stat` and a reader see it. -/
structure Inode (Content : Type*) where
  content : Content
  mtime : Int
  ctime : Int

/-- What `st_mtime` and `st_ctime` make of a time. -/
def seconds (nanoseconds : Int) : Float :=
  Float.ofInt (nanoseconds / 1000000000) + 1e-9 * Float.ofInt (nanoseconds % 1000000000)

/-- `int((t1 - t2) * 1000) > 0`: what `int` makes of a float is positive from one on. -/
def isLater (t1 t2 : Int) : Bool := (1.0 : Float) ≤ (seconds t1 - seconds t2) * 1000.0

def needsUpdate (st1 st2 : Inode Content) : Bool :=
  isLater st1.mtime st2.mtime || isLater st1.ctime st2.mtime

/-- How far a pass has come with a file. One that was there when the pass began is due to be listed.
A copy that the job has written to meanwhile is touched. -/
inductive Stage where
  | unlisted (due : Bool)
  | listed
  | submitted
  | copying (touched : Bool)
  | copied
  | stamped
  | finished
deriving DecidableEq

structure File (Content : Type*) where
  src : Option (Inode Content) := none
  dst : Option (Inode Content) := none
  stage : Stage := .finished

/-- `shutil.copy2` opens the destination, copies the content and then the timestamps. -/
inductive FileAction (Content : Type*) where
  | lists
  | compares
  | opens (partly : Content)
  | copies (torn : Content)
  | stamps
  | unlinks

namespace File

def write (f : File Content) (now : Int) (content : Content) : File Content where
  src := some ⟨content, now, now⟩
  dst := f.dst
  stage :=
    match f.stage with
    | .copying _ => .copying true
    | stage => stage

def begin (f : File Content) : File Content := { f with stage := .unlisted f.src.isSome }

def finish (f : File Content) : File Content := { f with stage := .finished }

/-- The pass has nothing left to do with the file. -/
def isOver (f : File Content) : Bool :=
  match f.stage with
  | .unlisted due => !due
  | .finished => true
  | _ => false

def list (f : File Content) (skips : Bool) : Option (File Content) :=
  match f.stage, f.src with
  | .unlisted _, some _ => some { f with stage := if skips then .finished else .listed }
  | _, _ => none

def compare (f : File Content) : Option (File Content) :=
  match f.stage, f.src, f.dst with
  | .listed, some _, none => some { f with stage := .submitted }
  | .listed, some src, some dst =>
    some { f with stage := if needsUpdate src dst then .submitted else .finished }
  | _, _, _ => none

def openDst (f : File Content) (now : Int) (partly : Content) : Option (File Content) :=
  match f.stage, f.src with
  | .submitted, some _ => some { f with dst := some ⟨partly, now, now⟩, stage := .copying false }
  | _, _ => none

def copyContent (f : File Content) (now : Int) (torn : Content) : Option (File Content) :=
  match f.stage, f.src with
  | .copying touched, some src =>
    some { f with
      dst := some ⟨if touched then torn else src.content, now, now⟩, stage := .copied }
  | _, _ => none

/-- The source is read again for its timestamps. -/
def copyStat (f : File Content) (now : Int) (deleteAfterCopy : Bool) : Option (File Content) :=
  match f.stage, f.src, f.dst with
  | .copied, some src, some dst =>
    some { f with
      dst := some ⟨dst.content, src.mtime, now⟩
      stage := if deleteAfterCopy then .stamped else .finished }
  | _, _, _ => none

def unlink (f : File Content) : Option (File Content) :=
  match f.stage with
  | .stamped => some { f with src := none, stage := .finished }
  | _ => none

def step (c : Config) (now : Int) (i : Nat) (f : File Content) :
    FileAction Content → Option (File Content)
  | .lists => f.list (c.skips i)
  | .compares => f.compare
  | .opens partly => f.openDst now partly
  | .copies torn => f.copyContent now torn
  | .stamps => f.copyStat now c.deleteAfterCopy
  | .unlinks => f.unlink

end File

structure State (Content : Type*) where
  now : Int
  files : List (File Content)
  running : Bool := false

inductive Action (Content : Type*) where
  | writes (i : Nat) (content : Content)
  | ticks (n : Nat)
  | begins
  | handles (i : Nat) (a : FileAction Content)
  | ends
  | raises

inductive Event where
  | began
  | ended
  | raised
deriving DecidableEq

/-- An empty source, and whatever the destination held before. -/
def initial (now : Int) (dst : List (Option (Inode Content))) : State Content where
  now
  files := dst.map fun dst => { dst }

def step (c : Config) (s : State Content) : Action Content → Option (State Content × List Event)
  | .writes i content =>
    match s.files[i]? with
    | some f => some ({ s with files := s.files.set i (f.write s.now content) }, [])
    | none => none
  | .ticks n => some ({ s with now := s.now + n }, [])
  | .begins =>
    if s.running then none
    else some ({ s with running := true, files := s.files.map File.begin }, [.began])
  | .handles i a =>
    match s.files[i]? with
    | some f =>
      match f.step c s.now i a with
      | some f => some ({ s with files := s.files.set i f }, [])
      | none => none
    | none => none
  | .ends =>
    if s.running ∧ s.files.all File.isOver then
      some ({ s with running := false, files := s.files.map File.finish }, [.ended])
    else none
  | .raises =>
    if s.running then
      some ({ s with running := false, files := s.files.map File.finish }, [.raised])
    else none

def machine (Content : Type*) (c : Config) : Mealy.Machine (State Content) (Action Content) Event :=
  ⟨step c⟩

end JobQ.Syncer
