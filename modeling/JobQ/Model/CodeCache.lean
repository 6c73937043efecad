import Mathlib.Data.List.Infix
import JobQ.Library.Files
import JobQ.Library.Machine

/-!
# The cache of code directories

`CodeCache` in `ai4s/jobq/ext/map_in_config.py`, with all its instances in one process. A request is
an input of its step, with the SAS token of the moment; the archives do not change, and unpack to one
directory of files each. Nobody else writes below the temporary directories, which are known by their
numbers, and a call holds the lock to its end.
-/

namespace JobQ.CodeCache

variable {Content : Type*}

abbrev Url := List Char

abbrev Name := List Char

abbrev Directory (Content : Type*) := AList fun _ : List Char => Content

/-! ## Texts -/

/-- `text.replace(old, new)`, after the first `skip` characters. -/
def replace (old new : List Char) : Nat → List Char → List Char
  | _, [] => []
  | skip + 1, _ :: rest => replace old new skip rest
  | 0, c :: rest =>
    if old <+: c :: rest then new ++ replace old new (old.length - 1) rest
    else c :: replace old new 0 rest

def azurite : Url := "https://devstoreaccount1.blob.core.windows.net".toList

def requestUrl (url token : Url) : Url :=
  if azurite <+: url then
    let url := replace azurite "http://127.0.0.1:10000".toList 0 url
    if "?sv".toList <:+: url then url else url ++ '?' :: token
  else url

variable (isWord : Char → Bool)

def zipName (text : List Char) : Option Name :=
  let word := text.takeWhile isWord
  if word ≠ [] ∧ ".zip".toList <+: text.dropWhile isWord then some word else none

/-- `re.match(r".*?/(\w+\.zip)", url)`; the dot stands for anything but a newline. -/
def filename : Url → Option Name
  | [] => none
  | c :: rest =>
    if c = '/' then (zipName isWord rest).or (filename rest)
    else if c = '\n' then none
    else filename rest

/-! ## The process -/

structure Tempdir (Content : Type*) where
  alive : Bool := true
  dirs : AList fun _ : Name => Directory Content := ∅

def Tempdir.cleanup (_ : Tempdir Content) : Tempdir Content := { alive := false }

structure Path where
  tempdir : Nat
  name : Name
deriving DecidableEq

structure State (Content : Type*) where
  tempdirs : List (Tempdir Content) := []
  instances : List (Option Nat) := []
  cache : AList fun _ : Url => Path := ∅

inductive Action where
  | creates
  | enters (i : Nat)
  | leaves (i : Nat)
  | gets (i : Nat) (url token : Url) (reachable : Bool)

inductive Exc where
  | assertionError
  | attributeError
  | runtimeError (url : Url)
  | fileNotFoundError
deriving DecidableEq

inductive Event (Content : Type*) where
  | returned (url : Url) (path : Path) (found : Option (Directory Content))
  | raised (exc : Exc)

namespace State

def directory (s : State Content) (path : Path) : Option (Directory Content) :=
  s.tempdirs[path.tempdir]?.bind fun d => d.dirs.lookup path.name

def isAlive (s : State Content) (t : Nat) : Bool := s.tempdirs[t]?.any Tempdir.alive

def cleanup (s : State Content) (t : Nat) : State Content :=
  { s with tempdirs := s.tempdirs.modify t Tempdir.cleanup }

/-- `shutil.unpack_archive` writes into a directory that is already there. -/
def unpack (s : State Content) (path : Path) (archive : Directory Content) : State Content :=
  let files := Files.writeAll ((s.directory path).getD ∅) (archive.entries.map fun f => (f.1, f.2))
  { s with
    tempdirs := s.tempdirs.modify path.tempdir fun d => { d with dirs := d.dirs.insert path.name files } }

/-- `__aenter__`. The `TemporaryDirectory` of an earlier entry is removed with its object. -/
def enter (s : State Content) (i : Nat) (earlier : Option Nat) : State Content :=
  let s := match earlier with
    | some t => s.cleanup t
    | none => s
  { s with
    tempdirs := s.tempdirs ++ [⟨true, ∅⟩]
    instances := s.instances.set i (some s.tempdirs.length) }

end State

variable (archives : Url → Option (Directory Content))

def getLocalCodeDir (s : State Content) (t : Nat) (url : Url) (reachable : Bool) :
    State Content × Event Content :=
  match filename isWord url with
  | none => (s, .raised .attributeError)
  | some name =>
    match s.cache.lookup url with
    | some path => (s, .returned url path (s.directory path))
    | none =>
      match (archives url).filter fun _ => reachable with
      | none => (s, .raised (.runtimeError url))
      | some archive =>
        if s.isAlive t then
          let path := ⟨t, name⟩
          let s := { s.unpack path archive with cache := s.cache.insert url path }
          (s, .returned url path (s.directory path))
        else (s, .raised .fileNotFoundError)

def step (s : State Content) : Action → Option (State Content × List (Event Content))
  | .creates => some ({ s with instances := s.instances ++ [none] }, [])
  | .enters i => s.instances[i]?.map fun earlier => (s.enter i earlier, [])
  | .leaves i =>
    s.instances[i]?.map fun
      | some t => (s.cleanup t, [])
      | none => (s, [])
  | .gets i url token reachable =>
    s.instances[i]?.map fun
      | none => (s, [.raised .assertionError])
      | some t =>
        let (s, event) := getLocalCodeDir isWord archives s t (requestUrl url token) reachable
        (s, [event])

def machine : Mealy.Machine (State Content) Action (Event Content) := ⟨step isWord archives⟩

end JobQ.CodeCache
