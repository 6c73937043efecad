import JobQ.Library.Glob
import JobQ.Library.Text

/-!
# Which files are copied

The filters of `ai4s/jobq/ext/background_dirsync.py`, from the settings that `ProcessPool.submit` in
`ai4s/jobq/work.py` passes on, through `BackgroundDirSync.__init__`, to the walk of `Syncer.sync` over
the source. The tree holds still while it is walked and has no links, and names are compared as they
are. The destination is left out, and with it the files that were there before.
-/

namespace JobQ.SyncFilter

/-! ## The settings -/

structure Env where
  includes : Option (List Char) := none
  excludes : Option (List Char) := none

/-- A `Sequence[str]`. A text is one, too: iterating over it gives its characters. -/
inductive Sequence where
  | str (text : List Char)
  | list (items : List (List Char))

def Sequence.items : Sequence → List (List Char)
  | .str text => text.map ([·])
  | .list items => items

def flushFilename : List Char := ".amlt_flush_upload".toList

structure BackgroundDirSync where
  includes : Sequence
  excludes : List (List Char)

/-- `BackgroundDirSync.__init__`, in a process with the environment `environ`. -/
def init (environ : Env) (includes excludes : Option Sequence) : BackgroundDirSync where
  includes := includes.getD (.list (Text.split (environ.includes.getD [])))
  excludes := (excludes.getD (.list (Text.split (environ.excludes.getD [])))).items ++ [flushFilename]

def submit (environ env : Env) : BackgroundDirSync :=
  init environ (env.includes.map .str) (env.excludes.map .str)

structure Filters where
  includes : List (List Char)
  excludes : List (List Char)
deriving DecidableEq

def BackgroundDirSync.filters (sync : BackgroundDirSync) : Filters :=
  ⟨sync.includes.items, sync.excludes⟩

/-! ## The walk -/

structure Path where
  dirs : List (List Char)
  name : List Char
deriving DecidableEq

def Path.relativeToSrc (p : Path) : List Char := List.intercalate ['/'] (p.dirs ++ [p.name])

inductive Entries where
  | nil
  | file (name : List Char) (rest : Entries)
  | dir (name : List Char) (inside rest : Entries)

def Entries.files (dirpath : List (List Char)) : Entries → List Path
  | .nil => []
  | .file name rest => ⟨dirpath, name⟩ :: rest.files dirpath
  | .dir name inside rest => inside.files (dirpath ++ [name]) ++ rest.files dirpath

namespace Filters

def skipTest (f : Filters) (fn : List Char) : Bool :=
  f.excludes.any (Glob.fnmatch fn) && !f.includes.any (Glob.fnmatch fn)

def skip (f : Filters) (p : Path) : Bool := f.skipTest p.name || f.skipTest p.relativeToSrc

/-- The files that the copy phase of `Syncer.sync` does not pass over. A directory that is skipped is
taken out of `dirnames`, and is not entered. -/
def considered (f : Filters) (dirpath : List (List Char)) : Entries → List Path
  | .nil => []
  | .file name rest =>
    if f.skip ⟨dirpath, name⟩ then f.considered dirpath rest
    else ⟨dirpath, name⟩ :: f.considered dirpath rest
  | .dir name inside rest =>
    if f.skip ⟨dirpath, name⟩ then f.considered dirpath rest
    else f.considered (dirpath ++ [name]) inside ++ f.considered dirpath rest

end Filters

end JobQ.SyncFilter
