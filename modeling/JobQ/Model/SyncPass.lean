import JobQ.Library.Files
import JobQ.Model.SyncFilter
import JobQ.Model.Syncer

/-!
# A pass over two trees

`Syncer.sync` in `ai4s/jobq/ext/background_dirsync.py` with `delete_after_copy=False`, for a source
that is a directory, while nobody else writes to either tree. There are no links, and all files can be
read and removed. No two copies of a pass touch the same file, and so they are made one after the
other, in any order of the files. Directories come and go in the source only as part of its tree.
-/

namespace JobQ.SyncFilter.Path

def full (p : Path) : List (List Char) := p.dirs ++ [p.name]

def ancestorsFrom (before : List (List Char)) : List (List Char) → List Path
  | [] => []
  | name :: rest => ⟨before, name⟩ :: ancestorsFrom (before ++ [name]) rest

def ancestors (p : Path) : List Path := ancestorsFrom [] p.dirs

def parent (p : Path) : Option Path := p.dirs.getLast?.map fun name => ⟨p.dirs.dropLast, name⟩

def child (p : Path) (name : List Char) : Path := ⟨p.full, name⟩

end JobQ.SyncFilter.Path

namespace JobQ.SyncPass

open SyncFilter (Path Filters)
open Syncer (Inode isLater)

variable {Content : Type*}

inductive Node (Content : Type*) where
  | file (inode : Inode Content)
  | dir (mtime : Int)

abbrev Nodes (Content : Type*) := AList fun _ : Path => Node Content

/-- What leads to an entry is a directory. -/
def Closed (nodes : Nodes Content) : Prop :=
  ∀ p ∈ nodes, ∀ d ∈ p.ancestors, ∃ mtime, nodes.lookup d = some (.dir mtime)

structure Tree (Content : Type*) where
  nodes : Nodes Content
  closed : Closed nodes

def Node.mtime : Node Content → Int
  | file inode => inode.mtime
  | dir mtime => mtime

/-- `_needs_update`, where the second argument can be a directory. -/
def needsUpdate (st1 : Inode Content) (st2 : Node Content) : Bool :=
  isLater st1.mtime st2.mtime || isLater st1.ctime st2.mtime

/-! ## Single changes of the destination -/

variable (clock : Path → Int)

def touch (nodes : Nodes Content) (d : Path) : Nodes Content :=
  match nodes.lookup d with
  | some (.dir _) => nodes.insert d (.dir (clock d))
  | _ => nodes

def touchParent (nodes : Nodes Content) (p : Path) : Nodes Content :=
  match p.parent with
  | some d => touch clock nodes d
  | none => nodes

def create (nodes : Nodes Content) (p : Path) (node : Node Content) : Nodes Content :=
  (touchParent clock nodes p).insert p node

def unlink (nodes : Nodes Content) (p : Path) : Nodes Content :=
  touchParent clock (nodes.erase p) p

def makedirs (nodes : Nodes Content) : List Path → Option (Nodes Content)
  | [] => some nodes
  | d :: rest =>
    match nodes.lookup d with
    | none => makedirs (create clock nodes d (.dir (clock d))) rest
    | some (.dir _) => makedirs nodes rest
    | some (.file _) => none

def write (nodes : Nodes Content) (p : Path) (src : Inode Content) : Option (Nodes Content) :=
  let copied := .file ⟨src.content, src.mtime, clock p⟩
  match nodes.lookup p with
  | none => some (create clock nodes p copied)
  | some (.file _) => some (nodes.insert p copied)
  | some (.dir _) => none

/-- `shutil.copy2` copies into the destination if that is a directory. -/
def copy2 (nodes : Nodes Content) (p : Path) (src : Inode Content) : Option (Nodes Content) :=
  match nodes.lookup p with
  | some (.dir _) => write clock nodes (p.child p.name) src
  | _ => write clock nodes p src

def copy (nodes : Nodes Content) (p : Path) (src : Inode Content) : Option (Nodes Content) := do
  let nodes ← makedirs clock nodes p.ancestors
  copy2 clock nodes p src

/-! ## The pass -/

def visits (f : Filters) (p : Path) : Bool := !f.skip p && p.ancestors.all fun d => !f.skip d

/-- On the side of the destination, what was there before is skipped, too. -/
def visitsDst (f : Filters) (preExisting : List Path) (p : Path) : Bool :=
  visits f p && decide (p ∉ preExisting) && p.ancestors.all fun d => d ∉ preExisting

structure Settings where
  filters : Filters
  removeIfNotInSource : Bool

structure State (Content : Type*) where
  dst : Nodes Content
  preExisting : Option (List Path) := none

structure Outcome (Content : Type*) where
  state : State Content
  copies : List Path
  removals : List Path := []
  raised : Bool := false

structure Copying (Content : Type*) where
  dst : Nodes Content
  copies : List Path := []
  raised : Bool := false

def copyEntry (f : Filters) (c : Copying Content) (p : Path) : Node Content → Copying Content
  | .dir _ => c
  | .file src =>
    if visits f p && (c.dst.lookup p).all fun node => needsUpdate src node then
      match copy clock c.dst p src with
      | some dst => { c with dst, copies := c.copies ++ [p] }
      | none => { c with copies := c.copies ++ [p], raised := true }
    else c

def copyAll (f : Filters) (src : Tree Content) (dst : Nodes Content) : Copying Content :=
  src.nodes.entries.foldl (fun c entry => copyEntry clock f c entry.1 entry.2) { dst }

def filePath (entry : Sigma fun _ : Path => Node Content) : Option Path :=
  match entry.2 with
  | .file _ => some entry.1
  | .dir _ => none

def scanPreexisting (dst : Nodes Content) : List Path := dst.entries.filterMap filePath

def strays (f : Filters) (preExisting : List Path) (src : Tree Content) (dst : Nodes Content) :
    List Path :=
  (dst.entries.filterMap filePath).filter fun p =>
    visitsDst f preExisting p && (src.nodes.lookup p).isNone

/-- A copy that fails is reported after the last one, before anything is removed. -/
def sync (c : Settings) (src : Tree Content) (s : State Content) : Outcome Content :=
  let preExisting := s.preExisting.getD (scanPreexisting s.dst)
  let copying := copyAll clock c.filters src s.dst
  if copying.raised then
    { state := ⟨copying.dst, some preExisting⟩, copies := copying.copies, raised := true }
  else if c.removeIfNotInSource then
    let removals := strays c.filters preExisting src copying.dst
    { state := ⟨removals.foldl (unlink clock) copying.dst, some preExisting⟩
      copies := copying.copies
      removals }
  else { state := ⟨copying.dst, some preExisting⟩, copies := copying.copies }

/-! ## Pass after pass -/

structure Action (Content : Type*) where
  source : Tree Content
  clock : Path → Int

structure Passed (Content : Type*) where
  source : Tree Content
  outcome : Outcome Content

def machine (c : Settings) : Mealy.Machine (State Content) (Action Content) (Passed Content) where
  step s a :=
    let outcome := sync a.clock c a.source s
    some (outcome.state, [⟨a.source, outcome⟩])

end JobQ.SyncPass
