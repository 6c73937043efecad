import JobQ.Proof.Syncer.Files
import JobQ.Proof.Syncer.Pass

/-!
# A second pass

The time of a copy is the time of its source, and the test compares it with the change time of the
source as well. What was copied once is copied again in every pass if the source was changed, but not
written, a millisecond or more after its last write.
-/

namespace JobQ.SyncPass

open SyncFilter (Path Filters)
open Syncer (Inode isLater)

variable {Content : Type*} {clock : Path → Int} {f : Filters} {source : Tree Content}
  {nodes : Nodes Content} {p q x : Path} {src : Inode Content} {c : Copying Content}

/-- The pass copies no file and removes none. -/
def Idle (o : Outcome Content) : Prop := o.copies = [] ∧ o.removals = []

/-- A pass that removes files finds one directly in the directory that it does not skip. -/
def RemovesIn (settings : Settings) (known : List Path) (nodes : Nodes Content) (p : Path) : Prop :=
  settings.removeIfNotInSource = true ∧ ∃ name inode,
    nodes.lookup (p.child name) = some (.file inode) ∧
      visitsDst settings.filters known (p.child name) = true

/-- A pass adds a name to the directory that is in the place of a source file, or removes one. -/
def ListingChanges (settings : Settings) (s : State Content) (p : Path) (src : Inode Content)
    (mtime : Int) : Prop :=
  (needsUpdate src (.dir mtime) = true ∧ s.dst.lookup (p.child p.name) = none) ∨
    RemovesIn settings s.known s.dst p

/-- The change time of a file that is copied does not pass for later than the time of its last write.
Where a directory is in its place, the file is not newer than the directory is after the pass. -/
def Settles (clock : Path → Int) (settings : Settings) (s : State Content) (p : Path)
    (src : Inode Content) : Prop :=
  match s.dst.lookup p with
  | none => isLater src.ctime src.mtime = false
  | some (.file inode) =>
    needsUpdate src (.file inode) = true → isLater src.ctime src.mtime = false
  | some (.dir mtime) => ∀ final, (ListingChanges settings s p src mtime ∧ final = clock p ∨
      ¬ ListingChanges settings s p src mtime ∧ final = mtime) →
    needsUpdate src (.dir final) = false

/-! ## What a pass leaves of one file -/

/-- A copy of `q` does not touch it. -/
def Apart (q x : Path) : Prop := ¬ x.LeadsTo q ∧ x ≠ q ∧ x ≠ q.child q.name

theorem apart_of_files {other : Inode Content} (within : p.full <+: x.full)
    (first : source.nodes.lookup p = some (.file src))
    (second : source.nodes.lookup q = some (.file other)) (different : p ≠ q) : Apart q x := by
  have beside : ¬ p.full <+: q.full := by
    intro long
    rcases List.prefix_concat_iff.mp long with same | leads
    · exact different (Path.full_injective same)
    · exact not_leadsTo_of_file first (Files.mem_of_lookup second) leads
  refine ⟨?_, ?_, ?_⟩
  · intro leads
    exact not_leadsTo_of_file first (Files.mem_of_lookup second) (within.trans leads)
  · rintro rfl
    exact beside within
  · rintro rfl
    rcases List.prefix_concat_iff.mp within with same | long
    · exact not_leadsTo_of_file second (Files.mem_of_lookup first)
        (Path.full_injective same ▸ Path.leadsTo_child.mpr (.inl rfl))
    · exact beside long

theorem copyEntry_apart {node : Node Content} (apart : ∀ inode, node = .file inode → Apart q x) :
    (copyEntry clock f c q node).dst.lookup x = c.dst.lookup x := by
  cases node with
  | dir mtime => rfl
  | file inode =>
      obtain ⟨beside, other, otherChild⟩ := apart inode rfl
      rw [copyEntry]
      split
      · split
        · rename_i after copied
          apply (copy_spec copied).2.2 x ?_ beside fun self => absurd self other
          rw [target]
          split
          · exact otherChild
          · exact other
        · rfl
      · rfl

theorem copyEntries_apart {entries : List (Sigma fun _ : Path => Node Content)}
    (apart : ∀ entry ∈ entries, ∀ inode, entry.2 = .file inode → Apart entry.1 x) :
    (entries.foldl (fun c entry => copyEntry clock f c entry.1 entry.2) c).dst.lookup x =
      c.dst.lookup x := by
  induction entries generalizing c with
  | nil => rfl
  | cons entry rest ih =>
      obtain ⟨first, later⟩ := List.forall_mem_cons.mp apart
      exact (ih later).trans (copyEntry_apart first)

theorem copyEntry_raised {node : Node Content} (raised : c.raised = true) :
    (copyEntry clock f c q node).raised = true := by
  cases node with
  | dir mtime => exact raised
  | file inode =>
      rw [copyEntry]
      split
      · split
        · exact raised
        · rfl
      · exact raised

theorem copyEntries_raised {entries : List (Sigma fun _ : Path => Node Content)}
    (raised : c.raised = true) :
    (entries.foldl (fun c entry => copyEntry clock f c entry.1 entry.2) c).raised = true := by
  induction entries generalizing c with
  | nil => exact raised
  | cons entry rest ih => exact ih (copyEntry_raised raised)

/-- What is at the file and below it is changed by its own copy only. -/
theorem copyAll_at (completed : (copyAll clock f source nodes).raised = false)
    (file : source.nodes.lookup p = some (.file src)) :
    ∃ c : Copying Content, (copyEntry clock f c p (.file src)).raised = false ∧
      ∀ x : Path, p.full <+: x.full → c.dst.lookup x = nodes.lookup x ∧
        (copyAll clock f source nodes).dst.lookup x =
          (copyEntry clock f c p (.file src)).dst.lookup x := by
  obtain ⟨before, later, split⟩ := List.append_of_mem (AList.mem_lookup_iff.mp file)
  have nodup := source.nodes.keys_nodup
  rw [AList.keys, split, List.keys, List.map_append, List.map_cons] at nodup
  have apart {entry : Sigma fun _ : Path => Node Content} (member : entry ∈ before ++ later)
      {x : Path} (within : p.full <+: x.full) : ∀ inode, entry.2 = .file inode → Apart entry.1 x := by
    intro inode isFile
    have listed : entry ∈ source.nodes.entries := by
      rw [split]
      rcases List.mem_append.mp member with early | late
      · exact List.mem_append_left _ early
      · exact List.mem_append_right _ (List.mem_cons_of_mem _ late)
    have second : source.nodes.lookup entry.1 = some (.file inode) := by
      rw [← isFile]
      exact AList.mem_lookup_iff.mpr listed
    apply apart_of_files within file second
    intro same
    rw [List.perm_middle.nodup_iff, List.nodup_cons, ← List.map_append] at nodup
    exact nodup.1 (List.mem_map.mpr ⟨entry, member, same.symm⟩)
  rw [copyAll, split, List.foldl_append, List.foldl_cons] at completed ⊢
  refine ⟨before.foldl (fun c entry => copyEntry clock f c entry.1 entry.2) { dst := nodes }, ?_,
    fun x within => ⟨?_, ?_⟩⟩
  · by_contra raised
    rw [copyEntries_raised (by simpa using raised)] at completed
    cases completed
  · exact copyEntries_apart fun entry member => apart (List.mem_append_left _ member) within
  · exact copyEntries_apart fun entry member => apart (List.mem_append_right _ member) within

/-- The file is copied in the pass. -/
def Stale (nodes : Nodes Content) (p : Path) (src : Inode Content) : Prop :=
  ∀ node, nodes.lookup p = some node → needsUpdate src node = true

theorem copyEntry_stale (visited : visits f p = true) (stale : Stale c.dst p src)
    (succeeds : (copyEntry clock f c p (.file src)).raised = false) :
    copy clock c.dst p src = some (copyEntry clock f c p (.file src)).dst := by
  have due : (visits f p && (c.dst.lookup p).all fun node => needsUpdate src node) = true := by
    rw [visited, Bool.true_and]
    cases there : c.dst.lookup p with
    | none => rfl
    | some node => exact stale node there
  rw [copyEntry, if_pos due] at succeeds ⊢
  split at succeeds
  · rename_i after copied
    exact copied
  · cases succeeds

theorem copyEntry_current {node : Node Content} (there : c.dst.lookup p = some node)
    (current : needsUpdate src node = false) : copyEntry clock f c p (.file src) = c := by
  rw [copyEntry, there]
  simp [current]

section

variable (completed : (copyAll clock f source nodes).raised = false)
  (file : source.nodes.lookup p = some (.file src)) (visited : visits f p = true)

include completed file

theorem copyAll_current {node : Node Content} (there : nodes.lookup p = some node)
    (current : needsUpdate src node = false) (within : p.full <+: x.full) :
    (copyAll clock f source nodes).dst.lookup x = nodes.lookup x := by
  obtain ⟨c, _, inside⟩ := copyAll_at completed file
  have before := (inside p List.prefix_rfl).1.trans there
  rw [(inside x within).2, copyEntry_current before current, (inside x within).1]

include visited

/-- One copy, made where everything below the file is as before the pass, and final. -/
theorem copyAll_stale (stale : Stale nodes p src) : ∃ before after : Nodes Content,
    copy clock before p src = some after ∧ ∀ x : Path, p.full <+: x.full →
      before.lookup x = nodes.lookup x ∧
        (copyAll clock f source nodes).dst.lookup x = after.lookup x := by
  obtain ⟨c, succeeds, inside⟩ := copyAll_at completed file
  have due : Stale c.dst p src := fun node there =>
    stale node ((inside p List.prefix_rfl).1.symm.trans there)
  exact ⟨_, _, copyEntry_stale visited due succeeds, inside⟩

theorem copyAll_copied (stale : Stale nodes p src)
    (plain : ∀ mtime, nodes.lookup p ≠ some (.dir mtime)) :
    ∃ inode, (copyAll clock f source nodes).dst.lookup p = some (.file inode) ∧
      inode.mtime = src.mtime := by
  obtain ⟨before, after, copied, same⟩ := copyAll_stale completed file visited stale
  obtain ⟨unchanged, final⟩ := same p List.prefix_rfl
  have written := (copy_spec copied).1
  rw [target_file (by rwa [unchanged])] at written
  exact ⟨_, final.trans written, rfl⟩

theorem copyAll_into {mtime : Int} (stale : Stale nodes p src)
    (there : nodes.lookup p = some (.dir mtime)) :
    (nodes.lookup (p.child p.name) = none ∧
        (copyAll clock f source nodes).dst.lookup p = some (.dir (clock p)) ∨
      (∃ inode, nodes.lookup (p.child p.name) = some (.file inode)) ∧
        (copyAll clock f source nodes).dst.lookup p = some (.dir mtime)) ∧
      (∃ inode, (copyAll clock f source nodes).dst.lookup (p.child p.name) = some (.file inode)) ∧
        ∀ name ≠ p.name, (copyAll clock f source nodes).dst.lookup (p.child name) =
          nodes.lookup (p.child name) := by
  obtain ⟨before, after, copied, same⟩ := copyAll_stale completed file visited stale
  have below (name : List Char) : p.full <+: (p.child name).full := List.prefix_append _ _
  have dir := (same p List.prefix_rfl).1.trans there
  refine ⟨?_, ?_, ?_⟩
  · rw [(same p List.prefix_rfl).2, ← (same _ (below p.name)).1]
    exact copy_dir dir copied
  · rw [(same _ (below p.name)).2, ← target_dir dir]
    exact ⟨_, (copy_spec copied).1⟩
  · intro name other
    rw [(same _ (below name)).2, ← (same _ (below name)).1]
    apply (copy_spec copied).2.2
    · rw [target_dir dir]
      exact fun same => other (congrArg Path.name same)
    · exact fun leads => (Path.LeadsTo.trans (Path.leadsTo_child.mpr (.inl rfl)) leads).irrefl
    · exact fun self => absurd self.symm (child_ne name)

end

/-! ## A pass without copies -/

def Current (f : Filters) (nodes : Nodes Content) (p : Path) (node : Node Content) : Prop :=
  ∀ src, node = .file src → visits f p = true → ¬ Stale nodes p src

theorem copyEntry_of_current {node : Node Content} (current : Current f c.dst q node) :
    copyEntry clock f c q node = c := by
  cases node with
  | dir mtime => rfl
  | file src =>
      rw [copyEntry, if_neg]
      intro due
      obtain ⟨visited, late⟩ := Bool.and_eq_true_iff.mp due
      apply current src rfl visited
      intro node there
      rw [there] at late
      exact late

theorem copyEntry_of_not_current {node : Node Content} (due : ¬ Current f c.dst q node) :
    (copyEntry clock f c q node).copies = c.copies ++ [q] := by
  rw [Current] at due
  push Not at due
  obtain ⟨src, rfl, visited, stale⟩ := due
  rw [copyEntry, if_pos]
  · split <;> rfl
  · rw [visited, Bool.true_and]
    cases there : c.dst.lookup q with
    | none => rfl
    | some node => exact stale node there

theorem copyEntry_copies {node : Node Content} :
    c.copies.length ≤ (copyEntry clock f c q node).copies.length := by
  by_cases current : Current f c.dst q node
  · rw [copyEntry_of_current current]
  · rw [copyEntry_of_not_current current]
    simp

theorem copyEntries_copies {entries : List (Sigma fun _ : Path => Node Content)} :
    c.copies.length ≤
      (entries.foldl (fun c entry => copyEntry clock f c entry.1 entry.2) c).copies.length := by
  induction entries generalizing c with
  | nil => exact Nat.le_refl _
  | cons entry rest ih => exact copyEntry_copies.trans ih

theorem copyEntries_of_current {entries : List (Sigma fun _ : Path => Node Content)}
    (current : ∀ entry ∈ entries, Current f c.dst entry.1 entry.2) :
    entries.foldl (fun c entry => copyEntry clock f c entry.1 entry.2) c = c := by
  induction entries with
  | nil => rfl
  | cons entry rest ih =>
      obtain ⟨first, later⟩ := List.forall_mem_cons.mp current
      rw [List.foldl_cons, copyEntry_of_current first]
      exact ih later

theorem current_of_copies_nil {entries : List (Sigma fun _ : Path => Node Content)}
    (none : (entries.foldl (fun c entry => copyEntry clock f c entry.1 entry.2) c).copies = []) :
    ∀ entry ∈ entries, Current f c.dst entry.1 entry.2 := by
  induction entries with
  | nil => simp
  | cons entry rest ih =>
      have first : Current f c.dst entry.1 entry.2 := by
        by_contra due
        have long : (copyEntry clock f c entry.1 entry.2).copies.length ≤
            ((entry :: rest).foldl (fun c entry => copyEntry clock f c entry.1 entry.2) c).copies.length :=
          copyEntries_copies
        rw [copyEntry_of_not_current due, none] at long
        simp at long
      rw [List.foldl_cons, copyEntry_of_current first] at none
      exact List.forall_mem_cons.mpr ⟨first, ih none⟩

/-- Everything that is visited has a counterpart that is recent enough. -/
def AllCurrent (f : Filters) (source : Tree Content) (nodes : Nodes Content) : Prop :=
  ∀ p src, source.nodes.lookup p = some (.file src) → visits f p = true → ¬ Stale nodes p src

theorem allCurrent_iff : AllCurrent f source nodes ↔
    ∀ entry ∈ source.nodes.entries, Current f nodes entry.1 entry.2 := by
  constructor
  · rintro all ⟨p, _⟩ listed src rfl
    exact all p src (AList.mem_lookup_iff.mpr listed)
  · intro all p src file
    exact all ⟨p, .file src⟩ (AList.mem_lookup_iff.mp file) src rfl

theorem copyAll_of_allCurrent (all : AllCurrent f source nodes) :
    copyAll clock f source nodes = { dst := nodes } :=
  copyEntries_of_current (c := ⟨nodes, [], false⟩) (allCurrent_iff.mp all)

theorem allCurrent_of_copies_nil (none : (copyAll clock f source nodes).copies = []) :
    AllCurrent f source nodes :=
  allCurrent_iff.mpr (current_of_copies_nil (c := ⟨nodes, [], false⟩) none)

/-! ## The two passes -/

theorem strays_removed {preExisting : List Path} : strays f preExisting source
    ((strays f preExisting source nodes).foldl (unlink clock) nodes) = [] := by
  apply List.eq_nil_iff_forall_not_mem.mpr
  intro x stray
  obtain ⟨⟨inode, file⟩, visited, gone⟩ := mem_strays.mp stray
  obtain ⟨before, kept⟩ := lookup_unlinkAll_file.mp file
  exact kept (mem_strays.mpr ⟨⟨inode, before⟩, visited, gone⟩)

section

variable {settings : Settings} {s : State Content}

theorem sync_copies : (sync clock settings source s).copies =
    (copyAll clock settings.filters source s.dst).copies := by
  rw [sync]
  split
  · rfl
  · split <;> rfl

theorem idle_iff {clock' : Path → Int} (completed : (sync clock settings source s).raised = false) :
    Idle (sync clock' settings source (sync clock settings source s).state) ↔
      AllCurrent settings.filters source (sync clock settings source s).state.dst := by
  constructor
  · intro idle
    have none := idle.1
    rw [sync_copies] at none
    exact allCurrent_of_copies_nil none
  · intro all
    have nothing : copyAll clock' settings.filters source _ = _ := copyAll_of_allCurrent all
    have again : (sync clock' settings source (sync clock settings source s).state).raised = false := by
      rw [sync, nothing]
      cases settings.removeIfNotInSource <;> rfl
    refine ⟨by rw [sync_copies, nothing], ?_⟩
    cases removes : settings.removeIfNotInSource with
    | false => exact (sync_keeping again removes).2
    | true =>
        rw [(sync_removing again removes).2, nothing, sync_known, (sync_removing completed removes).1]
        exact strays_removed

theorem needsUpdate_copy {inode : Inode Content} (same : inode.mtime = src.mtime) :
    needsUpdate src (.file inode) = false ↔ isLater src.ctime src.mtime = false := by
  simp [needsUpdate, Node.mtime, same, Syncer.isLater_self]

theorem not_stale_iff {node : Node Content} (there : nodes.lookup p = some node) :
    ¬ Stale nodes p src ↔ needsUpdate src node = false := by
  simp [Stale, there]

theorem removesIn_congr {after : Nodes Content} (same : ∀ name,
    (∃ inode, after.lookup (p.child name) = some (.file inode)) ↔
      ∃ inode, nodes.lookup (p.child name) = some (.file inode)) {known : List Path} :
    RemovesIn settings known after p ↔ RemovesIn settings known nodes p := by
  simp only [RemovesIn, exists_and_right, same]

section

variable (completed : (sync clock settings source s).raised = false)
  (file : source.nodes.lookup p = some (.file src))

include completed file

theorem after_file {inode : Inode Content}
    (copied : (copyAll clock settings.filters source s.dst).dst.lookup p = some (.file inode)) :
    (sync clock settings source s).state.dst.lookup p = some (.file inode) := by
  cases removes : settings.removeIfNotInSource with
  | false => rw [(sync_keeping completed removes).1, copied]
  | true =>
      rw [(sync_removing completed removes).1]
      refine lookup_unlinkAll_file.mpr ⟨copied, fun stray => ?_⟩
      cases file.symm.trans (mem_strays.mp stray).2.2

theorem after_dir {mtime : Int}
    (copied : (copyAll clock settings.filters source s.dst).dst.lookup p = some (.dir mtime)) :
    (RemovesIn settings s.known (copyAll clock settings.filters source s.dst).dst p ∧
        (sync clock settings source s).state.dst.lookup p = some (.dir (clock p))) ∨
      (¬ RemovesIn settings s.known (copyAll clock settings.filters source s.dst).dst p ∧
        (sync clock settings source s).state.dst.lookup p = some (.dir mtime)) := by
  cases removes : settings.removeIfNotInSource with
  | false =>
      refine .inr ⟨by simp [RemovesIn, removes], ?_⟩
      rw [(sync_keeping completed removes).1, copied]
  | true =>
      have kept : p ∉ strays settings.filters s.known source
          (copyAll clock settings.filters source s.dst).dst := by
        intro stray
        cases file.symm.trans (mem_strays.mp stray).2.2
      rw [(sync_removing completed removes).1]
      rcases lookup_unlinkAll_dir clock kept copied with ⟨⟨x, stray, above⟩, set⟩ | ⟨none, set⟩
      · obtain ⟨⟨inode, isFile⟩, visited, _⟩ := mem_strays.mp stray
        have here : x = p.child x.name := Path.full_injective (by
          rw [Path.full, Path.parent_eq_some.mp above]
          rfl)
        rw [here] at isFile visited
        exact .inl ⟨⟨removes, x.name, inode, isFile, visited⟩, set⟩
      · refine .inr ⟨?_, set⟩
        rintro ⟨-, name, inode, isFile, visited⟩
        refine none ⟨p.child name, mem_strays.mpr ⟨⟨inode, isFile⟩, visited, ?_⟩, Path.parent_child⟩
        by_contra there
        have member := AList.lookup_isSome.mp (Option.isSome_iff_ne_none.mpr there)
        exact not_leadsTo_of_file file member (Path.leadsTo_child.mpr (.inl rfl))

/-- The directory in the place of the file has the time of the clock if its listing has changed. -/
theorem settles_dir {mtime : Int} (there : s.dst.lookup p = some (.dir mtime))
    (listing : RemovesIn settings s.known (copyAll clock settings.filters source s.dst).dst p ↔
      ListingChanges settings s p src mtime)
    (copied : (copyAll clock settings.filters source s.dst).dst.lookup p = some (.dir mtime)) :
    ¬ Stale (sync clock settings source s).state.dst p src ↔ Settles clock settings s p src := by
  rw [Settles, there]
  have after := after_dir completed file copied
  rw [listing] at after
  rcases after with ⟨changes, set⟩ | ⟨same, set⟩
  · rw [not_stale_iff set]
    simp [changes]
  · rw [not_stale_iff set]
    simp [same]

theorem beside_settles {mtime : Int} (there : s.dst.lookup p = some (.dir mtime))
    (current : needsUpdate src (.dir mtime) = false) :
    ¬ Stale (sync clock settings source s).state.dst p src ↔ Settles clock settings s p src := by
  have unchanged {x : Path} (within : p.full <+: x.full) :=
    copyAll_current (copyAll_completed completed) file there current within
  have below (name : List Char) : p.full <+: (p.child name).full := List.prefix_append _ _
  apply settles_dir completed file there ?_ ((unchanged List.prefix_rfl).trans there)
  simp only [ListingChanges, current, Bool.false_eq_true, false_and, false_or]
  exact removesIn_congr fun name => by rw [unchanged (below name)]

theorem into_settles (visited : visits settings.filters p = true) {mtime : Int}
    (there : s.dst.lookup p = some (.dir mtime)) (late : needsUpdate src (.dir mtime) = true) :
    ¬ Stale (sync clock settings source s).state.dst p src ↔ Settles clock settings s p src := by
  have stale : Stale s.dst p src := by
    intro other found
    cases there.symm.trans found
    exact late
  obtain ⟨own, new, others⟩ := copyAll_into (copyAll_completed completed) file visited stale there
  rcases own with ⟨none, set⟩ | ⟨old, set⟩
  · -- the copy is a new name in the directory
    have final : (sync clock settings source s).state.dst.lookup p = some (.dir (clock p)) := by
      rcases after_dir completed file set with ⟨_, final⟩ | ⟨_, final⟩
      · exact final
      · exact final
    have changes : ListingChanges settings s p src mtime := .inl ⟨late, none⟩
    rw [not_stale_iff final, Settles, there]
    simp [changes]
  · apply settles_dir completed file there ?_ set
    have same : RemovesIn settings s.known (copyAll clock settings.filters source s.dst).dst p ↔
        RemovesIn settings s.known s.dst p := by
      apply removesIn_congr
      intro name
      by_cases own : name = p.name
      · subst own
        exact iff_of_true new old
      · rw [others name own]
    obtain ⟨inode, old⟩ := old
    simp [ListingChanges, same, old]

/-- After the pass there is a node in the place of the file, and it decides about the next pass. -/
theorem not_stale_after_iff (visited : visits settings.filters p = true) :
    ¬ Stale (sync clock settings source s).state.dst p src ↔ Settles clock settings s p src := by
  have ok := copyAll_completed completed
  have copies (stale : Stale s.dst p src) (plain : ∀ mtime, s.dst.lookup p ≠ some (.dir mtime)) :
      ¬ Stale (sync clock settings source s).state.dst p src ↔
        isLater src.ctime src.mtime = false := by
    obtain ⟨inode, copied, same⟩ := copyAll_copied ok file visited stale plain
    rw [not_stale_iff (after_file completed file copied), needsUpdate_copy same]
  cases there : s.dst.lookup p with
  | none =>
      rw [Settles, there]
      exact copies (by simp [Stale, there]) (by simp [there])
  | some node =>
      cases current : needsUpdate src node with
      | true =>
          have stale : Stale s.dst p src := by
            intro other found
            cases there.symm.trans found
            exact current
          cases node with
          | file inode =>
              rw [copies stale (by simp [there]), Settles, there]
              simp [current]
          | dir mtime => exact into_settles completed file visited there current
      | false =>
          cases node with
          | file inode =>
              have kept := (copyAll_current ok file there current List.prefix_rfl).trans there
              rw [not_stale_iff (after_file completed file kept), Settles, there]
              simp [current]
          | dir mtime => exact beside_settles completed file there current

end

/-- The second pass is idle exactly if each file of the source settles in the first one. -/
theorem second_pass_idle_iff {clock' : Path → Int}
    (completed : (sync clock settings source s).raised = false) :
    Idle (sync clock' settings source (sync clock settings source s).state) ↔
      ∀ p src, source.nodes.lookup p = some (.file src) → visits settings.filters p = true →
        Settles clock settings s p src := by
  rw [idle_iff completed]
  constructor
  · intro all p src file visited
    exact (not_stale_after_iff completed file visited).mp (all p src file visited)
  · intro all p src file visited
    exact (not_stale_after_iff completed file visited).mpr (all p src file visited)

end

/-! ## A file at the top -/

def top (name : String) : Path := ⟨[], name.toList⟩

def oneFile (name : String) (src : Inode Content) : Tree Content where
  nodes := AList.singleton (top name) (.file src)
  closed := closed_singleton rfl

def everything : Settings := ⟨⟨[], []⟩, true⟩

set_option maxRecDepth 10000 in
/-- The destination has an older copy of the file. -/
theorem written_file_settles :
    Idle (sync (fun _ => 7000000) everything (oneFile "a" ⟨"new", 5000000, 5000000⟩)
      (sync (fun _ => 6000000) everything (oneFile "a" ⟨"new", 5000000, 5000000⟩)
        ⟨(oneFile "a" ⟨"old", 0, 0⟩).nodes, none⟩).state) := by
  apply (second_pass_idle_iff rfl).mpr
  intro p src file visited
  obtain ⟨rfl, rfl⟩ : p = top "a" ∧ src = ⟨"new", 5000000, 5000000⟩ := by
    have listed := AList.mem_lookup_iff.mp file
    cases List.mem_singleton.mp listed
    exact ⟨rfl, rfl⟩
  exact fun _ => Syncer.isLater_self _

set_option maxRecDepth 10000 in
/-- A file that was renamed a second after it was written. -/
theorem renamed_file_copied_again :
    (sync (fun _ => 2000000000) everything (oneFile "a" ⟨(), 0, 1000000000⟩) ⟨∅, none⟩).raised = false ∧
      ¬ Idle (sync (fun _ => 3000000000) everything (oneFile "a" ⟨(), 0, 1000000000⟩)
        (sync (fun _ => 2000000000) everything (oneFile "a" ⟨(), 0, 1000000000⟩) ⟨∅, none⟩).state) := by
  refine ⟨rfl, ?_⟩
  rintro ⟨copies, -⟩
  have again : (sync (fun _ => 3000000000) everything (oneFile "a" ⟨(), 0, 1000000000⟩)
      (sync (fun _ => 2000000000) everything (oneFile "a" ⟨(), 0, 1000000000⟩) ⟨∅, none⟩).state).copies =
      [top "a"] := rfl
  cases again.symm.trans copies

end JobQ.SyncPass
