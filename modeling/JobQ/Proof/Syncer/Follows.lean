import JobQ.Proof.Syncer.Pass

/-!
# The destination after each pass

A pass fails where a file of the source meets a directory of the destination or has to be put below a
file, and then removes nothing. A file of the destination stays if the source has a directory of its
name. As long as no name changes in this way, the destination follows.
-/

namespace JobQ.SyncPass

open SyncFilter (Path Filters)
open Syncer (Inode)

variable {Content : Type*} {clock : Path → Int} {f : Filters} {source : Tree Content}
  {nodes : Nodes Content} {p q x d : Path} {src : Inode Content} {c : Copying Content}

def IsFile (nodes : Nodes Content) (p : Path) : Prop := ∃ inode, nodes.lookup p = some (.file inode)

/-- The pass completes, and leaves the files of the source and those that were there at first. -/
structure Follows (f : Filters) (atFirst : Nodes Content) (passed : Passed Content) : Prop where
  completes : passed.outcome.raised = false
  files : ∀ p, visits f p = true → (IsFile passed.outcome.state.dst p ↔
    IsFile passed.source.nodes p ∨ IsFile atFirst p)
  keeps : ∀ p, IsFile atFirst p → IsFile passed.outcome.state.dst p

/-- The files of the source can be copied: none has a directory in its place, or a file above. -/
structure Ready (f : Filters) (source : Tree Content) (dst : Nodes Content) : Prop where
  closed : Closed dst
  noDirectory : ∀ p, IsFile source.nodes p → visits f p = true → ∀ mtime,
    dst.lookup p ≠ some (.dir mtime)
  noFileAbove : ∀ p, IsFile source.nodes p → visits f p = true → ∀ d : Path, d.LeadsTo p →
    ¬ IsFile dst d

/-- No name of a visited file is that of a directory on the other side. -/
structure Guard (settings : Settings) (s : State Content) (a : Action Content) : Prop where
  noDirectory : ∀ p, IsFile a.source.nodes p → visits settings.filters p = true → ∀ mtime,
    s.dst.lookup p ≠ some (.dir mtime)
  noFileAbove : ∀ p, IsFile a.source.nodes p → visits settings.filters p = true →
    ∀ d : Path, d.LeadsTo p → ¬ IsFile s.dst d
  noFileInPlace : ∀ p mtime, a.source.nodes.lookup p = some (.dir mtime) →
    visits settings.filters p = true → IsFile s.dst p → p ∈ s.known

/-! ## The copies -/

theorem mem_of_isFile (file : IsFile nodes p) : p ∈ nodes := by
  obtain ⟨inode, found⟩ := file
  exact Files.mem_of_lookup found

theorem file_not_leadsTo (file : IsFile source.nodes p) (there : q ∈ source.nodes) :
    ¬ p.LeadsTo q := by
  obtain ⟨inode, found⟩ := file
  exact not_leadsTo_of_file found there

/-- One copy adds one file, and the others can be copied as before. -/
theorem ready_copy {after : Nodes Content} (ready : Ready f source nodes)
    (file : IsFile source.nodes q) (visited : visits f q = true)
    (copied : copy clock nodes q src = some after) :
    Ready f source after ∧ ∀ x, IsFile after x ↔ IsFile nodes x ∨ x = q := by
  obtain ⟨written, kept, same⟩ := copy_spec copied
  rw [target_file (ready.noDirectory q file visited)] at written kept same
  have files : ∀ x, IsFile after x ↔ IsFile nodes x ∨ x = q := by
    intro x
    by_cases here : x = q
    · exact iff_of_true ⟨_, here ▸ written⟩ (.inr here)
    · rw [or_iff_left here]
      exact exists_congr fun inode => (kept x here).file_iff
  refine ⟨⟨closed_copy ready.closed copied, ?_, ?_⟩, files⟩
  · intro p isFile visitedP mtime dir
    by_cases here : p = q
    · rw [here, written] at dir
      cases dir
    · rw [same p here (file_not_leadsTo isFile (mem_of_isFile file)) fun here' => absurd here' here] at dir
      exact ready.noDirectory p isFile visitedP mtime dir
  · intro p isFile visitedP d leads above
    rcases (files d).mp above with before | rfl
    · exact ready.noFileAbove p isFile visitedP d leads before
    · exact file_not_leadsTo file (mem_of_isFile isFile) leads

theorem copyEntry_ready (clock : Path → Int) (ready : Ready f source c.dst) (ok : c.raised = false)
    {entry : Sigma fun _ : Path => Node Content} (listed : entry ∈ source.nodes.entries) :
    (copyEntry clock f c entry.1 entry.2).raised = false ∧
      Ready f source (copyEntry clock f c entry.1 entry.2).dst ∧
        ∀ x, IsFile (copyEntry clock f c entry.1 entry.2).dst x ↔ IsFile c.dst x ∨
          visits f x = true ∧ ∃ src, entry = ⟨x, .file src⟩ := by
  obtain ⟨q, node⟩ := entry
  cases node with
  | dir mtime => exact ⟨ok, ready, fun x => by simp [copyEntry]⟩
  | file src =>
      have file : IsFile source.nodes q := ⟨src, AList.mem_lookup_iff.mpr listed⟩
      have added (x : Path) : (visits f x = true ∧
          ∃ other, (⟨q, .file src⟩ : Sigma fun _ : Path => Node Content) = ⟨x, .file other⟩) ↔
          visits f q = true ∧ x = q := by
        constructor
        · rintro ⟨visited, other, same⟩
          cases same
          exact ⟨visited, rfl⟩
        · rintro ⟨visited, rfl⟩
          exact ⟨visited, src, rfl⟩
      simp only [added]
      rw [copyEntry]
      split
      · rename_i due
        obtain ⟨visited, late⟩ := Bool.and_eq_true_iff.mp due
        obtain ⟨after, copied⟩ : ∃ after, copy clock c.dst q src = some after :=
          copy_some (fun d leads inode found => ready.noFileAbove q file visited d leads ⟨inode, found⟩)
            (ready.noDirectory q file visited)
        rw [copied]
        obtain ⟨next, files⟩ := ready_copy ready file visited copied
        exact ⟨ok, next, by simpa [visited] using files⟩
      · rename_i current
        refine ⟨ok, ready, fun x => (or_iff_left_of_imp ?_).symm⟩
        -- a visited file that is not copied has a counterpart, which is no directory
        rintro ⟨visited, rfl⟩
        rw [visited, Bool.true_and, Bool.not_eq_true] at current
        cases there : c.dst.lookup x with
        | none =>
            rw [there] at current
            cases current
        | some node =>
            cases node with
            | file inode => exact ⟨inode, there⟩
            | dir mtime => exact absurd there (ready.noDirectory x file visited mtime)

theorem copyEntries_ready (clock : Path → Int) {entries : List (Sigma fun _ : Path => Node Content)}
    (ready : Ready f source c.dst) (ok : c.raised = false)
    (listed : ∀ entry ∈ entries, entry ∈ source.nodes.entries) :
    let final := entries.foldl (fun c entry => copyEntry clock f c entry.1 entry.2) c
    final.raised = false ∧ Ready f source final.dst ∧ ∀ x, IsFile final.dst x ↔
      IsFile c.dst x ∨ visits f x = true ∧ ∃ src, ⟨x, .file src⟩ ∈ entries := by
  induction entries generalizing c with
  | nil => exact ⟨ok, ready, by simp⟩
  | cons entry rest ih =>
      obtain ⟨first, later⟩ := List.forall_mem_cons.mp listed
      obtain ⟨okNext, next, one⟩ := copyEntry_ready clock ready ok first
      obtain ⟨okFinal, final, all⟩ := ih next okNext later
      refine ⟨okFinal, final, fun x => (all x).trans ?_⟩
      rw [one x, or_assoc, ← and_or_left]
      simp only [List.mem_cons, exists_or, @eq_comm _ entry]

theorem copyAll_ready (clock : Path → Int) (ready : Ready f source nodes) :
    (copyAll clock f source nodes).raised = false ∧ Closed (copyAll clock f source nodes).dst ∧
      ∀ x, IsFile (copyAll clock f source nodes).dst x ↔
        IsFile nodes x ∨ visits f x = true ∧ IsFile source.nodes x := by
  obtain ⟨ok, final, files⟩ := copyEntries_ready clock (c := ⟨nodes, [], false⟩) ready rfl
    fun entry listed => listed
  refine ⟨ok, final.closed, fun x => (files x).trans ?_⟩
  simp only [IsFile, ← AList.mem_lookup_iff, Option.mem_def]

/-! ## The removals -/

theorem isFile_unlinkAll {removals : List Path} : IsFile (removals.foldl (unlink clock) nodes) x ↔
    IsFile nodes x ∧ x ∉ removals := by
  rw [IsFile, IsFile, ← exists_and_right]
  exact exists_congr fun inode => lookup_unlinkAll_file

theorem mem_of_unlinkAll {removals : List Path} (there : x ∈ removals.foldl (unlink clock) nodes) :
    x ∈ nodes := by
  by_contra absent
  have none : nodes.lookup x = none := AList.lookup_eq_none.mpr absent
  rw [← AList.lookup_isSome] at there
  by_cases removed : x ∈ removals
  · rw [lookup_unlinkAll_mem removed] at there
    cases there
  · rw [lookup_unlinkAll_plain removed (by simp [none]), none] at there
    cases there

theorem closed_unlinkAll {removals : List Path} (closed : Closed nodes)
    (files : ∀ x ∈ removals, IsFile nodes x) : Closed (removals.foldl (unlink clock) nodes) := by
  intro y there d above
  obtain ⟨mtime, dir⟩ := closed y (mem_of_unlinkAll there) d above
  have kept : d ∉ removals := by
    intro removed
    obtain ⟨inode, file⟩ := files d removed
    cases file.symm.trans dir
  rcases lookup_unlinkAll_dir clock kept dir with ⟨_, set⟩ | ⟨_, set⟩
  · exact ⟨_, set⟩
  · exact ⟨_, set⟩

/-! ## The run -/

/-- The files that were there at first are known, and still there. -/
structure Sound (atFirst : Nodes Content) (s : State Content) : Prop where
  closed : Closed s.dst
  known : ∀ p, p ∈ s.known ↔ IsFile atFirst p
  kept : ∀ p, IsFile atFirst p → IsFile s.dst p

section

variable {atFirst : Nodes Content} {s : State Content} {a : Action Content}

/-- A known file is not above another file, and so only its own removal is skipped. -/
theorem visitsDst_of_file (sound : Sound atFirst s) (file : IsFile s.dst p)
    (visited : visits f p = true) : visitsDst f s.known p = true ↔ ¬ IsFile atFirst p := by
  rw [visitsDst_iff, sound.known, and_iff_right visited]
  refine and_iff_left ?_
  intro d leads known
  obtain ⟨inode, above⟩ := sound.kept d ((sound.known d).mp known)
  obtain ⟨mtime, dir⟩ := sound.closed p (mem_of_isFile file) d (Path.mem_ancestors.mpr leads)
  cases above.symm.trans dir

theorem pass_follows (sound : Sound atFirst s) (meets : Guard ⟨f, true⟩ s a) :
    Sound atFirst (sync a.clock ⟨f, true⟩ a.source s).state ∧
      Follows f atFirst ⟨a.source, sync a.clock ⟨f, true⟩ a.source s⟩ := by
  obtain ⟨ok, closed, copied⟩ := copyAll_ready a.clock
    (⟨sound.closed, meets.noDirectory, meets.noFileAbove⟩ : Ready f a.source s.dst)
  have completed : (sync a.clock ⟨f, true⟩ a.source s).raised = false := by
    rw [sync, if_neg (by simp [ok]), if_pos rfl]
  have removed := (sync_removing completed rfl).1
  have files (p : Path) : IsFile (sync a.clock ⟨f, true⟩ a.source s).state.dst p ↔
      (IsFile s.dst p ∨ visits f p = true ∧ IsFile a.source.nodes p) ∧
        ¬ (visitsDst f s.known p = true ∧ a.source.nodes.lookup p = none) := by
    rw [removed, isFile_unlinkAll, ← copied p]
    refine and_congr_right fun there => not_congr ?_
    rw [mem_strays]
    exact and_iff_right there
  have keeps : ∀ p, IsFile atFirst p →
      IsFile (sync a.clock ⟨f, true⟩ a.source s).state.dst p := by
    intro p first
    refine (files p).mpr ⟨.inl (sound.kept p first), fun stray => ?_⟩
    exact (visitsDst_iff.mp stray.1).2.1 ((sound.known p).mpr first)
  refine ⟨⟨?_, ?_, keeps⟩, completed, ?_, keeps⟩
  · rw [removed]
    exact closed_unlinkAll closed fun x stray => (mem_strays.mp stray).1
  · rw [sync_known]
    exact sound.known
  · intro p visited
    rw [files p]
    constructor
    · rintro ⟨file | ⟨-, file⟩, kept⟩
      · cases inSource : a.source.nodes.lookup p with
        | none =>
            right
            by_contra new
            exact kept ⟨(visitsDst_of_file sound file visited).mpr new, inSource⟩
        | some node =>
            cases node with
            | file inode => exact .inl ⟨inode, inSource⟩
            | dir mtime =>
                right
                exact (sound.known p).mp (meets.noFileInPlace p mtime inSource visited file)
      · exact .inl file
    · rintro (⟨inode, file⟩ | first)
      · refine ⟨.inr ⟨visited, inode, file⟩, fun stray => ?_⟩
        cases file.symm.trans stray.2
      · exact (files p).mp (keeps p first)

theorem passes_follow {log : List (Passed Content)} (first : Tree Content)
    (run : Mealy.Run (machine ⟨f, true⟩) (Guard ⟨f, true⟩) (⟨first.nodes, none⟩, []) log s) :
    ∀ passed ∈ log, Follows f first.nodes passed := by
  have start : Sound first.nodes ⟨first.nodes, none⟩ :=
    ⟨first.closed, fun p => mem_files, fun p file => file⟩
  have invariant := run.invariant
    (P := fun log s => Sound first.nodes s ∧ ∀ passed ∈ log, Follows f first.nodes passed)
    ⟨start, by simp⟩
    fun log s a t new ⟨sound, earlier⟩ meets action => by
      cases action
      obtain ⟨after, follows⟩ := pass_follows sound meets
      refine ⟨after, fun passed member => ?_⟩
      rcases List.mem_append.mp member with old | now
      · exact earlier passed old
      · rw [List.mem_singleton.mp now]
        exact follows
  exact invariant.2

end

/-! ## A file that takes the place of another -/

/-- Nothing but files at the top. -/
def flat (nodes : Nodes Unit) : Bool :=
  nodes.entries.all fun entry => entry.1.dirs.isEmpty && (filePath entry).isSome

theorem flat_file {nodes : Nodes Unit} {node : Node Unit} (isFlat : flat nodes = true)
    (there : nodes.lookup p = some node) : p.dirs = [] ∧ ∃ inode, node = .file inode := by
  have entry := List.all_eq_true.mp isFlat _ (AList.mem_lookup_iff.mp there)
  cases node with
  | file inode => exact ⟨by simpa [filePath] using entry, inode, rfl⟩
  | dir mtime => simp [filePath] at entry

theorem guard_flat {settings : Settings} {s : State Unit} {a : Action Unit}
    (both : (flat s.dst && flat a.source.nodes) = true) : Guard settings s a := by
  obtain ⟨dst, source⟩ := Bool.and_eq_true_iff.mp both
  refine ⟨?_, ?_, ?_⟩
  · intro p _ _ mtime there
    obtain ⟨-, inode, same⟩ := flat_file dst there
    cases same
  · rintro p ⟨inode, file⟩ _ d leads
    obtain ⟨top, -⟩ := flat_file source file
    have above := Path.mem_ancestors.mpr leads
    rw [Path.ancestors, top] at above
    cases above
  · intro p mtime there
    obtain ⟨-, inode, same⟩ := flat_file source there
    cases same

def fileAt (name : String) : Tree Unit where
  nodes := AList.singleton ⟨[], name.toList⟩ (.file ⟨(), 0, 0⟩)
  closed := closed_singleton rfl

/-- One file was there before. The source has another one, and then a third in its place. -/
theorem files_follow : ∃ first passed : Passed Unit,
    Follows ⟨[], []⟩ (fileAt "b").nodes first ∧ Follows ⟨[], []⟩ (fileAt "b").nodes passed ∧
      passed.outcome.copies = [⟨[], "c".toList⟩] ∧ passed.outcome.removals = [⟨[], "a".toList⟩] := by
  have steps : Mealy.execIf (machine ⟨⟨[], []⟩, true⟩)
      (fun s a => flat s.dst && flat a.source.nodes) (⟨(fileAt "b").nodes, none⟩, [])
      [⟨fileAt "a", fun _ => 0⟩, ⟨fileAt "c", fun _ => 1⟩] = some (_, [_, _]) := rfl
  have run := (Mealy.Run.of_execIf steps).mono (H := Guard ⟨⟨[], []⟩, true⟩) fun _ _ => guard_flat
  exact ⟨_, _, passes_follow (fileAt "b") run _ List.mem_cons_self,
    passes_follow (fileAt "b") run _ (List.mem_cons_of_mem _ List.mem_cons_self), rfl, rfl⟩

/-! ## A name that becomes a directory -/

def pathA : Path := ⟨[], "a".toList⟩

def directoryA : Tree Unit where
  nodes := (AList.singleton pathA (.dir 0)).insert (pathA.child "b".toList) (.file ⟨(), 0, 0⟩)
  closed := by
    intro p there d above
    rcases (AList.mem_insert _).mp there with rfl | there
    · cases List.mem_singleton.mp above
      exact ⟨0, rfl⟩
    · rw [List.mem_singleton.mp there] at above
      cases above

def noTree : Tree Unit where
  nodes := ∅
  closed := by
    intro p there
    cases there

/-- The second pass has to put a file below the copy that the first one made. -/
theorem directory_after_file_fails : ¬ ∀ log s, Mealy.Run (machine ⟨⟨[], []⟩, true⟩) Mealy.always
    (⟨noTree.nodes, none⟩, []) log s → ∀ passed ∈ log, Follows ⟨[], []⟩ noTree.nodes passed := by
  intro claim
  have steps : Mealy.exec (machine ⟨⟨[], []⟩, true⟩) (⟨noTree.nodes, none⟩, [])
      [⟨fileAt "a", fun _ => 0⟩, ⟨directoryA, fun _ => 0⟩] = some (_, _) := rfl
  have follows := claim _ _ (.of_exec (by simp) steps) _ (List.mem_cons_of_mem _ List.mem_cons_self)
  cases follows.completes

end JobQ.SyncPass
