import JobQ.Library.Pool
import JobQ.Model.SyncFilter

/-!
# Include overrides exclude

By the rule, a file is left out if an exclude pattern matches one of its two names, and no include
pattern does. The walk applies the rule to each name by itself, and to the directories on the way.
-/

namespace JobQ.SyncFilter

variable {f : Filters} {p d : Path} {dirpath : List (List Char)} {tree : Entries}

/-- A pattern matches the base name or the path relative to the source. -/
def matched (patterns : List (List Char)) (p : Path) : Bool :=
  patterns.any (Glob.fnmatch p.name) || patterns.any (Glob.fnmatch p.relativeToSrc)

def Filters.drops (f : Filters) (p : Path) : Prop :=
  matched f.excludes p = true ∧ matched f.includes p = false

instance (f : Filters) (p : Path) : Decidable (f.drops p) := inferInstanceAs (Decidable (_ ∧ _))

/-- A pass considers exactly the files that the rule does not drop. -/
def Filters.IncludeOverrides (f : Filters) (tree : Entries) : Prop :=
  ∀ p ∈ tree.files [], p ∈ f.considered [] tree ↔ ¬f.drops p

instance (f : Filters) (tree : Entries) : Decidable (f.IncludeOverrides tree) :=
  inferInstanceAs (Decidable (∀ p ∈ tree.files [], _ ↔ ¬f.drops p))

/-! ## The walk -/

def Path.LeadsTo (d p : Path) : Prop := d.dirs ++ [d.name] <+: p.dirs

theorem files_under (listed : p ∈ tree.files dirpath) : dirpath <+: p.dirs := by
  induction tree generalizing dirpath with
  | nil => cases listed
  | file name rest ih =>
      rcases List.mem_cons.mp listed with rfl | later
      · exact List.prefix_rfl
      · exact ih later
  | dir name inside rest ihInside ih =>
      rcases List.mem_append.mp listed with below | later
      · exact (List.prefix_append dirpath [name]).trans (ihInside below)
      · exact ih later

/-- Of the directories on the way that lie below `dirpath`, the first is the one in it. -/
theorem Path.LeadsTo.cases {name : List Char} (leads : d.LeadsTo p)
    (below : dirpath ++ [name] <+: p.dirs) (within : dirpath <+: d.dirs) :
    d = ⟨dirpath, name⟩ ∨ dirpath ++ [name] <+: d.dirs := by
  have order : (dirpath ++ [name]).length ≤ (d.dirs ++ [d.name]).length := by
    simpa using within.length_le
  rcases List.prefix_concat_iff.mp (List.prefix_of_prefix_length_le below leads order)
    with same | deeper
  · obtain ⟨path, last⟩ := d
    obtain ⟨rfl, named⟩ := List.append_inj' same rfl
    cases named
    exact .inl rfl
  · exact .inr deeper

theorem Path.LeadsTo.not_self (leads : d.LeadsTo p) (within : p.dirs <+: d.dirs) : False := by
  have short := leads.length_le
  have long := within.length_le
  simp at short
  omega

theorem mem_considered : p ∈ f.considered dirpath tree ↔ p ∈ tree.files dirpath ∧
    f.skip p = false ∧ ∀ d : Path, d.LeadsTo p → dirpath <+: d.dirs → f.skip d = false := by
  induction tree generalizing dirpath with
  | nil => simp [Filters.considered, Entries.files]
  | file name rest ih =>
      have here : f.skip ⟨dirpath, name⟩ = false →
          ∀ d : Path, d.LeadsTo ⟨dirpath, name⟩ → dirpath <+: d.dirs → f.skip d = false :=
        fun _ d leads within => (leads.not_self within).elim
      rw [Filters.considered, Entries.files]
      split
      · rename_i skipped
        rw [ih, List.mem_cons]
        constructor
        · exact fun ⟨listed, rest⟩ => ⟨.inr listed, rest⟩
        · rintro ⟨rfl | listed, kept, rest⟩
          · rw [skipped] at kept
            cases kept
          · exact ⟨listed, kept, rest⟩
      · rename_i kept
        rw [List.mem_cons, ih, List.mem_cons]
        constructor
        · rintro (rfl | ⟨listed, rest⟩)
          · exact ⟨.inl rfl, by simpa using kept, here (by simpa using kept)⟩
          · exact ⟨.inr listed, rest⟩
        · rintro ⟨rfl | listed, rest⟩
          · exact .inl rfl
          · exact .inr ⟨listed, rest⟩
  | dir name inside rest ihInside ih =>
      rw [Filters.considered, Entries.files, List.mem_append]
      split
      · rename_i skipped
        rw [ih]
        constructor
        · exact fun ⟨listed, rest⟩ => ⟨.inr listed, rest⟩
        · rintro ⟨below | listed, kept, way⟩
          · -- the directory that is skipped leads to the file
            have := way ⟨dirpath, name⟩ (files_under below) List.prefix_rfl
            rw [skipped] at this
            cases this
          · exact ⟨listed, kept, way⟩
      · rename_i entered
        rw [List.mem_append, ihInside, ih]
        constructor
        · rintro (⟨below, kept, way⟩ | ⟨listed, rest⟩)
          · refine ⟨.inl below, kept, fun d leads within => ?_⟩
            rcases leads.cases (files_under below) within with rfl | deeper
            · simpa using entered
            · exact way d leads deeper
          · exact ⟨.inr listed, rest⟩
        · rintro ⟨below | listed, kept, way⟩
          · refine .inl ⟨below, kept, fun d leads deeper => ?_⟩
            exact way d leads ((List.prefix_append dirpath [name]).trans deeper)
          · exact .inr ⟨listed, kept, way⟩

/-! ## The rule -/

/-- One of the directories on the way is skipped, and the rule does not drop the file itself. -/
def Filters.CutsOff (f : Filters) (p : Path) : Prop :=
  ¬f.drops p ∧ ∃ d : Path, d.LeadsTo p ∧ f.skip d = true

/-- An exclude pattern matches one of the names, and include patterns match the other name only. -/
def Filters.Splits (f : Filters) (p : Path) : Prop :=
  (f.skipTest p.name = true ∧ f.includes.any (Glob.fnmatch p.relativeToSrc) = true) ∨
    (f.skipTest p.relativeToSrc = true ∧ f.includes.any (Glob.fnmatch p.name) = true)

theorem Filters.drops.skip (dropped : f.drops p) : f.skip p = true := by
  obtain ⟨out, noneIn⟩ := dropped
  simp only [matched, Bool.or_eq_true, Bool.or_eq_false_iff] at out noneIn
  simp only [Filters.skip, Filters.skipTest, noneIn.1, noneIn.2, Bool.or_eq_true]
  simpa using out

/-- A file that the rule does not drop is skipped for its own names only if they disagree. -/
theorem skip_iff_splits (kept : ¬f.drops p) : f.skip p = true ↔ f.Splits p := by
  revert kept
  unfold Filters.drops matched Filters.skip Filters.Splits Filters.skipTest
  generalize f.excludes.any (Glob.fnmatch p.name) = outBase,
    f.includes.any (Glob.fnmatch p.name) = inBase,
    f.excludes.any (Glob.fnmatch p.relativeToSrc) = outRelative,
    f.includes.any (Glob.fnmatch p.relativeToSrc) = inRelative
  revert outBase inBase outRelative inRelative
  decide

theorem splits_kept (splits : f.Splits p) : ¬f.drops p := by
  rintro ⟨-, noneIn⟩
  simp only [matched, Bool.or_eq_false_iff] at noneIn
  rcases splits with ⟨-, relative⟩ | ⟨-, base⟩
  · rw [noneIn.2] at relative
    cases relative
  · rw [noneIn.1] at base
    cases base

theorem considered_iff : p ∈ f.considered [] tree ↔ p ∈ tree.files [] ∧ f.skip p = false ∧
    ∀ d : Path, d.LeadsTo p → f.skip d = false := by
  simp [mem_considered]

theorem considered_kept (considered : p ∈ f.considered [] tree) : ¬f.drops p := by
  intro dropped
  obtain ⟨-, kept, -⟩ := considered_iff.mp considered
  rw [dropped.skip] at kept
  cases kept

/-- Include overrides exclude exactly on the trees where each file that the rule does not drop can be
reached, and has no name that is excluded while only its other name is included. -/
theorem include_overrides_iff (f : Filters) (tree : Entries) : f.IncludeOverrides tree ↔
    ∀ p ∈ tree.files [], ¬f.CutsOff p ∧ ¬f.Splits p := by
  refine forall₂_congr fun p listed => ?_
  constructor
  · intro agrees
    refine ⟨fun ⟨kept, d, leads, skipped⟩ => ?_, fun splits => ?_⟩
    · obtain ⟨-, -, way⟩ := considered_iff.mp (agrees.mpr kept)
      rw [way d leads] at skipped
      cases skipped
    · have kept := splits_kept splits
      obtain ⟨-, passes, -⟩ := considered_iff.mp (agrees.mpr kept)
      rw [(skip_iff_splits kept).mpr splits] at passes
      cases passes
  · rintro ⟨reached, agrees⟩
    refine ⟨considered_kept, fun kept => considered_iff.mpr ⟨listed, ?_, fun d leads => ?_⟩⟩
    · rw [← Bool.not_eq_true, skip_iff_splits kept]
      exact agrees
    · rw [← Bool.not_eq_true]
      exact fun skipped => reached ⟨kept, d, leads, skipped⟩

/-- `keep.log` is included, by its relative path, and is not copied. -/
theorem include_not_overriding :
    let f : Filters := ⟨["logs/keep.log".toList], ["*.log".toList]⟩
    let tree : Entries := .dir "logs".toList (.file "keep.log".toList .nil) .nil
    ¬f.IncludeOverrides tree ∧ f.considered [] tree = [] := by
  decide +kernel

end JobQ.SyncFilter
