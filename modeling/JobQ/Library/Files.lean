import Mathlib.Data.List.AList

/-!
# Named contents

A directory, a container or an archive as a finite map from names to contents, and a list of files
written to it one after the other.
-/

namespace Files

variable {κ γ : Type*} [DecidableEq κ]

/-- Written first to last, so that the last content of a name stays. -/
def writeAll (files : AList fun _ : κ => γ) (written : List (κ × γ)) : AList fun _ : κ => γ :=
  written.foldl (fun files file => files.insert file.1 file.2) files

variable {files other : AList fun _ : κ => γ} {written : List (κ × γ)} {name : κ}

theorem mem_iff : name ∈ files ↔ ∃ content, files.lookup name = some content := by
  rw [← AList.lookup_isSome, Option.isSome_iff_exists]

theorem mem_of_lookup {content : γ} (found : files.lookup name = some content) : name ∈ files :=
  mem_iff.mpr ⟨content, found⟩

theorem mem_congr (same : other.lookup name = files.lookup name) : name ∈ other ↔ name ∈ files := by
  rw [mem_iff, mem_iff, same]

theorem lookup_writeAll_absent (absent : ∀ file ∈ written, file.1 ≠ name) :
    (writeAll files written).lookup name = files.lookup name := by
  induction written generalizing files with
  | nil => rfl
  | cons file rest ih =>
      obtain ⟨other, later⟩ := List.forall_mem_cons.mp absent
      exact (ih later).trans (AList.lookup_insert_ne other.symm)

/-- If a name is written with one content only, it has that content. -/
theorem lookup_writeAll {content : γ} (member : (name, content) ∈ written)
    (unique : ∀ file ∈ written, file.1 = name → file.2 = content) :
    (writeAll files written).lookup name = some content := by
  induction written generalizing files with
  | nil => cases member
  | cons file rest ih =>
      obtain ⟨first, later⟩ := List.forall_mem_cons.mp unique
      by_cases again : ∃ file ∈ rest, file.1 = name
      · obtain ⟨other, inRest, named⟩ := again
        have same : other = (name, content) := Prod.ext named (later other inRest named)
        exact ih (same ▸ inRest) later
      · push Not at again
        rcases List.mem_cons.mp member with rfl | inRest
        · exact (lookup_writeAll_absent again).trans (AList.lookup_insert files)
        · exact absurd rfl (again _ inRest)

theorem mem_writeAll : name ∈ writeAll files written ↔
    name ∈ files ∨ ∃ content, (name, content) ∈ written := by
  induction written generalizing files with
  | nil => simp [writeAll]
  | cons file rest ih =>
      rw [writeAll, List.foldl_cons, ← writeAll, ih, AList.mem_insert]
      constructor
      · rintro ((rfl | before) | ⟨content, later⟩)
        · exact .inr ⟨file.2, List.mem_cons_self⟩
        · exact .inl before
        · exact .inr ⟨content, List.mem_cons_of_mem _ later⟩
      · rintro (before | ⟨content, member⟩)
        · exact .inl (.inr before)
        · rcases List.mem_cons.mp member with rfl | later
          · exact .inl (.inl rfl)
          · exact .inr ⟨content, later⟩

theorem lookup_writeAll_entries (other : AList fun _ : κ => γ) :
    (writeAll files (other.entries.map fun file => (file.1, file.2))).lookup name =
      (other.lookup name).or (files.lookup name) := by
  have entry {file : κ × γ} (member : file ∈ other.entries.map fun file => (file.1, file.2)) :
      other.lookup file.1 = some file.2 := by
    obtain ⟨file, listed, rfl⟩ := List.mem_map.mp member
    exact AList.mem_lookup_iff.mpr listed
  cases found : other.lookup name with
  | none =>
      apply lookup_writeAll_absent
      rintro file member rfl
      cases found.symm.trans (entry member)
  | some content =>
      apply lookup_writeAll
      · exact List.mem_map.mpr ⟨⟨name, content⟩, AList.mem_lookup_iff.mp found, rfl⟩
      · rintro file member rfl
        exact Option.some.inj ((entry member).symm.trans found)

end Files
