import Mathlib.Data.List.Basic

/-!
# Sweeps

A call is made on each item of a list and may raise. One after the other, the first exception ends
the sweep. In a pool every item has its call, and of the exceptions only one that is not caught goes
on to the caller.
-/

structure Sweep (α ε : Type*) where
  attempts : List α := []
  raised : Option ε := none
deriving DecidableEq

namespace Sweep

variable {α κ ε : Type*}

/-- What comes after a sweep that raises is not begun. -/
def andThen (first next : Sweep α ε) : Sweep α ε :=
  match first.raised with
  | some _ => first
  | none => ⟨first.attempts ++ next.attempts, next.raised⟩

def sequential (call : α → Option ε) : List α → Sweep α ε
  | [] => {}
  | item :: rest => andThen ⟨[item], call item⟩ (sequential call rest)

def pooled (caught : ε → Bool) (call : α → Option ε) (items : List α) : Sweep α ε where
  attempts := items
  raised := (items.filterMap call).find? fun exc => !caught exc

variable {call : α → Option ε} {caught : ε → Bool} {first next : Sweep α ε} {items : List α}

/-! ## One after the other -/

theorem andThen_raised : (first.andThen next).raised = first.raised.or next.raised := by
  unfold andThen
  split <;> simp [*]

theorem andThen_raised_eq_none :
    (first.andThen next).raised = none ↔ first.raised = none ∧ next.raised = none := by
  rw [andThen_raised, Option.or_eq_none_iff]

theorem andThen_attempts (quiet : first.raised = none) :
    (first.andThen next).attempts = first.attempts ++ next.attempts := by
  simp [andThen, quiet]

@[simp] theorem andThen_none (attempts : List α) (next : Sweep α ε) :
    andThen ⟨attempts, none⟩ next = ⟨attempts ++ next.attempts, next.raised⟩ := rfl

@[simp] theorem andThen_some (attempts : List α) (exc : ε) (next : Sweep α ε) :
    andThen ⟨attempts, some exc⟩ next = ⟨attempts, some exc⟩ := rfl

theorem andThen_of_raised (raises : first.raised ≠ none) : first.andThen next = first := by
  unfold andThen
  split
  · rfl
  · contradiction

theorem sequential_raised_eq_none :
    (sequential call items).raised = none ↔ ∀ item ∈ items, call item = none := by
  induction items with
  | nil => simp [sequential]
  | cons item rest ih => simp [sequential, andThen_raised_eq_none, ih]

theorem sequential_attempts_cons {item : α} (rest : List α) :
    (sequential call (item :: rest)).attempts =
      item :: if call item = none then (sequential call rest).attempts else [] := by
  rw [sequential, andThen]
  cases call item <;> simp

theorem sequential_quiet (quiet : ∀ item ∈ items, call item = none) :
    (sequential call items).attempts = items := by
  induction items with
  | nil => rfl
  | cons item rest ih =>
      rw [sequential_attempts_cons, if_pos (quiet item (by simp)),
        ih fun other member => quiet other (by simp [member])]

theorem sequential_ends {before after : List α} {failed : α}
    (quiet : ∀ item ∈ before, call item = none) (fails : call failed ≠ none) :
    (sequential call (before ++ failed :: after)).attempts = before ++ [failed] := by
  induction before with
  | nil => simp [sequential_attempts_cons, fails]
  | cons item rest ih =>
      rw [List.cons_append, sequential_attempts_cons, if_pos (quiet item (by simp)),
        ih fun other member => quiet other (by simp [member])]
      rfl

theorem quiet_or_fails (call : α → Option ε) (items : List α) :
    (∀ item ∈ items, call item = none) ∨ ∃ before failed after,
      items = before ++ failed :: after ∧ (∀ item ∈ before, call item = none) ∧
      call failed ≠ none := by
  induction items with
  | nil => exact .inl (by simp)
  | cons item rest ih =>
      by_cases fails : call item = none
      · rcases ih with quiet | ⟨before, failed, after, rfl, quiet, raises⟩
        · exact .inl (by simpa [fails] using quiet)
        · exact .inr ⟨item :: before, failed, after, rfl, by simpa [fails] using quiet, raises⟩
      · exact .inr ⟨[], item, rest, rfl, by simp, fails⟩

theorem sequential_subset : (sequential call items).attempts ⊆ items := by
  rcases quiet_or_fails call items with quiet | ⟨before, failed, after, rfl, quiet, fails⟩
  · rw [sequential_quiet quiet]
    exact List.Subset.refl _
  · rw [sequential_ends quiet fails]
    intro item member
    simp only [List.mem_append, List.mem_cons, List.not_mem_nil, or_false] at member ⊢
    exact member.imp_right .inl

/-! ## In a pool -/

@[simp] theorem pooled_attempts : (pooled caught call items).attempts = items := rfl

theorem pooled_raised_eq_none : (pooled caught call items).raised = none ↔
    ∀ item ∈ items, ∀ exc, call item = some exc → caught exc := by
  simp only [pooled, List.find?_eq_none, List.mem_filterMap]
  constructor
  · intro quiet item member exc fails
    simpa using quiet exc ⟨item, member, fails⟩
  · rintro quiet exc ⟨item, member, fails⟩
    simpa using quiet item member exc fails

/-- Items count as the same when they have the same key. -/
theorem sequential_reaches_iff (key : α → κ) :
    (∀ item ∈ items, key item ∈ (sequential call items).attempts.map key) ↔
      ∀ before failed after, items = before ++ failed :: after → call failed ≠ none →
        ∀ item ∈ after, key item ∈ (before ++ [failed]).map key := by
  rcases quiet_or_fails call items with quiet | ⟨before, failed, after, rfl, quiet, fails⟩
  · rw [sequential_quiet quiet]
    refine ⟨fun _ before failed after split raises => ?_, fun _ item member => ?_⟩
    · exact absurd (quiet failed (by simp [split])) raises
    · exact List.mem_map_of_mem member
  · rw [sequential_ends quiet fails]
    constructor
    · intro reaches before' failed' after' split raises item member
      -- The sweep ends at the first item that raises, and so not after this one.
      have early : before ++ [failed] <+: before' ++ [failed'] := by
        have whole : before ++ [failed] <+: before' ++ failed' :: after' :=
          ⟨after, by rw [← split]; simp⟩
        refine List.prefix_of_prefix_length_le whole ⟨after', by simp⟩ ?_
        simp only [List.length_append, List.length_singleton, Nat.add_le_add_iff_right]
        by_contra shorter
        have stored : before[before'.length]? = some failed' := by
          rw [← @List.getElem?_append_left _ _ (failed :: after) _ (by omega), split]
          simp
        exact raises (quiet failed' (List.mem_of_getElem? stored))
      have reached := reaches item (by rw [split]; simp [member])
      exact (List.IsPrefix.map key early).subset reached
    · intro repeats item member
      have known := repeats before failed after rfl fails item
      simp only [List.map_append, List.mem_append, List.mem_cons] at member known ⊢
      rcases member with member | rfl | member
      · exact .inl (List.mem_map_of_mem member)
      · simp
      · exact known member

end Sweep
