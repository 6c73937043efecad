import Mathlib.Data.List.Forall2

/-!
# Computations that may fail

When a sequence of fallible steps, or the same step for each item of a list, has a result.
-/

namespace Fallible

universe u

variable {ε : Type*} {α β : Type u}

section

variable {x : Except ε α} {f : α → Except ε β}

theorem bind_eq_ok {b : β} : (x >>= f) = .ok b ↔ ∃ a, x = .ok a ∧ f a = .ok b := by
  cases x with
  | error e => exact ⟨fun fails => (by cases fails), fun ⟨_, fails, _⟩ => (by cases fails)⟩
  | ok a => exact ⟨fun ok => ⟨a, rfl, ok⟩, fun ⟨_, same, ok⟩ => by cases same; exact ok⟩

theorem bind_ok (first : ∃ a, x = .ok a) (second : ∀ a, ∃ b, f a = .ok b) :
    ∃ b, (x >>= f) = .ok b := by
  obtain ⟨a, ok⟩ := first
  obtain ⟨b, also⟩ := second a
  exact ⟨b, bind_eq_ok.mpr ⟨a, ok, also⟩⟩

end

variable {ι : Type*} {f : ι → Except ε β}

theorem mapM_eq_ok {items : List ι} {results : List β} : items.mapM f = .ok results ↔
    List.Forall₂ (fun item result => f item = .ok result) items results := by
  induction items generalizing results with
  | nil =>
      constructor
      · rintro ⟨⟩
        exact .nil
      · rintro ⟨⟩
        rfl
  | cons item rest ih =>
      rw [List.mapM_cons]
      constructor
      · intro ok
        obtain ⟨first, ok₁, ok⟩ := bind_eq_ok.mp ok
        obtain ⟨others, ok₂, ok⟩ := bind_eq_ok.mp ok
        cases ok
        exact .cons ok₁ (ih.mp ok₂)
      · rintro (_ | ⟨first, others⟩)
        exact bind_eq_ok.mpr ⟨_, first, bind_eq_ok.mpr ⟨_, ih.mpr others, rfl⟩⟩

theorem mapM_ok_iff {items : List ι} :
    (∃ results, items.mapM f = .ok results) ↔ ∀ item ∈ items, ∃ result, f item = .ok result := by
  induction items with
  | nil => exact ⟨fun _ item member => absurd member List.not_mem_nil, fun _ => ⟨[], rfl⟩⟩
  | cons head tail ih =>
      rw [List.forall_mem_cons, ← ih, List.mapM_cons]
      constructor
      · rintro ⟨results, ok⟩
        obtain ⟨first, ok₁, ok⟩ := bind_eq_ok.mp ok
        obtain ⟨rest, ok₂, -⟩ := bind_eq_ok.mp ok
        exact ⟨⟨first, ok₁⟩, rest, ok₂⟩
      · rintro ⟨first, rest⟩
        exact bind_ok first fun _ => bind_ok rest fun _ => ⟨_, rfl⟩

theorem mem_of_mapM {items : List ι} {results : List β} (ok : items.mapM f = .ok results) {b : β} :
    b ∈ results ↔ ∃ item ∈ items, f item = .ok b := by
  have related := mapM_eq_ok.mp ok
  clear ok
  induction related with
  | nil => simp
  | cons first others ih =>
      rw [List.mem_cons, List.exists_mem_cons_iff, first, Except.ok.injEq]
      exact or_congr eq_comm ih

end Fallible
