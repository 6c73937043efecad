import Mathlib.Data.List.Basic

/-!
# Cutting a sorted list

The first elements of a list that is sorted, stably: none of them comes after an element that is left,
and of those that count as equal, the ones that stood first are taken first.
-/

namespace StableSort

variable {α : Type*} {le : α → α → Bool} {l : List α} {p : α → Bool}

theorem filter_mergeSort (trans : ∀ a b c, le a b → le b c → le a c)
    (total : ∀ a b, le a b || le b a) (tied : ∀ a b, p a → p b → le a b) :
    (l.mergeSort le).filter p = l.filter p := by
  have sorted : (l.filter p).Pairwise fun a b => le a b = true := by
    rw [List.pairwise_filter]
    exact List.pairwise_of_forall fun a b first second => tied a b first second
  have kept := (List.sublist_mergeSort trans total sorted List.filter_sublist).filter p
  simp only [List.filter_filter, Bool.and_self] at kept
  exact (kept.eq_of_length ((List.mergeSort_perm l le).symm.filter p).length_eq).symm

theorem take_le_drop (trans : ∀ a b c, le a b → le b c → le a c)
    (total : ∀ a b, le a b || le b a) (n : Nat) {a b : α} (taken : a ∈ (l.mergeSort le).take n)
    (left : b ∈ (l.mergeSort le).drop n) : le a b := by
  have sorted := List.pairwise_mergeSort trans total l
  rw [← List.take_append_drop n (l.mergeSort le), List.pairwise_append] at sorted
  exact sorted.2.2 a taken b left

end StableSort
