import Mathlib.Data.List.DropRight

/-!
# Streaks

How often in a row a list ends with one value, kept up item by item as a counter that every other
value resets.
-/

namespace Streak

variable {α : Type*} [DecidableEq α] {a b : α} {n : Nat}

def streak (a : α) (l : List α) : Nat := (l.rtakeWhile fun b => b = a).length

theorem streak_snoc (l : List α) :
    streak a (l ++ [b]) = if b = a then streak a l + 1 else 0 := by
  by_cases same : b = a
  · simp [streak, same]
  · simp [streak, same]

/-- A list ends with `n` times `a` exactly if the streak has come that far. -/
theorem replicate_suffix_iff {l : List α} : List.replicate n a <:+ l ↔ n ≤ streak a l := by
  induction l using List.reverseRecOn generalizing n with
  | nil => simp [streak]
  | append_singleton l b ih =>
      rw [streak_snoc]
      cases n with
      | zero => simp
      | succ n =>
          rw [List.replicate_succ', List.suffix_concat_iff]
          by_cases same : b = a
          · simp [same, ih]
          · simp [same, Ne.symm same]

end Streak
