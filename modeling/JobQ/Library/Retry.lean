import Mathlib.Data.Nat.Notation
import Mathlib.Tactic.Common

/-!
# Bounded retries

A call that may fail is repeated while its failure is retryable and attempts are left; the last
failure is passed on. The call reads and writes a state, so that an attempt may depend on the
ones before it.
-/

namespace Retry

variable {σ α ε : Type*}

def retrying (retryable : ε → Bool) (attempt : σ → Except ε α × σ) : Nat → σ → Except ε α × σ
  | 0, s | 1, s => attempt s
  | n + 2, s =>
    match attempt s with
    | (.ok a, t) => (.ok a, t)
    | (.error e, t) => if retryable e then retrying retryable attempt (n + 1) t else (.error e, t)

def before (attempt : σ → Except ε α × σ) (s : σ) : Nat → σ
  | 0 => s
  | k + 1 => (attempt (before attempt s k)).2

def Retried (retryable : ε → Bool) (attempt : σ → Except ε α × σ) (s : σ) (k : Nat) : Prop :=
  ∃ e, (attempt (before attempt s k)).1 = .error e ∧ retryable e = true

variable {retryable : ε → Bool} {attempt : σ → Except ε α × σ}

theorem before_succ (s : σ) (k : Nat) :
    before attempt (attempt s).2 k = before attempt s (k + 1) := by
  induction k with
  | zero => rfl
  | succ k ih =>
      rw [before, ih]
      rfl

/-- The outcome is that of the first attempt that is not retried, or of the last one allowed. -/
theorem retrying_decisive (n : Nat) (s : σ) :
    ∃ k ≤ n, (∀ j < k, Retried retryable attempt s j) ∧
      retrying retryable attempt (n + 1) s = attempt (before attempt s k) ∧
      (k = n ∨ ¬ Retried retryable attempt s k) := by
  induction n generalizing s with
  | zero => exact ⟨0, Nat.le_refl 0, by simp, rfl, .inl rfl⟩
  | succ n ih =>
      cases first : attempt s with
      | mk result t =>
          cases result with
          | ok a =>
              refine ⟨0, by omega, by simp, by rw [retrying, first]; exact first.symm, .inr ?_⟩
              rintro ⟨e, failed, -⟩
              simp [before, first] at failed
          | error e =>
              by_cases retry : retryable e = true
              · obtain ⟨k, bound, earlier, result, stop⟩ := ih t
                have shift (j : Nat) : before attempt t j = before attempt s (j + 1) := by
                  rw [← before_succ, first]
                refine ⟨k + 1, by omega, ?_, ?_, ?_⟩
                · intro j below
                  cases j with
                  | zero => exact ⟨e, by rw [before, first], retry⟩
                  | succ j =>
                      have := earlier j (by omega)
                      rwa [Retried, shift] at this
                · rw [retrying, first]
                  simp only [retry, ↓reduceIte]
                  rw [result, shift]
                · rcases stop with last | final
                  · exact .inl (by omega)
                  · rw [Retried, shift] at final
                    exact .inr final
              · refine ⟨0, by omega, by simp, ?_, .inr ?_⟩
                · rw [retrying, first]
                  simp only [retry, Bool.false_eq_true, ↓reduceIte]
                  exact first.symm
                · rintro ⟨e', failed, retryable'⟩
                  simp only [before, first, Except.error.injEq] at failed
                  exact retry (failed ▸ retryable')

end Retry
