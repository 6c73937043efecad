import JobQ.Library.Machine

/-!
# Machines that are late by a bounded time

One party of a machine is ready in some of its states, and a clock ticks in steps of one. A run is
prompt up to `δ` if the clock never ticks once the party has been ready for so long.
-/

namespace Mealy

variable {σ α ε : Type*}

structure Clock (M : Machine σ α ε) where
  now : σ → Nat
  ready : σ → Bool
  own : α → Bool
  ticks : ∀ {s a t es}, M.step s a = some (t, es) →
    now t = now s ∨ own a = false ∧ now t = now s + 1

namespace Clock

variable {M : Machine σ α ε} (K : Clock M)

/-- Since when the party is ready in the state that action `a` leads to. -/
def since (before : Option Nat) (a : α) (t : σ) : Option Nat :=
  if K.ready t then some (if K.own a then K.now t else before.getD (K.now t)) else none

def timed : Machine (σ × Option Nat) α ε where
  step s a := (M.step s.1 a).map fun next => ((next.1, K.since s.2 a next.1), next.2)

def prompt (δ : Nat) (s : σ × Option Nat) (a : α) : Prop :=
  ∀ t es, M.step s.1 a = some (t, es) → K.now t ≠ K.now s.1 →
    ∀ readySince, s.2 = some readySince → K.now s.1 < readySince + δ

def begins (s : σ) : σ × Option Nat := (s, if K.ready s then some (K.now s) else none)

variable {K} {δ : Nat} {s t : σ × Option Nat} {a : α} {es : List ε}

theorem timed_step (action : K.timed.step s a = some (t, es)) :
    M.step s.1 a = some (t.1, es) ∧ t.2 = K.since s.2 a t.1 := by
  obtain ⟨⟨next, made⟩, stepped, same⟩ := Option.map_eq_some_iff.mp action
  cases same
  exact ⟨stepped, rfl⟩

theorem since_ready {before : Option Nat} {next : σ} :
    (K.since before a next).isSome = K.ready next := by
  unfold since
  cases K.ready next <;> rfl

structure InTime (K : Clock M) (δ : Nat) (s : σ × Option Nat) : Prop where
  ready : s.2.isSome = K.ready s.1
  late : ∀ readySince, s.2 = some readySince →
    readySince ≤ K.now s.1 ∧ K.now s.1 ≤ readySince + δ

theorem InTime.step (inTime : InTime K δ s) (meets : K.prompt δ s a)
    (action : K.timed.step s a = some (t, es)) : InTime K δ t := by
  obtain ⟨stepped, same⟩ := timed_step action
  refine ⟨same ▸ since_ready, fun readySince ready => ?_⟩
  rw [same, since] at ready
  split at ready
  · obtain ⟨rfl⟩ := Option.some.inj ready
    cases own : K.own a with
    | true => simp
    | false =>
        cases before : s.2 with
        | none => simp
        | some earlier =>
            obtain ⟨old, bound⟩ := inTime.late earlier before
            rcases K.ticks stepped with still | ⟨-, ticked⟩
            · simp only [Option.getD_some, Bool.false_eq_true, if_false]
              omega
            · have early := meets _ _ stepped (by omega) earlier before
              simp only [Option.getD_some, Bool.false_eq_true, if_false]
              omega
  · cases ready

theorem run_inTime {start : σ} {log : List ε}
    (run : Run K.timed (K.prompt δ) (K.begins start, []) log s) : InTime K δ s := by
  refine run.state_invariant (P := InTime K δ) ?_ fun _ _ _ _ inTime meets action =>
    inTime.step meets action
  unfold begins
  refine ⟨?_, fun readySince ready => ?_⟩
  · cases K.ready start <;> rfl
  · split at ready
    · cases ready
      exact ⟨Nat.le_refl _, Nat.le_add_right _ _⟩
    · cases ready

/-- A timed run is a run. -/
theorem untimed {G : σ × Option Nat → α → Prop} {start : σ × Option Nat} {log : List ε}
    (run : Run K.timed G (start, []) log s) : Run M always (start.1, []) log s.1 := by
  induction run with
  | refl => exact .refl
  | next _ _ action ih => exact ih.next trivial (timed_step action).1

end Clock

end Mealy
