import Mathlib.Data.List.Basic

/-!
# Machines that emit events

A machine steps from a state on an action, refuses some actions, and emits events when it accepts
one. A run starts in a state with a log, takes steps that meet a guard, and adds to the log what
they emit.
-/

namespace Mealy

structure Machine (σ α ε : Type*) where
  step : σ → α → Option (σ × List ε)

variable {σ α ε : Type*} {M : Machine σ α ε} {G H : σ → α → Prop}

/-- `Run M G (s, log) es t`: accepted steps that all meet `G` lead from `s` to `t`, and extend the
log to `es`. -/
inductive Run (M : Machine σ α ε) (G : σ → α → Prop) (start : σ × List ε) : List ε → σ → Prop
  | refl : Run M G start start.2 start.1
  | next {es : List ε} {t u : σ} {a : α} {new : List ε} (previous : Run M G start es t)
      (meets : G t a) (action : M.step t a = some (u, new)) : Run M G start (es ++ new) u

abbrev always : σ → α → Prop := fun _ _ => True

theorem silent_step {stepped : Option σ} {t : σ} {new : List ε}
    (action : stepped.map (·, ([] : List ε)) = some (t, new)) : stepped = some t ∧ new = [] := by
  obtain ⟨u, rfl, same⟩ := Option.map_eq_some_iff.mp action
  cases same
  exact ⟨rfl, rfl⟩

theorem Run.trans {start : σ × List ε} {t u : σ} {es fs : List ε} (first : Run M G start es t)
    (second : Run M G (t, es) fs u) : Run M G start fs u := by
  induction second with
  | refl => exact first
  | next _ meets action ih => exact ih.next meets action

theorem Run.head {s t u : σ} {a : α} {log new es : List ε} (meets : G s a)
    (action : M.step s a = some (t, new)) (rest : Run M G (t, log ++ new) es u) :
    Run M G (s, log) es u :=
  Run.trans (.next .refl meets action) rest

theorem Run.mono {start : σ × List ε} {t : σ} {es : List ε} (run : Run M G start es t)
    (weaker : ∀ s a, G s a → H s a) : Run M H start es t := by
  induction run with
  | refl => exact .refl
  | next _ meets action ih => exact ih.next (weaker _ _ meets) action

theorem Run.extends {start : σ × List ε} {t : σ} {es : List ε} (run : Run M G start es t) :
    ∃ new, es = start.2 ++ new := by
  induction run with
  | refl => exact ⟨[], by simp⟩
  | next _ _ _ ih =>
      obtain ⟨earlier, rfl⟩ := ih
      exact ⟨_, List.append_assoc _ _ _⟩

theorem split_append {es new before after : List ε} {e : ε}
    (split : es ++ new = before ++ e :: after) :
    (∃ rest, es = before ++ e :: rest ∧ after = rest ++ new) ∨
      ∃ between, before = es ++ between ∧ new = between ++ e :: after := by
  rcases List.append_eq_append_iff.mp split with ⟨between, first, second⟩ | ⟨rest, first, second⟩
  · exact .inr ⟨between, first, second⟩
  · cases rest with
    | nil => exact .inr ⟨[], by simpa using first.symm, by simpa using second.symm⟩
    | cons f rest =>
        obtain ⟨rfl, rfl⟩ := List.cons_eq_cons.mp second
        exact .inl ⟨rest, first, rfl⟩

theorem split_snoc {es before after : List ε} {e x : ε} (split : es ++ [x] = before ++ e :: after) :
    (∃ rest, es = before ++ e :: rest ∧ after = rest ++ [x]) ∨ before = es ∧ e = x ∧ after = [] := by
  rcases split_append split with earlier | ⟨between, rfl, now⟩
  · exact .inl earlier
  · cases between with
    | nil =>
        cases now
        exact .inr ⟨List.append_nil es, rfl, rfl⟩
    | cons y between =>
        have short := congrArg List.length now
        simp at short

/-- The log has the event `e`, and nothing after it that breaks it. -/
def Latest (breaks : ε → Bool) (log : List ε) (e : ε) : Prop :=
  ∃ before after, log = before ++ e :: after ∧ ∀ f ∈ after, breaks f = false

theorem Latest.append {breaks : ε → Bool} {log new : List ε} {e : ε} (latest : Latest breaks log e)
    (quiet : ∀ f ∈ new, breaks f = false) : Latest breaks (log ++ new) e := by
  obtain ⟨before, after, rfl, earlier⟩ := latest
  refine ⟨before, after ++ new, List.append_assoc .., fun f member => ?_⟩
  rcases List.mem_append.mp member with old | now
  · exact earlier f old
  · exact quiet f now

theorem Latest.mem {breaks : ε → Bool} {log : List ε} {e : ε} (latest : Latest breaks log e) :
    e ∈ log := by
  obtain ⟨before, after, rfl, -⟩ := latest
  simp

theorem Run.invariant {P : List ε → σ → Prop} {start : σ × List ε} {t : σ} {es : List ε}
    (run : Run M G start es t) (initial : P start.2 start.1)
    (step : ∀ es s a t new, P es s → G s a → M.step s a = some (t, new) → P (es ++ new) t) :
    P es t := by
  induction run with
  | refl => exact initial
  | next _ meets action ih => exact step _ _ _ _ _ ih meets action

/-- An event of a run is emitted by one of its steps. -/
theorem Run.at_event {start : σ × List ε} {t : σ} {es before after : List ε} {e : ε}
    (run : Run M G start es t) (fresh : start.2 = []) (split : es = before ++ e :: after) :
    ∃ log s a u first second later, Run M G start log s ∧ G s a ∧
      M.step s a = some (u, first ++ e :: second) ∧ before = log ++ first ∧
        after = second ++ later ∧ Run M G (u, log ++ (first ++ e :: second)) es t := by
  induction run generalizing after with
  | refl =>
      have empty := congrArg List.length (fresh.symm.trans split)
      simp at empty
  | @next es t u a new previous meets action ih =>
      rcases split_append split with ⟨rest, earlier, rfl⟩ | ⟨between, rfl, rfl⟩
      · obtain ⟨log, s, b, v, first, second, later, run, met, stepped, rfl, rfl, tail⟩ := ih earlier
        exact ⟨log, s, b, v, first, second, later ++ new, run, met, stepped, rfl,
          List.append_assoc .., tail.next meets action⟩
      · exact ⟨es, t, a, u, between, after, [], previous, meets, action, rfl,
          (List.append_nil _).symm, .refl⟩

theorem Run.state_invariant {P : σ → Prop} {start : σ × List ε} {t : σ} {es : List ε}
    (run : Run M G start es t) (initial : P start.1)
    (step : ∀ s a t new, P s → G s a → M.step s a = some (t, new) → P t) : P t :=
  run.invariant (P := fun _ s => P s) initial fun _ s a t new => step s a t new

/-- A state property that an event brings about, that every guarded step keeps, and under which no
step emits an event of a kind: after the first event there is none of that kind in any run. -/
theorem Run.never_after {P : σ → Prop} {s t : σ} {es : List ε} (run : Run M G (s, []) es t)
    (first later : ε → Prop)
    (enters : ∀ s a t new before e after, G s a → M.step s a = some (t, new) →
      new = before ++ e :: after → first e → P t ∧ ∀ f ∈ after, ¬later f)
    (stays : ∀ s a t new, P s → G s a → M.step s a = some (t, new) → P t ∧ ∀ f ∈ new, ¬later f)
    {before after : List ε} {e : ε} (split : es = before ++ e :: after) (opens : first e) :
    P t ∧ ∀ f ∈ after, ¬later f := by
  induction run generalizing before after with
  | refl =>
      have empty := congrArg List.length split
      simp at empty
  | next _ meets action ih =>
      rcases split_append split with ⟨rest, earlier, rfl⟩ | ⟨between, -, now⟩
      · obtain ⟨holds, none⟩ := ih earlier
        obtain ⟨stayed, noneNew⟩ := stays _ _ _ _ holds meets action
        refine ⟨stayed, fun f member => ?_⟩
        rcases List.mem_append.mp member with old | new
        · exact none f old
        · exact noneNew f new
      · exact enters _ _ _ _ _ _ _ meets action now opens

def exec (M : Machine σ α ε) : σ × List ε → List α → Option (σ × List ε)
  | x, [] => some x
  | (s, es), a :: rest =>
    match M.step s a with
    | none => none
    | some (t, new) => exec M (t, es ++ new) rest

theorem Run.of_exec {start : σ × List ε} {t : σ} {actions : List α} {es : List ε}
    (meets : ∀ s, ∀ a ∈ actions, G s a) (run : exec M start actions = some (t, es)) :
    Run M G start es t := by
  induction actions generalizing start with
  | nil =>
      simp only [exec, Option.some.injEq] at run
      subst run
      exact .refl
  | cons a rest ih =>
      obtain ⟨s, log⟩ := start
      simp only [exec] at run
      split at run
      · contradiction
      · rename_i action
        exact .head (meets s a (by simp)) action
          (ih (fun s b member => meets s b (by simp [member])) run)

def execIf (M : Machine σ α ε) (guard : σ → α → Bool) : σ × List ε → List α → Option (σ × List ε)
  | x, [] => some x
  | (s, es), a :: rest =>
    if guard s a then
      match M.step s a with
      | none => none
      | some (t, new) => execIf M guard (t, es ++ new) rest
    else none

theorem Run.of_execIf {guard : σ → α → Bool} {start : σ × List ε} {t : σ} {actions : List α}
    {es : List ε} (run : execIf M guard start actions = some (t, es)) :
    Run M (fun s a => guard s a = true) start es t := by
  induction actions generalizing start with
  | nil =>
      simp only [execIf, Option.some.injEq] at run
      subst run
      exact .refl
  | cons a rest ih =>
      obtain ⟨s, log⟩ := start
      simp only [execIf] at run
      split at run
      · split at run
        · contradiction
        · rename_i meets _ _ _ action
          exact .head meets action (ih run)
      · contradiction

/-! ## Histories -/

section

variable {γ : Type*}

def Machine.withHistory (M : Machine σ α ε) (record : γ → σ → α → List ε → γ) :
    Machine (σ × γ) α ε where
  step s a := (M.step s.1 a).map fun next => ((next.1, record s.2 s.1 a next.2), next.2)

/-- The machine that keeps the transitions it has made. -/
def Machine.withTransitions (M : Machine σ α ε) : Machine (σ × List (σ × α × σ)) α ε where
  step s a := (M.step s.1 a).map fun next => ((next.1, s.2 ++ [(s.1, a, next.1)]), next.2)

variable {record : γ → σ → α → List ε → γ}

theorem withHistory_step {s t : σ} {g h : γ} {a : α} {new : List ε}
    (action : (M.withHistory record).step (s, g) a = some ((t, h), new)) :
    M.step s a = some (t, new) ∧ h = record g s a new := by
  simp only [Machine.withHistory, Option.map_eq_some_iff, Prod.mk.injEq] at action
  obtain ⟨⟨_, _⟩, stepped, ⟨rfl, rfl⟩, rfl⟩ := action
  exact ⟨stepped, rfl⟩

theorem Run.withHistory {start : σ × List ε} {t : σ} {es : List ε} (run : Run M G start es t)
    (g : γ) : ∃ h, Run (M.withHistory record) (fun s a => G s.1 a) ((start.1, g), start.2) es (t, h) := by
  induction run with
  | refl => exact ⟨g, .refl⟩
  | @next _ t _ a new _ meets action ih =>
      obtain ⟨h, earlier⟩ := ih
      exact ⟨record h t a new, earlier.next meets (by simp [Machine.withHistory, action])⟩

theorem Run.transitions {G : σ × List (σ × α × σ) → α → Prop} {start s t : σ} {a : α}
    {log es : List ε} {last : σ × List (σ × α × σ)}
    (run : Run M.withTransitions G ((start, []), log) es last) (made : (s, a, t) ∈ last.2) :
    ∃ new, M.step s a = some (t, new) := by
  induction run with
  | refl => cases made
  | next _ _ action ih =>
      simp only [Machine.withTransitions, Option.map_eq_some_iff, Prod.mk.injEq] at action
      obtain ⟨⟨u, new⟩, stepped, rfl, -⟩ := action
      rcases List.mem_append.mp made with earlier | now
      · exact ih earlier
      · cases List.mem_singleton.mp now
        exact ⟨new, stepped⟩

end

end Mealy
