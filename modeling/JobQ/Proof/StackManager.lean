import JobQ.Model.StackManager

/-!
# All or nothing

A failed entry leaves the managers before it entered, since Python calls `__aexit__` only after an
entry that has returned. A successful entry is undone manager by manager from the last one on,
whatever their exits do.
-/

namespace JobQ.StackManager

variable {ε : Type*}

def Event.enters : Event → Option String
  | entered name => some name
  | exits _ => none

def Event.leaves : Event → Option String
  | entered _ => none
  | exits name => some name

abbrev entries (log : List Event) : List String := log.filterMap Event.enters

abbrev leavings (log : List Event) : List String := log.filterMap Event.leaves

/-- All managers in the order in which they are entered: a `StackManager` after those in it. -/
def registered : Managers ε → List String
  | .nil => []
  | .leaf name _ _ rest => name :: registered rest
  | .nested name inside rest => registered inside ++ name :: registered rest

/-- A failed entry has left what it had entered before its exception is raised, and `__aexit__` leaves
all managers, with any exception of the body: each once, in reverse order. -/
structure AllOrNothing (m : Managers ε) : Prop where
  fails : ∀ exc, (aenter m).exc = some exc →
    leavings (aenter m).log = (entries (aenter m).log).reverse
  succeeds : (aenter m).exc = none → ∀ exc,
    leavings (aexit (aenter m).stack exc).log = (registered m).reverse

def EntersAll : Managers ε → Prop
  | .nil => True
  | .leaf _ enters _ rest => enters = none ∧ EntersAll rest
  | .nested _ inside rest => EntersAll inside ∧ EntersAll rest

def FirstFails : Managers ε → Prop
  | .nil => False
  | .leaf _ enters _ _ => enters ≠ none
  | .nested _ inside _ => FirstFails inside

/-! ## The entry -/

theorem firstFails_not_entersAll {m : Managers ε} (all : EntersAll m) : ¬ FirstFails m := by
  induction m with
  | nil => exact id
  | leaf name enters exits rest ih => exact fun first => first all.1
  | nested name inside rest ihInside ihRest => exact ihInside all.1

section

variable {name : String} {exits : Option ε → Reaction ε} {inside rest : Managers ε} {exc : ε}

theorem aenter_nested_fails (fails : (aenter inside).exc = some exc) :
    aenter (.nested name inside rest) = ⟨(aenter inside).log, .nil, some exc⟩ := by
  simp only [aenter, fails]

theorem aenter_nested_enters (enters : (aenter inside).exc = none) :
    aenter (.nested name inside rest) =
      ⟨(aenter inside).log ++ .entered name :: (aenter rest).log,
        .nested name (aenter inside).stack (aenter rest).stack, (aenter rest).exc⟩ := by
  simp only [aenter, enters]

end

theorem aenter_none_iff {m : Managers ε} : (aenter m).exc = none ↔ EntersAll m := by
  induction m with
  | nil => exact iff_of_true rfl trivial
  | leaf name enters exits rest ih =>
      rw [EntersAll, ← ih]
      cases enters with
      | some exc => simp [aenter]
      | none => exact (and_iff_right rfl).symm
  | nested name inside rest ihInside ihRest =>
      rw [EntersAll, ← ihInside, ← ihRest]
      cases ended : (aenter inside).exc with
      | some exc => simp [aenter_nested_fails ended]
      | none => simp [aenter_nested_enters ended]

theorem aenter_stack {m : Managers ε} (all : EntersAll m) : (aenter m).stack = m := by
  induction m with
  | nil => rfl
  | leaf name enters exits rest ih =>
      obtain ⟨rfl, later⟩ := all
      simp only [aenter, ih later]
  | nested name inside rest ihInside ihRest =>
      obtain ⟨first, later⟩ := all
      rw [aenter_nested_enters (aenter_none_iff.mpr first), ihInside first, ihRest later]

theorem aenter_leavings (m : Managers ε) : leavings (aenter m).log = [] := by
  induction m with
  | nil => rfl
  | leaf name enters exits rest ih =>
      cases enters with
      | some exc => rfl
      | none => exact ih
  | nested name inside rest ihInside ihRest =>
      cases ended : (aenter inside).exc with
      | some exc =>
          rw [aenter_nested_fails ended]
          exact ihInside
      | none =>
          rw [aenter_nested_enters ended, leavings, List.filterMap_append]
          exact List.append_eq_nil_iff.mpr ⟨ihInside, ihRest⟩

theorem entries_nil_iff {m : Managers ε} {exc : ε} (fails : (aenter m).exc = some exc) :
    entries (aenter m).log = [] ↔ FirstFails m := by
  induction m with
  | nil => cases fails
  | leaf name enters exits rest ih =>
      rw [FirstFails]
      cases enters with
      | some first => simp [aenter]
      | none => simp [aenter, Event.enters]
  | nested name inside rest ihInside ihRest =>
      rw [FirstFails]
      cases ended : (aenter inside).exc with
      | some first =>
          rw [aenter_nested_fails ended] at fails ⊢
          exact ihInside (ended.trans fails)
      | none =>
          have entered : EntersAll inside := aenter_none_iff.mp ended
          rw [aenter_nested_enters ended]
          simp [Event.enters, firstFails_not_entersAll entered]

/-! ## The exit -/

theorem react_log (u : Unwinding ε) (reaction : Reaction ε) : (u.react reaction).log = u.log := by
  cases reaction <;> rfl

theorem unwind_nested_log (name : String) (inside rest : Managers ε) (u : Unwinding ε) :
    (unwind (.nested name inside rest) u).log =
      (unwind inside { (unwind rest u).calls name with pendingRaise := false }).log := by
  rw [unwind]
  split <;> rfl

/-- What is left last is what was entered first, whatever the exits raise or suppress. -/
theorem unwind_leavings (m : Managers ε) (u : Unwinding ε) :
    leavings (unwind m u).log = leavings u.log ++ (registered m).reverse := by
  induction m generalizing u with
  | nil => exact (List.append_nil _).symm
  | leaf name enters exits rest ih =>
      simp [unwind, react_log, Unwinding.calls, registered, ih, Event.leaves]
  | nested name inside rest ihInside ihRest =>
      rw [unwind_nested_log, ihInside]
      simp [Unwinding.calls, registered, ihRest, Event.leaves]

theorem all_or_nothing_iff (m : Managers ε) : AllOrNothing m ↔ EntersAll m ∨ FirstFails m := by
  constructor
  · intro law
    cases ended : (aenter m).exc with
    | none => exact .inl (aenter_none_iff.mp ended)
    | some exc =>
        refine .inr ((entries_nil_iff ended).mp (List.reverse_eq_nil_iff.mp ?_))
        rw [← law.fails exc ended, aenter_leavings]
  · intro condition
    constructor
    · intro exc ended
      rcases condition with all | first
      · cases (aenter_none_iff.mpr all).symm.trans ended
      · rw [aenter_leavings, (entries_nil_iff ended).mpr first, List.reverse_nil]
    · intro ended exc
      rw [aenter_stack (aenter_none_iff.mp ended), aexit, unwind_leavings]
      exact List.nil_append _

/-- The code cache after a pool of processes that was started. -/
theorem pool_left_open : ¬ AllOrNothing
    (.leaf "shell_cmd_proc" none (fun _ => .passes) (.leaf "code_cache" (some "OSError") (fun _ => .passes) .nil)) := by
  intro law
  have left := law.fails "OSError" rfl
  cases left

end JobQ.StackManager
