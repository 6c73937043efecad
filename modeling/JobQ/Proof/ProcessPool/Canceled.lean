import JobQ.Proof.ProcessPool

/-!
# What a submission that ends during a shutdown ends with

`submit` looks at `_in_shutdown` only after its function has returned. What the executor refuses,
and what the function, the death of its process or the contexts of `bg_dirsync_to` raise, gets out as
it is.
-/

namespace JobQ.ProcessPool

variable {Result : Type*} {s t : State Result} {a : Action Result} {i : Nat}
  {log new : List (Event Result)}

def Outcome.isCanceled : Outcome Result → Bool
  | .raised .workerCanceled | .raised .cancelledError => true
  | _ => false

def Outcome.fails : Outcome Result → Bool
  | .returned _ => false
  | outcome => !outcome.isCanceled

/-- The contexts raise nothing, the executor does not refuse, and the function has not failed. -/
def endsCanceled (s : State Result) : Action Result → Bool
  | .submits _ bgDirsync enterRaises _ =>
    !(bgDirsync && enterRaises) && s.executors[s.pool]?.all fun x => x.refuses.isNone
  | .returns i exitRaises =>
    match s.coroutines[i]? with
    | some (.submitting j bgDirsync) =>
      !(bgDirsync && exitRaises) && (s.jobs[j]?.bind Job.future).all fun outcome => !outcome.fails
    | _ => true
  | .cancels i exitRaises =>
    match s.coroutines[i]? with
    | some (.submitting _ bgDirsync) => !(bgDirsync && exitRaises)
    | _ => true
  | _ => true

def AllCanceled (new : List (Event Result)) : Prop :=
  ∀ i outcome, .submitted i outcome ∈ new → outcome.isCanceled = true

def CountsAsCanceled (made : List (State Result × Action Result × State Result)) : Prop :=
  ∀ s a t new, (s, a, t) ∈ made → step s a = some (t, new) → s.inShutdown = true → AllCanceled new

theorem allCanceled_nil : AllCanceled ([] : List (Event Result)) := by
  simp [AllCanceled]

theorem allCanceled_killed (i : Nat) (exc : Option Exc) :
    AllCanceled [(.killed i exc : Event Result)] := by
  simp [AllCanceled]

theorem allCanceled_submitted {outcome : Outcome Result} :
    AllCanceled [.submitted i outcome] ↔ outcome.isCanceled = true := by
  simp [AllCanceled]

/-! ## One step -/

theorem refuses_not_canceled {x : Executor} {exc : Exc} (refused : x.refuses = some exc) :
    (Outcome.raised exc : Outcome Result).isCanceled = false := by
  unfold Executor.refuses at refused
  split at refused
  · cases refused
    rfl
  · split at refused <;> cases refused
    rfl

section

variable {bgDirsync enterRaises exitRaises : Bool}

theorem leave_canceled (outcome : Outcome Result) :
    (leave bgDirsync exitRaises outcome).isCanceled =
      (!(bgDirsync && exitRaises) && outcome.isCanceled) := by
  cases bgDirsync <;> cases exitRaises <;> rfl

theorem submits_canceled_iff (action : stepSubmits s i bgDirsync enterRaises exitRaises = some (t, new)) :
    AllCanceled new ↔ endsCanceled s (.submits i bgDirsync enterRaises exitRaises) = true := by
  unfold stepSubmits at action
  split at action
  · rename_i x _ stored
    split at action
    · rename_i raises
      cases action
      simp [allCanceled_submitted, Outcome.isCanceled, endsCanceled, raises]
    · rename_i enters
      split at action
      · rename_i exc refused
        cases action
        simp [allCanceled_submitted, leave_canceled, refuses_not_canceled refused, endsCanceled, stored,
          refused]
      · rename_i accepts
        cases action
        simp [allCanceled_nil, endsCanceled, enters, stored, accepts]
  · contradiction

theorem returns_canceled_iff (shutdown : s.inShutdown = true)
    (action : stepReturns s i exitRaises = some (t, new)) :
    AllCanceled new ↔ endsCanceled s (.returns i exitRaises) = true := by
  unfold stepReturns at action
  split at action
  · rename_i j _ waits
    split at action
    · rename_i result future
      cases action
      rw [allCanceled_submitted, leave_canceled]
      simp [Outcome.isCanceled, endsCanceled, waits, future, Outcome.fails, shutdown]
    · rename_i exc future
      cases action
      simp [allCanceled_submitted, leave_canceled, endsCanceled, waits, future, Outcome.fails]
    · contradiction
  · contradiction

theorem cancels_canceled_iff (action : stepCancels s i exitRaises = some (t, new)) :
    AllCanceled new ↔ endsCanceled s (.cancels i exitRaises) = true := by
  unfold stepCancels at action
  split at action
  · rename_i waits
    cases action
    rw [allCanceled_submitted, leave_canceled]
    simp [Outcome.isCanceled, endsCanceled, waits]
  · rename_i waits
    cases action
    exact iff_of_true (allCanceled_killed _ _) (by simp [endsCanceled, waits])
  · rename_i waits
    cases action
    exact iff_of_true (allCanceled_killed _ _) (by simp [endsCanceled, waits])
  · contradiction

end

theorem step_canceled_iff (shutdown : s.inShutdown = true) (action : step s a = some (t, new)) :
    AllCanceled new ↔ endsCanceled s a = true := by
  cases a with
  | submits => exact submits_canceled_iff action
  | returns => exact returns_canceled_iff shutdown action
  | cancels => exact cancels_canceled_iff action
  | kills i =>
      apply iff_of_true _ rfl
      simp only [step, stepKills] at action
      split at action
      · split at action <;> cases action
        · exact allCanceled_killed _ _
        · simp [AllCanceled]
      · contradiction
  | wakes i =>
      apply iff_of_true _ rfl
      simp only [step, stepWakes] at action
      split at action <;> cases action
      exact allCanceled_killed _ _
  | resumes =>
      cases action
      exact iff_of_true allCanceled_nil rfl
  | assigns i =>
      obtain ⟨-, rfl⟩ := Mealy.silent_step action
      exact iff_of_true allCanceled_nil rfl
  | begins j =>
      obtain ⟨-, rfl⟩ := Mealy.silent_step action
      exact iff_of_true allCanceled_nil rfl
  | ends j outcome =>
      obtain ⟨-, rfl⟩ := Mealy.silent_step action
      exact iff_of_true allCanceled_nil rfl
  | breaks e =>
      obtain ⟨-, rfl⟩ := Mealy.silent_step action
      exact iff_of_true allCanceled_nil rfl
  | shutsDown k =>
      obtain ⟨-, rfl⟩ := Mealy.silent_step action
      exact iff_of_true allCanceled_nil rfl
  | joins k =>
      obtain ⟨-, rfl⟩ := Mealy.silent_step action
      exact iff_of_true allCanceled_nil rfl

/-! ## Runs -/

theorem submissions_canceled_iff {coroutines : Nat}
    {last : State Result × List (State Result × Action Result × State Result)}
    (run : Mealy.Run (machine Result).withTransitions Mealy.always
      ((initial coroutines, []), []) log last) :
    CountsAsCanceled last.2 ↔
      ∀ s a t, (s, a, t) ∈ last.2 → s.inShutdown = true → endsCanceled s a = true := by
  constructor
  · intro canceled s a t member shutdown
    obtain ⟨new, action⟩ := run.transitions member
    exact (step_canceled_iff shutdown action).mp (canceled s a t new member action shutdown)
  · intro ends s a t new member action shutdown
    exact (step_canceled_iff shutdown action).mpr (ends s a t member shutdown)

theorem ends_of_all {made : List (State Result × Action Result × State Result)}
    (all : (made.all fun x => endsCanceled x.1 x.2.1) = true) (s : State Result)
    (a : Action Result) (t : State Result) (member : (s, a, t) ∈ made)
    (_ : s.inShutdown = true) : endsCanceled s a = true :=
  List.all_eq_true.mp all _ member

theorem submissions_canceled_hello : ∃ made : List (State Nat × Action Nat × State Nat),
    CountsAsCanceled made ∧ made.length = 6 := by
  have steps : Mealy.exec (machine Nat).withTransitions ((initial 2, []), [])
      [.submits 1 true false false, .begins 0, .kills 0, .shutsDown 0, .ends 0 (.returned 7),
        .returns 1 false] =
        some ((_, _), _) := rfl
  refine ⟨_, (submissions_canceled_iff (.of_exec (by simp) steps)).mpr (ends_of_all rfl), rfl⟩

/-- The process of a running function dies of the signal that the shutdown sends to it. -/
theorem submission_not_canceled :
    ¬ ∀ (last : State Nat × List (State Nat × Action Nat × State Nat)) log,
      Mealy.Run (machine Nat).withTransitions Mealy.always ((initial 2, []), []) log last →
      CountsAsCanceled last.2 := by
  intro claim
  have steps : Mealy.exec (machine Nat).withTransitions ((initial 2, []), [])
      [.submits 1 false false false, .begins 0, .kills 0, .breaks 0, .returns 1 false] = some ((_, _), _) := rfl
  have canceled := claim _ _ (.of_exec (by simp) steps)
  have raised := canceled _ (.returns 1 false) _ _ (List.mem_of_getElem? (i := 4) rfl) rfl rfl 1
    (.raised .brokenProcessPool) (List.mem_singleton.mpr rfl)
  contradiction

end JobQ.ProcessPool
