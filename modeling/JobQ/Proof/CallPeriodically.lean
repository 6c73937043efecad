import JobQ.Model.CallPeriodically

/-!
# The outcome of the context and the outcome of its body

Nothing stands between the exception of the body and the caller, so that the task is cancelled after
a normal end only. There an exception that a callback has raised takes the place of the result.
-/

namespace JobQ.CallPeriodically

/-- The context ends as its body did, and by then the task is over. -/
def OwnOutcome (s : Scenario) : Prop :=
  ∃ exc, callPeriodically s = .over s.body (.finished exc)

def raised : Outcome → Option Exc
  | .ok () => none
  | .error exc => some exc

def outcomes (s : Scenario) : List Outcome :=
  s.finished ++
    match s.place with
    | .sleeping => [.error .cancelledError]
    | .calling reaction => reaction :: s.later

/-- After a normal body, the first exception in the task is a `CancelledError`. A body that raises
comes after an exception that has already ended the task. -/
def Undisturbed (s : Scenario) : Prop :=
  match s.body with
  | .ok () => (outcomes s).findSome? raised = some .cancelledError
  | .error _ => ∃ outcome ∈ s.finished, outcome ≠ .ok ()

section

variable {before after : List Outcome} {exc : Exc}

theorem heartbeat_finished_iff : heartbeat before = .finished exc ↔
    before.findSome? raised = some exc := by
  induction before with
  | nil => simp [heartbeat]
  | cons outcome rest ih =>
      cases outcome with
      | ok _ => exact ih
      | error first => simp [heartbeat, List.findSome?_cons, raised]

theorem heartbeat_alive_iff : heartbeat before = .alive ↔ ∀ outcome ∈ before, outcome = .ok () := by
  induction before with
  | nil => simp [heartbeat]
  | cons outcome rest ih =>
      rw [List.forall_mem_cons, ← ih]
      cases outcome with
      | ok _ => exact (and_iff_right rfl).symm
      | error first => simp [heartbeat]

theorem heartbeat_append (alive : heartbeat before = .alive) :
    heartbeat (before ++ after) = heartbeat after := by
  induction before with
  | nil => rfl
  | cons outcome rest ih =>
      cases outcome with
      | ok _ => exact ih alive
      | error first => cases alive

theorem heartbeat_append_finished (ended : heartbeat before = .finished exc) :
    heartbeat (before ++ after) = .finished exc := by
  induction before with
  | nil => cases ended
  | cons outcome rest ih =>
      cases outcome with
      | ok _ => exact ih ended
      | error first => exact ended

end

theorem awaitTask_ok_iff {task : Task} : (∃ exc, awaitTask task = .over (.ok ()) (.finished exc)) ↔
    task = .finished .cancelledError := by
  cases task with
  | alive => simp [awaitTask]
  | finished exc => cases exc <;> simp [awaitTask]

/-- After a normal body the caller gets what the task ends with, whenever that happens. -/
theorem callPeriodically_normal {s : Scenario} (normal : s.body = .ok ()) :
    callPeriodically s = awaitTask (heartbeat (outcomes s)) := by
  rw [callPeriodically, normal, outcomes]
  cases ran : heartbeat s.finished with
  | finished exc => rw [heartbeat_append_finished ran]
  | alive =>
      rw [heartbeat_append ran]
      cases s.place <;> rfl

theorem own_outcome_iff (s : Scenario) : OwnOutcome s ↔ Undisturbed s := by
  rw [OwnOutcome, Undisturbed]
  cases ending : s.body with
  | ok _ =>
      rw [callPeriodically_normal ending, awaitTask_ok_iff, heartbeat_finished_iff]
  | error exc =>
      have raises : callPeriodically s = .over (.error exc) (heartbeat s.finished) := by
        rw [callPeriodically, ending]
      rw [raises]
      cases ran : heartbeat s.finished with
      | alive => simpa using heartbeat_alive_iff.mp ran
      | finished first =>
          have some : ¬∀ outcome ∈ s.finished, outcome = .ok () := by
            rw [← heartbeat_alive_iff, ran]
            simp
          push Not at some
          exact iff_of_true ⟨first, rfl⟩ some

/-- A finished run fails with the error of its last heartbeat. -/
theorem heartbeat_error_replaces : ¬ OwnOutcome
    { finished := [(workerHeartbeatFn (.error (.other "ClientAuthenticationError"))).map fun _ => ()]
      place := .sleeping
      later := []
      body := .ok () } := by
  rintro ⟨exc, own⟩
  cases own

end JobQ.CallPeriodically
