import JobQ.Proof.LaunchWorkers.Steps

/-!
# Held workers

A worker that a shutdown request has caught, and that will not begin another task unless it braces
for a preemption first.
-/

namespace JobQ.LaunchWorkers

variable {maxFailures : Int} {signals signals' : Signals} {w v : Worker} {events : List WorkerEvent}

/-- `wait_for_hard_stop` does not resume. -/
def Signals.closed (signals : Signals) : Bool :=
  signals.hardStopEvent ∨ signals.flagResumeIfNotKilled = false

@[simp]
theorem shutdownHandler_resume (signals : Signals) (r : Request) :
    (shutdownHandler signals r).flagResumeIfNotKilled = r.resumeIfNotKilled := by
  unfold shutdownHandler
  grind

/-- A second request is a hard one. -/
@[simp]
theorem shutdownHandler_hard (signals : Signals) (r : Request) :
    (shutdownHandler signals r).hardStopEvent =
      (signals.hardStopEvent || r.hard || signals.shutdownEvent) := by
  unfold shutdownHandler
  grind

namespace Worker

/-- The pull has ended in a way that leads back to the head of the loop. -/
def loops (w : Worker) (maxFailures : Int) : Bool :=
  match w.pull with
  | .ended (.returned success) => success ∨ ¬maxFailures < (w.numConsecutiveFailures + 1 : Nat)
  | .ended (.raised exc) => exc = .lockLostError
  | _ => false

/-- The worker goes on to its next task, whatever is requested. -/
def betweenTasks (w : Worker) (maxFailures : Int) : Bool :=
  match w.pc with
  | .starting | .ready | .clearing _ | .resuming _ | .cleaningUp .again => true
  | .waiting => w.shutdownTask ≠ .done ∧ w.loops maxFailures
  | _ => false

def isBracing (w : Worker) : Bool :=
  match w.pc with
  | .bracing _ | .gathering _ => true
  | _ => false

/-- The step takes `except LockLostError`. -/
def losesLock (w : Worker) (signals : Signals) : WorkerAction → Bool
  | .raises exc =>
    match w.pc with
    | .shuttingDown _ | .flushing true | .resuming true => exc = .lockLostError
    | _ => false
  | .proceeds =>
    match w.pc with
    | .waiting => w.pull = .ended (.raised .lockLostError) ∧
        ¬(w.shutdownTask = .done ∧ signals.flagPassSignalToSubprocess)
    | .shuttingDown true | .cancellingPull | .finishing => w.pull = .ended (.raised .lockLostError)
    | _ => false
  | _ => false

def isCaught (w : Worker) : Bool :=
  match w.pc with
  | .shuttingDown _ | .cancellingPull | .finishing | .flushing _ | .cleaningUp (.leave _) |
    .leaving _ | .ended _ => true
  | _ => false

structure Held (maxFailures : Int) (signals : Signals) (w : Worker) : Prop where
  between : w.betweenTasks maxFailures = false
  heard : w.pc = .waiting → w.shutdownTask ≠ .waiting
  closed : w.isBracing = true → signals.closed = true

theorem Held.of_caught (caught : w.isCaught = true) : Held maxFailures signals w := by
  unfold isCaught at caught
  constructor
  · unfold betweenTasks
    split <;> simp_all
  · intro pc
    simp [pc] at caught
  · unfold isBracing
    split <;> simp_all

@[simp]
theorem caught_cleanUp (w : Worker) (how : Outcome) : (w.cleanUp (.leave how)).isCaught = true := by
  unfold cleanUp
  split <;> rfl

theorem caught_raise {inTry : Bool} {exc : Exc} (keeps : inTry = true → exc ≠ .lockLostError) :
    (w.raise inTry exc).isCaught = true := by
  unfold raise
  split
  · exact absurd rfl (keeps rfl)
  · rfl
  · exact caught_cleanUp w _
  · exact caught_cleanUp w _

theorem caught_pullCancelled {result : Result} (keeps : result ≠ .raised .lockLostError) :
    (w.pullCancelled result).isCaught = true := by
  unfold pullCancelled
  split
  · rfl
  · rfl
  · exact caught_raise fun _ lost => keeps (by rw [lost])

theorem caught_pullFinished {result : Result} (keeps : result ≠ .raised .lockLostError) :
    (w.pullFinished result).isCaught = true := by
  cases result with
  | returned =>
      show (w.raise true .workerCanceled).isCaught = true
      exact caught_raise (by simp)
  | raised exc => exact caught_raise (w := w) fun _ lost => keeps (by rw [lost])

theorem caught_count {success : Bool} (ended : w.pull = .ended (.returned success))
    (spent : w.loops maxFailures = false) : (w.count maxFailures success).isCaught = true := by
  simp only [loops, ended, decide_eq_false_iff_not, not_or, not_not] at spent
  obtain ⟨failed, tooMany⟩ := spent
  unfold count
  rw [if_neg failed]
  simp only [if_pos tooMany]
  exact caught_raise (by simp)

theorem Held.wake (between : w.betweenTasks maxFailures = false)
    (closed : w.isBracing = true → signals.closed = true) : Held maxFailures signals w.wake := by
  have pc : w.wake.pc = w.pc := by
    unfold Worker.wake
    split <;> rfl
  refine ⟨?_, fun _ => ?_, fun bracing => closed ?_⟩
  · rw [← between]
    unfold Worker.wake
    split
    · simp [betweenTasks, loops, *]
    · rfl
  · unfold Worker.wake
    split
    · simp
    · assumption
  · rw [← bracing]
    simp only [isBracing, pc]

theorem Held.cancel (held : Held maxFailures signals w) : Held maxFailures signals w.cancel := by
  obtain ⟨_, same⟩ := w.cancel_eq
  rw [same]
  exact ⟨held.between, held.heard, held.closed⟩

theorem Held.mono (held : Held maxFailures signals w)
    (closed : signals.closed = true → signals'.closed = true) : Held maxFailures signals' w :=
  ⟨held.between, held.heard, fun bracing => closed (held.closed bracing)⟩

/-- The work of this module: a held worker stays held, clears nothing and begins nothing, unless it
goes on to brace. -/
theorem Held.moves {a : WorkerAction} (held : Held maxFailures signals w)
    (moves : w.Moves maxFailures signals a signals' v events)
    (keeps : w.losesLock signals a = false) :
    signals' = signals ∧ .began ∉ events ∧
      (Held maxFailures signals v ∨ .braced ∈ events ∧ signals.closed = false) := by
  have quiet {u : Worker} (caught : u.isCaught = true) : signals = signals ∧
      WorkerEvent.began ∉ ([] : List WorkerEvent) ∧ (Held maxFailures signals u ∨
        .braced ∈ ([] : List WorkerEvent) ∧ signals.closed = false) :=
    ⟨rfl, by simp, .inl (.of_caught caught)⟩
  obtain ⟨between, heard, closed⟩ := held
  cases moves with
  | late pc | begins pc | enters pc | entryRaises pc | entryCancelled pc | clears pc | resumes pc =>
      simp [betweenTasks, pc] at between
  | taskRuns woken =>
      refine ⟨rfl, by simp, .inl ⟨?_, by simp, closed⟩⟩
      unfold betweenTasks at between ⊢
      split at between <;> simp_all
  | pullEnds running =>
      -- the shutdown task is done before the worker hears of the end
      have late (pc : w.pc = .waiting) :
          (if w.shutdownTask = .woken then ShutdownTask.done else w.shutdownTask) = .done := by
        have heard := heard pc
        cases task : w.shutdownTask with
        | waiting => exact absurd task heard
        | woken | done => rfl
      refine ⟨rfl, by simp, .inl ⟨?_, fun pc => by simp [late pc], closed⟩⟩
      unfold betweenTasks at between ⊢
      split at between <;> simp_all
  | shutsDown => exact ⟨rfl, by simp, .inl (.of_caught rfl)⟩
  | asserts => exact quiet (caught_raise (by simp))
  | finishes => exact quiet rfl
  | finished pc ended =>
      apply quiet
      apply caught_pullFinished
      intro lost
      subst lost
      rcases pc with pc | ⟨pc, done, pass⟩
      · simp [losesLock, pc, ended] at keeps
      · simp [losesLock, pc, ended, done, pass] at keeps
  | counts pc early ended =>
      apply quiet
      apply caught_count ended
      simpa [betweenTasks, pc, early] using between
  | pullRaises pc early ended =>
      apply quiet
      apply caught_raise
      intro _ lost
      subst lost
      simp [losesLock, pc, early, ended] at keeps
  | cancels => exact quiet rfl
  | pullCancelled pc ended =>
      apply quiet
      apply caught_pullCancelled
      intro lost
      subst lost
      rcases pc with pc | pc <;> simp [losesLock, pc, ended] at keeps
  | nothingPending => exact quiet rfl
  | stops => exact quiet (caught_cleanUp w _)
  | braces pc soft =>
      refine ⟨rfl, by simp, .inr ⟨by simp, ?_⟩⟩
      simpa [Signals.closed] using soft
  | gathers pc =>
      refine ⟨rfl, by simp, .inl ⟨rfl, by simp, fun _ => closed (by simp [isBracing, pc])⟩⟩
  | decides pc soft =>
      have shut := closed (by simp [isBracing, pc])
      simp only [Signals.closed, decide_eq_true_eq] at shut
      exact absurd shut soft
  | @cleansUp next pc =>
      cases next with
      | again => simp [betweenTasks, pc] at between
      | leave how => exact quiet rfl
  | ends | exitRaises | exitCancelled => exact ⟨rfl, by simp, .inl (.of_caught rfl)⟩
  | @callRaises inTry exc pc =>
      apply quiet
      apply caught_raise
      intro trying lost
      subst trying lost
      rcases pc with ⟨-, pending, pc⟩ | pc | pc <;> simp [losesLock, pc] at keeps
  | cancelled => exact quiet (caught_raise (by simp))
  | swallowed => exact quiet rfl

end Worker

end JobQ.LaunchWorkers
