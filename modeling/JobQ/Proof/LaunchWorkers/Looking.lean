import JobQ.Proof.LaunchWorkers.Failures

/-!
# Which workers will look at the queue again

A worker that nobody forces to stop leaves without an exception only after `EmptyQueue`.
-/

namespace JobQ.LaunchWorkers

variable {maxFailures : Int} {signals signals' : Signals} {w v : Worker} {a : WorkerAction}
  {events : List WorkerEvent}

/-- How the worker is about to end or has ended. -/
def Pc.leaving? : Pc → Option Outcome
  | .cleaningUp (.leave how) | .leaving how | .ended how => some how
  | _ => none

def Pc.awaitsPull : Pc → Bool
  | .waiting | .shuttingDown true | .cancellingPull => true
  | _ => false

namespace Worker

def Fails (w : Worker) : Prop := ∃ exc, w.pc.leaving? = some (.raised exc)

/-- The worker has not heard that the queue is empty since it asked last. -/
def IsLooking (w : Worker) : Prop :=
  w.pc.leaving? = none ∧ (w.pc.awaitsPull = true → w.pull ≠ .ended (.raised .emptyQueue))

structure Steady (w : Worker) : Prop where
  uncancelled : w.cancelRequested = false
  awaited : w.pull = .running → w.pc.awaitsPull = true
  tended : w.pc ≠ .finishing

end Worker

/-- No request to stop for good, and none that lets the tasks end. -/
structure Signals.Soft (signals : Signals) : Prop where
  unforced : signals.hardStopEvent = false
  resumes : signals.flagResumeIfNotKilled = true
  passes : signals.flagPassSignalToSubprocess = true

/-- The time limit has not passed, and nothing that the worker calls raises an exception of its
protocol. -/
def WorkerAction.Gentle : WorkerAction → Prop
  | .begins late => late = false
  | .raises exc => exc = .other
  | .cancelled => False
  | _ => True

namespace Worker

theorem cleanUp_leave (w : Worker) (how : Outcome) :
    (w.cleanUp (.leave how)).pc.leaving? = some how := by
  unfold cleanUp
  split <;> rfl

theorem raise_fails {inTry : Bool} {exc : Exc} (lost : exc ≠ .lockLostError)
    (canceled : exc ≠ .workerCanceled) (empty : exc ≠ .emptyQueue) : (w.raise inTry exc).Fails := by
  cases inTry <;> cases exc <;> first | contradiction | exact ⟨_, w.cleanUp_leave _⟩

theorem cleanUp_again (w : Worker) : (w.cleanUp .again).pc.leaving? = none := by
  unfold cleanUp
  split <;> rfl

structure Handles (w v : Worker) : Prop where
  pull : v.pull = w.pull
  uncancelled : v.cancelRequested = w.cancelRequested
  elsewhere : v.pc.awaitsPull = false
  tended : v.pc ≠ .finishing

theorem cleanUp_handles (w : Worker) (next : Next) : w.Handles (w.cleanUp next) := by
  unfold cleanUp
  split
  · cases next <;> exact ⟨rfl, rfl, rfl, by simp [goOn]⟩
  · exact ⟨rfl, rfl, rfl, by simp⟩

theorem Handles.steady (handles : w.Handles v) (idle : w.pull ≠ .running)
    (uncancelled : w.cancelRequested = false) : v.Steady :=
  ⟨handles.uncancelled.trans uncancelled, fun running => absurd (handles.pull ▸ running) idle,
    handles.tended⟩

/-- Where a step leaves a worker that is not forced to stop: it has failed, or goes on, and then it
stops looking only when its pull finds the queue empty. -/
inductive Goes (w v : Worker) (a : WorkerAction) : Prop
  | fails (fails : v.Fails)
  | goesOn (steady : v.Steady)
      (looks : w.IsLooking → v.IsLooking ∨ a = .pullEnds (.raised .emptyQueue))

theorem Handles.goes {u : Worker} (handles : w.Handles v) (stays : v.pc.leaving? = none)
    (idle : w.pull ≠ .running) (uncancelled : w.cancelRequested = false) : u.Goes v a :=
  .goesOn (handles.steady idle uncancelled) fun _ =>
    .inl ⟨stays, fun awaits => by simp [handles.elsewhere] at awaits⟩

theorem raise_goes (steady : w.Steady) (awaits : w.pc.awaitsPull = true) {exc : Exc}
    (ended : w.pull = .ended (.raised exc)) : w.Goes (w.raise true exc) a := by
  have idle : w.pull ≠ .running := by simp [ended]
  have handles (next : Next) : w.Handles (w.cleanUp next) := w.cleanUp_handles next
  cases exc with
  | lockLostError => exact (handles .again).goes w.cleanUp_again idle steady.uncancelled
  | workerCanceled =>
      have flushes : w.Handles (w.raise true .workerCanceled) := ⟨rfl, rfl, rfl, by simp [raise]⟩
      exact flushes.goes rfl idle steady.uncancelled
  | emptyQueue =>
      exact .goesOn ((handles (.leave .returned)).steady idle steady.uncancelled) fun looking =>
        absurd ended (looking.2 awaits)
  | _ => exact .fails (w.raise_fails (by simp) (by simp) (by simp))

theorem count_goes {success : Bool} (steady : w.Steady)
    (ended : w.pull = .ended (.returned success)) : w.Goes (w.count maxFailures success) a := by
  unfold count
  split
  · exact (cleanUp_handles _ _).goes (cleanUp_again _) (by simp [ended]) steady.uncancelled
  · simp only
    split
    · exact .fails (raise_fails (by simp) (by simp) (by simp))
    · exact (cleanUp_handles _ _).goes (cleanUp_again _) (by simp [ended]) steady.uncancelled

theorem Moves.goes (moves : w.Moves maxFailures signals a signals' v events) (soft : signals.Soft)
    (steady : w.Steady) (gentle : a.Gentle) : w.Goes v a := by
  obtain ⟨uncancelled, awaited, tended⟩ := steady
  have idle (elsewhere : w.pc.awaitsPull = false) : w.pull ≠ .running := fun running => by
    simp [awaited running] at elsewhere
  have moved {pc : Pc} (elsewhere : w.pc.awaitsPull = false) (away : pc.awaitsPull = false)
      (tended : pc ≠ .finishing) : w.Handles { w with pc := pc } ∧ w.pull ≠ .running :=
    ⟨⟨rfl, rfl, away, tended⟩, idle elsewhere⟩
  have goesTo {pc : Pc} (elsewhere : w.pc.awaitsPull = false) (away : pc.awaitsPull = false)
      (tended : pc ≠ .finishing) (stays : pc.leaving? = none) : w.Goes { w with pc := pc } a :=
    (moved elsewhere away tended).1.goes stays (idle elsewhere) uncancelled
  have ends {pc : Pc} {how : Outcome} (elsewhere : w.pc.awaitsPull = false)
      (away : pc.awaitsPull = false) (tended : pc ≠ .finishing) (left : w.pc.leaving? = some how)
      (leaves : pc.leaving? = some how) : w.Goes { w with pc := pc } a := by
    cases how with
    | returned =>
        exact .goesOn ((moved elsewhere away tended).1.steady (idle elsewhere) uncancelled)
          fun looking => by simp [looking.1] at left
    | raised exc => exact .fails ⟨exc, leaves⟩
  cases moves with
  | late => cases gentle
  | begins => exact .goesOn ⟨uncancelled, fun _ => rfl, by simp⟩ fun _ => .inl ⟨rfl, by simp⟩
  | taskRuns => exact .goesOn ⟨uncancelled, awaited, tended⟩ .inl
  | @pullEnds result running =>
      refine .goesOn ⟨uncancelled, by simp, tended⟩ fun looking => ?_
      by_cases empty : result = .raised .emptyQueue
      · exact .inr (by rw [empty])
      · exact .inl ⟨looking.1, fun _ => by simpa using empty⟩
  | shutsDown pc =>
      refine .goesOn ⟨uncancelled, fun running => ?_, by simp⟩
        fun looking => .inl ⟨rfl, fun _ => looking.2 (by rw [pc]; rfl)⟩
      have pending : w.pull = .running := running
      simp only [pending, decide_true]
      rfl
  | asserts => exact .fails (raise_fails (by simp) (by simp) (by simp))
  | finishes _ _ pass => simp [soft.passes] at pass
  | finished pc =>
      rcases pc with pc | ⟨-, -, pass⟩
      · exact absurd pc tended
      · simp [soft.passes] at pass
  | counts _ _ ended => exact count_goes ⟨uncancelled, awaited, tended⟩ ended
  | pullRaises pc _ ended => exact raise_goes ⟨uncancelled, awaited, tended⟩ (by rw [pc]; rfl) ended
  | cancels pc =>
      exact .goesOn ⟨uncancelled, fun _ => rfl, by simp⟩ fun looking =>
        .inl ⟨rfl, fun _ => looking.2 (by rw [pc]; rfl)⟩
  | @pullCancelled result pc ended =>
      have awaits : w.pc.awaitsPull = true := by rcases pc with pc | pc <;> rw [pc] <;> rfl
      have flushes : w.Handles { w with pc := .flushing true } := ⟨rfl, rfl, rfl, by simp⟩
      unfold Worker.pullCancelled
      split
      · exact flushes.goes rfl (by simp [ended]) uncancelled
      · exact flushes.goes rfl (by simp [ended]) uncancelled
      · exact raise_goes ⟨uncancelled, awaited, tended⟩ awaits ended
  | stops _ closed => simp [soft.unforced, soft.resumes] at closed
  | enters pc | nothingPending pc | braces pc | gathers pc | decides pc | clears pc =>
      exact goesTo (by rw [pc]; rfl) rfl (by simp) rfl
  | resumes pc =>
      exact (w.cleanUp_handles _).goes w.cleanUp_again (idle (by rw [pc]; rfl)) uncancelled
  | @cleansUp next pc =>
      cases next with
      | again => exact goesTo (by rw [pc]; rfl) rfl (by simp) rfl
      | leave how => exact ends (by rw [pc]; rfl) rfl (by simp) (by rw [pc]; rfl) rfl
  | ends pc => exact ends (by rw [pc]; rfl) rfl (by simp) (by rw [pc]; rfl) rfl
  | entryRaises => exact .fails ⟨_, rfl⟩
  | callRaises =>
      cases gentle
      exact .fails (raise_fails (by simp) (by simp) (by simp))
  | exitRaises => exact .fails ⟨_, rfl⟩
  | entryCancelled | cancelled | swallowed | exitCancelled => exact gentle.elim

theorem Moves.pull_cases (moves : w.Moves maxFailures signals a signals' v events) :
    v.pull = w.pull ∨ (∃ late, a = .begins late ∧ w.pc = .ready) ∨
      ∃ result, a = .pullEnds result := by
  cases moves with
  | late pc | begins pc => exact .inr (.inl ⟨_, rfl, pc⟩)
  | pullEnds => exact .inr (.inr ⟨_, rfl⟩)
  | asserts | pullRaises | callRaises | cancelled => exact .inl (raise_goesOn _ _ _).pull
  | finished => exact .inl (pullFinished_goesOn _ _).pull
  | counts => exact .inl (count_goesOn _ _ _).pull
  | pullCancelled => exact .inl (pullCancelled_goesOn _ _).pull
  | stops | resumes => exact .inl (cleanUp_goesOn _ _).pull
  | @cleansUp next => cases next <;> exact .inl rfl
  | _ => exact .inl rfl

theorem Moves.begins_ready {late : Bool}
    (moves : w.Moves maxFailures signals (.begins late) signals' v events) : w.pc = .ready := by
  cases moves <;> assumption

theorem Moves.fails (moves : w.Moves maxFailures signals a signals' v events) (fails : w.Fails) :
    v.Fails := by
  obtain ⟨exc, left⟩ := fails
  cases moves with
  | taskRuns | pullEnds => exact ⟨exc, left⟩
  | @cleansUp next pc =>
      cases next with
      | again => simp [pc, Pc.leaving?] at left
      | leave how =>
          simp only [pc, Pc.leaving?, Option.some.injEq] at left
          exact ⟨exc, by simp [goOn, Pc.leaving?, left]⟩
  | ends pc =>
      simp only [pc, Pc.leaving?, Option.some.injEq] at left
      exact ⟨exc, by simp [Pc.leaving?, left]⟩
  | exitRaises | exitCancelled => exact ⟨_, rfl⟩
  | cancelled => exact raise_fails (by simp) (by simp) (by simp)
  | finished pc | pullCancelled pc | stops pc =>
      rcases pc with pc | pc <;> simp [pc, Pc.leaving?] at left
  | callRaises pc => rcases pc with ⟨-, _, pc⟩ | pc | pc <;> simp [pc, Pc.leaving?] at left
  | _ pc => simp [pc, Pc.leaving?] at left

theorem Moves.stays_ended {how : Outcome} (moves : w.Moves maxFailures signals a signals' v events)
    (ended : w.pc = .ended how) : v.pc = .ended how := by
  cases moves with
  | taskRuns | pullEnds => exact ended
  | cancelled live => exact absurd ended (live how)
  | finished pc | pullCancelled pc | stops pc => rcases pc with pc | pc <;> simp [pc] at ended
  | callRaises pc => rcases pc with ⟨-, _, pc⟩ | pc | pc <;> simp [pc] at ended
  | _ pc => simp [pc] at ended

theorem Moves.reported {how : Outcome} (moves : w.Moves maxFailures signals a signals' v events)
    (reported : how ∈ events.filterMap WorkerEvent.ended?) : v.pc = .ended how := by
  cases moves <;> simp [WorkerEvent.ended?] at reported <;> simp [reported]

theorem Moves.soft (moves : w.Moves maxFailures signals a signals' v events)
    (soft : signals.Soft) : signals'.Soft := by
  cases moves with
  | clears => exact ⟨soft.unforced, soft.resumes, soft.passes⟩
  | _ => exact soft

end Worker

end JobQ.LaunchWorkers
