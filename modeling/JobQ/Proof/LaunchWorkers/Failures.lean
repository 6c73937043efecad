import JobQ.Library.Streak
import JobQ.Proof.LaunchWorkers.Steps
import Mathlib.Logic.Function.Basic

/-!
# Consecutive failures

`num_consecutive_failures` is the streak of failures in the outcomes that a worker has looked at. A
lost lock, a canceled task and a resume leave it as it is.
-/

namespace JobQ.LaunchWorkers

variable {c : Config} {s t : State} {a : Action} {new log : List Event} {w v : Worker}

/-- The worker has raised `TooManyFailuresException`. -/
def Worker.gaveUp (w : Worker) : Bool :=
  match w.pc with
  | .cleaningUp (.leave how) | .leaving how | .ended how => how = .raised .tooManyFailuresException
  | _ => false

def Worker.inLoop (w : Worker) : Bool :=
  match w.pc with
  | .cleaningUp (.leave _) | .leaving _ | .ended _ => false
  | _ => true

/-- The outcome that the worker has not looked at yet. -/
def Worker.unheard (w : Worker) : List Bool :=
  match w.pc, w.pull with
  | .waiting, .ended (.returned success) => [success]
  | _, _ => []

/-- Once a worker has turned to a shutdown, its task is a canceled one whatever it returns. -/
def Worker.outcome (w : Worker) (b : WorkerAction) : List Bool :=
  match w.pc, b with
  | .waiting, .pullEnds (.returned success) => [success]
  | _, _ => []

def recordOutcome (outcomes : Nat → List Bool) (s : State) (a : Action) (_ : List Event) :
    Nat → List Bool :=
  match a with
  | .worker i b => Function.update outcomes i
      (outcomes i ++ (s.workers[i]?.map fun w => w.outcome b).getD [])
  | _ => outcomes

def outcomeMachine (c : Config) : Mealy.Machine (State × (Nat → List Bool)) Action Event :=
  (machine c).withHistory recordOutcome

/-- No worker finds a shutdown request beside a finished task, and nothing that a worker calls
raises `TooManyFailuresException`. -/
def unraced (s : State) : Action → Bool
  | .worker i .proceeds =>
    s.workers[i]?.all fun w => w.unheard = [] || w.shutdownTask ≠ .done
  | .worker _ (.pullEnds result) => result ≠ .raised .tooManyFailuresException
  | .worker _ (.raises exc) => exc ≠ .tooManyFailuresException
  | _ => true

/-- Of all steps only a look at an outcome makes the worker give up, and does so exactly if that
outcome and the `m` before it are failures. -/
structure CountedRight (c : Config) (m : Nat) (s : State) (i : Nat) (w : Worker)
    (outcomes : List Bool) : Prop where
  givesUp : ∀ a t new v, unraced s a = true → step c s a = some (t, new) →
    t.workers[i]? = some v → w.gaveUp = false →
      (v.gaveUp = true ↔ a = .worker i .proceeds ∧ w.unheard ≠ [] ∧
        List.replicate (m + 1) false <:+ outcomes)
  looks : w.unheard ≠ [] → w.shutdownTask ≠ .done → w.cancelRequested = false →
    ∃ t new, step c s (.worker i .proceeds) = some (t, new)

/-! ## The ways on from an outcome -/

/-- The counter stays as it is, and `gives` says whether the worker gives up. -/
structure Worker.GoesOn (w v : Worker) (gives : Prop) : Prop where
  pull : v.pull = w.pull
  num : v.numConsecutiveFailures = w.numConsecutiveFailures
  unheard : v.unheard = []
  gaveUp : v.gaveUp = true ↔ gives

theorem Worker.cleanUp_goesOn (w : Worker) (next : Next) :
    w.GoesOn (w.cleanUp next) (next = .leave (.raised .tooManyFailuresException)) := by
  unfold Worker.cleanUp
  split
  · cases next with
    | again => exact ⟨rfl, rfl, rfl, by simp [Worker.goOn, Worker.gaveUp]⟩
    | leave how => exact ⟨rfl, rfl, rfl, by simp [Worker.goOn, Worker.gaveUp]⟩
  · cases next with
    | again => exact ⟨rfl, rfl, rfl, by simp [Worker.gaveUp]⟩
    | leave how => exact ⟨rfl, rfl, rfl, by simp [Worker.gaveUp]⟩

theorem Worker.raise_goesOn (w : Worker) (inTry : Bool) (exc : Exc) :
    w.GoesOn (w.raise inTry exc) (exc = .tooManyFailuresException) := by
  unfold Worker.raise
  split
  · simpa using w.cleanUp_goesOn .again
  · exact ⟨rfl, rfl, rfl, by simp [Worker.gaveUp]⟩
  · simpa using w.cleanUp_goesOn (.leave .returned)
  · simpa using w.cleanUp_goesOn (.leave (.raised _))

theorem Worker.pullCancelled_goesOn (w : Worker) (result : Result) :
    w.GoesOn (w.pullCancelled result) (result = .raised .tooManyFailuresException) := by
  unfold Worker.pullCancelled
  split
  · exact ⟨rfl, rfl, rfl, by simp [Worker.gaveUp]⟩
  · exact ⟨rfl, rfl, rfl, by simp [Worker.gaveUp]⟩
  · simpa using w.raise_goesOn true _

theorem Worker.pullFinished_goesOn (w : Worker) (result : Result) :
    w.GoesOn (w.pullFinished result) (result = .raised .tooManyFailuresException) := by
  cases result with
  | returned success => simpa [Worker.pullFinished] using w.raise_goesOn true .workerCanceled
  | raised exc => simpa [Worker.pullFinished] using w.raise_goesOn true exc

theorem Worker.count_goesOn (w : Worker) (maxFailures : Int) (success : Bool) :
    { w with numConsecutiveFailures := if success then 0 else w.numConsecutiveFailures + 1 }.GoesOn
      (w.count maxFailures success)
      (success = false ∧ maxFailures < w.numConsecutiveFailures + 1) := by
  cases success with
  | true => simpa [Worker.count] using Worker.cleanUp_goesOn { w with numConsecutiveFailures := 0 } .again
  | false =>
      by_cases beyond : maxFailures < w.numConsecutiveFailures + 1
      · simpa [Worker.count, beyond] using Worker.raise_goesOn
          { w with numConsecutiveFailures := w.numConsecutiveFailures + 1 } true
          .tooManyFailuresException
      · simpa [Worker.count, beyond] using Worker.cleanUp_goesOn
          { w with numConsecutiveFailures := w.numConsecutiveFailures + 1 } .again

theorem Worker.raise_cancelled (w : Worker) (inTry : Bool) :
    (w.raise inTry .cancelledError).inLoop = false := by
  cases inTry <;> cases task : w.shutdownTask <;>
    simp [Worker.raise, Worker.cleanUp, Worker.goOn, Worker.inLoop, task]

/-! ## The counter -/

/-- The counter is the streak of failures among the outcomes that the worker has looked at. -/
structure Worker.Tallied (w : Worker) (outcomes : List Bool) : Prop where
  spared : w.pull ≠ .ended (.raised .tooManyFailuresException)
  counted : w.inLoop = true → ∃ heard, outcomes = heard ++ w.unheard ∧
    w.numConsecutiveFailures = Streak.streak false heard

/-- A move that neither ends the pull nor looks at its outcome. -/
structure Worker.Passes (w : Worker) (b : WorkerAction) (v : Worker) : Prop where
  pull : v.pull = w.pull ∨ v.pull = .running
  num : v.numConsecutiveFailures = w.numConsecutiveFailures
  unheard : v.unheard = []
  heard : w.unheard = [] ∨ b = .cancelled ∧ v.inLoop = false
  inLoop : v.inLoop = true → w.inLoop = true
  gaveUp : v.gaveUp = true → w.gaveUp = true

theorem Worker.GoesOn.passes {gives : Prop} {b : WorkerAction} (goes : w.GoesOn v gives)
    (spared : ¬gives) (heard : w.unheard = []) (inside : w.inLoop = true) : w.Passes b v where
  pull := .inl goes.pull
  num := goes.num
  unheard := goes.unheard
  heard := .inl heard
  inLoop _ := inside
  gaveUp gaveUp := absurd (goes.gaveUp.mp gaveUp) spared

section

variable {maxFailures : Int} {signals signals' : Signals} {events : List WorkerEvent}
  {b : WorkerAction} {outcomes : List Bool}

theorem Worker.Moves.passes (moves : w.Moves maxFailures signals b signals' v events)
    (tallied : w.Tallied outcomes) (fair : b = .proceeds → w.unheard = [] ∨ w.shutdownTask ≠ .done)
    (spared : b ≠ .raises .tooManyFailuresException) (other : b ≠ .shutdownTaskRuns)
    (ongoing : ∀ result, b ≠ .pullEnds result) :
    w.Passes b v ∨ b = .proceeds ∧ w.pc = .waiting ∧
      ∃ success, w.pull = .ended (.returned success) ∧ v = w.count maxFailures success := by
  have late (proceeds : b = .proceeds) (done : w.shutdownTask = .done) : w.unheard = [] :=
    (fair proceeds).resolve_right (· done)
  have unspared {result : Result} (ended : w.pull = .ended result) :
      result ≠ .raised .tooManyFailuresException := fun same => tallied.spared (same ▸ ended)
  cases moves with
  | taskRuns => exact absurd rfl other
  | pullEnds => exact absurd rfl (ongoing _)
  | counts pc _ ended => exact .inr ⟨rfl, pc, _, ended, rfl⟩
  | shutsDown pc done =>
      exact .inl ⟨.inl rfl, rfl, rfl, .inl (late rfl done), by simp [Worker.inLoop, pc],
        by simp [Worker.gaveUp]⟩
  | finishes pc done =>
      exact .inl ⟨.inl rfl, rfl, rfl, .inl (late rfl done), by simp [Worker.inLoop, pc],
        by simp [Worker.gaveUp]⟩
  | asserts pc done =>
      exact .inl ((w.raise_goesOn _ _).passes (by simp) (late rfl done) (by simp [Worker.inLoop, pc]))
  | finished pc ended =>
      obtain ⟨heard, inside⟩ : w.unheard = [] ∧ w.inLoop = true := by
        rcases pc with pc | ⟨pc, done, -⟩
        · simp [Worker.unheard, Worker.inLoop, pc]
        · exact ⟨late rfl done, by simp [Worker.inLoop, pc]⟩
      exact .inl ((w.pullFinished_goesOn _).passes (unspared ended) heard inside)
  | pullRaises pc _ ended =>
      refine .inl ((w.raise_goesOn _ _).passes ?_ (by simp [Worker.unheard, ended])
        (by simp [Worker.inLoop, pc]))
      rintro rfl
      exact unspared ended rfl
  | pullCancelled pc ended =>
      obtain ⟨heard, inside⟩ : w.unheard = [] ∧ w.inLoop = true := by
        rcases pc with pc | pc <;> simp [Worker.unheard, Worker.inLoop, pc]
      exact .inl ((w.pullCancelled_goesOn _).passes (unspared ended) heard inside)
  | stops pc =>
      obtain ⟨heard, inside⟩ : w.unheard = [] ∧ w.inLoop = true := by
        rcases pc with pc | pc <;> simp [Worker.unheard, Worker.inLoop, pc]
      exact .inl ((w.cleanUp_goesOn _).passes (by simp) heard inside)
  | resumes pc =>
      exact .inl ((w.cleanUp_goesOn _).passes (by simp) (by simp [Worker.unheard, pc])
        (by simp [Worker.inLoop, pc]))
  | cleansUp pc =>
      rename_i next
      left
      cases next with
      | again => exact ⟨.inl rfl, rfl, rfl, .inl (by simp [Worker.unheard, pc]),
          by simp [Worker.inLoop, pc], by simp [Worker.gaveUp, Worker.goOn]⟩
      | leave how => exact ⟨.inl rfl, rfl, rfl, .inl (by simp [Worker.unheard, pc]),
          by simp [Worker.inLoop, Worker.goOn], by simp [Worker.gaveUp, Worker.goOn, pc]⟩
  | callRaises pc =>
      rename_i inTry exc
      have exempt : exc ≠ .tooManyFailuresException := fun same => spared (same ▸ rfl)
      obtain ⟨heard, inside⟩ : w.unheard = [] ∧ w.inLoop = true := by
        rcases pc with ⟨-, pending, pc⟩ | pc | pc <;> simp [Worker.unheard, Worker.inLoop, pc]
      exact .inl ((w.raise_goesOn inTry exc).passes exempt heard inside)
  | cancelled =>
      rename_i inTry _
      have goes := Worker.raise_goesOn { w with cancelRequested := false } inTry .cancelledError
      have left := Worker.raise_cancelled { w with cancelRequested := false } inTry
      exact .inl ⟨.inl goes.pull, goes.num, goes.unheard, .inr ⟨rfl, left⟩, by simp [left],
        fun gaveUp => by simpa using goes.gaveUp.mp gaveUp⟩
  | begins pc =>
      exact .inl ⟨.inr rfl, rfl, rfl, .inl (by simp [Worker.unheard, pc]), by simp [Worker.inLoop, pc],
        by simp [Worker.gaveUp]⟩
  | entryRaises pc =>
      refine .inl ⟨.inl rfl, rfl, rfl, .inl (by simp [Worker.unheard, pc]), by simp [Worker.inLoop],
        fun gaveUp => ?_⟩
      cases of_decide_eq_true gaveUp
      exact absurd rfl spared
  | exitRaises pc =>
      refine .inl ⟨.inl rfl, rfl, rfl, .inl (by simp [Worker.unheard, pc]), by simp [Worker.inLoop],
        fun gaveUp => ?_⟩
      cases of_decide_eq_true gaveUp
      exact absurd rfl spared
  | _ =>
      refine .inl ⟨.inl rfl, rfl, rfl, .inl (by simp [Worker.unheard, *]), ?_, ?_⟩
      · simp [Worker.inLoop, *]
      · simp [Worker.gaveUp, *]

theorem Worker.Tallied.same (tallied : w.Tallied outcomes) (pc : v.pc = w.pc)
    (pull : v.pull = w.pull) (num : v.numConsecutiveFailures = w.numConsecutiveFailures) :
    v.Tallied outcomes := by
  have unheard : v.unheard = w.unheard := by simp only [Worker.unheard, pc, pull]
  have same : v.inLoop = w.inLoop := by simp only [Worker.inLoop, pc]
  refine ⟨pull ▸ tallied.spared, fun inside => ?_⟩
  rw [unheard, num]
  exact tallied.counted (same ▸ inside)

theorem Worker.Passes.tallied (passes : w.Passes b v) (tallied : w.Tallied outcomes) :
    v.Tallied outcomes where
  spared := by
    rcases passes.pull with same | running
    · exact same ▸ tallied.spared
    · simp [running]
  counted inside := by
    obtain ⟨heard, same, num⟩ := tallied.counted (passes.inLoop inside)
    have nothing : w.unheard = [] := by
      rcases passes.heard with nothing | ⟨-, outside⟩
      · exact nothing
      · simp [outside] at inside
    exact ⟨heard, by rw [same, nothing, passes.unheard], passes.num.trans num⟩

theorem Worker.Tallied.count {success : Bool} (tallied : w.Tallied outcomes) (pc : w.pc = .waiting)
    (ended : w.pull = .ended (.returned success)) :
    (w.count maxFailures success).Tallied outcomes := by
  have goes := w.count_goesOn maxFailures success
  obtain ⟨heard, rfl, num⟩ := tallied.counted (by simp [Worker.inLoop, pc])
  refine ⟨goes.pull ▸ tallied.spared, fun _ => ⟨heard ++ w.unheard, by simp [goes.unheard], ?_⟩⟩
  rw [goes.num]
  cases success <;> simp [Worker.unheard, pc, ended, Streak.streak_snoc, num]

theorem Worker.Tallied.pullEnds {result : Result} {task : ShutdownTask} (tallied : w.Tallied outcomes)
    (running : w.pull = .running) (spared : result ≠ .raised .tooManyFailuresException) :
    { w with pull := .ended result, shutdownTask := task }.Tallied
      (outcomes ++ w.outcome (.pullEnds result)) := by
  refine ⟨by simpa using spared, fun inside => ?_⟩
  obtain ⟨heard, rfl, num⟩ := tallied.counted inside
  refine ⟨heard, ?_, num⟩
  have nothing : w.unheard = [] := by simp [Worker.unheard, running]
  rw [nothing, List.append_nil]
  cases pc : w.pc <;> cases result <;> simp [Worker.unheard, Worker.outcome, pc]

theorem Worker.Moves.tallied (moves : w.Moves maxFailures signals b signals' v events)
    (tallied : w.Tallied outcomes) (fair : b = .proceeds → w.unheard = [] ∨ w.shutdownTask ≠ .done)
    (spared : b ≠ .raises .tooManyFailuresException)
    (sparedPull : b ≠ .pullEnds (.raised .tooManyFailuresException)) :
    v.Tallied (outcomes ++ w.outcome b) := by
  by_cases runs : b = .shutdownTaskRuns
  · subst runs
    cases moves with
    | taskRuns =>
        have same : w.outcome .shutdownTaskRuns = [] := by simp [Worker.outcome]
        rw [same, List.append_nil]
        exact tallied.same rfl rfl rfl
  by_cases ends : ∃ result, b = .pullEnds result
  · obtain ⟨result, rfl⟩ := ends
    cases moves with
    | pullEnds running => exact tallied.pullEnds running (by simpa using sparedPull)
  · have ongoing : ∀ result, b ≠ .pullEnds result := fun result same => ends ⟨result, same⟩
    have same : w.outcome b = [] := by
      unfold Worker.outcome
      split
      · exact absurd rfl (ongoing _)
      · rfl
    rw [same, List.append_nil]
    rcases moves.passes tallied fair spared runs ongoing with passes | ⟨-, pc, success, ended, rfl⟩
    · exact passes.tallied tallied
    · exact tallied.count pc ended

theorem Worker.Moves.gaveUp {m : Nat} (moves : w.Moves m signals b signals' v events)
    (tallied : w.Tallied outcomes) (fair : b = .proceeds → w.unheard = [] ∨ w.shutdownTask ≠ .done)
    (spared : b ≠ .raises .tooManyFailuresException) (working : w.gaveUp = false) :
    v.gaveUp = true ↔
      b = .proceeds ∧ w.unheard ≠ [] ∧ List.replicate (m + 1) false <:+ outcomes := by
  by_cases runs : b = .shutdownTaskRuns
  · subst runs
    cases moves with
    | taskRuns => simpa [Worker.gaveUp] using working
  by_cases ends : ∃ result, b = .pullEnds result
  · obtain ⟨result, rfl⟩ := ends
    cases moves with
    | pullEnds => simpa [Worker.gaveUp] using working
  · have ongoing : ∀ result, b ≠ .pullEnds result := fun result same => ends ⟨result, same⟩
    rcases moves.passes tallied fair spared runs ongoing with passes | ⟨rfl, pc, success, ended, rfl⟩
    · constructor
      · intro gaveUp
        simp [passes.gaveUp gaveUp] at working
      · rintro ⟨rfl, outcome, -⟩
        rcases passes.heard with nothing | ⟨other, -⟩
        · exact absurd nothing outcome
        · contradiction
    · have unheard : w.unheard = [success] := by simp [Worker.unheard, pc, ended]
      obtain ⟨heard, rfl, num⟩ := tallied.counted (by simp [Worker.inLoop, pc])
      rw [(w.count_goesOn m success).gaveUp, unheard, Streak.replicate_suffix_iff, Streak.streak_snoc]
      cases success with
      | true => simp
      | false =>
          simp only [num, reduceIte, true_and, ne_eq, List.cons_ne_nil, not_false_eq_true]
          omega

theorem Worker.looks (maxFailures : Int) (signals : Signals) (outcome : w.unheard ≠ [])
    (early : w.shutdownTask ≠ .done) (calm : w.cancelRequested = false) :
    ∃ v, w.step maxFailures signals .proceeds = some (signals, v, []) := by
  unfold Worker.unheard at outcome
  split at outcome
  · rename_i success pc ended
    refine ⟨w.count maxFailures success, ?_⟩
    simp [Worker.step, Worker.proceed, Worker.waited, calm, pc, ended]
  · contradiction

end

/-! ## Runs -/

theorem unraced_worker {i : Nat} {b : WorkerAction} (meets : unraced s (.worker i b) = true)
    (stored : s.workers[i]? = some w) :
    (b = .proceeds → w.unheard = [] ∨ w.shutdownTask ≠ .done) ∧
      b ≠ .raises .tooManyFailuresException ∧ b ≠ .pullEnds (.raised .tooManyFailuresException) := by
  refine ⟨?_, ?_, ?_⟩
  · rintro rfl
    simpa [unraced, stored] using meets
  · rintro rfl
    simp [unraced] at meets
  · rintro rfl
    simp [unraced] at meets

def AllTallied (s : State) (outcomes : Nat → List Bool) : Prop :=
  ∀ (i : Nat) (w : Worker), s.workers[i]? = some w → w.Tallied (outcomes i)

theorem AllTallied.step {outcomes : Nat → List Bool} (tallied : AllTallied s outcomes)
    (stepped : Steps c s a t new) (meets : unraced s a = true) :
    AllTallied t (recordOutcome outcomes s a new) := by
  intro i v stored
  obtain ⟨w, found, ⟨other, pc, pull, num⟩ | ⟨b, _, _, rfl, moves⟩⟩ := stepped.of_worker stored
  · have same : recordOutcome outcomes s a new i = outcomes i := by
      cases a with
      | worker j b =>
          have elsewhere : i ≠ j := fun same => other b (same ▸ rfl)
          simp [recordOutcome, elsewhere]
      | _ => rfl
    rw [same]
    exact (tallied i w found).same pc pull num
  · obtain ⟨fair, spared, sparedPull⟩ := unraced_worker meets found
    simpa [recordOutcome, found] using moves.tallied (tallied i w found) fair spared sparedPull

theorem counted_right {m numWorkers i : Nat} {disabled : Bool} {outcomes : Nat → List Bool}
    (run : Mealy.Run (outcomeMachine ⟨m, disabled⟩) (fun x a => unraced x.1 a = true)
      ((initial numWorkers, fun _ => []), []) log (s, outcomes))
    (stored : s.workers[i]? = some w) : CountedRight ⟨m, disabled⟩ m s i w (outcomes i) := by
  have tallied : AllTallied s outcomes := by
    apply run.state_invariant (P := fun x => AllTallied x.1 x.2)
    · intro i w stored
      obtain ⟨-, rfl⟩ : i < numWorkers ∧ ({} : Worker) = w := by
        simpa [initial, List.getElem?_replicate] using stored
      exact ⟨by simp, fun _ => ⟨[], rfl, by simp [Streak.streak]⟩⟩
    · rintro ⟨s, outcomes⟩ a ⟨t, _⟩ new tallied meets action
      obtain ⟨stepped, rfl⟩ := Mealy.withHistory_step action
      exact tallied.step (step_cases stepped) meets
  constructor
  · intro a t new v meets action after working
    obtain ⟨u, found, ⟨other, pc, -, -⟩ | ⟨b, _, _, rfl, moves⟩⟩ := (step_cases action).of_worker after
    · obtain rfl : w = u := by simpa [stored] using found
      have same : v.gaveUp = w.gaveUp := by simp only [Worker.gaveUp, pc]
      simp [same, working, other]
    · obtain rfl : w = u := by simpa [stored] using found
      obtain ⟨fair, spared, -⟩ := unraced_worker meets stored
      simpa using moves.gaveUp (tallied i w stored) fair spared working
  · intro outcome early calm
    obtain ⟨v, looks⟩ := Worker.looks m s.signals outcome early calm
    exact ⟨_, _, by simp only [step, stepWorker, stored, looks]; rfl⟩

def fails (i : Nat) : List Action :=
  [.worker i (.begins false), .worker i (.pullEnds (.returned false))]

/-- A failure, a lost lock, a canceled task with a resume, and a second failure. -/
theorem counted_right_hello : ∃ s outcomes w, CountedRight ⟨(1 : Nat), false⟩ 1 s 0 w outcomes ∧
    outcomes = [false, false] ∧ w.unheard = [false] ∧ w.shutdownTask = .waiting := by
  have steps : Mealy.execIf (outcomeMachine ⟨(1 : Nat), false⟩) (fun x a => unraced x.1 a)
      ((initial 1, fun _ => []), [])
      ([.worker 0 .proceeds] ++ fails 0 ++ [.worker 0 .proceeds, .worker 0 .proceeds,
        .worker 0 (.begins false), .worker 0 (.pullEnds (.raised .lockLostError)),
        .worker 0 .proceeds, .worker 0 .proceeds, .worker 0 (.begins false), .request .sigterm] ++
        braces 0 ++ gathers 0 ++ resumes 0 ++ fails 0) = some ((_, _), _) := rfl
  exact ⟨_, _, _, counted_right (.of_execIf steps) (i := 0) rfl, rfl, rfl, rfl⟩

end JobQ.LaunchWorkers
