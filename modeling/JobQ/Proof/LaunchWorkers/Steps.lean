import JobQ.Model.LaunchWorkers

/-!
# What one step of `launch_workers` can do

The inversion lemmas: one relation for a worker, one for the main coroutine, one for all of it.
-/

namespace JobQ.LaunchWorkers

variable {maxFailures : Int} {signals signals' : Signals} {w v : Worker} {events : List WorkerEvent}

inductive Worker.Moves (maxFailures : Int) (signals : Signals) (w : Worker) :
    WorkerAction → Signals → Worker → List WorkerEvent → Prop
  | late (pc : w.pc = .ready) :
      Moves maxFailures signals w (.begins true) signals { w with pc := .leaving .returned } []
  | begins (pc : w.pc = .ready) :
      Moves maxFailures signals w (.begins false) signals
        { w with
          pc := .waiting
          pull := .running
          shutdownTask := if signals.shutdownEvent then .done else .waiting } [.began]
  | taskRuns (woken : w.shutdownTask = .woken) :
      Moves maxFailures signals w .shutdownTaskRuns signals { w with shutdownTask := .done } []
  | pullEnds {result : Result} (running : w.pull = .running) :
      Moves maxFailures signals w (.pullEnds result) signals
        { w with
          pull := .ended result
          shutdownTask := if w.shutdownTask = .woken then .done else w.shutdownTask }
        [.pullEnded result]
  | enters (pc : w.pc = .starting) :
      Moves maxFailures signals w .proceeds signals { w with pc := .ready } []
  | shutsDown (pc : w.pc = .waiting) (done : w.shutdownTask = .done)
      (pass : signals.flagPassSignalToSubprocess = true) (set : signals.shutdownEvent = true) :
      Moves maxFailures signals w .proceeds signals
        { w with pc := .shuttingDown (w.pull = .running) } [.shutDown]
  | asserts (pc : w.pc = .waiting) (done : w.shutdownTask = .done)
      (pass : signals.flagPassSignalToSubprocess = true) (clear : signals.shutdownEvent = false) :
      Moves maxFailures signals w .proceeds signals (w.raise true .assertionError) []
  | finishes (pc : w.pc = .waiting) (done : w.shutdownTask = .done)
      (pass : signals.flagPassSignalToSubprocess = false) :
      Moves maxFailures signals w .proceeds signals { w with pc := .finishing } []
  | finished {result : Result} (pc : w.pc = .finishing ∨ w.pc = .waiting ∧ w.shutdownTask = .done ∧
        signals.flagPassSignalToSubprocess = false) (ended : w.pull = .ended result) :
      Moves maxFailures signals w .proceeds signals (w.pullFinished result) []
  | counts {success : Bool} (pc : w.pc = .waiting) (early : w.shutdownTask ≠ .done)
      (ended : w.pull = .ended (.returned success)) :
      Moves maxFailures signals w .proceeds signals (w.count maxFailures success) []
  | pullRaises {exc : Exc} (pc : w.pc = .waiting) (early : w.shutdownTask ≠ .done)
      (ended : w.pull = .ended (.raised exc)) :
      Moves maxFailures signals w .proceeds signals (w.raise true exc) []
  | cancels (pc : w.pc = .shuttingDown true) :
      Moves maxFailures signals w .proceeds signals { w with pc := .cancellingPull } []
  | pullCancelled {result : Result} (pc : w.pc = .shuttingDown true ∨ w.pc = .cancellingPull)
      (ended : w.pull = .ended result) :
      Moves maxFailures signals w .proceeds signals (w.pullCancelled result) []
  | nothingPending (pc : w.pc = .shuttingDown false) :
      Moves maxFailures signals w .proceeds signals { w with pc := .flushing true } []
  | stops {inTry : Bool} (pc : w.pc = .flushing inTry ∨ w.pc = .gathering inTry)
      (closed : signals.hardStopEvent ∨ signals.flagResumeIfNotKilled = false) :
      Moves maxFailures signals w .proceeds signals (w.cleanUp (.leave .returned)) []
  | braces {inTry : Bool} (pc : w.pc = .flushing inTry)
      (soft : ¬(signals.hardStopEvent ∨ signals.flagResumeIfNotKilled = false)) :
      Moves maxFailures signals w .proceeds signals { w with pc := .bracing inTry } [.braced]
  | gathers {inTry : Bool} (pc : w.pc = .bracing inTry) :
      Moves maxFailures signals w .proceeds signals { w with pc := .gathering inTry } []
  | decides {inTry : Bool} (pc : w.pc = .gathering inTry)
      (soft : ¬(signals.hardStopEvent ∨ signals.flagResumeIfNotKilled = false)) :
      Moves maxFailures signals w .proceeds signals { w with pc := .clearing inTry } []
  | clears {inTry : Bool} (pc : w.pc = .clearing inTry) :
      Moves maxFailures signals w .proceeds { signals with shutdownEvent := false }
        { w with pc := .resuming inTry } [.cleared]
  | resumes {inTry : Bool} (pc : w.pc = .resuming inTry) :
      Moves maxFailures signals w .proceeds signals (w.cleanUp .again) []
  | cleansUp {next : Next} (pc : w.pc = .cleaningUp next) :
      Moves maxFailures signals w .proceeds signals (w.goOn next) []
  | ends {how : Outcome} (pc : w.pc = .leaving how) :
      Moves maxFailures signals w .proceeds signals { w with pc := .ended how } [.ended how]
  | entryRaises {exc : Exc} (pc : w.pc = .starting) :
      Moves maxFailures signals w (.raises exc) signals { w with pc := .leaving (.raised exc) } []
  | callRaises {inTry : Bool} {exc : Exc} (pc : inTry = true ∧ (∃ pending, w.pc = .shuttingDown pending) ∨
        w.pc = .flushing inTry ∨ w.pc = .resuming inTry) :
      Moves maxFailures signals w (.raises exc) signals (w.raise inTry exc) []
  | exitRaises {how : Outcome} {exc : Exc} (pc : w.pc = .leaving how) :
      Moves maxFailures signals w (.raises exc) signals { w with pc := .ended (.raised exc) }
        [.ended (.raised exc)]
  | entryCancelled (pc : w.pc = .starting) :
      Moves maxFailures signals w .cancelled signals
        { w with pc := .leaving (.raised .cancelledError), cancelRequested := false } []
  | cancelled {inTry : Bool} (live : ∀ how, w.pc ≠ .ended how) :
      Moves maxFailures signals w .cancelled signals
        ({ w with cancelRequested := false }.raise inTry .cancelledError) []
  | swallowed (pc : w.pc = .cancellingPull) :
      Moves maxFailures signals w .cancelled signals
        { w with pc := .flushing true, cancelRequested := false } []
  | exitCancelled {how : Outcome} (pc : w.pc = .leaving how) :
      Moves maxFailures signals w .cancelled signals
        { w with pc := .ended (.raised .cancelledError), cancelRequested := false }
        [.ended (.raised .cancelledError)]

theorem Worker.waited_cases (pc : w.pc = .waiting)
    (action : w.waited maxFailures signals = some (v, events)) :
    w.Moves maxFailures signals .proceeds signals v events := by
  unfold Worker.waited at action
  split at action
  · rename_i done
    split at action
    · split at action <;> cases action
      · exact .shutsDown pc done ‹_› ‹_›
      · exact .asserts pc done ‹_› (by simpa using ‹¬signals.shutdownEvent = true›)
    · have pass : signals.flagPassSignalToSubprocess = false := by
        simpa using ‹¬signals.flagPassSignalToSubprocess = true›
      split at action <;> cases action
      · exact .finished (.inr ⟨pc, done, pass⟩) ‹_›
      · exact .finishes pc done pass
  · rename_i ended early
    cases action
    exact .counts pc early ended
  · rename_i ended early
    cases action
    exact .pullRaises pc early ended
  · contradiction

theorem Worker.proceed_cases (action : w.proceed maxFailures signals = some (signals', v, events)) :
    w.Moves maxFailures signals .proceeds signals' v events := by
  unfold Worker.proceed at action
  split at action
  · cases action
    exact .enters ‹_›
  · split at action <;> cases action
    exact waited_cases ‹_› ‹_›
  · cases action
    exact .nothingPending ‹_›
  · split at action <;> cases action
    · exact .pullCancelled (.inl ‹_›) ‹_›
    · exact .cancels ‹_›
  · split at action <;> cases action
    exact .pullCancelled (.inr ‹_›) ‹_›
  · split at action <;> cases action
    exact .finished (.inl ‹_›) ‹_›
  · unfold Worker.waitForHardStop at action
    split at action <;> cases action
    · exact .stops (.inl ‹_›) ‹_›
    · exact .braces ‹_› ‹_›
  · cases action
    exact .gathers ‹_›
  · unfold Worker.gathered at action
    split at action <;> cases action
    · exact .stops (.inr ‹_›) ‹_›
    · exact .decides ‹_› ‹_›
  · cases action
    exact .clears ‹_›
  · cases action
    exact .resumes ‹_›
  · cases action
    exact .cleansUp ‹_›
  · cases action
    exact .ends ‹_›
  · contradiction
  · contradiction

theorem Worker.callRaises_cases {exc : Exc} (action : w.callRaises exc = some (v, events)) :
    w.Moves maxFailures signals (.raises exc) signals v events := by
  unfold Worker.callRaises at action
  split at action <;> cases action
  · exact .entryRaises ‹_›
  · exact .callRaises (.inl ⟨rfl, _, ‹_›⟩)
  · exact .callRaises (.inr (.inl ‹_›))
  · exact .callRaises (.inr (.inr ‹_›))
  · exact .exitRaises ‹_›

theorem Worker.cancelled_cases (action : w.cancelled = some (v, events)) :
    w.Moves maxFailures signals .cancelled signals v events := by
  unfold Worker.cancelled at action
  split at action <;> cases action
  · exact .entryCancelled ‹_›
  · exact .cancelled (by simp [*])
  · exact .cancelled (by simp [*])
  · exact .cancelled (by simp [*])
  · exact .swallowed ‹_›
  · exact .cancelled (by simp [*])
  · exact .cancelled (by simp [*])
  · exact .cancelled (by simp [*])
  · exact .cancelled (by simp [*])
  · exact .exitCancelled ‹_›

theorem Worker.step_cases {a : WorkerAction}
    (action : w.step maxFailures signals a = some (signals', v, events)) :
    w.Moves maxFailures signals a signals' v events := by
  cases a with
  | begins late =>
      simp only [Worker.step] at action
      split at action
      · unfold Worker.begin at action
        split at action <;> cases action
        · rename_i late
          subst late
          exact .late ‹_›
        · rename_i early
          rw [Bool.eq_false_iff.mpr early]
          exact .begins ‹_›
      · contradiction
  | shutdownTaskRuns =>
      simp only [Worker.step] at action
      split at action <;> cases action
      exact .taskRuns ‹_›
  | pullEnds result =>
      simp only [Worker.step] at action
      split at action <;> cases action
      exact .pullEnds ‹_›
  | proceeds =>
      simp only [Worker.step] at action
      split at action
      · contradiction
      · exact proceed_cases action
  | raises exc =>
      simp only [Worker.step] at action
      split at action
      · contradiction
      · split at action <;> cases action
        exact callRaises_cases ‹_›
  | cancelled =>
      simp only [Worker.step] at action
      split at action
      · split at action <;> cases action
        exact cancelled_cases ‹_›
      · contradiction

/-! ## Where the clauses of the loop lead -/

/-- The places of a worker that has come through `except` and `finally`, or into a flush. -/
def Pc.isHandled : Pc → Bool
  | .ready | .flushing _ | .cleaningUp _ | .leaving _ => true
  | _ => false

namespace Worker

theorem goOn_handled (w : Worker) (next : Next) : (w.goOn next).pc.isHandled = true := by
  cases next <;> rfl

theorem cleanUp_handled (w : Worker) (next : Next) : (w.cleanUp next).pc.isHandled = true := by
  unfold cleanUp
  split
  · exact w.goOn_handled next
  · rfl

theorem raise_handled (w : Worker) (inTry : Bool) (exc : Exc) :
    (w.raise inTry exc).pc.isHandled = true := by
  unfold raise
  split
  · exact w.cleanUp_handled _
  · rfl
  · exact w.cleanUp_handled _
  · exact w.cleanUp_handled _

theorem count_handled (w : Worker) (maxFailures : Int) (success : Bool) :
    (w.count maxFailures success).pc.isHandled = true := by
  unfold count
  split
  · exact cleanUp_handled _ _
  · simp only
    split
    · exact raise_handled _ _ _
    · exact cleanUp_handled _ _

theorem pullCancelled_handled (w : Worker) (result : Result) :
    (w.pullCancelled result).pc.isHandled = true := by
  unfold pullCancelled
  split
  · rfl
  · rfl
  · exact w.raise_handled _ _

theorem pullFinished_handled (w : Worker) (result : Result) :
    (w.pullFinished result).pc.isHandled = true := by
  cases result <;> exact w.raise_handled _ _

theorem wake_eq (w : Worker) : ∃ task, w.wake = { w with shutdownTask := task } := by
  unfold wake
  split
  · exact ⟨_, rfl⟩
  · exact ⟨_, rfl⟩

theorem cancel_eq (w : Worker) : ∃ due, w.cancel = { w with cancelRequested := due } := by
  unfold cancel
  split
  · exact ⟨_, rfl⟩
  · exact ⟨_, rfl⟩
  · split <;> exact ⟨_, rfl⟩
  · split <;> exact ⟨_, rfl⟩
  · exact ⟨_, rfl⟩

end Worker

/-! ## All of them -/

variable {c : Config} {s t : State}

inductive MainSteps (s : State) : MainAction → State → Prop
  | collects {n : Nat} {how : Outcome} (main : s.main = .collecting n)
      (next : s.completed[n]? = some how) (fine : how = .returned ∨ how = .raised .cancelledError) :
      MainSteps s .collects { s with main := .collecting (n + 1) }
  | cancels {n : Nat} (main : s.main = .collecting n)
      (next : s.completed[n]? = some (.raised .tooManyFailuresException)) :
      MainSteps s .collects { s with
        workers := s.workers.map Worker.cancel, main := .draining s.completed.length }
  | fails {n : Nat} {exc : Exc} (main : s.main = .collecting n)
      (next : s.completed[n]? = some (.raised exc)) (fatal : exc ≠ .cancelledError) :
      MainSteps s .collects { s with main := .leaving (.raised exc) }
  | exhausted (main : s.main = .collecting s.workers.length)
      (all : s.completed[s.workers.length]? = none) :
      MainSteps s .collects { s with main := .leaving .returned }
  | drains {n k : Nat} {exc : Exc} (main : s.main = .draining n)
      (failed : s.completed[k]? = some (.raised exc)) :
      MainSteps s (.drains k) { s with main := .leaving (.raised exc) }
  | leaves {how : Outcome} {exc : Option Exc} (main : s.main = .leaving how) :
      MainSteps s (.leaves exc) { s with main := .ended (exc.elim how .raised) }

inductive Steps (c : Config) (s : State) : Action → State → List Event → Prop
  | request (r : Request) : Steps c s (.request r)
      { s with signals := shutdownHandler s.signals r, workers := s.workers.map Worker.wake }
      [.requested r]
  | announced {answer : Option (List ScheduledEvent)} : Steps c s (.polled answer)
      { s with
        signals := { s.signals with shutdownEvent := true, scheduledEventInitiatedByUs := true }
        workers := s.workers.map Worker.wake }
      [.announced (getScheduledEvents answer)]
  | withdrawn {answer : Option (List ScheduledEvent)} : Steps c s (.polled answer)
      { s with
        signals := { s.signals with shutdownEvent := false, scheduledEventInitiatedByUs := false } }
      [.withdrawn]
  | nothingNew {answer : Option (List ScheduledEvent)} : Steps c s (.polled answer) s []
  | worker {i : Nat} {a : WorkerAction} {w v : Worker} {signals : Signals} {events : List WorkerEvent}
      (worker : s.workers[i]? = some w)
      (moves : w.Moves c.maxConsecutiveFailures s.signals a signals v events) :
      Steps c s (.worker i a)
        { s with
          signals
          workers := s.workers.set i v
          completed := s.completed ++ events.filterMap WorkerEvent.ended? }
        (events.map (.worker i))
  | main {a : MainAction} {t : State} (stepped : MainSteps s a t) : Steps c s (.main a) t []

theorem stepMain_cases {a : MainAction} (action : stepMain s a = some t) : MainSteps s a t := by
  cases a with
  | collects =>
      simp only [stepMain] at action
      split at action
      · rename_i n main
        split at action
        · cases action
          exact .collects main ‹_› (.inl rfl)
        · cases action
          exact .collects main ‹_› (.inr rfl)
        · cases action
          exact .cancels main ‹_›
        · rename_i other _ next
          cases action
          exact .fails main next other
        · split at action <;> cases action
          rename_i all same
          subst same
          exact .exhausted main all
      · contradiction
  | drains k =>
      simp only [stepMain] at action
      split at action
      · split at action
        · split at action <;> cases action
          exact .drains ‹_› ‹_›
        · contradiction
      · contradiction
  | leaves exc =>
      simp only [stepMain] at action
      split at action <;> cases action
      exact .leaves ‹_›

theorem step_cases {a : Action} {new : List Event} (action : step c s a = some (t, new)) :
    Steps c s a t new := by
  cases a with
  | request r =>
      cases action
      exact .request r
  | polled answer =>
      simp only [step] at action
      split at action
      · contradiction
      · simp only [stepPolled] at action
        split at action
        · cases action
          exact .nothingNew
        · split at action
          · cases action
            exact .announced
          · split at action <;> cases action
            · exact .withdrawn
            · exact .nothingNew
  | worker i a =>
      simp only [step, stepWorker] at action
      split at action
      · split at action <;> cases action
        exact .worker ‹_› (Worker.step_cases ‹_›)
      · contradiction
  | main a =>
      simp only [step] at action
      split at action <;> cases action
      exact .main (stepMain_cases ‹_›)

def starts (i : Nat) : List Action := [.worker i .proceeds, .worker i (.begins false)]

def braces (i : Nat) : List Action :=
  [.worker i .shutdownTaskRuns, .worker i .proceeds, .worker i .proceeds,
    .worker i (.pullEnds (.raised .workerCanceled)), .worker i .proceeds, .worker i .proceeds]

def gathers (i : Nat) : List Action := [.worker i .proceeds, .worker i .proceeds]

def resumes (i : Nat) : List Action := [.worker i .proceeds, .worker i .proceeds]

theorem Steps.requested {a : Action} {new : List Event} {r : Request} (stepped : Steps c s a t new)
    (asked : .requested r ∈ new) : a = .request r ∧ new = [.requested r] := by
  cases stepped with
  | request =>
      cases List.mem_singleton.mp asked
      exact ⟨rfl, rfl⟩
  | worker =>
      obtain ⟨e, -, other⟩ := List.mem_map.mp asked
      cases other
  | announced => cases List.mem_singleton.mp asked
  | withdrawn => cases List.mem_singleton.mp asked
  | nothingNew | main => cases asked

/-- What a step does to one worker. -/
theorem Steps.of_worker {i : Nat} {a : Action} {new : List Event} (stepped : Steps c s a t new)
    (stored : t.workers[i]? = some v) :
    ∃ w, s.workers[i]? = some w ∧
      ((∀ b, a ≠ .worker i b) ∧ v.pc = w.pc ∧ v.pull = w.pull ∧
          v.numConsecutiveFailures = w.numConsecutiveFailures ∨
        ∃ b signals events, a = .worker i b ∧
          w.Moves c.maxConsecutiveFailures s.signals b signals v events) := by
  have woken (stored : (s.workers.map Worker.wake)[i]? = some v) : ∃ w, s.workers[i]? = some w ∧
      v.pc = w.pc ∧ v.pull = w.pull ∧ v.numConsecutiveFailures = w.numConsecutiveFailures := by
    rw [List.getElem?_map] at stored
    obtain ⟨w, found, rfl⟩ := Option.map_eq_some_iff.mp stored
    obtain ⟨_, same⟩ := w.wake_eq
    exact ⟨w, found, by simp [same]⟩
  cases stepped with
  | request r =>
      obtain ⟨w, found, same⟩ := woken stored
      exact ⟨w, found, .inl ⟨by simp, same⟩⟩
  | announced =>
      obtain ⟨w, found, same⟩ := woken stored
      exact ⟨w, found, .inl ⟨by simp, same⟩⟩
  | withdrawn => exact ⟨v, stored, .inl ⟨by simp, rfl, rfl, rfl⟩⟩
  | nothingNew => exact ⟨v, stored, .inl ⟨by simp, rfl, rfl, rfl⟩⟩
  | @worker j b w u _ _ found moves =>
      by_cases same : j = i
      · subst same
        obtain ⟨bound, -⟩ := List.getElem?_eq_some_iff.mp found
        obtain rfl : u = v := by simpa [bound] using stored
        exact ⟨w, found, .inr ⟨b, _, _, rfl, moves⟩⟩
      · exact ⟨v, by simpa [List.getElem?_set_ne same] using stored,
          .inl ⟨by simp [same], rfl, rfl, rfl⟩⟩
  | main stepped =>
      cases stepped with
      | cancels =>
          rw [List.getElem?_map] at stored
          obtain ⟨w, found, rfl⟩ := Option.map_eq_some_iff.mp stored
          obtain ⟨_, same⟩ := w.cancel_eq
          exact ⟨w, found, .inl ⟨by simp, by simp [same]⟩⟩
      | _ => exact ⟨v, stored, .inl ⟨by simp, rfl, rfl, rfl⟩⟩

end JobQ.LaunchWorkers
