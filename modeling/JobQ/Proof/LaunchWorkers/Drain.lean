import JobQ.Library.Pool
import JobQ.Proof.LaunchWorkers.Steps

/-!
# A preemption during a graceful drain

After a request that does not pass the signal on, a worker awaits its task and nothing else. A
preemption that comes then changes flags and events that this worker does not read any more, and one
that came before is overridden when the worker reads the flag of the later request.
-/

namespace JobQ.LaunchWorkers

variable {c : Config} {s t : State} {a : Action} {new log : List Event} {w v : Worker}

/-- `SIGTERM`, `SIGUSR2` or the time limit. -/
def Request.preempts : Request → Bool
  | .sigterm | .sigusr2 | .timeLimit => true
  | .sigint | .sigusr1 => false

/-- The worker goes on when its task ends, and in no other way. -/
def Worker.awaitsAlone (w : Worker) : Bool :=
  w.pc = .finishing && w.pull = .running && !w.cancelRequested

/-- The worker is about to leave its two-way wait for `await worker_task`. -/
def Worker.turnsAway (w : Worker) (signals : Signals) : Bool :=
  w.pc = .waiting && w.shutdownTask = .done && !signals.flagPassSignalToSubprocess &&
    w.pull = .running

/-- No task goes on unheeded once a preemption has been requested. -/
def PreemptionActedOn (log : List Event) (s : State) : Prop :=
  ∀ r, r.preempts = true → .requested r ∈ log → ∀ w ∈ s.workers, w.awaitsAlone = false

/-! ## A worker that awaits its task alone -/

section

variable {maxFailures : Int} {signals signals' : Signals} {events : List WorkerEvent}
  {b : WorkerAction}

theorem Worker.alone_steps (alone : w.awaitsAlone = true)
    (action : w.step maxFailures signals b = some (signals', v, events)) :
    (∃ result, b = .pullEnds result) ∨ v.awaitsAlone = true ∧ signals' = signals ∧ events = [] := by
  obtain ⟨⟨pc, pull⟩, calm⟩ : (w.pc = .finishing ∧ w.pull = .running) ∧ w.cancelRequested = false := by
    simpa [Worker.awaitsAlone] using alone
  cases b with
  | pullEnds result => exact .inl ⟨result, rfl⟩
  | begins late => simp [Worker.step, pc] at action
  | shutdownTaskRuns =>
      simp only [Worker.step] at action
      split at action <;> cases action
      exact .inr ⟨by simp [Worker.awaitsAlone, pc, pull, calm], rfl, rfl⟩
  | proceeds => simp [Worker.step, Worker.proceed, pc, pull, calm] at action
  | raises exc => simp [Worker.step, Worker.callRaises, pc, calm] at action
  | cancelled => simp [Worker.step, calm] at action

theorem Worker.alone_wake (w : Worker) : w.wake.awaitsAlone = w.awaitsAlone := by
  obtain ⟨_, same⟩ := w.wake_eq
  rw [same]
  rfl

theorem Worker.alone_cancel (alone : w.cancel.awaitsAlone = true) : w.awaitsAlone = true := by
  unfold Worker.cancel at alone
  split at alone
  · exact alone
  · exact alone
  · split at alone
    · exact alone
    · simp [Worker.awaitsAlone] at alone
  · split at alone
    · exact alone
    · simp [Worker.awaitsAlone] at alone
  · simp [Worker.awaitsAlone] at alone

theorem Worker.handled_not_alone (handled : w.pc.isHandled = true) : w.awaitsAlone = false := by
  have elsewhere : w.pc ≠ .finishing := by
    intro pc
    simp [pc, Pc.isHandled] at handled
  simp [Worker.awaitsAlone, elsewhere]

theorem Worker.Moves.alone (moves : w.Moves maxFailures signals b signals' v events)
    (alone : v.awaitsAlone = true) :
    w.awaitsAlone = true ∨ b = .proceeds ∧ w.turnsAway signals = true := by
  have elsewhere {u : Worker} (handled : u.pc.isHandled = true) (alone : u.awaitsAlone = true) :
      False := by simp [Worker.handled_not_alone handled] at alone
  cases moves with
  | taskRuns => exact .inl alone
  | pullEnds => simp [Worker.awaitsAlone] at alone
  | finishes pc done pass =>
      right
      simp only [Worker.awaitsAlone, Bool.and_eq_true, decide_eq_true_eq] at alone
      simp [Worker.turnsAway, pc, done, pass, alone.1.2]
  | asserts => exact (elsewhere (raise_handled _ _ _) alone).elim
  | finished => exact (elsewhere (pullFinished_handled _ _) alone).elim
  | counts => exact (elsewhere (count_handled _ _ _) alone).elim
  | pullRaises => exact (elsewhere (raise_handled _ _ _) alone).elim
  | pullCancelled => exact (elsewhere (pullCancelled_handled _ _) alone).elim
  | stops => exact (elsewhere (cleanUp_handled _ _) alone).elim
  | resumes => exact (elsewhere (cleanUp_handled _ _) alone).elim
  | cleansUp =>
      rename_i next _
      cases next <;> simp [Worker.goOn, Worker.awaitsAlone] at alone
  | callRaises => exact (elsewhere (raise_handled _ _ _) alone).elim
  | cancelled => exact (elsewhere (raise_handled _ _ _) alone).elim
  | _ => simp [Worker.awaitsAlone] at alone

end

/-! ## It awaits its task whatever else happens -/

theorem Worker.cancel_alone (alone : w.awaitsAlone = true) : w.cancel = w := by
  obtain ⟨⟨pc, pull⟩, -⟩ : (w.pc = .finishing ∧ w.pull = .running) ∧ w.cancelRequested = false := by
    simpa [Worker.awaitsAlone] using alone
  simp [Worker.cancel, pc, pull]

def State.AwaitsAlone (s : State) (i : Nat) : Prop :=
  ∃ w, s.workers[i]? = some w ∧ w.awaitsAlone = true

theorem State.AwaitsAlone.map {i : Nat} {f : Worker → Worker} (alone : s.AwaitsAlone i)
    (workers : t.workers = s.workers.map f) (kept : ∀ w, w.awaitsAlone = true →
      (f w).awaitsAlone = true) : t.AwaitsAlone i := by
  obtain ⟨w, stored, alone⟩ := alone
  exact ⟨f w, by simp [workers, stored], kept w alone⟩

theorem State.AwaitsAlone.worker {i j : Nat} {b : WorkerAction} (alone : s.AwaitsAlone i)
    (action : stepWorker c s j b = some (t, new)) :
    (∃ result, .worker i (.pullEnded result) ∈ new) ∨ t.AwaitsAlone i ∧ ∀ e, .worker i e ∉ new := by
  obtain ⟨w, stored, alone⟩ := alone
  unfold stepWorker at action
  split at action
  · rename_i u other
    split at action <;> cases action
    rename_i signals v events stepped
    by_cases same : j = i
    · subst same
      obtain rfl : w = u := by simpa [stored] using other
      rcases Worker.alone_steps alone stepped with ⟨result, rfl⟩ | ⟨stays, -, rfl⟩
      · left
        cases Worker.step_cases stepped with
        | pullEnds => exact ⟨result, by simp⟩
      · obtain ⟨bound, -⟩ := List.getElem?_eq_some_iff.mp stored
        exact .inr ⟨⟨v, by simp [bound], stays⟩, by simp⟩
    · refine .inr ⟨⟨w, ?_, alone⟩, fun e member => ?_⟩
      · rw [List.getElem?_set_ne same]
        exact stored
      · obtain ⟨_, -, mine⟩ := List.mem_map.mp member
        injection mine with index
        exact same index
  · contradiction

theorem State.AwaitsAlone.step {i : Nat} (alone : s.AwaitsAlone i)
    (action : step c s a = some (t, new)) :
    (∃ result, .worker i (.pullEnded result) ∈ new) ∨ t.AwaitsAlone i ∧ ∀ e, .worker i e ∉ new := by
  have woken (w : Worker) (alone : w.awaitsAlone = true) : w.wake.awaitsAlone = true :=
    w.alone_wake.trans alone
  cases a with
  | worker j b => exact alone.worker action
  | request r =>
      cases action
      exact .inr ⟨alone.map rfl woken, by simp⟩
  | polled answer =>
      cases step_cases action with
      | announced => exact .inr ⟨alone.map rfl woken, by simp⟩
      | withdrawn => exact .inr ⟨alone, by simp⟩
      | nothingNew => exact .inr ⟨alone, by simp⟩
  | main b =>
      cases step_cases action with
      | main stepped =>
          refine .inr ⟨?_, by simp⟩
          cases stepped with
          | cancels =>
              exact alone.map rfl fun w alone => (Worker.cancel_alone alone).symm ▸ alone
          | _ => exact alone

/-! ## Runs -/

def recordPreempted (preempted : Bool) (_ : State) (a : Action) (_ : List Event) : Bool :=
  match a with
  | .request r => preempted || r.preempts
  | _ => preempted

def preemptedMachine (c : Config) : Mealy.Machine (State × Bool) Action Event :=
  (machine c).withHistory recordPreempted

/-- No preemption finds a worker that awaits its task alone, and none turns to that after one. -/
def heeds : State × Bool → Action → Bool
  | (s, _), .request r => !r.preempts || s.workers.all fun w => !w.awaitsAlone
  | (s, preempted), .worker i .proceeds =>
    !preempted || s.workers[i]?.all fun w => !w.turnsAway s.signals
  | _, _ => true

structure Heeded (log : List Event) (s : State) (preempted : Bool) : Prop where
  recorded : ∀ r, r.preempts = true → .requested r ∈ log → preempted = true
  acted : preempted = true → ∀ w ∈ s.workers, w.awaitsAlone = false

theorem Heeded.step {preempted : Bool} (heeded : Heeded log s preempted)
    (stepped : Steps c s a t new) (meets : heeds (s, preempted) a = true) :
    Heeded (log ++ new) t (recordPreempted preempted s a new) := by
  have woken (all : ∀ w ∈ s.workers, w.awaitsAlone = false) :
      ∀ w ∈ s.workers.map Worker.wake, w.awaitsAlone = false := by
    intro v member
    obtain ⟨w, old, rfl⟩ := List.mem_map.mp member
    rw [w.alone_wake]
    exact all w old
  refine ⟨fun r preempts member => ?_, fun preempted' => ?_⟩
  · rcases List.mem_append.mp member with old | now
    · have before := heeded.recorded r preempts old
      cases a <;> simp [recordPreempted, before]
    · obtain ⟨rfl, -⟩ := stepped.requested now
      simp [recordPreempted, preempts]
  · cases stepped with
    | request r =>
        apply woken
        by_cases preempts : r.preempts = true
        · have none : ∀ w ∈ s.workers, w.awaitsAlone = false := by
            simpa [heeds, preempts] using meets
          exact none
        · exact heeded.acted (by simpa [recordPreempted, preempts] using preempted')
    | announced => exact woken (heeded.acted preempted')
    | withdrawn => exact heeded.acted preempted'
    | nothingNew => exact heeded.acted preempted'
    | worker stored moves =>
        have before := heeded.acted preempted'
        apply Pool.forall_set before
        by_contra alone
        rcases moves.alone (by simpa using alone) with old | ⟨rfl, turns⟩
        · simp [before _ (List.mem_of_getElem? stored)] at old
        · have preempted : preempted = true := preempted'
          simp [heeds, stored, preempted, turns] at meets
    | main stepped =>
        have before := heeded.acted preempted'
        cases stepped with
        | cancels =>
            intro v member
            obtain ⟨w, old, rfl⟩ := List.mem_map.mp member
            by_contra alone
            have same := Worker.alone_cancel (by simpa using alone)
            simp [before w old] at same
        | _ => exact before

theorem preemption_acted_on {numWorkers : Nat} {preempted : Bool}
    (run : Mealy.Run (preemptedMachine c) (fun x a => heeds x a = true)
      ((initial numWorkers, false), []) log (s, preempted)) : PreemptionActedOn log s := by
  have heeded : Heeded log s preempted := by
    apply run.invariant (P := fun log x => Heeded log x.1 x.2)
    · exact ⟨by simp, by simp⟩
    · rintro log ⟨s, preempted⟩ a ⟨t, _⟩ new heeded meets action
      obtain ⟨stepped, rfl⟩ := Mealy.withHistory_step action
      exact heeded.step (step_cases stepped) meets
  exact fun r preempts member => heeded.acted (heeded.recorded r preempts member)

/-- The task that is drained ends before the preemption comes. -/
theorem preemption_acted_on_hello : ∃ s log, PreemptionActedOn log s ∧
    .requested .sigterm ∈ log ∧ s.workers[1]?.map Worker.pc = some (.shuttingDown true) := by
  have steps : Mealy.execIf (preemptedMachine ⟨10, false⟩) heeds ((initial 2, false), [])
      (starts 0 ++ starts 1 ++ [.request .sigusr1, .worker 0 .shutdownTaskRuns, .worker 0 .proceeds,
        .worker 0 (.pullEnds (.returned true)), .request .sigterm, .worker 1 .shutdownTaskRuns,
        .worker 1 .proceeds]) = some ((_, _), _) := rfl
  exact ⟨_, _, preemption_acted_on (.of_execIf steps), List.mem_of_getElem? (i := 4) rfl, rfl⟩

/-- `SIGUSR1`, upon which the worker awaits its task, and then `SIGTERM`. -/
theorem preemption_ignored : ¬ ∀ s log,
    Mealy.Run (machine ⟨10, false⟩) Mealy.always (initial 1, []) log s → PreemptionActedOn log s := by
  intro claim
  have steps : Mealy.exec (machine ⟨10, false⟩) (initial 1, [])
      (starts 0 ++ [.request .sigusr1, .worker 0 .shutdownTaskRuns, .worker 0 .proceeds,
        .request .sigterm]) = some (_, _) := rfl
  have acted := claim _ _ (.of_exec (by simp) steps) .sigterm rfl (List.mem_of_getElem? (i := 2) rfl)
  have alone := acted _ (List.mem_singleton.mpr rfl)
  contradiction

end JobQ.LaunchWorkers
