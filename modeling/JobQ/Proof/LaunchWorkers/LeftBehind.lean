import JobQ.Library.Pool
import JobQ.Proof.LaunchWorkers.Steps

/-!
# Workers left behind

`launch_workers` waits for every worker, unless one of them fails first: an exception ends the
collection at once, and so does `TooManyFailuresException`, which the loop that awaits the cancelled
workers meets again before any of them.
-/

namespace JobQ.LaunchWorkers
open Pool

variable {maxFailures : Int} {signals signals' : Signals} {w v : Worker} {events : List WorkerEvent}

def Pc.isEnded : Pc → Bool
  | .ended _ => true
  | _ => false

def State.allEnded (s : State) : Bool := s.workers.all fun w => w.pc.isEnded

def LeavesNobodyBehind (c : Config) (numWorkers : Nat) : Prop :=
  ∀ s log how, Mealy.Run (machine c) Mealy.always (initial numWorkers, []) log s →
    s.main = .ended how → s.allEnded = true

/-- A worker that has failed is collected when all workers have ended. -/
def failuresLast (s : State) : Action → Bool
  | .main .collects =>
    match s.main with
    | .collecting n =>
      match s.completed[n]? with
      | some (.raised exc) => exc = .cancelledError ∨ s.allEnded
      | _ => true
    | _ => true
  | _ => true

namespace Worker

theorem not_ended {pc : Pc} (handled : pc.isHandled = true) : pc.isEnded = false := by
  cases pc <;> first | rfl | cases handled

theorem isEnded_wake (w : Worker) : w.wake.pc.isEnded = w.pc.isEnded := by
  obtain ⟨_, same⟩ := w.wake_eq
  rw [same]

theorem isEnded_cancel (w : Worker) : w.cancel.pc.isEnded = w.pc.isEnded := by
  obtain ⟨_, same⟩ := w.cancel_eq
  rw [same]

theorem Moves.ended {a : WorkerAction} (moves : w.Moves maxFailures signals a signals' v events) :
    (events.filterMap WorkerEvent.ended?).length + (if w.pc.isEnded then 1 else 0) =
      if v.pc.isEnded then 1 else 0 := by
  cases moves with
  | taskRuns | pullEnds => exact Nat.zero_add _
  | cancelled live =>
      rw [not_ended (raise_handled _ _ _)]
      cases pc : w.pc with
      | ended how => exact absurd pc (live how)
      | _ => rfl
  | asserts pc | pullRaises pc =>
      rw [pc, not_ended (raise_handled _ _ _)]
      rfl
  | counts pc =>
      rw [pc, not_ended (count_handled _ _ _)]
      rfl
  | resumes pc =>
      rw [pc, not_ended (cleanUp_handled _ _)]
      rfl
  | cleansUp pc =>
      rw [pc, not_ended (goOn_handled _ _)]
      rfl
  | finished pc =>
      rw [not_ended (pullFinished_handled _ _)]
      rcases pc with pc | ⟨pc, -⟩ <;> rw [pc] <;> rfl
  | pullCancelled pc =>
      rw [not_ended (pullCancelled_handled _ _)]
      rcases pc with pc | pc <;> rw [pc] <;> rfl
  | stops pc =>
      rw [not_ended (cleanUp_handled _ _)]
      rcases pc with pc | pc <;> rw [pc] <;> rfl
  | callRaises pc =>
      rw [not_ended (raise_handled _ _ _)]
      rcases pc with ⟨-, pending, pc⟩ | pc | pc <;> rw [pc] <;> rfl
  | _ pc =>
      rw [pc]
      rfl

end Worker

/-! ## The whole run -/

variable {c : Config} {s t : State} {a : Action} {new : List Event}

theorem failuresLast_fails {n : Nat} {exc : Exc} (main : s.main = .collecting n)
    (next : s.completed[n]? = some (.raised exc)) (last : failuresLast s (.main .collects) = true)
    (fatal : exc ≠ .cancelledError) : s.allEnded = true := by
  simpa [failuresLast, main, next, fatal] using last

structure Collected (s : State) : Prop where
  count : s.completed.length = s.workers.countP fun w => w.pc.isEnded
  collecting : ∀ n, s.main = .collecting n → n ≤ s.completed.length
  past : (∀ n, s.main ≠ .collecting n) → s.allEnded = true

theorem allEnded_map {f : Worker → Worker} (same : ∀ w, (f w).pc.isEnded = w.pc.isEnded)
    (workers : List Worker) : (workers.map f).all (fun w => w.pc.isEnded) =
      workers.all fun w => w.pc.isEnded := by
  rw [List.all_map]
  congr 1
  funext w
  exact same w

theorem Collected.map {f : Worker → Worker} (collected : Collected s)
    (same : ∀ w, (f w).pc.isEnded = w.pc.isEnded) (signals : Signals) :
    Collected { s with signals, workers := s.workers.map f } where
  count := by
    rw [List.countP_map, collected.count]
    exact List.countP_congr fun w _ => by simp [same]
  collecting := collected.collecting
  past late := (allEnded_map same s.workers).trans (collected.past late)

theorem Collected.all_ended (collected : Collected s)
    (exhausted : s.workers.length ≤ s.completed.length) : s.allEnded = true := by
  rw [collected.count] at exhausted
  exact List.all_eq_true.mpr
    (List.countP_eq_length.mp (le_antisymm List.countP_le_length exhausted))

theorem MainSteps.collected {a : MainAction} (stepped : MainSteps s a t) (collected : Collected s)
    (last : failuresLast s (.main a) = true) : Collected t := by
  cases stepped with
  | @collects n how main next =>
      refine ⟨collected.count, ?_, fun late => absurd rfl (late (n + 1))⟩
      intro m same
      cases same
      exact (List.getElem?_eq_some_iff.mp next).1
  | cancels main next =>
      have all := failuresLast_fails main next last (by simp)
      have kept := collected.map Worker.isEnded_cancel s.signals
      exact ⟨kept.count, by simp, fun _ => (allEnded_map Worker.isEnded_cancel _).trans all⟩
  | fails main next fatal =>
      exact ⟨collected.count, by simp, fun _ => failuresLast_fails (s := s) main next last fatal⟩
  | exhausted main =>
      exact ⟨collected.count, by simp, fun _ => collected.all_ended (collected.collecting _ main)⟩
  | drains main => exact ⟨collected.count, by simp, fun _ => collected.past (by simp [main])⟩
  | leaves main => exact ⟨collected.count, by simp, fun _ => collected.past (by simp [main])⟩

theorem Collected.step (collected : Collected s) (stepped : Steps c s a t new)
    (last : failuresLast s a = true) : Collected t := by
  cases stepped with
  | request | announced => exact collected.map Worker.isEnded_wake _
  | withdrawn => exact ⟨collected.count, collected.collecting, collected.past⟩
  | nothingNew => exact collected
  | main stepped => exact stepped.collected collected last
  | @worker i a w v signals events worker moves =>
      have ended := moves.ended
      have moved := countP_set (p := fun w : Worker => w.pc.isEnded) (b := v) worker
      refine ⟨?_, fun n main => ?_, fun late => ?_⟩
      · show _ = (s.workers.set i v).countP _
        rw [List.length_append, collected.count]
        omega
      · exact (collected.collecting n main).trans (by simp)
      · have all := List.all_eq_true.mp (collected.past late)
        apply List.all_eq_true.mpr
        apply forall_set all
        rw [all w (List.mem_of_getElem? worker)] at ended
        by_contra live
        simp [live] at ended

/-- Unless a worker fails while another one is still at work, all workers have ended when
`launch_workers` returns or raises. -/
theorem launch_workers_leaves_nobody_behind {numWorkers : Nat} {log : List Event} {how : Outcome}
    (run : Mealy.Run (machine c) (fun s a => failuresLast s a = true) (initial numWorkers, []) log s)
    (ended : s.main = .ended how) : s.allEnded = true := by
  have collected : Collected s := by
    apply run.state_invariant
    · refine ⟨?_, by simp [initial], fun late => absurd rfl (late 0)⟩
      simp [initial, List.countP_replicate, Pc.isEnded]
    · exact fun s a t new kept last action => kept.step (step_cases action) last
  exact collected.past (by simp [ended])

def finishes (i : Nat) (result : Result) : List Action :=
  [.worker i (.pullEnds result), .worker i .proceeds, .worker i .proceeds, .worker i .proceeds]

theorem launch_workers_leaves_nobody_behind_hello : ∃ s : State,
    s.main = .ended (.raised .other) ∧ s.workers.length = 2 ∧ s.allEnded = true := by
  have steps : Mealy.execIf (machine ⟨10, false⟩) failuresLast (initial 2, [])
      (starts 0 ++ starts 1 ++ finishes 1 (.raised .emptyQueue) ++ finishes 0 (.raised .other) ++
        [.main .collects, .main .collects, .main (.leaves none)]) = some (_, _) := rfl
  exact ⟨_, rfl, rfl, launch_workers_leaves_nobody_behind (.of_execIf steps) rfl⟩

/-- One worker fails once too often, and the other one still waits for its pull. -/
theorem left_behind : ¬ LeavesNobodyBehind ⟨0, false⟩ 2 := by
  intro leaves
  have steps : Mealy.exec (machine ⟨0, false⟩) (initial 2, [])
      (starts 0 ++ starts 1 ++ finishes 0 (.returned false) ++
        [.main .collects, .main (.drains 0), .main (.leaves none)]) = some (_, _) := rfl
  cases leaves _ _ _ (.of_exec (by simp) steps) rfl

end JobQ.LaunchWorkers
