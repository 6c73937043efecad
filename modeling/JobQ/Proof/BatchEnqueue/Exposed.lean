import JobQ.Proof.BatchEnqueue.Conserved
import JobQ.Proof.BatchEnqueue.ExactlyOnce
import JobQ.Proof.BatchEnqueue.Stuck

/-!
# Failures that do not show

`enqueue_worker` swallows an exception, marks the task as done and leaves, and the main coroutine
takes the worker for one that has finished. The failure shows only if `batch_enqueue` is kept from
returning by something else.
-/

namespace JobQ.BatchEnqueue
open Asyncio Pool

variable {Seed Task Job Future : Type} {dryRun : Bool} {s t : State Seed Task Job Future}
  {log new : List (Event Seed Task Job Future)}

structure AllPushed (dryRun : Bool) (log : List (Event Seed Task Job Future)) : Prop where
  unfailed : .failed ∉ log
  considered : ((log.filterMap Event.considered?).map some).Perm (log.filterMap Event.item?)
  pushed : (log.filterMap Event.pushed?).Perm (if dryRun then [] else log.filterMap Event.job?)

/-- Where an enqueue worker fails, something else keeps `batch_enqueue` from returning: `task_seeds`
has raised, a list worker has failed, or items are left that nobody will ever deal with. -/
def Shows (s : State Seed Task Job Future) : Action Seed Task Job Future → Prop
  | .enqueue i .raises =>
    s.main = .raised ∨ .ended .failed ∈ s.listWorkers ∨ Doomed s ∨ ¬ Attends s (.enqueue i .raises)
  | _ => True

/-! ## Failures -/

/-- `batch_enqueue` raises or waits for ever. -/
inductive NeverReturns (s : State Seed Task Job Future) : Prop
  | raised (main : s.main = .raised)
  | listFailed (failed : .ended .failed ∈ s.listWorkers)
  | doomed (doomed : Doomed s) (early : s.cancelled = false)

theorem Steps.list_ended {a : Action Seed Task Job Future} {how : End} (stepped : Steps dryRun s a t new)
    (ended : .ended how ∈ s.listWorkers) : .ended how ∈ t.listWorkers := by
  cases stepped with
  | main stepped => cases stepped <;> exact ended
  | enqueue _ _ stepped => cases stepped <;> exact ended
  | @list i w _ _ _ worker _ stepped =>
      have other : w ≠ .ended how := by
        rintro rfl
        cases stepped.lives
      have kept {v : ListWorker Seed Task} : .ended how ∈ s.listWorkers.set i v :=
        mem_set_of_ne ended worker other
      cases stepped <;> exact kept

theorem Steps.enqueue_ended {a : Action Seed Task Job Future} {how : End} (stepped : Steps dryRun s a t new)
    (ended : .ended how ∈ s.enqueueWorkers) : .ended how ∈ t.enqueueWorkers := by
  cases stepped with
  | main stepped => cases stepped <;> exact ended
  | list _ _ stepped => cases stepped <;> exact ended
  | @enqueue i w _ _ _ worker _ stepped =>
      have other : w ≠ .ended how := by
        rintro rfl
        cases stepped.lives
      have kept {v : EnqueueWorker Task Job} : .ended how ∈ s.enqueueWorkers.set i v :=
        mem_set_of_ne ended worker other
      cases stepped <;> exact kept

theorem NeverReturns.step {a : Action Seed Task Job Future} (never : NeverReturns s)
    (counted : Counted s) (phased : Phased s) (stepped : Steps dryRun s a t new) : NeverReturns t := by
  cases never with
  | raised main =>
      apply NeverReturns.raised
      cases stepped with
      | main stepped => cases stepped <;> simp_all
      | list _ _ stepped => cases stepped <;> exact main
      | enqueue _ _ stepped => cases stepped <;> exact main
  | listFailed failed => exact .listFailed (stepped.list_ended failed)
  | doomed doomed early =>
      obtain ⟨doomed, early⟩ := doomed.step early counted phased stepped
      exact .doomed doomed early

theorem NeverReturns.of_shows {i : Nat} (shows_ : Shows s (.enqueue i .raises))
    (counted : Counted s) (phased : Phased s) (stepped : Steps dryRun s (.enqueue i .raises) t new) :
    NeverReturns t := by
  have early : s.cancelled = false := by
    cases stepped with
    | main stepped => cases stepped
    | enqueue _ suits => simpa [EnqueueAction.suits] using suits
  rcases shows_ with main | failed | doomed | unattended
  · exact NeverReturns.step (.raised main) counted phased stepped
  · exact NeverReturns.step (.listFailed failed) counted phased stepped
  · exact NeverReturns.step (.doomed doomed early) counted phased stepped
  · obtain ⟨doomed, early⟩ := doomed_of_unattended stepped phased unattended
    exact .doomed doomed early

section

variable {a : Action Seed Task Job Future}

theorem Steps.failed_worker (stepped : Steps dryRun s a t new) (failed : .failed ∈ new) :
    .ended .failed ∈ t.listWorkers ∨ .ended .failed ∈ t.enqueueWorkers := by
  cases stepped with
  | main => cases failed
  | list worker _ stepped =>
      obtain ⟨bound, -⟩ := List.getElem?_eq_some_iff.mp worker
      cases stepped with
      | raises => exact .inl (List.mem_set bound _)
      | _ => simp at failed
  | enqueue worker _ stepped =>
      obtain ⟨bound, -⟩ := List.getElem?_eq_some_iff.mp worker
      cases stepped with
      | raises => exact .inr (List.mem_set bound _)
      | _ => simp at failed

theorem Steps.list_failed (stepped : Steps dryRun s a t new) (failed : .ended .failed ∈ t.listWorkers) :
    .ended .failed ∈ s.listWorkers ∨ ∃ i, a = .list i (.lists .raises) ∧ s.cancelled = false := by
  cases stepped with
  | main stepped => cases stepped <;> exact .inl failed
  | enqueue _ _ stepped => cases stepped <;> exact .inl failed
  | @list i _ _ _ _ _ suits stepped =>
      cases stepped with
      | raises => exact .inr ⟨i, rfl, by simpa [ListAction.suits] using suits⟩
      | _ => exact .inl (mem_of_set failed (by simp))

theorem Steps.enqueue_failed (stepped : Steps dryRun s a t new) (failed : .ended .failed ∈ t.enqueueWorkers) :
    .ended .failed ∈ s.enqueueWorkers ∨ ∃ i, a = .enqueue i .raises := by
  cases stepped with
  | main stepped => cases stepped <;> exact .inl failed
  | list _ _ stepped => cases stepped <;> exact .inl failed
  | @enqueue i _ _ _ _ _ suits stepped =>
      cases stepped with
      | raises => exact .inr ⟨i, rfl⟩
      | _ => exact .inl (mem_of_set failed (by simp))

theorem Steps.unfailed_return (stepped : Steps dryRun s a t new) (returned : t.main = .returned) :
    s.main = .returned ∨ .ended .failed ∉ t.listWorkers := by
  cases stepped with
  | main stepped =>
      cases stepped with
      | collected _ unfailed =>
          right
          intro failed
          have found : listFailed s = true := List.any_eq_true.mpr ⟨_, failed, rfl⟩
          simp [found] at unfailed
      | _ => exact .inl (by simp_all)
  | list _ _ stepped => cases stepped <;> exact .inl returned
  | enqueue _ _ stepped => cases stepped <;> exact .inl returned

end

structure Shown (dryRun : Bool) (log : List (Event Seed Task Job Future))
    (s : State Seed Task Job Future) : Prop where
  counted : Counted s
  phased : Phased s
  failures : .failed ∈ log → .ended .failed ∈ s.listWorkers ∨ .ended .failed ∈ s.enqueueWorkers
  never : .ended .failed ∈ s.enqueueWorkers → NeverReturns s
  collected : s.main = .returned → .ended .failed ∉ s.listWorkers
  conserved : .ended .failed ∉ s.enqueueWorkers → Conserved dryRun log s

theorem Shown.step {a : Action Seed Task Job Future} (shown : Shown dryRun log s)
    (meets : Shows s a) (stepped : Steps dryRun s a t new) : Shown dryRun (log ++ new) t := by
  obtain ⟨counted, phased, failures, never, collected, conserved⟩ := shown
  refine ⟨counted.step stepped, phased.step stepped, ?_, ?_, ?_, ?_⟩
  · intro failed
    rcases List.mem_append.mp failed with old | now
    · exact (failures old).imp stepped.list_ended stepped.enqueue_ended
    · exact stepped.failed_worker now
  · intro failed
    rcases stepped.enqueue_failed failed with old | ⟨i, rfl⟩
    · exact (never old).step counted phased stepped
    · exact .of_shows meets counted phased stepped
  · intro returned failed
    rcases stepped.unfailed_return returned with earlier | fine
    · rcases stepped.list_failed failed with old | ⟨_, -, early⟩
      · exact collected earlier old
      · simp [phased.collecting (.inr earlier)] at early
    · exact fine failed
  · intro fine
    have before := conserved fun failed => fine (stepped.enqueue_ended failed)
    refine before.step counted phased ?_ stepped
    rintro i rfl
    cases stepped with
    | main stepped => cases stepped
    | enqueue worker _ stepped =>
        obtain ⟨bound, -⟩ := List.getElem?_eq_some_iff.mp worker
        cases stepped
        exact fine (List.mem_set bound _)

theorem initial_shown (l e : Nat) : Shown dryRun [] (initial l e : State Seed Task Job Future) where
  counted := initial_counted l e
  phased := initial_phased l e
  failures := by simp
  never := by simp [initial]
  collected := by simp [initial]
  conserved _ := initial_conserved l e

theorem NeverReturns.not_returned (never : NeverReturns s) (shown : Shown dryRun log s) :
    s.main ≠ .returned := by
  intro returned
  cases never with
  | raised main => cases main.symm.trans returned
  | listFailed failed => exact shown.collected returned failed
  | doomed _ early => simp [shown.phased.collecting (.inr returned)] at early

/-- Under `Shows`, a normal return means that nothing has failed and that every task listed has been
considered and every job pushed. -/
theorem failures_show {l e : Nat} (run : Mealy.Run (machine dryRun) Shows (initial l e, []) log s)
    (returned : s.main = .returned) : AllPushed dryRun log := by
  have shown : Shown dryRun log s := run.invariant (P := Shown dryRun) (initial_shown l e)
    fun _ _ _ _ _ shown meets action => shown.step meets (step_cases action)
  have fine : .ended .failed ∉ s.enqueueWorkers :=
    fun failed => (shown.never failed).not_returned shown returned
  have unfailed : .failed ∉ log := by
    intro failed
    rcases shown.failures failed with list | enqueue
    · exact shown.collected returned list
    · exact fine enqueue
  obtain ⟨items, jobs⟩ := (shown.conserved fine).returned shown.counted shown.phased returned
  exact ⟨unfailed, items, jobs⟩

theorem failures_show_hello : ∃ (log : List (Event Nat Nat Nat Nat)) (s : State Nat Nat Nat Nat),
    Mealy.Run (machine false) Shows (initial 2 2, []) log s ∧ s.futures = [4] ∧
      AllPushed false log := by
  have steps : Mealy.exec (machine false) ((initial 2 2 : State Nat Nat Nat Nat), []) oneSeed =
      some (_, _) := rfl
  have meets (s : State Nat Nat Nat Nat) : ∀ a ∈ oneSeed, Shows s a := by simp [oneSeed, Shows]
  have run := Mealy.Run.of_exec meets steps
  exact ⟨_, _, run, rfl, failures_show run rfl⟩

/-- The second task fails, and nobody hears of it. -/
def oneFails : List (Action Nat Nat Nat Nat) :=
  [.seeds (.yields (some 0)), .putSeed, .list 1 .take, .list 1 (.lists (.yields (some 1))),
    .list 1 .put, .list 1 (.lists (.yields (some 2))), .enqueue 0 .take, .list 1 .put,
    .enqueue 1 .take, .enqueue 0 (.considered none), .enqueue 1 (.considered (some 3)),
    .seeds .exhausted, .list 1 (.lists .exhausted), .joined, .enqueue 1 .raises, .joined,
    .list 0 .cancelled, .list 1 .cancelled, .enqueue 0 .cancelled, .collected]

theorem failure_hidden : ¬ ∀ (log : List (Event Nat Nat Nat Nat)) (s : State Nat Nat Nat Nat),
    Mealy.Run (machine false) Mealy.always (initial 2 2, []) log s → s.main = .returned →
      AllPushed false log := by
  intro claim
  have steps : Mealy.exec (machine false) ((initial 2 2 : State Nat Nat Nat Nat), []) oneFails =
      some (_, _) := rfl
  have pushed := claim _ _ (.of_exec (by simp) steps) rfl
  exact pushed.unfailed (List.mem_of_getElem? (i := 4) rfl)

end JobQ.BatchEnqueue
