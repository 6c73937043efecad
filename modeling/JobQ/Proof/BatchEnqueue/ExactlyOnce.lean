import JobQ.Proof.BatchEnqueue.Conserved

/-!
# Every job is pushed exactly once

A run in which nothing raises and nothing is `None`. A queue can only be joined when everything in
it has been dealt with, so that nothing is under way any more when `batch_enqueue` returns.
-/

namespace JobQ.BatchEnqueue
open Asyncio Pool

variable {Seed Task Job Future : Type} {dryRun : Bool} {s t : State Seed Task Job Future}

/-! ## What happened -/

/-- The seeds that `task_seeds` has yielded, and those whose tasks have been listed to the end. -/
structure History (Seed : Type) where
  seeds : List Seed := []
  exhausted : List Seed := []

def record (h : History Seed) (s : State Seed Task Job Future) (a : Action Seed Task Job Future)
    (_ : List (Event Seed Task Job Future)) : History Seed :=
  match a with
  | .seeds (.yields (some seed)) => { h with seeds := h.seeds ++ [seed] }
  | .list i (.lists .exhausted) =>
    match s.listWorkers[i]? with
    | some (.listing seed) => { h with exhausted := h.exhausted ++ [seed] }
    | _ => h
  | _ => h

def historyMachine (dryRun : Bool) :
    Mealy.Machine (State Seed Task Job Future × History Seed) (Action Seed Task Job Future)
      (Event Seed Task Job Future) :=
  (machine dryRun).withHistory record

def Event.listed? : Event Seed Task Job Future → Option Task
  | .listed _ task => task
  | _ => none

/-- A step of a work specification and a queue that raise nothing and yield no `None`. -/
def WellBehaved (_ : State Seed Task Job Future) : Action Seed Task Job Future → Prop
  | .seeds (.yields seed) => seed.isSome = true
  | .seeds .raises => False
  | .list _ (.lists (.yields task)) => task.isSome = true
  | .list _ (.lists .raises) => False
  | .enqueue _ .raises => False
  | _ => True

structure ExactlyOnce (dryRun : Bool) (log : List (Event Seed Task Job Future))
    (s : State Seed Task Job Future) (h : History Seed) : Prop where
  listed : h.exhausted.Perm h.seeds
  considered : (log.filterMap Event.considered?).Perm (log.filterMap Event.listed?)
  pushed : (log.filterMap Event.pushed?).Perm (if dryRun then [] else log.filterMap Event.job?)
  futures : s.futures = log.filterMap Event.future?
  uncut : .ended .cutOff ∉ s.enqueueWorkers

/-! ## What is under way -/

def Main.seed? : Main Seed → Option Seed
  | .putting seed => seed
  | _ => none

def ListWorker.seed? : ListWorker Seed Task → Option Seed
  | .listing seed | .putting seed _ => some seed
  | _ => none

theorem ListWorker.no_seed {w : ListWorker Seed Task} (idle : w.isBusy = false) : w.seed? = none := by
  cases w with
  | waiting | ended => rfl
  | listing | putting => cases idle

/-- Every seed is listed to the end, waiting in the queue, or in somebody's hands. -/
def SeedsConserved (s : State Seed Task Job Future) (h : History Seed) : Prop :=
  (h.seeds : Multiset Seed) = h.exhausted + s.enumJobs.items.reduceOption +
    s.main.seed?.toList + s.listWorkers.filterMap ListWorker.seed?

section

variable {h : History Seed} (seeds : SeedsConserved s h)
include seeds

theorem SeedsConserved.main {a : Action Seed Task Job Future} (stepped : MainSteps s a t) :
    SeedsConserved t (record h s a new) := by
  unfold SeedsConserved at seeds ⊢
  cases stepped with
  | @yields seed main =>
      simp only [main, Main.seed?, Option.toList_none] at seeds
      cases seed with
      | none => simpa only [record, Main.seed?, Option.toList_none] using seeds
      | some seed =>
          simp only [record, ← Multiset.coe_add, Main.seed?, Option.toList_some, seeds]
          abel
  | @puts seed main =>
      cases seed with
      | none =>
          simpa [record, main, Main.seed?, List.reduceOption_append] using seeds
      | some seed =>
          simp only [main, Main.seed?, Option.toList_some] at seeds
          simp only [record, reduceOption_snoc, Main.seed?, Option.toList_none, seeds]
          abel
  | exhausted main | raises main | listed main | enqueued main | collectRaises main
  | collected main => simpa [record, main, Main.seed?] using seeds

theorem SeedsConserved.list {i : Nat} {w : ListWorker Seed Task} {a : ListAction Task}
    (worker : s.listWorkers[i]? = some w) (succeeds : a ≠ .lists .raises)
    (idle : a = .cancelled → w.isBusy = false) (stepped : ListSteps s i w a t new) :
    SeedsConserved t (record h s (.list i a) new) := by
  unfold SeedsConserved at seeds ⊢
  cases stepped with
  | @takes seed rest items =>
      rw [reduceOption_head items] at seeds
      simp only [record, filterMap_gains ListWorker.seed? worker (.listing seed) rfl rfl, seeds]
      abel
  | @stops rest items =>
      rw [items, List.reduceOption_cons_of_none] at seeds
      simpa only [record, filterMap_stays ListWorker.seed? worker (.ended .stopped) rfl] using seeds
  | @yields seed item =>
      simpa only [record, filterMap_stays ListWorker.seed? worker (.putting seed item) rfl] using seeds
  | @exhausted seed =>
      rw [filterMap_drops ListWorker.seed? worker .waiting rfl rfl] at seeds
      simp only [record, worker, ← Multiset.coe_add, seeds, Queue.taskDone]
      abel
  | raises => contradiction
  | @puts seed item =>
      simpa only [record, filterMap_stays ListWorker.seed? worker (.listing seed) rfl] using seeds
  | cancelled =>
      simpa only [record, filterMap_stays ListWorker.seed? worker (.ended .cancelled) rfl] using seeds
  | cutOff busy => simp [idle rfl] at busy

theorem SeedsConserved.step {a : Action Seed Task Job Future} (counted : Counted s)
    (phased : Phased s) (succeeds : ∀ i, a ≠ .list i (.lists .raises))
    (stepped : Steps dryRun s a t new) : SeedsConserved t (record h s a new) := by
  cases stepped with
  | main stepped => exact seeds.main stepped
  | @list i _ _ _ _ worker suits stepped =>
      apply seeds.list worker ?_ ?_ stepped
      · rintro rfl
        exact succeeds i rfl
      · rintro rfl
        exact counted.idle (phased.listed (.inr suits)) worker
  | enqueue _ _ stepped => cases stepped <;> exact seeds

end

/-! ## The whole run -/

structure Accounted (dryRun : Bool) (log : List (Event Seed Task Job Future))
    (s : State Seed Task Job Future) (h : History Seed) : Prop where
  counted : Counted s
  phased : Phased s
  seeds : SeedsConserved s h
  conserved : Conserved dryRun log s

theorem initial_accounted (l e : Nat) :
    Accounted dryRun [] (initial l e : State Seed Task Job Future) {} where
  counted := initial_counted l e
  phased := initial_phased l e
  seeds := by
    have idle : (List.replicate l (.waiting : ListWorker Seed Task)).filterMap ListWorker.seed? = [] :=
      List.filterMap_replicate_of_none rfl
    simp [SeedsConserved, initial, Main.seed?, idle]
  conserved := initial_conserved l e

theorem run_accounted {l e : Nat} {log : List (Event Seed Task Job Future)}
    {h : History Seed}
    (run : Mealy.Run (historyMachine dryRun) (fun x => WellBehaved x.1) ((initial l e, {}), []) log
      (s, h)) : Accounted dryRun log s h := by
  apply run.invariant (P := fun log x => Accounted dryRun log x.1 x.2) (initial_accounted l e)
  intro log x a y new accounted behaved action
  obtain ⟨s, h⟩ := x
  obtain ⟨t, g⟩ := y
  obtain ⟨counted, phased, seeds, conserved⟩ := accounted
  obtain ⟨moved, rfl⟩ := Mealy.withHistory_step action
  have stepped := step_cases moved
  refine ⟨counted.step stepped, phased.step stepped, seeds.step counted phased ?_ stepped,
    conserved.step counted phased ?_ stepped⟩
  · rintro i rfl
    cases behaved
  · rintro i rfl
    cases behaved

theorem filterMap_listed (log : List (Event Seed Task Job Future)) :
    log.filterMap Event.listed? = (log.filterMap Event.item?).reduceOption := by
  rw [List.reduceOption, List.filterMap_filterMap]
  congr 1
  funext e
  cases e <;> rfl

/-- Whatever the schedule, each task listed is considered once and each job is pushed once. -/
theorem batch_enqueue_exactly_once {l e : Nat} {log : List (Event Seed Task Job Future)}
    {h : History Seed}
    (run : Mealy.Run (historyMachine dryRun) (fun x => WellBehaved x.1) ((initial l e, {}), []) log
      (s, h)) (returned : s.main = .returned) : ExactlyOnce dryRun log s h := by
  obtain ⟨counted, phased, seeds, conserved⟩ := run_accounted run
  have late := phased.collecting (.inr returned)
  obtain ⟨noSeeds, idle⟩ := counted.seeds_joined (phased.listed (.inr late))
  obtain ⟨items, jobs⟩ := conserved.returned counted phased returned
  have listing : s.listWorkers.filterMap ListWorker.seed? = [] :=
    filterMap_idle idle fun _ idle => ListWorker.no_seed idle
  exact {
    listed := by
      simpa [SeedsConserved, noSeeds, returned, Main.seed?, listing] using seeds.symm
    considered := by
      rw [filterMap_listed]
      simpa [List.reduceOption] using items.filterMap id
    pushed := jobs
    futures := conserved.futures
    uncut := fun cut => by
      obtain ⟨i, worker⟩ := List.mem_iff_getElem?.mp cut
      cases counted.free (phased.drained late) worker }

def oneSeed : List (Action Nat Nat Nat Nat) :=
  [.seeds (.yields (some 0)), .putSeed, .list 1 .take, .list 1 (.lists (.yields (some 1))),
    .list 1 .put, .list 1 (.lists (.yields (some 2))), .enqueue 0 .take, .list 1 .put,
    .enqueue 1 .take, .enqueue 0 (.considered none), .enqueue 1 (.considered (some 3)),
    .seeds .exhausted, .list 1 (.lists .exhausted), .joined, .enqueue 1 (.pushed 4), .joined,
    .list 0 .cancelled, .list 1 .cancelled, .enqueue 0 .cancelled, .enqueue 1 .cancelled, .collected]

theorem batch_enqueue_exactly_once_hello :
    ∃ (log : List (Event Nat Nat Nat Nat)) (s : State Nat Nat Nat Nat) (h : History Nat),
      s.main = .returned ∧ s.futures = [4] ∧ ExactlyOnce false log s h := by
  have steps : Mealy.exec (historyMachine false)
      (((initial 2 2 : State Nat Nat Nat Nat), {}), []) oneSeed = some ((_, _), _) := rfl
  have meets (x : State Nat Nat Nat Nat × History Nat) : ∀ a ∈ oneSeed, WellBehaved x.1 a := by
    simp [oneSeed, WellBehaved]
  exact ⟨_, _, _, rfl, rfl, batch_enqueue_exactly_once (.of_exec meets steps) rfl⟩

end JobQ.BatchEnqueue
