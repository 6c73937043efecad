import JobQ.Proof.BatchEnqueue.Steps
import Mathlib.Tactic.Abel

/-!
# Where the items are

As long as no enqueue worker fails, every item listed is waiting in the queue, in the hands of one
worker, or considered, and every job is in the hands of one worker or pushed.
-/

namespace JobQ.BatchEnqueue
open Asyncio Pool

variable {Seed Task Job Future : Type} {dryRun : Bool} {s t : State Seed Task Job Future}
  {log new : List (Event Seed Task Job Future)}

/-- What has been listed, `None` included. -/
def Event.item? : Event Seed Task Job Future → Option (Option Task)
  | .listed _ item => some item
  | _ => none

def Event.considered? : Event Seed Task Job Future → Option Task
  | .considered task _ => some task
  | _ => none

def Event.dealtWith? (e : Event Seed Task Job Future) : Option (Option Task) := e.considered?.map some

def Event.job? : Event Seed Task Job Future → Option Job
  | .considered _ job => job
  | _ => none

def Event.pushed? : Event Seed Task Job Future → Option Job
  | .pushed job _ => some job
  | _ => none

def Event.future? : Event Seed Task Job Future → Option Future
  | .pushed _ future => some future
  | _ => none

def ListWorker.item? : ListWorker Seed Task → Option (Option Task)
  | .putting _ item => some item
  | _ => none

/-- An enqueue worker that has taken a `None` for its stop sign keeps it. -/
def EnqueueWorker.item? : EnqueueWorker Task Job → Option (Option Task)
  | .considering task => some (some task)
  | .ended .stopped => some none
  | _ => none

def EnqueueWorker.job? : EnqueueWorker Task Job → Option Job
  | .pushing job => some job
  | _ => none

theorem ListWorker.no_item {w : ListWorker Seed Task} (idle : w.isBusy = false) : w.item? = none := by
  cases w with
  | waiting | ended => rfl
  | listing | putting => cases idle

theorem EnqueueWorker.empty_handed {w : EnqueueWorker Task Job} (free : w.isHolding = false) :
    w.item? = none ∧ w.job? = none := by
  cases w with
  | waiting => exact ⟨rfl, rfl⟩
  | considering | pushing => cases free
  | ended how =>
      cases how with
      | failed | cancelled => exact ⟨rfl, rfl⟩
      | stopped | cutOff => cases free

structure Conserved (dryRun : Bool) (log : List (Event Seed Task Job Future))
    (s : State Seed Task Job Future) : Prop where
  items : (log.filterMap Event.item? : Multiset (Option Task)) =
    log.filterMap Event.dealtWith? + s.enqueueJobs.items + s.listWorkers.filterMap ListWorker.item? +
    s.enqueueWorkers.filterMap EnqueueWorker.item?
  jobs : ((if dryRun then [] else log.filterMap Event.job? : List Job) : Multiset Job) =
    log.filterMap Event.pushed? + s.enqueueWorkers.filterMap EnqueueWorker.job?
  futures : s.futures = log.filterMap Event.future?

/-! ## One step -/

theorem ListSteps.jobless {i : Nat} {w : ListWorker Seed Task} {a : ListAction Task}
    (stepped : ListSteps s i w a t new) :
    new.filterMap Event.job? = [] ∧ new.filterMap Event.pushed? = [] ∧
      new.filterMap Event.future? = [] ∧ t.enqueueWorkers = s.enqueueWorkers ∧
      t.futures = s.futures := by
  cases stepped <;> exact ⟨rfl, rfl, rfl, rfl, rfl⟩

theorem EnqueueSteps.future {i : Nat} {w : EnqueueWorker Task Job} {a : EnqueueAction Job Future}
    (stepped : EnqueueSteps dryRun s i w a t new) :
    t.futures = s.futures ++ new.filterMap Event.future? := by
  cases stepped with
  | pushed => rfl
  | _ => exact (List.append_nil _).symm

section

variable (conserved : Conserved dryRun log s)
include conserved

theorem Conserved.list {i : Nat} {w : ListWorker Seed Task} {a : ListAction Task}
    (worker : s.listWorkers[i]? = some w) (idle : a = .cancelled → w.isBusy = false)
    (stepped : ListSteps s i w a t new) : Conserved dryRun (log ++ new) t := by
  obtain ⟨job, pushed, future, workers, futures⟩ := stepped.jobless
  obtain ⟨items, jobs, kept⟩ := conserved
  refine ⟨?_, ?_, ?_⟩
  · cases stepped with
    | takes =>
        simpa only [List.append_nil, filterMap_stays ListWorker.item? worker (.listing _) rfl]
          using items
    | stops =>
        simpa only [List.append_nil, filterMap_stays ListWorker.item? worker (.ended .stopped) rfl]
          using items
    | @yields seed item =>
        simp only [filterMap_snoc, Event.item?, Event.dealtWith?, Event.considered?, items,
          filterMap_gains ListWorker.item? worker (.putting seed item) rfl rfl]
        simp only [Option.map_none, Option.toList_none, Option.toList_some, Multiset.coe_nil]
        abel
    | exhausted =>
        simpa only [List.append_nil, filterMap_stays ListWorker.item? worker .waiting rfl] using items
    | raises =>
        simpa [List.filterMap_cons, Event.item?, Event.dealtWith?, Event.considered?,
          filterMap_stays ListWorker.item? worker (.ended .failed) rfl] using items
    | @puts seed item =>
        rw [filterMap_drops ListWorker.item? worker (.listing seed) rfl rfl] at items
        simp only [List.append_nil, items, ← Multiset.coe_add]
        abel
    | cancelled =>
        simpa only [List.append_nil, filterMap_stays ListWorker.item? worker (.ended .cancelled) rfl]
          using items
    | cutOff busy => simp [idle rfl] at busy
  · simpa only [List.filterMap_append, job, pushed, workers, List.append_nil] using jobs
  · rw [futures, kept, List.filterMap_append, future, List.append_nil]

variable {i : Nat} {w : EnqueueWorker Task Job} {a : EnqueueAction Job Future}
  (worker : s.enqueueWorkers[i]? = some w) (succeeds : a ≠ .raises)
  (free : a = .cancelled → w.isHolding = false) (stepped : EnqueueSteps dryRun s i w a t new)
include worker succeeds free stepped

theorem Conserved.enqueue_items : ((log ++ new).filterMap Event.item? : Multiset (Option Task)) =
    (log ++ new).filterMap Event.dealtWith? + t.enqueueJobs.items +
      t.listWorkers.filterMap ListWorker.item? + t.enqueueWorkers.filterMap EnqueueWorker.item? := by
  have items := conserved.items
  cases stepped with
  | @takes task rest first =>
      rw [coe_head first] at items
      simp only [List.append_nil, items,
        filterMap_gains EnqueueWorker.item? worker (.considering task) rfl rfl]
      abel
  | @stops rest first =>
      rw [coe_head first] at items
      simp only [List.append_nil, items,
        filterMap_gains EnqueueWorker.item? worker (.ended .stopped) rfl rfl]
      abel
  | @pushes task job wet =>
      rw [filterMap_drops EnqueueWorker.item? worker (.pushing job) rfl rfl] at items
      simp only [filterMap_snoc, Event.item?, Event.dealtWith?, Event.considered?, items]
      simp only [Option.map_some, Option.toList_none, Option.toList_some, Multiset.coe_nil]
      abel
  | @skips task job dry =>
      rw [filterMap_drops EnqueueWorker.item? worker .waiting rfl rfl] at items
      simp only [filterMap_snoc, Event.item?, Event.dealtWith?, Event.considered?, items,
        Queue.taskDone]
      simp only [Option.map_some, Option.toList_none, Option.toList_some, Multiset.coe_nil]
      abel
  | pushed =>
      simpa [List.filterMap_cons, Event.item?, Event.dealtWith?, Event.considered?,
        filterMap_stays EnqueueWorker.item? worker .waiting rfl, Queue.taskDone] using items
  | raises => contradiction
  | cancelled =>
      simpa only [List.append_nil,
        filterMap_stays EnqueueWorker.item? worker (.ended .cancelled) rfl] using items
  | cutOff busy => simp [EnqueueWorker.holding_of_busy busy] at free

theorem Conserved.enqueue_jobs :
    ((if dryRun then [] else (log ++ new).filterMap Event.job? : List Job) : Multiset Job) =
      (log ++ new).filterMap Event.pushed? + t.enqueueWorkers.filterMap EnqueueWorker.job? := by
  have jobs := conserved.jobs
  cases stepped with
  | @takes task rest first =>
      simpa only [List.append_nil,
        filterMap_stays EnqueueWorker.job? worker (.considering task) rfl] using jobs
  | stops =>
      simpa only [List.append_nil,
        filterMap_stays EnqueueWorker.job? worker (.ended .stopped) rfl] using jobs
  | @pushes task job wet =>
      subst wet
      simp only [Bool.false_eq_true, if_false] at jobs ⊢
      simp only [filterMap_snoc, Event.job?, Event.pushed?, jobs, Option.toList_none,
        filterMap_gains EnqueueWorker.job? worker (.pushing job) rfl rfl]
      simp only [Option.toList_some, Multiset.coe_nil]
      abel
  | @skips task job dry =>
      simp only [filterMap_stays EnqueueWorker.job? worker .waiting rfl]
      rcases dry with rfl | rfl
      · simpa [List.filterMap_cons, Event.pushed?] using jobs
      · simpa [List.filterMap_cons, Event.job?, Event.pushed?] using jobs
  | pushed =>
      rw [filterMap_drops EnqueueWorker.job? worker .waiting rfl rfl] at jobs
      simp only [filterMap_snoc, Event.pushed?, Option.toList_some]
      rw [List.filterMap_append, List.filterMap_cons_none rfl, List.filterMap_nil, List.append_nil, jobs]
      abel
  | raises => contradiction
  | cancelled =>
      simpa only [List.append_nil,
        filterMap_stays EnqueueWorker.job? worker (.ended .cancelled) rfl] using jobs
  | cutOff busy => simp [EnqueueWorker.holding_of_busy busy] at free

theorem Conserved.enqueue : Conserved dryRun (log ++ new) t :=
  ⟨conserved.enqueue_items worker succeeds free stepped,
    conserved.enqueue_jobs worker succeeds free stepped,
    by rw [stepped.future, conserved.futures, List.filterMap_append]⟩

end

theorem Conserved.step {a : Action Seed Task Job Future} (conserved : Conserved dryRun log s)
    (counted : Counted s) (phased : Phased s)
    (succeeds : ∀ i, a ≠ .enqueue i .raises) (stepped : Steps dryRun s a t new) :
    Conserved dryRun (log ++ new) t := by
  cases stepped with
  | main stepped =>
      rw [List.append_nil]
      cases stepped <;> exact ⟨conserved.items, conserved.jobs, conserved.futures⟩
  | list worker suits stepped =>
      apply conserved.list worker ?_ stepped
      rintro rfl
      exact counted.idle (phased.listed (.inr suits)) worker
  | @enqueue i _ _ _ _ worker suits stepped =>
      apply conserved.enqueue worker ?_ ?_ stepped
      · rintro rfl
        exact succeeds i rfl
      · rintro rfl
        exact counted.free (phased.drained suits) worker

/-! ## The whole run -/

theorem initial_conserved (l e : Nat) :
    Conserved dryRun [] (initial l e : State Seed Task Job Future) := by
  have listing : (List.replicate l (.waiting : ListWorker Seed Task)).filterMap ListWorker.item? = [] :=
    List.filterMap_replicate_of_none rfl
  have considering :
      (List.replicate e (.waiting : EnqueueWorker Task Job)).filterMap EnqueueWorker.item? = [] :=
    List.filterMap_replicate_of_none rfl
  have pushing : (List.replicate e (.waiting : EnqueueWorker Task Job)).filterMap EnqueueWorker.job? = [] :=
    List.filterMap_replicate_of_none rfl
  constructor <;> simp [initial, listing, considering, pushing]

/-- Once `batch_enqueue` has returned, nothing is under way any more. -/
theorem Conserved.returned (conserved : Conserved dryRun log s) (counted : Counted s)
    (phased : Phased s) (returned : s.main = .returned) :
    ((log.filterMap Event.considered?).map some).Perm (log.filterMap Event.item?) ∧
      (log.filterMap Event.pushed?).Perm (if dryRun then [] else log.filterMap Event.job?) := by
  have late := phased.collecting (.inr returned)
  obtain ⟨-, idle⟩ := counted.seeds_joined (phased.listed (.inr late))
  obtain ⟨noItems, free⟩ := counted.tasks_joined (phased.drained late)
  have listing : s.listWorkers.filterMap ListWorker.item? = [] :=
    filterMap_idle idle fun _ idle => ListWorker.no_item idle
  have considering : s.enqueueWorkers.filterMap EnqueueWorker.item? = [] :=
    filterMap_idle free fun _ free => (EnqueueWorker.empty_handed free).1
  have pushing : s.enqueueWorkers.filterMap EnqueueWorker.job? = [] :=
    filterMap_idle free fun _ free => (EnqueueWorker.empty_handed free).2
  have dealtWith : log.filterMap Event.dealtWith? = (log.filterMap Event.considered?).map some :=
    (List.map_filterMap ..).symm
  obtain ⟨items, jobs, -⟩ := conserved
  refine ⟨?_, ?_⟩
  · rw [noItems, listing, considering, dealtWith] at items
    simpa using items.symm
  · rw [pushing, Multiset.coe_nil, add_zero] at jobs
    exact Multiset.coe_eq_coe.mp jobs.symm

end JobQ.BatchEnqueue
