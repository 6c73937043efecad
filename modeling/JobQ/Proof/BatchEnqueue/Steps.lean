import JobQ.Library.Pool
import JobQ.Model.BatchEnqueue

/-!
# What one step of `batch_enqueue` can do

The inversion lemmas, with what each step emits, and what every run keeps: each queue counts as
unfinished the items in it and those in the hands of its workers, and no phase of the main coroutine
begins too early.
-/

namespace JobQ.BatchEnqueue
open Asyncio Pool

variable {Seed Task Job Future : Type} {dryRun : Bool} {s t : State Seed Task Job Future}
  {new : List (Event Seed Task Job Future)}

def ListWorker.isBusy : ListWorker Seed Task → Bool
  | .listing _ | .putting _ _ => true
  | _ => false

def EnqueueWorker.isBusy : EnqueueWorker Task Job → Bool
  | .considering _ | .pushing _ => true
  | _ => false

def EnqueueWorker.isHolding : EnqueueWorker Task Job → Bool
  | .ended .stopped | .ended .cutOff => true
  | w => w.isBusy

inductive MainSteps (s : State Seed Task Job Future) :
    Action Seed Task Job Future → State Seed Task Job Future → Prop
  | yields {seed : Option Seed} (main : s.main = .seeding) :
      MainSteps s (.seeds (.yields seed)) { s with main := .putting seed }
  | exhausted (main : s.main = .seeding) :
      MainSteps s (.seeds .exhausted) { s with main := .joinEnum }
  | raises (main : s.main = .seeding) : MainSteps s (.seeds .raises) { s with main := .raised }
  | puts {seed : Option Seed} (main : s.main = .putting seed) :
      MainSteps s .putSeed { s with main := .seeding, enumJobs := { s.enumJobs with
        items := s.enumJobs.items ++ [seed], unfinished := s.enumJobs.unfinished + 1 } }
  | listed (main : s.main = .joinEnum) (joined : s.enumJobs.unfinished = 0) :
      MainSteps s .joined { s with main := .joinEnqueue }
  | enqueued (main : s.main = .joinEnqueue) (joined : s.enqueueJobs.unfinished = 0) :
      MainSteps s .joined { s with main := .collecting, cancelled := true }
  | collectRaises (main : s.main = .collecting) :
      MainSteps s .collectRaises { s with main := .raised }
  | collected (main : s.main = .collecting) (unfailed : listFailed s = false) :
      MainSteps s .collected { s with main := .returned }

inductive ListSteps (s : State Seed Task Job Future) (i : Nat) : ListWorker Seed Task →
    ListAction Task → State Seed Task Job Future → List (Event Seed Task Job Future) → Prop
  | takes {seed : Seed} {rest : List (Option Seed)} (items : s.enumJobs.items = some seed :: rest) :
      ListSteps s i .waiting .take { s with
        enumJobs := { s.enumJobs with items := rest }
        listWorkers := s.listWorkers.set i (.listing seed) } []
  | stops {rest : List (Option Seed)} (items : s.enumJobs.items = none :: rest) :
      ListSteps s i .waiting .take { s with
        enumJobs := { s.enumJobs with items := rest, unfinished := s.enumJobs.unfinished - 1 }
        listWorkers := s.listWorkers.set i (.ended .stopped) } []
  | yields {seed : Seed} {item : Option Task} :
      ListSteps s i (.listing seed) (.lists (.yields item)) { s with
        listWorkers := s.listWorkers.set i (.putting seed item) } [.listed seed item]
  | exhausted {seed : Seed} : ListSteps s i (.listing seed) (.lists .exhausted) { s with
      enumJobs := s.enumJobs.taskDone, listWorkers := s.listWorkers.set i .waiting } []
  | raises {seed : Seed} : ListSteps s i (.listing seed) (.lists .raises) { s with
      enumJobs := s.enumJobs.taskDone
      listWorkers := s.listWorkers.set i (.ended .failed) } [.failed]
  | puts {seed : Seed} {item : Option Task} : ListSteps s i (.putting seed item) .put { s with
      enqueueJobs := { s.enqueueJobs with
        items := s.enqueueJobs.items ++ [item], unfinished := s.enqueueJobs.unfinished + 1 }
      listWorkers := s.listWorkers.set i (.listing seed) } []
  | cancelled : ListSteps s i .waiting .cancelled { s with
      listWorkers := s.listWorkers.set i (.ended .cancelled) } []
  | cutOff {w : ListWorker Seed Task} (busy : w.isBusy = true) : ListSteps s i w .cancelled { s with
      enumJobs := s.enumJobs.taskDone, listWorkers := s.listWorkers.set i (.ended .cutOff) } []

inductive EnqueueSteps (dryRun : Bool) (s : State Seed Task Job Future) (i : Nat) :
    EnqueueWorker Task Job → EnqueueAction Job Future → State Seed Task Job Future →
      List (Event Seed Task Job Future) → Prop
  | takes {task : Task} {rest : List (Option Task)} (items : s.enqueueJobs.items = some task :: rest) :
      EnqueueSteps dryRun s i .waiting .take { s with
        enqueueJobs := { s.enqueueJobs with items := rest }
        enqueueWorkers := s.enqueueWorkers.set i (.considering task) } []
  | stops {rest : List (Option Task)} (items : s.enqueueJobs.items = none :: rest) :
      EnqueueSteps dryRun s i .waiting .take { s with
        enqueueJobs := { s.enqueueJobs with items := rest }
        enqueueWorkers := s.enqueueWorkers.set i (.ended .stopped) } []
  | pushes {task : Task} {job : Job} (wet : dryRun = false) :
      EnqueueSteps dryRun s i (.considering task) (.considered (some job)) { s with
        enqueueWorkers := s.enqueueWorkers.set i (.pushing job) } [.considered task (some job)]
  | skips {task : Task} {job : Option Job} (dry : dryRun = true ∨ job = none) :
      EnqueueSteps dryRun s i (.considering task) (.considered job) { s with
        enqueueJobs := s.enqueueJobs.taskDone
        enqueueWorkers := s.enqueueWorkers.set i .waiting } [.considered task job]
  | pushed {job : Job} {future : Future} :
      EnqueueSteps dryRun s i (.pushing job) (.pushed future) { s with
        enqueueJobs := s.enqueueJobs.taskDone
        enqueueWorkers := s.enqueueWorkers.set i .waiting
        futures := s.futures ++ [future] } [.pushed job future]
  | raises {w : EnqueueWorker Task Job} (busy : w.isBusy = true) :
      EnqueueSteps dryRun s i w .raises { s with
        enqueueJobs := s.enqueueJobs.taskDone
        enqueueWorkers := s.enqueueWorkers.set i (.ended .failed) } [.failed]
  | cancelled : EnqueueSteps dryRun s i .waiting .cancelled { s with
      enqueueWorkers := s.enqueueWorkers.set i (.ended .cancelled) } []
  | cutOff {w : EnqueueWorker Task Job} (busy : w.isBusy = true) :
      EnqueueSteps dryRun s i w .cancelled { s with
        enqueueWorkers := s.enqueueWorkers.set i (.ended .cutOff) } []

inductive Steps (dryRun : Bool) (s : State Seed Task Job Future) : Action Seed Task Job Future →
    State Seed Task Job Future → List (Event Seed Task Job Future) → Prop
  | main {a : Action Seed Task Job Future} {t : State Seed Task Job Future}
      (stepped : MainSteps s a t) : Steps dryRun s a t []
  | list {i : Nat} {w : ListWorker Seed Task} {a : ListAction Task} {t : State Seed Task Job Future}
      {new : List (Event Seed Task Job Future)} (worker : s.listWorkers[i]? = some w)
      (suits : a.suits s.cancelled = true) (stepped : ListSteps s i w a t new) :
      Steps dryRun s (.list i a) t new
  | enqueue {i : Nat} {w : EnqueueWorker Task Job} {a : EnqueueAction Job Future}
      {t : State Seed Task Job Future} {new : List (Event Seed Task Job Future)}
      (worker : s.enqueueWorkers[i]? = some w) (suits : a.suits s.cancelled = true)
      (stepped : EnqueueSteps dryRun s i w a t new) : Steps dryRun s (.enqueue i a) t new

theorem stepList_cases {i : Nat} {w : ListWorker Seed Task} {a : ListAction Task}
    (action : stepList s i w a = some (t, new)) : ListSteps s i w a t new := by
  cases a with
  | take =>
      simp only [stepList] at action
      split at action
      · split at action <;> cases action
        · obtain ⟨rest, items, rfl⟩ := Queue.get_cases ‹_›
          exact .takes items
        · obtain ⟨rest, items, rfl⟩ := Queue.get_cases ‹_›
          exact .stops items
      · contradiction
  | lists next =>
      simp only [stepList] at action
      split at action
      · split at action <;> cases action
        · exact .yields
        · exact .exhausted
        · exact .raises
      · contradiction
  | put =>
      simp only [stepList] at action
      split at action
      · split at action <;> cases action
        obtain ⟨-, rfl⟩ := Queue.put_cases ‹_›
        exact .puts
      · contradiction
  | cancelled =>
      simp only [stepList] at action
      split at action <;> cases action
      · exact .cancelled
      · exact .cutOff rfl
      · exact .cutOff rfl

theorem stepEnqueue_cases {i : Nat} {w : EnqueueWorker Task Job} {a : EnqueueAction Job Future}
    (action : stepEnqueue dryRun s i w a = some (t, new)) : EnqueueSteps dryRun s i w a t new := by
  cases a with
  | take =>
      simp only [stepEnqueue] at action
      split at action
      · split at action <;> cases action
        · obtain ⟨rest, items, rfl⟩ := Queue.get_cases ‹_›
          exact .takes items
        · obtain ⟨rest, items, rfl⟩ := Queue.get_cases ‹_›
          exact .stops items
      · contradiction
  | considered job =>
      simp only [stepEnqueue] at action
      split at action
      · split at action <;> cases action
        · exact .pushes rfl
        · rename_i other
          refine .skips ?_
          cases job with
          | none => exact .inr rfl
          | some job =>
              left
              by_contra wet
              exact other job rfl (by simpa using wet)
      · contradiction
  | pushed future =>
      simp only [stepEnqueue] at action
      split at action <;> cases action
      exact .pushed
  | raises =>
      simp only [stepEnqueue] at action
      split at action <;> cases action
      · exact .raises rfl
      · exact .raises rfl
  | cancelled =>
      simp only [stepEnqueue] at action
      split at action <;> cases action
      · exact .cancelled
      · exact .cutOff rfl
      · exact .cutOff rfl

theorem step_cases {a : Action Seed Task Job Future} (action : step dryRun s a = some (t, new)) :
    Steps dryRun s a t new := by
  cases a with
  | seeds next =>
      simp only [step, stepSeeds] at action
      split at action <;> cases action
      · exact .main (.yields ‹_›)
      · exact .main (.exhausted ‹_›)
      · exact .main (.raises ‹_›)
  | putSeed =>
      simp only [step, stepPutSeed] at action
      split at action
      · split at action <;> cases action
        obtain ⟨-, rfl⟩ := Queue.put_cases ‹_›
        exact .main (.puts ‹_›)
      · contradiction
  | joined =>
      simp only [step, stepJoined] at action
      split at action
      · split at action <;> cases action
        rename_i joined
        exact .main (.listed ‹_› (by simpa [Queue.joined] using joined))
      · split at action <;> cases action
        rename_i joined
        exact .main (.enqueued ‹_› (by simpa [Queue.joined] using joined))
      · contradiction
  | collectRaises =>
      simp only [step, stepCollectRaises] at action
      split at action
      · split at action <;> cases action
        exact .main (.collectRaises ‹_›)
      · contradiction
  | collected =>
      simp only [step, stepCollected] at action
      split at action
      · split at action <;> cases action
        rename_i main ready
        exact .main (.collected main ready.2)
      · contradiction
  | list i a =>
      simp only [step] at action
      split at action
      · split at action
        · exact .list ‹_› ‹_› (stepList_cases action)
        · contradiction
      · contradiction
  | enqueue i a =>
      simp only [step] at action
      split at action
      · split at action
        · exact .enqueue ‹_› ‹_› (stepEnqueue_cases action)
        · contradiction
      · contradiction

/-! ## What every run keeps -/

structure Counted (s : State Seed Task Job Future) : Prop where
  seeds : s.enumJobs.unfinished =
    s.enumJobs.items.length + s.listWorkers.countP ListWorker.isBusy
  tasks : s.enqueueJobs.unfinished =
    s.enqueueJobs.items.length + s.enqueueWorkers.countP EnqueueWorker.isHolding

structure Phased (s : State Seed Task Job Future) : Prop where
  listed : s.main = .joinEnqueue ∨ s.cancelled = true → s.enumJobs.unfinished = 0
  drained : s.cancelled = true → s.enqueueJobs.unfinished = 0
  cancelled : s.cancelled = true → s.main = .collecting ∨ s.main = .returned ∨ s.main = .raised
  collecting : s.main = .collecting ∨ s.main = .returned → s.cancelled = true

theorem Counted.seeds_joined (counted : Counted s) (joined : s.enumJobs.unfinished = 0) :
    s.enumJobs.items = [] ∧ s.listWorkers.countP ListWorker.isBusy = 0 := by
  have seeds := counted.seeds
  exact ⟨List.length_eq_zero_iff.mp (by omega), by omega⟩

theorem Counted.tasks_joined (counted : Counted s) (joined : s.enqueueJobs.unfinished = 0) :
    s.enqueueJobs.items = [] ∧ s.enqueueWorkers.countP EnqueueWorker.isHolding = 0 := by
  have tasks := counted.tasks
  exact ⟨List.length_eq_zero_iff.mp (by omega), by omega⟩

theorem Counted.idle {i : Nat} {w : ListWorker Seed Task} (counted : Counted s)
    (joined : s.enumJobs.unfinished = 0) (worker : s.listWorkers[i]? = some w) :
    w.isBusy = false := by
  have none := List.countP_eq_zero.mp (counted.seeds_joined joined).2
  simpa using none w (List.mem_of_getElem? worker)

theorem Counted.free {i : Nat} {w : EnqueueWorker Task Job} (counted : Counted s)
    (joined : s.enqueueJobs.unfinished = 0) (worker : s.enqueueWorkers[i]? = some w) :
    w.isHolding = false := by
  have none := List.countP_eq_zero.mp (counted.tasks_joined joined).2
  simpa using none w (List.mem_of_getElem? worker)

theorem ListSteps.counted {i : Nat} {w : ListWorker Seed Task} {a : ListAction Task}
    (stepped : ListSteps s i w a t new) (worker : s.listWorkers[i]? = some w) (counted : Counted s) :
    Counted t := by
  obtain ⟨seeds, tasks⟩ := counted
  cases stepped with
  | takes items =>
      rw [items, List.length_cons] at seeds
      refine ⟨?_, tasks⟩
      rw [countP_gains worker rfl rfl, seeds]
      exact Nat.add_right_comm _ _ _
  | stops items =>
      rw [items, List.length_cons] at seeds
      have stayed := countP_stays (p := ListWorker.isBusy) (b := .ended .stopped) worker rfl
      refine ⟨?_, tasks⟩
      dsimp only
      omega
  | @yields seed item =>
      have stayed := countP_stays (p := ListWorker.isBusy) (b := .putting seed item) worker rfl
      exact ⟨seeds.trans (by rw [stayed]), tasks⟩
  | exhausted =>
      have dropped := countP_drops (p := ListWorker.isBusy) (b := .waiting) worker rfl rfl
      refine ⟨?_, tasks⟩
      dsimp only [Queue.taskDone]
      omega
  | raises =>
      have dropped := countP_drops (p := ListWorker.isBusy) (b := .ended .failed) worker rfl rfl
      refine ⟨?_, tasks⟩
      dsimp only [Queue.taskDone]
      omega
  | @puts seed item =>
      have stayed := countP_stays (p := ListWorker.isBusy) (b := .listing seed) worker rfl
      refine ⟨seeds.trans (by rw [stayed]), ?_⟩
      rw [List.length_append, tasks]
      exact Nat.add_right_comm _ _ _
  | cancelled =>
      have stayed := countP_stays (p := ListWorker.isBusy) (b := .ended .cancelled) worker rfl
      exact ⟨seeds.trans (by rw [stayed]), tasks⟩
  | cutOff busy =>
      have dropped := countP_drops (b := .ended .cutOff) worker busy rfl
      refine ⟨?_, tasks⟩
      dsimp only [Queue.taskDone]
      omega

theorem EnqueueWorker.holding_of_busy {w : EnqueueWorker Task Job} (busy : w.isBusy = true) :
    w.isHolding = true := by
  cases w with
  | waiting => cases busy
  | considering => rfl
  | pushing => rfl
  | ended => cases busy

theorem EnqueueSteps.counted {i : Nat} {w : EnqueueWorker Task Job} {a : EnqueueAction Job Future}
    (stepped : EnqueueSteps dryRun s i w a t new) (worker : s.enqueueWorkers[i]? = some w)
    (counted : Counted s) : Counted t := by
  obtain ⟨seeds, tasks⟩ := counted
  refine ⟨?_, ?_⟩
  · cases stepped <;> exact seeds
  cases stepped with
  | takes items =>
      rw [items, List.length_cons] at tasks
      rw [countP_gains worker rfl rfl, tasks]
      exact Nat.add_right_comm _ _ _
  | stops items =>
      rw [items, List.length_cons] at tasks
      rw [countP_gains worker rfl rfl, tasks]
      exact Nat.add_right_comm _ _ _
  | @pushes task job =>
      have stayed := countP_stays (p := EnqueueWorker.isHolding) (b := .pushing job) worker rfl
      exact tasks.trans (by rw [stayed])
  | skips =>
      have dropped := countP_drops (p := EnqueueWorker.isHolding) (b := .waiting) worker rfl rfl
      dsimp only [Queue.taskDone]
      omega
  | pushed =>
      have dropped := countP_drops (p := EnqueueWorker.isHolding) (b := .waiting) worker rfl rfl
      dsimp only [Queue.taskDone]
      omega
  | raises busy =>
      have holding := EnqueueWorker.holding_of_busy busy
      have dropped := countP_drops (b := .ended .failed) worker holding rfl
      dsimp only [Queue.taskDone]
      omega
  | cancelled =>
      have stayed := countP_stays (p := EnqueueWorker.isHolding) (b := .ended .cancelled) worker rfl
      exact tasks.trans (by rw [stayed])
  | cutOff busy =>
      have stayed := countP_stays (b := .ended .cutOff) worker (EnqueueWorker.holding_of_busy busy)
      exact tasks.trans (by rw [stayed])

theorem Counted.step {a : Action Seed Task Job Future} (counted : Counted s)
    (stepped : Steps dryRun s a t new) : Counted t := by
  cases stepped with
  | list worker _ stepped => exact stepped.counted worker counted
  | enqueue worker _ stepped => exact stepped.counted worker counted
  | main stepped =>
      obtain ⟨seeds, tasks⟩ := counted
      cases stepped with
      | puts =>
          refine ⟨?_, tasks⟩
          rw [List.length_append, seeds]
          exact Nat.add_right_comm _ _ _
      | _ => exact ⟨seeds, tasks⟩

theorem MainSteps.phased {a : Action Seed Task Job Future} (stepped : MainSteps s a t)
    (phased : Phased s) : Phased t := by
  have early (notLate : s.main ≠ .collecting ∧ s.main ≠ .returned ∧ s.main ≠ .raised) :
      s.cancelled ≠ true := by
    intro late
    rcases phased.cancelled late with main | main | main
    · exact notLate.1 main
    · exact notLate.2.1 main
    · exact notLate.2.2 main
  cases stepped with
  | yields main =>
      have early := early (by simp [main])
      exact ⟨by simp [early], phased.drained, by simp [early], by simp⟩
  | exhausted main =>
      have early := early (by simp [main])
      exact ⟨by simp [early], phased.drained, by simp [early], by simp⟩
  | raises main =>
      have early := early (by simp [main])
      exact ⟨by simp [early], phased.drained, by simp, by simp⟩
  | puts main =>
      have early := early (by simp [main])
      exact ⟨by simp [early], phased.drained, by simp [early], by simp⟩
  | listed main joined =>
      have early := early (by simp [main])
      exact ⟨fun _ => joined, phased.drained, by simp [early], by simp⟩
  | enqueued main joined =>
      exact ⟨fun _ => phased.listed (.inl main), fun _ => joined, by simp, by simp⟩
  | collectRaises main =>
      have late := phased.collecting (.inl main)
      exact ⟨fun _ => phased.listed (.inr late), phased.drained, by simp, by simp⟩
  | collected main =>
      have late := phased.collecting (.inl main)
      exact ⟨fun _ => phased.listed (.inr late), phased.drained, by simp, fun _ => late⟩

theorem Phased.step {a : Action Seed Task Job Future} (phased : Phased s)
    (stepped : Steps dryRun s a t new) : Phased t := by
  obtain ⟨listed, drained, cancelled, collecting⟩ := phased
  cases stepped with
  | main stepped => exact stepped.phased ⟨listed, drained, cancelled, collecting⟩
  | list _ suits stepped =>
      -- nothing counts as unfinished any more once the seeds are joined
      have done (joined : s.main = .joinEnqueue ∨ s.cancelled = true) :
          s.enumJobs.unfinished - 1 = 0 := by rw [listed joined]
      cases stepped with
      | stops => exact ⟨done, drained, cancelled, collecting⟩
      | exhausted => exact ⟨done, drained, cancelled, collecting⟩
      | raises => exact ⟨done, drained, cancelled, collecting⟩
      | cutOff => exact ⟨done, drained, cancelled, collecting⟩
      | puts =>
          have early : s.cancelled = false := by simpa [ListAction.suits] using suits
          exact ⟨listed, by simp [early], cancelled, collecting⟩
      | _ => exact ⟨listed, drained, cancelled, collecting⟩
  | enqueue _ suits stepped =>
      have done (late : s.cancelled = true) : s.enqueueJobs.unfinished - 1 = 0 := by
        rw [drained late]
      cases stepped with
      | skips => exact ⟨listed, done, cancelled, collecting⟩
      | pushed => exact ⟨listed, done, cancelled, collecting⟩
      | raises => exact ⟨listed, done, cancelled, collecting⟩
      | _ => exact ⟨listed, drained, cancelled, collecting⟩

theorem initial_counted (l e : Nat) : Counted (initial l e : State Seed Task Job Future) := by
  constructor <;> simp [initial, List.countP_replicate, ListWorker.isBusy, EnqueueWorker.isHolding,
    EnqueueWorker.isBusy]

theorem initial_phased (l e : Nat) : Phased (initial l e : State Seed Task Job Future) := by
  constructor <;> simp [initial]

theorem run_counted {G : State Seed Task Job Future → Action Seed Task Job Future → Prop} {l e : Nat}
    {log : List (Event Seed Task Job Future)}
    (run : Mealy.Run (machine dryRun) G (initial l e, []) log s) : Counted s ∧ Phased s :=
  run.state_invariant (P := fun s => Counted s ∧ Phased s) ⟨initial_counted l e, initial_phased l e⟩
    fun _ _ _ _ kept _ action =>
      ⟨kept.1.step (step_cases action), kept.2.step (step_cases action)⟩

end JobQ.BatchEnqueue
