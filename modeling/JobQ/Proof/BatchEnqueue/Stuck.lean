import JobQ.Proof.BatchEnqueue.Steps

/-!
# Whether `batch_enqueue` gets stuck

A worker leaves its loop on an exception, and nobody takes its place. While each pool with items
waiting for it has a member left, and no `None` is taken for a task, some step is always enabled.
Once this is broken, the counts never come down to zero and `batch_enqueue` does not return.
-/

namespace JobQ.BatchEnqueue
open Asyncio

def Alive {α : Type} (ended : α → Bool) (pool : List α) : Prop :=
  ∃ (i : Nat) (w : α), pool[i]? = some w ∧ ended w = false

def AliveBut {α : Type} (ended : α → Bool) (pool : List α) (i : Nat) : Prop :=
  ∃ (j : Nat) (w : α), j ≠ i ∧ pool[j]? = some w ∧ ended w = false

variable {Seed Task Job Future : Type} {dryRun : Bool} {s t : State Seed Task Job Future}
  {new : List (Event Seed Task Job Future)}

def Main.isBlocked : Main Seed → Bool
  | .putting _ | .joinEnum | .joinEnqueue => true
  | _ => false

/-- The main coroutine is blocked, and neither it nor any worker can do a step. -/
def Stuck (dryRun : Bool) (s : State Seed Task Job Future) : Prop :=
  s.main.isBlocked = true ∧ ∀ a, step dryRun s a = none

/-- The step leaves no items to a pool without members, and takes no `None` for a task. -/
def Attends (s : State Seed Task Job Future) : Action Seed Task Job Future → Prop
  | .putSeed => Alive ListWorker.isEnded s.listWorkers
  | .list i .take => ∀ rest, s.enumJobs.items = none :: rest →
      rest = [] ∨ AliveBut ListWorker.isEnded s.listWorkers i
  | .list i (.lists .raises) =>
      s.enumJobs.items = [] ∨ AliveBut ListWorker.isEnded s.listWorkers i
  | .list _ .put => Alive EnqueueWorker.isEnded s.enqueueWorkers
  | .enqueue _ .take => ∀ rest, s.enqueueJobs.items ≠ none :: rest
  | .enqueue i .raises =>
      s.enqueueJobs.items = [] ∨ AliveBut EnqueueWorker.isEnded s.enqueueWorkers i
  | _ => True

instance {α : Type} (ended : α → Bool) (pool : List α) : Decidable (Alive ended pool) :=
  decidable_of_iff (∃ w ∈ pool, ended w = false) (by
    simp only [Alive, List.mem_iff_getElem?]
    tauto)

instance {α : Type} (ended : α → Bool) (pool : List α) (i : Nat) :
    Decidable (AliveBut ended pool i) :=
  decidable_of_iff (∃ j : Fin pool.length, j.val ≠ i ∧ ended pool[j] = false) (by
    constructor
    · rintro ⟨j, other, lives⟩
      exact ⟨j, pool[j], other, List.getElem?_eq_getElem j.isLt, lives⟩
    · rintro ⟨j, w, other, stored, lives⟩
      obtain ⟨short, rfl⟩ := List.getElem?_eq_some_iff.mp stored
      exact ⟨⟨j, short⟩, other, lives⟩)

instance (s : State Seed Task Job Future) (a : Action Seed Task Job Future) :
    Decidable (Attends s a) :=
  match a with
  | .putSeed => inferInstanceAs (Decidable (Alive ..))
  | .list i .take =>
    match items : s.enumJobs.items with
    | none :: rest => decidable_of_iff (rest = [] ∨ AliveBut ListWorker.isEnded s.listWorkers i)
        (by simp [Attends, items])
    | [] | some _ :: _ => isTrue (by simp [Attends, items])
  | .list i (.lists .raises) => inferInstanceAs (Decidable (_ ∨ AliveBut ..))
  | .list _ .put => inferInstanceAs (Decidable (Alive ..))
  | .enqueue _ .take =>
    match items : s.enqueueJobs.items with
    | none :: _ => isFalse (by simp [Attends, items])
    | [] | some _ :: _ => isTrue (by simp [Attends, items])
  | .enqueue i .raises => inferInstanceAs (Decidable (_ ∨ AliveBut ..))
  | .seeds _ | .joined | .collectRaises | .collected | .list _ (.lists (.yields _))
  | .list _ (.lists .exhausted) | .list _ .cancelled | .enqueue _ (.considered _)
  | .enqueue _ (.pushed _) | .enqueue _ .cancelled => isTrue trivial

structure Attended (s : State Seed Task Job Future) : Prop where
  seeds : s.enumJobs.items ≠ [] → Alive ListWorker.isEnded s.listWorkers
  tasks : s.enqueueJobs.items ≠ [] → Alive EnqueueWorker.isEnded s.enqueueWorkers
  held : s.cancelled = false → ∀ w ∈ s.enqueueWorkers, w.isHolding = true → w.isBusy = true

section

variable {α : Type} {ended : α → Bool} {pool : List α} {i : Nat} {w v : α}

theorem alive_set (stored : pool[i]? = some w) (lives : ended v = false) :
    Alive ended (pool.set i v) :=
  ⟨i, v, by simp [(List.getElem?_eq_some_iff.mp stored).1], lives⟩

theorem AliveBut.set (others : AliveBut ended pool i) : Alive ended (pool.set i v) := by
  obtain ⟨j, w, other, stored, lives⟩ := others
  exact ⟨j, w, by rw [List.getElem?_set_ne (Ne.symm other), stored], lives⟩

end

/-! ## Attended runs -/

theorem Attended.list {i : Nat} {w : ListWorker Seed Task} {a : ListAction Task}
    (attended : Attended s) (counted : Counted s) (phased : Phased s)
    (worker : s.listWorkers[i]? = some w) (suits : a.suits s.cancelled = true)
    (attends : Attends s (.list i a)) (stepped : ListSteps s i w a t new) : Attended t := by
  obtain ⟨seeds, tasks, held⟩ := attended
  have joined (late : s.cancelled = true) : s.enumJobs.items = [] :=
    (counted.seeds_joined (phased.listed (.inr late))).1
  cases stepped with
  | takes => exact ⟨fun _ => alive_set worker rfl, tasks, held⟩
  | stops items =>
      refine ⟨fun left => ?_, tasks, held⟩
      rcases attends _ items with empty | others
      · exact absurd empty left
      · exact others.set
  | yields => exact ⟨fun _ => alive_set worker rfl, tasks, held⟩
  | exhausted => exact ⟨fun _ => alive_set worker rfl, tasks, held⟩
  | raises =>
      refine ⟨fun left => ?_, tasks, held⟩
      rcases attends with empty | others
      · exact absurd empty left
      · exact others.set
  | puts => exact ⟨fun _ => alive_set worker rfl, fun _ => attends, held⟩
  | cancelled => exact ⟨fun left => absurd (joined suits) left, tasks, held⟩
  | cutOff => exact ⟨fun left => absurd (joined suits) left, tasks, held⟩

theorem Attended.enqueue {i : Nat} {w : EnqueueWorker Task Job} {a : EnqueueAction Job Future}
    (attended : Attended s) (counted : Counted s) (phased : Phased s)
    (worker : s.enqueueWorkers[i]? = some w) (suits : a.suits s.cancelled = true)
    (attends : Attends s (.enqueue i a))
    (stepped : EnqueueSteps dryRun s i w a t new) : Attended t := by
  obtain ⟨seeds, tasks, held⟩ := attended
  have joined (late : s.cancelled = true) : s.enqueueJobs.items = [] :=
    (counted.tasks_joined (phased.drained late)).1
  have holding {v : EnqueueWorker Task Job} (busy : v.isHolding = true → v.isBusy = true)
      (early : s.cancelled = false) :
      ∀ w ∈ s.enqueueWorkers.set i v, w.isHolding = true → w.isBusy = true := by
    intro w member
    rcases List.mem_or_eq_of_mem_set member with old | rfl
    · exact held early w old
    · exact busy
  cases stepped with
  | takes => exact ⟨seeds, fun _ => alive_set worker rfl, holding fun _ => rfl⟩
  | stops items => exact absurd items (attends _)
  | pushes => exact ⟨seeds, fun _ => alive_set worker rfl, holding fun _ => rfl⟩
  | skips => exact ⟨seeds, fun _ => alive_set worker rfl, holding (by simp [EnqueueWorker.isHolding, EnqueueWorker.isBusy])⟩
  | pushed => exact ⟨seeds, fun _ => alive_set worker rfl, holding (by simp [EnqueueWorker.isHolding, EnqueueWorker.isBusy])⟩
  | raises =>
      refine ⟨seeds, fun left => ?_, holding (by simp [EnqueueWorker.isHolding, EnqueueWorker.isBusy])⟩
      rcases attends with empty | others
      · exact absurd empty left
      · exact others.set
  | cancelled =>
      have late : s.cancelled = true := suits
      exact ⟨seeds, fun left => absurd (joined late) left, by simp [late]⟩
  | cutOff =>
      have late : s.cancelled = true := suits
      exact ⟨seeds, fun left => absurd (joined late) left, by simp [late]⟩

theorem Attended.step {a : Action Seed Task Job Future} (attended : Attended s)
    (counted : Counted s) (phased : Phased s) (attends : Attends s a) (stepped : Steps dryRun s a t new) :
    Attended t := by
  cases stepped with
  | list worker suits stepped => exact attended.list counted phased worker suits attends stepped
  | enqueue worker suits stepped => exact attended.enqueue counted phased worker suits attends stepped
  | main stepped =>
      obtain ⟨seeds, tasks, held⟩ := attended
      cases stepped with
      | puts => exact ⟨fun _ => attends, tasks, held⟩
      | enqueued => exact ⟨seeds, tasks, by simp⟩
      | _ => exact ⟨seeds, tasks, held⟩

theorem initial_attended (l e : Nat) : Attended (initial l e : State Seed Task Job Future) := by
  refine ⟨by simp [initial], by simp [initial], fun _ w member => ?_⟩
  rw [(List.mem_replicate.mp member).2]
  exact id

theorem run_attended {l e : Nat} {log : List (Event Seed Task Job Future)}
    (run : Mealy.Run (machine dryRun) Attends (initial l e, []) log s) : Attended s := by
  have all : Attended s ∧ Counted s ∧ Phased s := by
    apply run.state_invariant (P := fun s => Attended s ∧ Counted s ∧ Phased s)
    · exact ⟨initial_attended l e, initial_counted l e, initial_phased l e⟩
    · rintro s a t new ⟨attended, counted, phased⟩ attends action
      have stepped := step_cases action
      exact ⟨attended.step counted phased attends stepped, counted.step stepped,
        phased.step stepped⟩
  exact all.1

/-! ## What is enabled -/

section

variable (early : s.cancelled = false)
include early

theorem list_enabled {i : Nat} {w : ListWorker Seed Task} (worker : s.listWorkers[i]? = some w)
    (room : s.enqueueJobs.items = [])
    (ready : w.isBusy = true ∨ w.isEnded = false ∧ s.enumJobs.items ≠ []) :
    ∃ a, step dryRun s (.list i a) ≠ none := by
  cases w with
  | waiting =>
      refine ⟨.take, fun waits => ?_⟩
      have left : s.enumJobs.items ≠ [] := by
        rcases ready with busy | ⟨-, left⟩
        · cases busy
        · exact left
      simp only [step, worker, ListAction.suits, early, stepList] at waits
      split at waits
      · split at waits <;> try contradiction
        exact left (Queue.get_none ‹_›)
      · contradiction
  | listing => exact ⟨.lists .exhausted, by simp [step, worker, ListAction.suits, early, stepList]⟩
  | putting seed item =>
      refine ⟨.put, fun waits => ?_⟩
      simp only [step, worker, ListAction.suits, early, stepList] at waits
      split at waits
      · split at waits
        · contradiction
        · exact Queue.put_none ‹_› room
      · contradiction
  | ended =>
      rcases ready with busy | ⟨lives, -⟩
      · cases busy
      · cases lives

theorem enqueue_enabled {i : Nat} {w : EnqueueWorker Task Job}
    (worker : s.enqueueWorkers[i]? = some w)
    (ready : w.isBusy = true ∨ w.isEnded = false ∧ s.enqueueJobs.items ≠ []) :
    ∃ a, step dryRun s (.enqueue i a) ≠ none := by
  cases w with
  | waiting =>
      refine ⟨.take, fun waits => ?_⟩
      have left : s.enqueueJobs.items ≠ [] := by
        rcases ready with busy | ⟨-, left⟩
        · cases busy
        · exact left
      simp only [step, worker, EnqueueAction.suits, early, stepEnqueue] at waits
      split at waits
      · split at waits <;> try contradiction
        exact left (Queue.get_none ‹_›)
      · contradiction
  | considering => exact ⟨.raises, by simp [step, worker, EnqueueAction.suits, early, stepEnqueue]⟩
  | pushing => exact ⟨.raises, by simp [step, worker, EnqueueAction.suits, early, stepEnqueue]⟩
  | ended =>
      rcases ready with busy | ⟨lives, -⟩
      · cases busy
      · cases lives

end

theorem idle_count {α : Type} {p : α → Bool} {pool : List α} {items unfinished : Nat}
    (count : unfinished = items + pool.countP p) (empty : items = 0)
    (idle : ∀ w ∈ pool, p w = false) : unfinished = 0 := by
  have none : pool.countP p = 0 := by
    rw [List.countP_eq_zero]
    intro w member
    simp [idle w member]
  omega

theorem main_enabled (blocked : s.main.isBlocked = true) (room : s.enumJobs.items = [])
    (seedsDone : s.enumJobs.unfinished = 0) (tasksDone : s.enqueueJobs.unfinished = 0) :
    ∃ a, step dryRun s a ≠ none := by
  cases main : s.main with
  | putting seed =>
      refine ⟨.putSeed, ?_⟩
      simp only [step, stepPutSeed, main]
      split
      · simp
      · exact absurd room (Queue.put_none ‹_›)
  | joinEnum =>
      refine ⟨.joined, ?_⟩
      simp [step, stepJoined, main, Queue.joined, seedsDone]
  | joinEnqueue =>
      refine ⟨.joined, ?_⟩
      simp [step, stepJoined, main, Queue.joined, tasksDone]
  | _ => simp [main, Main.isBlocked] at blocked

theorem Attended.not_stuck (attended : Attended s) (counted : Counted s) (phased : Phased s) :
    ¬ Stuck dryRun s := by
  rintro ⟨blocked, disabled⟩
  have early : s.cancelled = false := by
    by_contra late
    rcases phased.cancelled (by simpa using late) with main | main | main <;>
      simp [main, Main.isBlocked] at blocked
  have enqueueIdle {i : Nat} {w : EnqueueWorker Task Job} (worker : s.enqueueWorkers[i]? = some w) :
      ¬ (w.isBusy = true ∨ w.isEnded = false ∧ s.enqueueJobs.items ≠ []) := by
    intro ready
    obtain ⟨a, enabled⟩ : ∃ a, BatchEnqueue.step dryRun s (.enqueue i a) ≠ none :=
      enqueue_enabled early worker ready
    exact enabled (disabled _)
  have room : s.enqueueJobs.items = [] := by
    by_contra left
    obtain ⟨i, w, worker, lives⟩ := attended.tasks left
    exact enqueueIdle worker (.inr ⟨lives, left⟩)
  have listIdle {i : Nat} {w : ListWorker Seed Task} (worker : s.listWorkers[i]? = some w) :
      ¬ (w.isBusy = true ∨ w.isEnded = false ∧ s.enumJobs.items ≠ []) := by
    intro ready
    obtain ⟨a, enabled⟩ : ∃ a, BatchEnqueue.step dryRun s (.list i a) ≠ none :=
      list_enabled early worker room ready
    exact enabled (disabled _)
  have listed : s.enumJobs.items = [] := by
    by_contra left
    obtain ⟨i, w, worker, lives⟩ := attended.seeds left
    exact listIdle worker (.inr ⟨lives, left⟩)
  have seedsDone : s.enumJobs.unfinished = 0 := by
    apply idle_count counted.seeds (by simp [listed])
    intro w member
    obtain ⟨i, worker⟩ := List.mem_iff_getElem?.mp member
    by_contra busy
    exact listIdle worker (.inl (by simpa using busy))
  have tasksDone : s.enqueueJobs.unfinished = 0 := by
    apply idle_count counted.tasks (by simp [room])
    intro w member
    obtain ⟨i, worker⟩ := List.mem_iff_getElem?.mp member
    by_contra holding
    exact enqueueIdle worker (.inl (attended.held early w member (by simpa using holding)))
  obtain ⟨a, enabled⟩ : ∃ a, BatchEnqueue.step dryRun s a ≠ none :=
    main_enabled blocked listed seedsDone tasksDone
  exact enabled (disabled a)

/-! ## What is lost for good -/

inductive Doomed (s : State Seed Task Job Future) : Prop
  | seeds (left : s.enumJobs.items ≠ []) (dead : ¬ Alive ListWorker.isEnded s.listWorkers)
  | tasks (left : s.enqueueJobs.items ≠ []) (dead : ¬ Alive EnqueueWorker.isEnded s.enqueueWorkers)
  | taken (held : .ended .stopped ∈ s.enqueueWorkers)

theorem dead_set {α : Type} {ended : α → Bool} {pool : List α} {i : Nat} {w : α}
    (dead : ¬ AliveBut ended pool i) (gone : ended w = true) : ¬ Alive ended (pool.set i w) := by
  rintro ⟨j, v, stored, lives⟩
  rcases Pool.set_cases stored with ⟨-, rfl⟩ | ⟨other, before⟩
  · simp [gone] at lives
  · exact dead ⟨j, v, other, before, lives⟩

theorem doomed_of_unattended {a : Action Seed Task Job Future} (stepped : Steps dryRun s a t new)
    (phased : Phased s) (unattended : ¬ Attends s a) : Doomed t ∧ t.cancelled = false := by
  cases stepped with
  | main stepped =>
      cases stepped with
      | puts main =>
          refine ⟨.seeds (by simp) unattended, ?_⟩
          by_contra late
          rcases phased.cancelled (by simpa using late) with other | other | other <;>
            simp [main] at other
      | _ => exact absurd trivial unattended
  | @list i _ a _ _ worker suits stepped =>
      have early (kept : a.suits s.cancelled = !s.cancelled) : s.cancelled = false := by
        simpa [kept] using suits
      cases stepped with
      | takes items => exact absurd (fun rest other => by simp [items] at other) unattended
      | @stops rest items =>
          have left : ¬ (rest = [] ∨ AliveBut ListWorker.isEnded s.listWorkers i) := by
            refine fun kept => unattended fun other same => ?_
            rw [items] at same
            cases same
            exact kept
          exact ⟨.seeds (not_or.mp left).1 (dead_set (not_or.mp left).2 rfl), early rfl⟩
      | raises =>
          obtain ⟨left, dead⟩ := not_or.mp unattended
          exact ⟨.seeds left (dead_set dead rfl), early rfl⟩
      | puts => exact ⟨.tasks (by simp) unattended, early rfl⟩
      | _ => exact absurd trivial unattended
  | @enqueue i _ a _ _ worker suits stepped =>
      have early (kept : a.suits s.cancelled = !s.cancelled) : s.cancelled = false := by
        simpa [kept] using suits
      cases stepped with
      | takes items => exact absurd (fun rest other => by simp [items] at other) unattended
      | stops =>
          obtain ⟨bound, -⟩ := List.getElem?_eq_some_iff.mp worker
          exact ⟨.taken (List.mem_set bound _), early rfl⟩
      | raises =>
          obtain ⟨left, dead⟩ := not_or.mp unattended
          exact ⟨.tasks left (dead_set dead rfl), early rfl⟩
      | _ => exact absurd trivial unattended

theorem mem_set_of_ne {α : Type} {pool : List α} {i : Nat} {w x v : α} (member : x ∈ pool)
    (stored : pool[i]? = some w) (other : w ≠ x) : x ∈ pool.set i v := by
  obtain ⟨j, found⟩ := List.mem_iff_getElem?.mp member
  have distinct : i ≠ j := by
    rintro rfl
    rw [stored] at found
    cases found
    exact other rfl
  exact List.mem_iff_getElem?.mpr ⟨j, by rw [List.getElem?_set_ne distinct, found]⟩

theorem Doomed.unfinished (doomed : Doomed s) (counted : Counted s) :
    0 < s.enumJobs.unfinished ∨ 0 < s.enqueueJobs.unfinished := by
  obtain ⟨seeds, tasks⟩ := counted
  cases doomed with
  | seeds left =>
      have positive := List.length_pos_iff.mpr left
      omega
  | tasks left =>
      have positive := List.length_pos_iff.mpr left
      omega
  | taken held =>
      have positive : 0 < s.enqueueWorkers.countP EnqueueWorker.isHolding :=
        List.countP_pos_iff.mpr ⟨_, held, rfl⟩
      omega

theorem Doomed.main {a : Action Seed Task Job Future} (doomed : Doomed s)
    (early : s.cancelled = false) (counted : Counted s) (phased : Phased s)
    (stepped : MainSteps s a t) : Doomed t ∧ t.cancelled = false := by
  have kept {main : Main Seed} : Doomed { s with main := main } := by
    cases doomed with
    | seeds left dead => exact .seeds left dead
    | tasks left dead => exact .tasks left dead
    | taken held => exact .taken held
  cases stepped with
  | yields => exact ⟨kept, early⟩
  | exhausted => exact ⟨kept, early⟩
  | raises => exact ⟨kept, early⟩
  | puts =>
      refine ⟨?_, early⟩
      cases doomed with
      | seeds left dead => exact .seeds (by simp) dead
      | tasks left dead => exact .tasks left dead
      | taken held => exact .taken held
  | listed => exact ⟨kept, early⟩
  | enqueued main joined =>
      have listed := phased.listed (.inl main)
      rcases doomed.unfinished counted with positive | positive <;> omega
  | collectRaises main => simp [phased.collecting (.inl main)] at early
  | collected main => simp [phased.collecting (.inl main)] at early

theorem ListSteps.lives {i : Nat} {w : ListWorker Seed Task} {a : ListAction Task}
    (stepped : ListSteps s i w a t new) : w.isEnded = false := by
  cases stepped with
  | cutOff busy => cases w <;> first | rfl | cases busy
  | _ => rfl

theorem EnqueueSteps.lives {i : Nat} {w : EnqueueWorker Task Job} {a : EnqueueAction Job Future}
    (stepped : EnqueueSteps dryRun s i w a t new) : w.isEnded = false := by
  cases stepped with
  | raises busy => cases w <;> first | rfl | cases busy
  | cutOff busy => cases w <;> first | rfl | cases busy
  | _ => rfl

theorem Doomed.step {a : Action Seed Task Job Future} (doomed : Doomed s)
    (early : s.cancelled = false) (counted : Counted s) (phased : Phased s)
    (stepped : Steps dryRun s a t new) : Doomed t ∧ t.cancelled = false := by
  cases stepped with
  | main stepped => exact doomed.main early counted phased stepped
  | @list i w _ _ _ worker suits stepped =>
      cases doomed with
      | seeds left dead => exact absurd ⟨i, w, worker, stepped.lives⟩ dead
      | tasks left dead =>
          cases stepped with
          | puts => exact ⟨.tasks (by simp) dead, early⟩
          | _ => exact ⟨.tasks left dead, early⟩
      | taken held => cases stepped <;> exact ⟨.taken held, early⟩
  | @enqueue i w _ _ _ worker suits stepped =>
      cases doomed with
      | seeds left dead => cases stepped <;> exact ⟨.seeds left dead, early⟩
      | tasks left dead => exact absurd ⟨i, w, worker, stepped.lives⟩ dead
      | taken held =>
          have other : w ≠ .ended .stopped := by
            rintro rfl
            cases stepped.lives
          have kept {v : EnqueueWorker Task Job} : .ended .stopped ∈ s.enqueueWorkers.set i v :=
            mem_set_of_ne held worker other
          cases stepped <;> exact ⟨.taken kept, early⟩

/-- As long as every step attends to the items, `batch_enqueue` is not stuck. After a step that
does not, it never returns. -/
theorem batch_enqueue_stuck {l e : Nat} {log : List (Event Seed Task Job Future)}
    (run : Mealy.Run (machine dryRun) Attends (initial l e, []) log s) :
    ¬ Stuck dryRun s ∧ ∀ a t new, step dryRun s a = some (t, new) → ¬ Attends s a →
      ∀ later u, Mealy.Run (machine dryRun) Mealy.always (t, log ++ new) later u →
        u.main ≠ .returned := by
  obtain ⟨counted, phased⟩ := run_counted run
  refine ⟨(run_attended run).not_stuck counted phased, ?_⟩
  intro a t new action unattended later u rest
  have stepped := step_cases action
  obtain ⟨doomed, early⟩ := doomed_of_unattended stepped phased unattended
  have all : Doomed u ∧ u.cancelled = false ∧ Counted u ∧ Phased u := by
    apply rest.state_invariant
      (P := fun u => Doomed u ∧ u.cancelled = false ∧ Counted u ∧ Phased u)
    · exact ⟨doomed, early, counted.step stepped, phased.step stepped⟩
    · rintro s a t new ⟨doomed, early, counted, phased⟩ - action
      have stepped := step_cases action
      have next := doomed.step early counted phased stepped
      exact ⟨next.1, next.2, counted.step stepped, phased.step stepped⟩
  intro main
  have late := all.2.2.2.collecting (.inr main)
  rw [all.2.1] at late
  cases late

/-- Of the two list workers and of the two enqueue workers one has failed, and the other has the
items of both. -/
def attendedSeeds : List (Action Nat Nat Nat Nat) :=
  [.seeds (.yields (some 0)), .putSeed, .seeds (.yields (some 1)), .putSeed, .list 1 .take,
    .list 1 (.lists (.yields (some 3))), .list 1 .put, .list 1 (.lists (.yields (some 4))),
    .list 1 .put, .list 1 (.lists .raises), .enqueue 0 .take, .enqueue 0 .raises, .list 0 .take,
    .seeds .exhausted, .list 0 (.lists .exhausted), .joined]

theorem batch_enqueue_stuck_hello : ∃ log s,
    Mealy.Run (machine false) Attends ((initial 2 2 : State Nat Nat Nat Nat), []) log s ∧
      s.main = .joinEnqueue ∧ s.enqueueJobs.items = [some 4] ∧ ¬ Stuck false s := by
  have steps : Mealy.execIf (machine false) (fun s a => decide (Attends s a))
      ((initial 2 2 : State Nat Nat Nat Nat), []) attendedSeeds = some (_, _) := rfl
  have run := (Mealy.Run.of_execIf steps).mono fun _ _ => of_decide_eq_true
  exact ⟨_, _, run, rfl, rfl, (batch_enqueue_stuck run).1⟩

/-! ## One enqueue worker and two tasks -/

def twoTasks : List (Action Unit Unit Unit Unit) :=
  [.seeds (.yields (some ())), .putSeed, .seeds .exhausted,
    .list 0 .take, .list 0 (.lists (.yields (some ()))), .list 0 .put,
    .list 0 (.lists (.yields (some ()))), .list 0 .put, .list 0 (.lists .exhausted), .joined,
    .enqueue 0 .take, .enqueue 0 (.considered (some ())), .enqueue 0 .raises]

/-- The second task is left in the queue, and `batch_enqueue` waits for it for ever. -/
theorem batch_enqueue_gets_stuck : ∃ s log,
    Mealy.Run (machine false) Mealy.always ((initial 1 1 : State Unit Unit Unit Unit), []) log s ∧
      s.main = .joinEnqueue ∧ s.enqueueJobs.items = [some ()] ∧ Stuck false s := by
  have steps : Mealy.exec (machine false) ((initial 1 1 : State Unit Unit Unit Unit), []) twoTasks =
      some (_, _) := rfl
  refine ⟨_, _, .of_exec (by simp) steps, rfl, rfl, rfl, fun a => ?_⟩
  cases a with
  | list i a =>
      cases i with
      | zero => cases a <;> rfl
      | succ => rfl
  | enqueue i a =>
      cases i with
      | zero => cases a <;> rfl
      | succ => rfl
  | _ => rfl

end JobQ.BatchEnqueue
