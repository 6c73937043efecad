import JobQ.Library.Pool
import JobQ.Proof.LaunchWorkers.Held

/-!
# No request is swallowed

The workers share one event, and the first one that stops bracing clears it. A `SIGTERM` that comes
after that is heard by every worker that waits for its pull; one that is between two tasks, or that
still braces for the earlier request, may never see it.
-/

namespace JobQ.LaunchWorkers

variable {c : Config} {s t : State} {a : Action} {new log : List Event}

/-- Worker `i` has shut its pull down, or braced, after every `SIGTERM` that came when some worker
had already resumed. -/
def Answered (i : Nat) (log : List Event) : Prop :=
  ∀ before after j, log = before ++ .requested .sigterm :: after → .worker j .cleared ∈ before →
    .worker i .shutDown ∈ after ∨ .worker i .braced ∈ after

def NotSwallowed (log : List Event) : Prop :=
  ∀ before after i, log = before ++ .worker i .began :: after → Answered i before

/-- Whether a worker has resumed, and which ones owe an answer to the last `SIGTERM` after that. -/
structure Debt where
  resumed : Bool := false
  owing : List Nat := []

def Event.resumes : Event → Bool
  | .worker _ .cleared => true
  | _ => false

def Event.answers : Event → Bool
  | .worker _ .shutDown | .worker _ .braced => true
  | _ => false

def Debt.record (debt : Debt) (s : State) (a : Action) (new : List Event) : Debt :=
  match a with
  | .request .sigterm => if debt.resumed then { debt with owing := List.range s.workers.length } else debt
  | .worker i _ => {
      resumed := debt.resumed || new.any Event.resumes
      owing := if new.any Event.answers then debt.owing.filter (· ≠ i) else debt.owing }
  | _ => debt

def keepsUp (c : Config) : State × Debt → Action → Bool
  | (s, debt), .request .sigterm =>
    !debt.resumed || s.workers.all fun w => !w.betweenTasks c.maxConsecutiveFailures &&
      (!w.isBracing || s.signals.shutdownEvent || s.signals.hardStopEvent)
  | (s, debt), .worker i a =>
    i ∉ debt.owing || s.workers[i]?.all fun w => !w.losesLock s.signals a
  | _, _ => true

/-! ## The log -/

theorem Answered.append {i : Nat} (answered : Answered i log)
    (none : .requested .sigterm ∉ new) : Answered i (log ++ new) := by
  intro before after j split resumed
  rcases Mealy.split_append split with ⟨rest, earlier, rfl⟩ | ⟨between, -, now⟩
  · rcases answered before rest j earlier resumed with answer | answer
    · exact .inl (by simp [answer])
    · exact .inr (by simp [answer])
  · exact absurd (by simp [now]) none

theorem Answered.of_answer {i : Nat} (none : .requested .sigterm ∉ new)
    (answer : .worker i .shutDown ∈ new ∨ .worker i .braced ∈ new) : Answered i (log ++ new) := by
  intro before after j split resumed
  rcases Mealy.split_append split with ⟨rest, -, rfl⟩ | ⟨between, -, now⟩
  · rcases answer with answer | answer
    · exact .inl (by simp [answer])
    · exact .inr (by simp [answer])
  · exact absurd (by simp [now]) none

theorem Answered.request {i : Nat} (answered : Answered i log)
    (unresumed : ∀ j, .worker j .cleared ∉ log) : Answered i (log ++ [.requested .sigterm]) := by
  intro before after j split resumed
  rcases Mealy.split_append split with ⟨rest, rfl, -⟩ | ⟨between, rfl, now⟩
  · exact absurd (by simp [resumed]) (unresumed j)
  · obtain ⟨rfl, -⟩ : between = [] ∧ after = [] := by
      simpa [List.singleton_eq_append_iff] using now
    exact absurd (by simpa using resumed) (unresumed j)

theorem NotSwallowed.append (kept : NotSwallowed log)
    (fresh : ∀ before after i, new = before ++ .worker i .began :: after → Answered i (log ++ before)) :
    NotSwallowed (log ++ new) := by
  intro before after i split
  rcases Mealy.split_append split with ⟨rest, earlier, -⟩ | ⟨between, rfl, now⟩
  · exact kept before rest i earlier
  · exact fresh between after i now

theorem NotSwallowed.quiet (kept : NotSwallowed log) (quiet : ∀ i, .worker i .began ∉ new) :
    NotSwallowed (log ++ new) :=
  kept.append fun before after i split => absurd (by simp [split]) (quiet i)

/-! ## One step -/

theorem Worker.Moves.closed {maxFailures : Int} {signals signals' : Signals} {w v : Worker}
    {events : List WorkerEvent} {a : WorkerAction}
    (moves : w.Moves maxFailures signals a signals' v events) : signals'.closed = signals.closed := by
  cases moves <;> rfl

theorem Worker.Moves.began {maxFailures : Int} {signals signals' : Signals} {w v : Worker}
    {events : List WorkerEvent} {a : WorkerAction}
    (moves : w.Moves maxFailures signals a signals' v events) (began : .began ∈ events) :
    events = [.began] := by
  cases moves <;> simp_all

theorem mem_owing {debt : Debt} {i k : Nat} {a : WorkerAction} :
    k ∈ (debt.record s (.worker i a) new).owing ↔
      k ∈ debt.owing ∧ (k = i → new.any Event.answers = false) := by
  simp only [Debt.record]
  split
  · simp [*]
  · simp_all

theorem answer_of_answers {i : Nat} {events : List WorkerEvent}
    (answers : (events.map (Event.worker i)).any Event.answers = true) :
    .worker i .shutDown ∈ events.map (Event.worker i) ∨
      .worker i .braced ∈ events.map (Event.worker i) := by
  obtain ⟨e, member, answers⟩ := List.any_eq_true.mp answers
  obtain ⟨event, -, rfl⟩ := List.mem_map.mp member
  unfold Event.answers at answers
  split at answers
  · rename_i same
    cases same
    exact .inl member
  · rename_i same
    cases same
    exact .inr member
  · contradiction

structure Owed (c : Config) (log : List Event) (s : State) (debt : Debt) : Prop where
  resumed : ∀ j, .worker j .cleared ∈ log → debt.resumed = true
  free : debt.resumed = false → debt.owing = []
  held : ∀ i ∈ debt.owing, ∀ w, s.workers[i]? = some w →
    w.Held c.maxConsecutiveFailures s.signals
  answered : ∀ i, i < s.workers.length → i ∉ debt.owing → Answered i log
  kept : NotSwallowed log

section

variable {debt : Debt} (owed : Owed c log s debt)
include owed

theorem Owed.aside (same : t.workers.length = s.workers.length)
    (held : ∀ i ∈ debt.owing, ∀ w, t.workers[i]? = some w →
      w.Held c.maxConsecutiveFailures t.signals)
    (none : .requested .sigterm ∉ new) (others : ∀ i e, .worker i e ∉ new) :
    Owed c (log ++ new) t debt where
  resumed j member := by
    rcases List.mem_append.mp member with old | new
    · exact owed.resumed j old
    · exact absurd new (others j _)
  free := owed.free
  held := held
  answered i bound paid := (owed.answered i (same ▸ bound) paid).append none
  kept := owed.kept.quiet fun i => others i _

theorem Owed.map {f : Worker → Worker} {signals : Signals} {main : Main}
    (held : ∀ i ∈ debt.owing, ∀ w, s.workers[i]? = some w →
      (f w).Held c.maxConsecutiveFailures signals)
    (none : .requested .sigterm ∉ new) (others : ∀ i e, .worker i e ∉ new) :
    Owed c (log ++ new) { s with signals, workers := s.workers.map f, main } debt := by
  apply owed.aside (by simp) _ none others
  intro i owes v worker
  obtain ⟨w, old, rfl⟩ : ∃ w, s.workers[i]? = some w ∧ f w = v := by simpa using worker
  exact held i owes w old

theorem Owed.sigterm (meets : keepsUp c (s, debt) (.request .sigterm) = true) :
    Owed c (log ++ [.requested .sigterm]) (stepRequest s .sigterm).1
      (debt.record s (.request .sigterm) [.requested .sigterm]) := by
  cases resumed : debt.resumed with
  | false =>
      have unresumed j : .worker j .cleared ∉ log := fun member => by
        rw [owed.resumed j member] at resumed
        contradiction
      refine ⟨?_, ?_, ?_, ?_, owed.kept.quiet (by simp)⟩
      · intro j member
        exact absurd (by simpa using member) (unresumed j)
      · simpa [Debt.record, resumed] using owed.free
      · simp [Debt.record, resumed, owed.free resumed]
      · intro i bound paid
        have before : Answered i log := by
          apply owed.answered i (by simpa [stepRequest] using bound)
          simp [owed.free resumed]
        exact before.request unresumed
  | true =>
      refine ⟨by simp [Debt.record, resumed], by simp [Debt.record, resumed], ?_, ?_,
        owed.kept.quiet (by simp)⟩
      · intro i owes v worker
        obtain ⟨w, old, rfl⟩ : ∃ w, s.workers[i]? = some w ∧ w.wake = v := by
          simpa [stepRequest] using worker
        have caught : ∀ w ∈ s.workers, w.betweenTasks c.maxConsecutiveFailures = false ∧
            ((w.isBracing = false ∨ s.signals.shutdownEvent = true) ∨
              s.signals.hardStopEvent = true) := by
          simpa [keepsUp, resumed] using meets
        obtain ⟨between, set⟩ := caught w (List.mem_of_getElem? old)
        refine .wake between fun bracing => ?_
        -- a worker that braces while the event is set will not resume: the second request is hard
        rcases set with (idle | set) | hard
        · rw [bracing] at idle
          contradiction
        · simp [stepRequest, Signals.closed, set]
        · simp [stepRequest, Signals.closed, hard]
      · intro i bound paid
        simp [Debt.record, resumed] at paid
        simp [stepRequest] at bound
        omega

section

variable {i : Nat} {a : WorkerAction} {w v : Worker} {signals : Signals} {events : List WorkerEvent}

theorem Owed.worker_answered {k : Nat} (bound : k < s.workers.length)
    (paid : k ∉ (debt.record s (.worker i a) (events.map (.worker i))).owing) :
    Answered k (log ++ events.map (.worker i)) := by
  have none : Event.requested .sigterm ∉ events.map (.worker i) := by simp
  by_cases owes : k ∈ debt.owing
  · have answers : k = i ∧ (events.map (Event.worker i)).any Event.answers = true := by
      by_contra other
      exact paid (mem_owing.mpr ⟨owes, by simp_all⟩)
    obtain ⟨rfl, answers⟩ := answers
    exact .of_answer none (answer_of_answers answers)
  · exact (owed.answered k bound owes).append none

variable (worker : s.workers[i]? = some w)
  (moves : w.Moves c.maxConsecutiveFailures s.signals a signals v events)
  (meets : keepsUp c (s, debt) (.worker i a) = true)
include worker moves meets

theorem Owed.stuck (owes : i ∈ debt.owing) : signals = s.signals ∧ .began ∉ events ∧
    (v.Held c.maxConsecutiveFailures s.signals ∨ .braced ∈ events ∧ s.signals.closed = false) := by
  apply (owed.held i owes w worker).moves moves
  simpa [keepsUp, owes, worker] using meets

theorem Owed.worker_held {k : Nat} {u : Worker}
    (owes : k ∈ (debt.record s (.worker i a) (events.map (.worker i))).owing)
    (other : (s.workers.set i v)[k]? = some u) : u.Held c.maxConsecutiveFailures signals := by
  obtain ⟨owed', unanswered⟩ := mem_owing.mp owes
  rcases Pool.set_cases other with ⟨rfl, rfl⟩ | ⟨-, before⟩
  · obtain ⟨rfl, -, held | ⟨braced, -⟩⟩ := owed.stuck worker moves meets owed'
    · exact held
    · have answered : (events.map (Event.worker k)).any Event.answers = true :=
        List.any_eq_true.mpr ⟨_, List.mem_map_of_mem braced, rfl⟩
      rw [unanswered rfl] at answered
      contradiction
  · exact (owed.held k owed' u before).mono moves.closed.trans

theorem Owed.worker_kept : NotSwallowed (log ++ events.map (.worker i)) := by
  apply owed.kept.append
  intro before after k split
  obtain ⟨began, same⟩ : .began ∈ events ∧ i = k := by
    have member : Event.worker k .began ∈ events.map (.worker i) := by simp [split]
    simpa using member
  subst same
  obtain ⟨rfl, -⟩ : before = [] ∧ after = [] := by
    simpa [moves.began began, List.singleton_eq_append_iff] using split
  rw [List.append_nil]
  apply owed.answered i (List.getElem?_eq_some_iff.mp worker).1
  exact fun owes => (owed.stuck worker moves meets owes).2.1 began

theorem Owed.stepWorker (completed : List Outcome) : Owed c (log ++ events.map (.worker i))
    { s with signals, workers := s.workers.set i v, completed }
    (debt.record s (.worker i a) (events.map (.worker i))) where
  resumed j member := by
    rcases List.mem_append.mp member with old | new
    · simp [Debt.record, owed.resumed j old]
    · simp only [Debt.record, Bool.or_eq_true]
      exact .inr (List.any_eq_true.mpr ⟨_, new, rfl⟩)
  free free := by
    simp only [Debt.record, Bool.or_eq_false_iff] at free
    simp [Debt.record, owed.free free.1]
  held _ owes _ other := owed.worker_held worker moves meets owes other
  answered _ bound paid := owed.worker_answered (by simpa using bound) paid
  kept := owed.worker_kept worker moves meets

end

theorem Owed.step (stepped : Steps c s a t new) (meets : keepsUp c (s, debt) a = true) :
    Owed c (log ++ new) t (debt.record s a new) := by
  have old {i : Nat} {w : Worker} (owes : i ∈ debt.owing) (worker : s.workers[i]? = some w) :=
    owed.held i owes w worker
  cases stepped with
  | request r =>
      cases r with
      | sigterm => exact owed.sigterm meets
      | _ =>
          refine owed.map (fun i owes w worker => ?_) (by simp) (by simp)
          exact .wake (old owes worker).between fun _ => by
            simp [Signals.closed, Request.resumeIfNotKilled]
  | announced =>
      refine owed.map (fun i owes w worker => ?_) (by simp) (by simp)
      exact .wake (old owes worker).between (old owes worker).closed
  | withdrawn =>
      exact owed.aside rfl (fun i owes w worker => (old owes worker).mono id) (by simp) (by simp)
  | nothingNew => exact owed.aside rfl owed.held (by simp) (by simp)
  | worker worker moves => exact owed.stepWorker worker moves meets _
  | main stepped =>
      cases stepped with
      | cancels =>
          exact owed.map (fun i owes w worker => (old owes worker).cancel) (by simp) (by simp)
      | _ => exact owed.aside rfl owed.held (by simp) (by simp)

end

end JobQ.LaunchWorkers
