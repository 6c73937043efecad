import JobQ.Library.Pool
import JobQ.Proof.LaunchWorkers.Held

/-!
# No new tasks

After `SIGUSR1` no worker begins another task, unless it was between two tasks when the signal
arrived, or its message lock is lost, or a `SIGTERM` calls the workers back after the event has been
cleared.
-/

namespace JobQ.LaunchWorkers

variable {c : Config} {s t : State} {a : Action} {new log : List Event}

def noWayBack (c : Config) : State × Bool → Action → Bool
  | (s, _), .request .sigusr1 =>
    s.workers.all fun w => !w.betweenTasks c.maxConsecutiveFailures
  | (s, closed), .request .sigterm =>
    !closed || s.signals.shutdownEvent || s.signals.hardStopEvent
  | (s, closed), .worker i a =>
    !closed || s.workers[i]?.all fun w => !w.losesLock s.signals a
  | _, _ => true

structure Shut (c : Config) (s : State) : Prop where
  closed : s.signals.closed = true
  held : ∀ w ∈ s.workers, w.Held c.maxConsecutiveFailures s.signals

theorem Shut.map {f : Worker → Worker} {signals : Signals} (closed : signals.closed = true)
    (held : ∀ w ∈ s.workers, (f w).Held c.maxConsecutiveFailures signals) :
    Shut c { s with signals, workers := s.workers.map f } := by
  refine ⟨closed, fun v member => ?_⟩
  obtain ⟨w, old, rfl⟩ := List.mem_map.mp member
  exact held w old

theorem closed_request {signals : Signals} {r : Request}
    (meets : r = .sigterm → signals.shutdownEvent = true ∨ signals.hardStopEvent = true) :
    (shutdownHandler signals r).closed = true := by
  cases r with
  | sigterm => simp [Signals.closed, Request.hard, (meets rfl).symm]
  | _ => simp [Signals.closed, Request.resumeIfNotKilled]

theorem Shut.step (shut : Shut c s) (stepped : Steps c s a t new)
    (meets : noWayBack c (s, true) a = true) : Shut c t ∧ ∀ i, .worker i .began ∉ new := by
  obtain ⟨closed, held⟩ := shut
  have woken {signals : Signals} (closed : signals.closed = true) (w : Worker) (member : w ∈ s.workers) :
      w.wake.Held c.maxConsecutiveFailures signals :=
    .wake (held w member).between fun _ => closed
  cases stepped with
  | request r =>
      have closed : (shutdownHandler s.signals r).closed = true := by
        apply closed_request
        intro same
        subst same
        simpa [noWayBack] using meets
      exact ⟨.map closed (woken closed), by simp⟩
  | announced => exact ⟨.map closed (woken closed), by simp⟩
  | withdrawn => exact ⟨⟨closed, fun w member => (held w member).mono id⟩, by simp⟩
  | nothingNew => exact ⟨⟨closed, held⟩, by simp⟩
  | @worker i a w v signals events worker moves =>
      have keeps : w.losesLock s.signals a = false := by simpa [noWayBack, worker] using meets
      obtain ⟨rfl, quiet, stays⟩ := (held w (List.mem_of_getElem? worker)).moves moves keeps
      have held' : v.Held c.maxConsecutiveFailures s.signals := by
        rcases stays with held | ⟨-, soft⟩
        · exact held
        · rw [closed] at soft
          contradiction
      refine ⟨⟨closed, Pool.forall_set held held'⟩, fun j member => ?_⟩
      obtain ⟨e, old, same⟩ := List.mem_map.mp member
      cases same
      exact quiet old
  | main stepped =>
      refine ⟨?_, by simp⟩
      cases stepped with
      | cancels =>
          have kept := Shut.map (f := Worker.cancel) closed fun w member => (held w member).cancel
          exact ⟨kept.closed, kept.held⟩
      | _ => exact ⟨closed, held⟩

theorem Shut.request (between : noWayBack c (s, true) (.request .sigusr1) = true) :
    Shut c (stepRequest s .sigusr1).1 := by
  have closed : (shutdownHandler s.signals .sigusr1).closed = true := closed_request (by simp)
  apply Shut.map closed
  intro w member
  refine .wake ?_ fun _ => closed
  simpa using List.all_eq_true.mp between w member

def hears (i : Nat) : List Action := [.worker i .shutdownTaskRuns, .worker i .proceeds]

end JobQ.LaunchWorkers
