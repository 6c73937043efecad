import JobQ.Library.Pool
import JobQ.Proof.QueueWorkers.Steps

/-!
# The workers drain the queue

A worker returns when it is told that no message is visible. The invisible ones are then in the hands
of other workers or on their way to them, so that the last worker leaves an empty queue.
-/

namespace JobQ.QueueWorkers
open QueueSystem

variable {c : LaunchWorkers.Config} {s t : State} {a : Action} {new : List LaunchWorkers.Event}

/-- A `SIGTERM` at a time and any preemption notices, no time limit, and no end of a pull that a
message is on its way to. -/
def Gentle (s : State) : LaunchWorkers.Action → Prop
  | .request r => r = .sigterm ∧ s.launch.signals.shutdownEvent = false
  | .worker i (.pullEnds _) => ∀ k, s.Serves i (.answer k) → ¬s.sys.Pending (.answer k)
  | .worker _ .cancelled => True
  | .worker _ b => b.Gentle
  | _ => True

/-- Worker `i` will look at the queue again, or waits to be told what is there. -/
def State.Looks (s : State) (i : Nat) : Prop :=
  ∃ w, s.launch.workers[i]? = some w ∧ w.IsLooking ∧ s.pulls[i]? ≠ some .toldEmpty

/-- A worker is told that the queue is empty only if no message is visible, a task is pushed while
some worker will still look, and no message is handed out to nobody. -/
def Undisturbed (s : State) : Action → Prop
  | .launch b => Gentle s b
  | .hands _ _ => True
  | .tellsEmpty _ => ∀ m message, s.sys.service.queue m = some message → message.visible = false
  | .receives _ cfg call => ∀ k, s.sys.Undisturbed (.receive k cfg call)
  | .queue b => s.sys.Undisturbed b ∧ (∀ m task, b = .push m task → ∃ i, s.Looks i) ∧
      ∀ m, b ≠ .hand m

structure Staffed (s : State) : Prop where
  soft : s.launch.signals.Soft
  steady : ∀ w ∈ s.launch.workers, w.Steady
  reported : ∀ how ∈ s.launch.completed, ∃ w ∈ s.launch.workers, w.pc = .ended how
  /-- What is pending is awaited by a worker. -/
  manned : ∀ {x}, s.sys.Pending x →
    ∃ i w, s.launch.workers[i]? = some w ∧ w.pull = .running ∧ s.Serves i x
  looking : ∀ {m message}, s.sys.service.queue m = some message → ∃ i, s.Looks i

/-- Some worker fails, or somebody cares for every message. -/
structure Tended (s : State) : Prop where
  run : ∃ es, Mealy.Run System.machine System.Undisturbed (System.initial, []) es s.sys
  staffed : (∃ w ∈ s.launch.workers, w.Fails) ∨ Staffed s

theorem looking_of_running {w : LaunchWorkers.Worker} (steady : w.Steady)
    (running : w.pull = .running) : w.IsLooking := by
  refine ⟨?_, fun _ => by simp [running]⟩
  have awaits := steady.awaited running
  cases pc : w.pc <;> first | rfl | simp [pc, LaunchWorkers.Pc.awaitsPull] at awaits

theorem looking_not_returned {w : LaunchWorkers.Worker} (looking : w.IsLooking) :
    w.pc ≠ .ended .returned := by
  intro ended
  simp [LaunchWorkers.Worker.IsLooking, ended, LaunchWorkers.Pc.leaving?] at looking

/-! ## Steps of `launch_workers` -/

/-- A step that touches no worker but what it has due. -/
theorem Staffed.aside {f : LaunchWorkers.Worker → LaunchWorkers.Worker}
    {launch : LaunchWorkers.State} (staffed : Staffed s) (soft : launch.signals.Soft)
    (workers : launch.workers = s.launch.workers.map f)
    (completed : launch.completed = s.launch.completed)
    (same : ∀ w, (f w).pc = w.pc ∧ (f w).pull = w.pull ∧ (f w).cancelRequested = w.cancelRequested) :
    Staffed { s with launch } := by
  have found {w : LaunchWorkers.Worker} (member : w ∈ s.launch.workers) : f w ∈ launch.workers := by
    rw [workers]
    exact List.mem_map_of_mem member
  refine ⟨soft, fun v member => ?_, fun how member => ?_, fun pending => ?_, fun stored => ?_⟩
  · rw [workers] at member
    obtain ⟨w, old, rfl⟩ := List.mem_map.mp member
    obtain ⟨pc, pull, due⟩ := same w
    have steady := staffed.steady w old
    exact ⟨due.trans steady.uncancelled, by rw [pc, pull]; exact steady.awaited,
      by rw [pc]; exact steady.tended⟩
  · obtain ⟨w, old, ended⟩ := staffed.reported how (completed ▸ member)
    exact ⟨f w, found old, (same w).1.trans ended⟩
  · obtain ⟨i, w, worker, running, serves⟩ := staffed.manned pending
    exact ⟨i, f w, by simp [workers, worker], (same w).2.1.trans running, serves⟩
  · obtain ⟨i, w, worker, looking, untold⟩ := staffed.looking stored
    obtain ⟨pc, pull, -⟩ := same w
    refine ⟨i, f w, by simp [workers, worker], ?_, untold⟩
    simpa [LaunchWorkers.Worker.IsLooking, pc, pull] using looking

theorem wake_same (w : LaunchWorkers.Worker) : w.wake.pc = w.pc ∧ w.wake.pull = w.pull ∧
    w.wake.cancelRequested = w.cancelRequested := by
  obtain ⟨_, same⟩ := w.wake_eq
  rw [same]
  exact ⟨rfl, rfl, rfl⟩

theorem fails_aside {f : LaunchWorkers.Worker → LaunchWorkers.Worker}
    {workers : List LaunchWorkers.Worker} (same : ∀ w, (f w).pc = w.pc)
    (fails : ∃ w ∈ workers, w.Fails) : ∃ w ∈ workers.map f, w.Fails := by
  obtain ⟨w, member, exc, left⟩ := fails
  exact ⟨f w, List.mem_map_of_mem member, exc, (same w).symm ▸ left⟩

theorem cancelled_due {launch : LaunchWorkers.State} {i : Nat} {events : List LaunchWorkers.Event}
    (stepped : LaunchWorkers.step c s.launch (.worker i .cancelled) = some (launch, events)) :
    ∃ w ∈ s.launch.workers, w.cancelRequested = true := by
  simp only [LaunchWorkers.step, LaunchWorkers.stepWorker] at stepped
  split at stepped
  · rename_i w worker
    refine ⟨w, List.mem_of_getElem? worker, ?_⟩
    simp only [LaunchWorkers.Worker.step] at stepped
    split at stepped
    · rename_i moved
      split at moved
      · assumption
      · contradiction
    · contradiction
  · contradiction

section

variable {i : Nat} {b : LaunchWorkers.WorkerAction} {w v : LaunchWorkers.Worker} {maxFailures : Int}
  {signals : LaunchWorkers.Signals} {events : List LaunchWorkers.WorkerEvent}
  (found : s.launch.workers[i]? = some w)
  (moves : w.Moves maxFailures s.launch.signals b signals v events)
include found moves

theorem Staffed.worker (staffed : Staffed s) (gentle : b.Gentle) {pulls : List Progress}
    (empty : b = .pullEnds (.raised .emptyQueue) → s.pulls[i]? = some .toldEmpty)
    (ceased : ∀ result, b = .pullEnds result → ∀ x, s.Serves i x → ¬s.sys.Pending x)
    (links : ∀ {j x}, s.Serves j x → (j = i → ∀ late, b ≠ .begins late) →
      { s with pulls }.Serves j x)
    (told : ∀ {j : Nat}, pulls[j]? = some .toldEmpty → s.pulls[j]? = some .toldEmpty) :
    (∃ u ∈ s.launch.workers.set i v, u.Fails) ∨ Staffed { s with
      pulls
      launch := { s.launch with
        signals
        workers := s.launch.workers.set i v
        completed := s.launch.completed ++ events.filterMap LaunchWorkers.WorkerEvent.ended? } } := by
  have bound := (List.getElem?_eq_some_iff.mp found).1
  have mine : (s.launch.workers.set i v)[i]? = some v := by simp [bound]
  have theirs {j : Nat} {u : LaunchWorkers.Worker} (other : j ≠ i)
      (worker : s.launch.workers[j]? = some u) : (s.launch.workers.set i v)[j]? = some u := by
    rwa [List.getElem?_set_ne (Ne.symm other)]
  have steady := staffed.steady w (List.mem_of_getElem? found)
  cases moves.goes staffed.soft steady gentle with
  | fails fails => exact .inl ⟨v, List.mem_of_getElem? mine, fails⟩
  | goesOn kept looks =>
      refine .inr ⟨moves.soft staffed.soft, Pool.forall_set staffed.steady kept, fun how member => ?_,
        fun {x} pending => ?_, fun stored => ?_⟩
      · rcases List.mem_append.mp member with old | now
        · obtain ⟨u, member, ended⟩ := staffed.reported how old
          rcases Pool.mem_set_or (b := v) found member with rfl | stays
          · exact ⟨v, List.mem_of_getElem? mine, moves.stays_ended ended⟩
          · exact ⟨u, stays, ended⟩
        · exact ⟨v, List.mem_of_getElem? mine, moves.reported now⟩
      · obtain ⟨j, u, other, running, serves⟩ := staffed.manned pending
        by_cases same : j = i
        · subst same
          obtain rfl : u = w := Option.some.inj (other.symm.trans found)
          have busy : ∀ late, b ≠ .begins late := by
            rintro late rfl
            have awaits := steady.awaited running
            simp [moves.begins_ready, LaunchWorkers.Pc.awaitsPull] at awaits
          rcases moves.pull_cases with pull | ⟨late, rfl, -⟩ | ⟨result, rfl⟩
          · exact ⟨j, v, mine, pull.trans running, links serves fun _ => busy⟩
          · exact absurd rfl (busy late)
          · exact absurd pending (ceased result rfl x serves)
        · exact ⟨j, u, theirs same other, running, links serves fun own => absurd own same⟩
      · obtain ⟨j, u, worker, looking, untold⟩ := staffed.looking stored
        by_cases same : j = i
        · subst same
          obtain rfl : u = w := Option.some.inj (worker.symm.trans found)
          rcases looks looking with looking | rfl
          · exact ⟨j, v, mine, looking, fun now => untold (told now)⟩
          · exact absurd (empty rfl) untold
        · exact ⟨j, u, theirs same worker, looking, fun now => untold (told now)⟩

end

theorem fails_stay {before after : LaunchWorkers.State} {b : LaunchWorkers.Action}
    {events : List LaunchWorkers.Event} (stepped : LaunchWorkers.Steps c before b after events)
    (fails : ∃ w ∈ before.workers, w.Fails) : ∃ w ∈ after.workers, w.Fails := by
  cases stepped with
  | request | announced => exact fails_aside (fun w => (wake_same w).1) fails
  | withdrawn | nothingNew => exact fails
  | @worker i _ _ v _ _ found moves =>
      obtain ⟨w, member, failing⟩ := fails
      rcases Pool.mem_set_or (b := v) found member with rfl | stays
      · have bound := (List.getElem?_eq_some_iff.mp found).1
        exact ⟨v, List.mem_of_getElem? (i := i) (by simp [bound]), moves.fails failing⟩
      · exact ⟨w, stays, failing⟩
  | main stepped =>
      cases stepped with
      | cancels =>
          refine fails_aside (fun w => ?_) fails
          obtain ⟨_, same⟩ := w.cancel_eq
          rw [same]
      | _ => exact fails

/-- Without a worker that acts, only the signals may change, or all workers are cancelled because
one has failed. -/
theorem Staffed.others {launch : LaunchWorkers.State} {b : LaunchWorkers.Action}
    {events : List LaunchWorkers.Event} (staffed : Staffed s)
    (stepped : LaunchWorkers.Steps c s.launch b launch events) (gentle : Gentle s b)
    (other : ∀ i a, b ≠ .worker i a) :
    (∃ w ∈ launch.workers, w.Fails) ∨ Staffed { s with launch } := by
  obtain ⟨unforced, resumes, passes⟩ := staffed.soft
  have still (soft : launch.signals.Soft) (workers : launch.workers = s.launch.workers)
      (completed : launch.completed = s.launch.completed) :
      (∃ w ∈ launch.workers, w.Fails) ∨ Staffed { s with launch } :=
    .inr (staffed.aside (f := id) soft (by simp [workers]) completed fun _ => ⟨rfl, rfl, rfl⟩)
  cases stepped with
  | request r =>
      obtain ⟨rfl, clear⟩ := gentle
      refine .inr (staffed.aside ?_ rfl rfl wake_same)
      simp only [LaunchWorkers.shutdownHandler, LaunchWorkers.Request.hard, clear,
        Bool.false_eq_true, ↓reduceIte]
      exact ⟨unforced, rfl, rfl⟩
  | announced => exact .inr (staffed.aside ⟨unforced, resumes, passes⟩ rfl rfl wake_same)
  | withdrawn => exact still ⟨unforced, resumes, passes⟩ rfl rfl
  | nothingNew => exact still staffed.soft rfl rfl
  | @worker i a => exact absurd rfl (other i a)
  | main stepped =>
      cases stepped with
      | cancels _ next =>
          obtain ⟨w, member, ended⟩ := staffed.reported _ (List.mem_of_getElem? next)
          have fails : w.Fails := ⟨.tooManyFailuresException, by simp [ended, LaunchWorkers.Pc.leaving?]⟩
          refine .inl (fails_aside (fun w => ?_) ⟨w, member, fails⟩)
          obtain ⟨_, same⟩ := w.cancel_eq
          rw [same]
      | collects | fails | exhausted | drains | leaves => exact still staffed.soft rfl rfl

/-- A pull that ends is done with what it serves. -/
theorem mayEnd_ceased {i : Nat} {result : LaunchWorkers.Result} (may : s.mayEnd i result = true)
    (gentle : Gentle s (.worker i (.pullEnds result))) {x : System.Party} (serves : s.Serves i x) :
    ¬s.sys.Pending x := by
  cases x with
  | answer k => exact gentle k serves
  | delivery d =>
      rintro ⟨a, attempt, unfinished⟩
      have serves : s.pulls[i]? = some (.executing d) := serves
      cases pc : a.state.pc with
      | finished r => exact unfinished r pc
      | _ => simp [State.mayEnd, serves, attempt, pc] at may

theorem mayEnd_empty {i : Nat} (may : s.mayEnd i (.raised .emptyQueue) = true) :
    s.pulls[i]? = some .toldEmpty := by
  unfold State.mayEnd at may
  split at may
  · contradiction
  · contradiction
  · assumption
  · split at may
    · split at may
      · rename_i r _
        cases r with
        | returned => simp [pullResult] at may
        | raised e => cases e <;> simp [pullResult, exc] at may
      · contradiction
    · contradiction
  · contradiction

theorem serves_set {i j : Nat} {progress : Progress} {x : System.Party} (serves : s.Serves j x)
    (apart : i ≠ j) : { s with pulls := s.pulls.set i progress }.Serves j x := by
  cases x <;> simpa [State.Serves, List.getElem?_set_ne apart] using serves

theorem told_set {pulls : List Progress} {i j : Nat} {progress : Progress}
    (other : progress ≠ .toldEmpty) (told : (pulls.set i progress)[j]? = some .toldEmpty) :
    pulls[j]? = some .toldEmpty := by
  rw [List.getElem?_set] at told
  split at told
  · split at told
    · exact absurd (Option.some.inj told) other
    · cases told
  · exact told

theorem Staffed.launch {launch : LaunchWorkers.State} {b : LaunchWorkers.Action}
    {events : List LaunchWorkers.Event} {pulls : List Progress} (staffed : Staffed s)
    (gentle : Gentle s b) (action : LaunchWorkers.step c s.launch b = some (launch, events))
    (may : ∀ i result, b = .worker i (.pullEnds result) → s.mayEnd i result = true)
    (links : pulls = s.pulls ∨
      ∃ i late, b = .worker i (.begins late) ∧ pulls = s.pulls.set i .asking) :
    (∃ w ∈ launch.workers, w.Fails) ∨ Staffed { s with launch, pulls } := by
  by_cases worker : ∃ i a, b = .worker i a
  · obtain ⟨i, a, rfl⟩ := worker
    by_cases cancelled : a = .cancelled
    · subst cancelled
      obtain ⟨w, member, due⟩ := cancelled_due action
      simp [(staffed.steady w member).uncancelled] at due
    · cases LaunchWorkers.step_cases action with
      | worker found moves =>
          refine staffed.worker found moves ?_ ?_ ?_ ?_ ?_
          · cases a <;> first | exact gentle | trivial
          · rintro rfl
            exact mayEnd_empty (may i _ rfl)
          · rintro result rfl x serves
            exact mayEnd_ceased (may i result rfl) gentle serves
          · intro j x serves other
            rcases links with rfl | ⟨k, late, same, rfl⟩
            · exact serves
            · cases same
              refine serves_set serves ?_
              rintro rfl
              exact other rfl late rfl
          · intro j told
            rcases links with rfl | ⟨k, late, -, rfl⟩
            · exact told
            · exact told_set (by simp) told
  · have other : ∀ i a, b ≠ .worker i a := fun i a same => worker ⟨i, a, same⟩
    obtain rfl : pulls = s.pulls := by
      rcases links with same | ⟨i, late, same, -⟩
      · exact same
      · exact absurd same (other i _)
    exact staffed.others (LaunchWorkers.step_cases action) gentle other

/-! ## Steps on the queue -/

theorem Staffed.acts {sys : System} {b : Act} {pulls : List Progress} (staffed : Staffed s)
    (action : s.sys.step b = some sys)
    (pushes : ∀ m task, b = .push m task → ∃ i, s.Looks i)
    (links : ∀ {j x}, s.Serves j x → sys.Pending x → { s with pulls }.Serves j x)
    (news : ∀ {x}, sys.Pending x → ¬s.sys.Pending x →
      ∃ i w, s.launch.workers[i]? = some w ∧ w.pull = .running ∧ { s with pulls }.Serves i x)
    (told : ∀ {j : Nat}, pulls[j]? = some .toldEmpty → s.pulls[j]? = some .toldEmpty) :
    Staffed { s with sys, pulls } := by
  refine ⟨staffed.soft, staffed.steady, staffed.reported, fun {x} pending => ?_, fun stored => ?_⟩
  · by_cases before : s.sys.Pending x
    · obtain ⟨i, w, worker, running, serves⟩ := staffed.manned before
      exact ⟨i, w, worker, running, links serves pending⟩
    · exact news pending before
  · have looks : ∃ i, s.Looks i := by
      rcases System.queued_before action stored with ⟨old, queued⟩ | ⟨m, task, rfl⟩
      · exact staffed.looking queued
      · exact pushes m task rfl
    obtain ⟨i, w, worker, looking, untold⟩ := looks
    exact ⟨i, w, worker, looking, fun now => untold (told now)⟩

/-- Worker `i` will not look again, but every message is in the hand of another one. -/
theorem Staffed.toldEmpty {i : Nat} (staffed : Staffed s) (attended : s.sys.Attended)
    (asking : s.pulls[i]? = some .asking)
    (invisible : ∀ m message, s.sys.service.queue m = some message → message.visible = false) :
    Staffed { s with pulls := s.pulls.set i .toldEmpty } := by
  have apart {j : Nat} {x : System.Party} (serves : s.Serves j x) : i ≠ j := by
    rintro rfl
    cases x <;> simp [State.Serves, asking] at serves
  refine ⟨staffed.soft, staffed.steady, staffed.reported, fun pending => ?_, fun stored => ?_⟩
  · obtain ⟨j, w, worker, running, serves⟩ := staffed.manned pending
    exact ⟨j, w, worker, running, serves_set serves (apart serves)⟩
  · obtain ⟨x, -, pending, -⟩ := attended.invisible stored (invisible _ _ stored)
    obtain ⟨j, w, worker, running, serves⟩ := staffed.manned pending
    refine ⟨j, w, worker,
      looking_of_running (staffed.steady w (List.mem_of_getElem? worker)) running, ?_⟩
    show (s.pulls.set i .toldEmpty)[j]? ≠ some .toldEmpty
    rw [List.getElem?_set_ne (apart serves)]
    cases x <;> simp [show s.pulls[j]? = _ from serves]

/-! ## Runs -/

theorem Tended.step (tended : Tended s) (undisturbed : Undisturbed s a) (stepped : Steps c s a t new) :
    Tended t := by
  obtain ⟨⟨es, run⟩, staffed⟩ := tended
  have attended := System.run_attended run
  have advances {sys : System} {b : Act} (quiet : s.sys.Undisturbed b)
      (action : s.sys.step b = some sys) :
      ∃ es, Mealy.Run System.machine System.Undisturbed (System.initial, []) es sys :=
    ⟨_, run.next quiet (show System.machine.step s.sys b = some (sys, []) by
      simp [System.machine, action])⟩
  cases stepped with
  | @begins i late _ _ stepped =>
      have gentle : Gentle s (.worker i (.begins late)) := undisturbed
      refine ⟨⟨es, run⟩, staffed.elim (fun fails => .inl ?_) fun staffed => ?_⟩
      · exact fails_stay (LaunchWorkers.step_cases stepped) fails
      · exact staffed.launch gentle stepped (by simp) (.inr ⟨_, _, rfl, rfl⟩)
  | @launch b _ _ _ stepped may =>
      have gentle : Gentle s b := undisturbed
      refine ⟨⟨es, run⟩, staffed.elim (fun fails => .inl ?_) fun staffed => ?_⟩
      · exact fails_stay (LaunchWorkers.step_cases stepped) fails
      · exact staffed.launch gentle stepped may (.inl rfl)
  | @hands i m w sys worker asking running action =>
      refine ⟨advances (b := .hand m) trivial action, staffed.imp id fun staffed => ?_⟩
      have bound := (List.getElem?_eq_some_iff.mp asking).1
      refine staffed.acts action (by simp) (fun {j x} serves _ => ?_) (fun {x} pending fresh => ?_)
        (told_set (by simp))
      · refine serves_set serves ?_
        rintro rfl
        cases x <;> simp [State.Serves, asking] at serves
      · rcases System.pending_before action pending with old | ⟨rfl, -⟩ | ⟨-, _, _, _, other⟩
        · exact absurd old fresh
        · exact ⟨i, w, worker, running, by simp [State.Serves, bound]⟩
        · cases other
  | tellsEmpty asking =>
      exact ⟨⟨es, run⟩, staffed.imp id fun staffed =>
        staffed.toldEmpty attended asking undisturbed⟩
  | @receives i k cfg call w sys progress worker answered running action linked goesOn =>
      refine ⟨advances (b := .receive k cfg call) (undisturbed k) action,
        staffed.imp id fun staffed => ?_⟩
      have bound := (List.getElem?_eq_some_iff.mp answered).1
      refine staffed.acts action (by simp) (fun {j x} serves pending => ?_)
        (fun {x} pending fresh => ?_) ?_
      · refine serves_set serves ?_
        rintro rfl
        cases x with
        | answer l =>
            obtain rfl : k = l := by simpa [State.Serves, answered] using serves
            exact System.not_pending_received action pending
        | delivery d => simp [State.Serves, answered] at serves
      · rcases System.pending_before action pending with old | ⟨-, _, other⟩ | ⟨rfl, -⟩
        · exact absurd old fresh
        · cases other
        · obtain ⟨a, attempt, -⟩ := pending
          have grown := (List.getElem?_eq_some_iff.mp attempt).1
          exact ⟨i, w, worker, running, by simp [State.Serves, bound, linked grown]⟩
      · exact told_set goesOn
  | queue other action =>
      obtain ⟨quiet, pushes, handed⟩ := undisturbed
      refine ⟨advances quiet action, staffed.imp id fun staffed => ?_⟩
      refine staffed.acts action pushes (fun serves _ => serves) (fun {x} pending fresh => ?_) id
      rcases System.pending_before action pending with old | ⟨-, m, rfl⟩ | ⟨-, _, _, _, rfl⟩
      · exact absurd old fresh
      · exact absurd rfl (handed m)
      · exact absurd rfl (other _ _ _)

theorem run_tended {numWorkers : Nat} {log : List LaunchWorkers.Event}
    (run : Mealy.Run (machine c) Undisturbed (initial numWorkers, []) log s) : Tended s := by
  refine run.state_invariant ⟨⟨_, .refl⟩, .inr ?_⟩ fun s a t new tended undisturbed action =>
    tended.step undisturbed (step_cases action)
  refine ⟨⟨rfl, rfl, rfl⟩, ?_, by simp [initial, LaunchWorkers.initial], fun {x} pending => ?_,
    by simp [initial, System.initial]⟩
  · intro w member
    obtain ⟨-, rfl⟩ := List.mem_replicate.mp member
    exact ⟨rfl, by simp, by simp⟩
  · cases x <;> simp [System.Pending, initial, System.initial] at pending

/-- When all workers have returned, the queue is empty: every task has been executed by a callback
that returned, or given up into the dead-letter queue. -/
theorem workers_drain_queue {numWorkers : Nat} {log : List LaunchWorkers.Event}
    (run : Mealy.Run (machine c) Undisturbed (initial numWorkers, []) log s)
    (returned : ∀ w ∈ s.launch.workers, w.pc = .ended .returned) {m : MessageId} {task : Task}
    (pushed : s.sys.pushed m = some task) : s.sys.service.queue m = none ∧
      ((∃ content, (m, content) ∈ s.sys.service.deadLetter) ∨ System.Executed s.sys m) := by
  obtain ⟨⟨es, acts⟩, staffed⟩ := run_tended run
  have empty : s.sys.service.queue m = none := by
    rcases staffed with ⟨w, member, exc, left⟩ | staffed
    · simp [returned w member, LaunchWorkers.Pc.leaving?] at left
    · by_contra queued
      obtain ⟨message, stored⟩ := Option.ne_none_iff_exists'.mp queued
      obtain ⟨i, w, worker, looking, -⟩ := staffed.looking stored
      exact looking_not_returned looking (returned w (List.mem_of_getElem? worker))
  exact ⟨empty, System.run_accountable acts m task pushed empty⟩

/-! ## One worker and one task -/

def helloState (pc : LaunchWorkers.Pc) (pull : LaunchWorkers.Pull) (completed : List LaunchWorkers.Outcome)
    (sys : System) (progress : Progress) : State where
  launch := { workers := [{ pc := pc, pull := pull, shutdownTask := .waiting }], completed := completed }
  sys := sys
  pulls := [progress]

def helloDeleted (pc : Pc) (answered : List Event) : System :=
  System.helloQueue none 2 [System.helloAnswer true] [System.helloAttempt pc answered]
    [(0, .settle (.deleteMessage 1), 1)]

def helloDone : System :=
  helloDeleted (.finished (.returned true)) [.answered (.deleteMessage 1) true]

section

variable (log : List LaunchWorkers.Event)

theorem hello_begun : Mealy.Run (machine ⟨10, false⟩) Undisturbed (initial 1, []) [.worker 0 .began]
    (helloState .waiting .running [] System.helloQueued .asking) := by
  have looks : Undisturbed (initial 1) (.queue (.push 0 helloTask)) := by
    refine ⟨trivial, ?_, by simp⟩
    rintro _ _ ⟨⟩
    exact ⟨0, _, rfl, ⟨rfl, by simp⟩, by simp [initial]⟩
  have pushed : (machine ⟨10, false⟩).step (initial 1) (.queue (.push 0 helloTask)) =
      some (⟨LaunchWorkers.initial 1, System.helloQueued, [.asking]⟩, []) := rfl
  have enters : (machine ⟨10, false⟩).step ⟨LaunchWorkers.initial 1, System.helloQueued, [.asking]⟩
      (.launch (.worker 0 .proceeds)) =
      some (⟨{ workers := [{ pc := .ready }] }, System.helloQueued, [.asking]⟩, []) := rfl
  have begins : (machine ⟨10, false⟩).step
      ⟨{ workers := [{ pc := .ready }] }, System.helloQueued, [.asking]⟩
      (.launch (.worker 0 (.begins false))) =
      some (helloState .waiting .running [] System.helloQueued .asking, [.worker 0 .began]) := rfl
  have quiet : Undisturbed ⟨LaunchWorkers.initial 1, System.helloQueued, [.asking]⟩
      (.launch (.worker 0 .proceeds)) := trivial
  have early : Undisturbed ⟨{ workers := [{ pc := .ready }] }, System.helloQueued, [.asking]⟩
      (.launch (.worker 0 (.begins false))) := rfl
  exact .head looks pushed (.head quiet enters (.head early begins .refl))

theorem hello_received : Mealy.Run (machine ⟨10, false⟩) Undisturbed
    (helloState .waiting .running [] System.helloQueued .asking, log) log
    (helloState .waiting .running [] System.helloReceived (.executing 0)) := by
  have hands : (machine ⟨10, false⟩).step
      (helloState .waiting .running [] System.helloQueued .asking) (.hands 0 0) =
      some (helloState .waiting .running [] System.helloHanded (.answered 0), []) := by
    simp [machine, step, stepHands, State.isAsking, helloState, System.hello_handed]
    rfl
  have receives : (machine ⟨10, false⟩).step
      (helloState .waiting .running [] System.helloHanded (.answered 0))
      (.receives 0 (Delivery.plainConfig .storageQueue) (.ended (.returned .null))) =
      some (helloState .waiting .running [] System.helloReceived (.executing 0), []) := by
    have received : System.helloHanded.receive 0 (Delivery.plainConfig .storageQueue)
        (.ended (.returned .null)) = some System.helloReceived := System.hello_receives
    simp [machine, step, stepReceives, helloState, received]
    rfl
  have asked : Undisturbed (helloState .waiting .running [] System.helloQueued .asking)
      (.hands 0 0) := trivial
  have calm : Undisturbed (helloState .waiting .running [] System.helloHanded (.answered 0))
      (.receives 0 (Delivery.plainConfig .storageQueue) (.ended (.returned .null))) := by
    refine fun _ => ⟨rfl, ?_⟩
    rintro _ ⟨⟩
    rfl
  simpa using Mealy.Run.head asked hands (.head calm receives .refl)

theorem hello_delivered : Mealy.Run (machine ⟨10, false⟩) Undisturbed
    (helloState .waiting .running [] System.helloReceived (.executing 0), log) log
    (helloState .waiting .running [] helloDone (.executing 0)) := by
  let asked := helloDeleted (.settling .complete (.deleteMessage 1)) []
  have deletes : System.step System.helloReceived (.serve 0 (.settle (.deleteMessage 1))) =
      some asked := by
    simp [System.step, System.serve, System.helloReceived, System.helloQueue, asked, helloDeleted,
      System.helloAttempt, calls, Event.call?, Service.perform, Service.holds, Service.setMessage]
    funext m
    by_cases here : m = 0 <;> simp [here]
  have deleted : (machine ⟨10, false⟩).step
      (helloState .waiting .running [] System.helloReceived (.executing 0))
      (.queue (.serve 0 (.settle (.deleteMessage 1)))) =
        some (helloState .waiting .running [] asked (.executing 0), []) := by
    simp [machine, QueueWorkers.step, stepQueue, helloState, deletes]
  have answered : (machine ⟨10, false⟩).step
      (helloState .waiting .running [] asked (.executing 0))
      (.queue (.advance 0 (.answer (.ok ())))) =
        some (helloState .waiting .running [] helloDone (.executing 0), []) := rfl
  have awaited : Undisturbed (helloState .waiting .running [] System.helloReceived (.executing 0))
      (.queue (.serve 0 (.settle (.deleteMessage 1)))) := by
    refine ⟨?_, by simp, by simp⟩
    rintro _ ⟨⟩
    exact ⟨_, rfl⟩
  have honest : Undisturbed (helloState .waiting .running [] asked (.executing 0))
      (.queue (.advance 0 (.answer (.ok ())))) := by
    refine ⟨?_, by simp, by simp⟩
    rintro _ ⟨⟩
    exact ⟨_, _, _, rfl, rfl⟩
  simpa using Mealy.Run.head awaited deleted (.head honest answered .refl)

/-- The worker counts the success, looks again, and returns. -/
theorem hello_returns : ∃ log', Mealy.Run (machine ⟨10, false⟩) Undisturbed
    (helloState .waiting .running [] helloDone (.executing 0), log) log'
    (helloState (.ended .returned) (.ended (.raised .emptyQueue)) [.returned] helloDone
      .toldEmpty) := by
  let state := fun pc pull completed progress => helloState pc pull completed helloDone progress
  let empty : LaunchWorkers.Pull := .ended (.raised .emptyQueue)
  have proceeds (s : State) : Undisturbed s (.launch (.worker 0 .proceeds)) := trivial
  have ends : Undisturbed (state .waiting .running [] (.executing 0))
      (.launch (.worker 0 (.pullEnds (.returned true)))) := by
    intro k serves
    cases serves
  have early : Undisturbed (state .ready (.ended (.returned true)) [] (.executing 0))
      (.launch (.worker 0 (.begins false))) := rfl
  have nothing : Undisturbed (state .waiting .running [] .asking) (.tellsEmpty 0) := by
    intro m message stored
    have absent : helloDone.service.queue m = none := by
      show (if m = 0 then none else none) = none
      simp
    have stored : helloDone.service.queue m = some message := stored
    simp [absent] at stored
  have idle : Undisturbed (state .waiting .running [] .toldEmpty)
      (.launch (.worker 0 (.pullEnds (.raised .emptyQueue)))) := by
    intro k serves
    cases serves
  have ended : (machine ⟨10, false⟩).step (state .waiting .running [] (.executing 0))
      (.launch (.worker 0 (.pullEnds (.returned true)))) =
        some (state .waiting (.ended (.returned true)) [] (.executing 0),
          [.worker 0 (.pullEnded (.returned true))]) := rfl
  have counts : (machine ⟨10, false⟩).step
      (state .waiting (.ended (.returned true)) [] (.executing 0))
      (.launch (.worker 0 .proceeds)) =
        some (state (.cleaningUp .again) (.ended (.returned true)) [] (.executing 0), []) := rfl
  have again : (machine ⟨10, false⟩).step
      (state (.cleaningUp .again) (.ended (.returned true)) [] (.executing 0))
      (.launch (.worker 0 .proceeds)) =
        some (state .ready (.ended (.returned true)) [] (.executing 0), []) := rfl
  have begins : (machine ⟨10, false⟩).step (state .ready (.ended (.returned true)) [] (.executing 0))
      (.launch (.worker 0 (.begins false))) =
        some (state .waiting .running [] .asking, [.worker 0 .began]) := rfl
  have told : (machine ⟨10, false⟩).step (state .waiting .running [] .asking) (.tellsEmpty 0) =
      some (state .waiting .running [] .toldEmpty, []) := rfl
  have finds : (machine ⟨10, false⟩).step (state .waiting .running [] .toldEmpty)
      (.launch (.worker 0 (.pullEnds (.raised .emptyQueue)))) =
        some (state .waiting empty [] .toldEmpty,
          [.worker 0 (.pullEnded (.raised .emptyQueue))]) := rfl
  have leaves : (machine ⟨10, false⟩).step (state .waiting empty [] .toldEmpty)
      (.launch (.worker 0 .proceeds)) =
        some (state (.cleaningUp (.leave .returned)) empty [] .toldEmpty, []) := rfl
  have cleans : (machine ⟨10, false⟩).step
      (state (.cleaningUp (.leave .returned)) empty [] .toldEmpty)
      (.launch (.worker 0 .proceeds)) =
        some (state (.leaving .returned) empty [] .toldEmpty, []) := rfl
  have returns : (machine ⟨10, false⟩).step (state (.leaving .returned) empty [] .toldEmpty)
      (.launch (.worker 0 .proceeds)) =
        some (state (.ended .returned) empty [.returned] .toldEmpty,
          [.worker 0 (.ended .returned)]) := rfl
  exact ⟨_, .head ends ended (.head (proceeds _) counts (.head (proceeds _) again
    (.head early begins (.head nothing told (.head idle finds (.head (proceeds _) leaves
      (.head (proceeds _) cleans (.head (proceeds _) returns .refl))))))))⟩

end

theorem workers_drain_queue_hello :
    helloDone.service.queue 0 = none ∧ ((∃ content, (0, content) ∈ helloDone.service.deadLetter) ∨
      System.Executed helloDone 0) := by
  obtain ⟨log, returns⟩ := hello_returns _
  have run := ((hello_begun.trans (hello_received _)).trans (hello_delivered _)).trans returns
  exact workers_drain_queue run (by simp [helloState]) rfl

end JobQ.QueueWorkers
