import JobQ.Model.HeartbeatWorker
import JobQ.Proof.Renewal

/-!
# When the heartbeat ends with the context

Leaving the context normally stops the heartbeat. An exception leaves it alone: unless it has been
told to stop before, or has ended, it keeps the message reserved for as long as the process lives.
-/

namespace JobQ.StorageQueue.HeartbeatWorker

def Quiet (w : HeartbeatWorker) : Prop :=
  ∀ log v, Mealy.Run machine Mealy.always (w, []) log v → ∀ popReceipt, .sent popReceipt ∉ log

def EndsWith (w : HeartbeatWorker) (how : Exit) : Prop :=
  ∀ log v, Mealy.Run machine Mealy.always (w.exit how, []) log v → v.phase = .exited → Quiet v

variable {w v : HeartbeatWorker} {a : WorkerAction} {new log : List RenewalEvent}

def Stopped (w : HeartbeatWorker) : Prop := w.renewal.stop = true ∨ w.renewal.isOver = true

def Interruptible (w : HeartbeatWorker) : Prop :=
  w.renewal.loop ≠ .absent ∧ ∀ attempt, w.renewal.loop ≠ .backoff attempt

theorem heartbeat_sent {r t : Renewal} {a : RenewalAction} {popReceipt : Receipt}
    {events : List RenewalEvent} (action : heartbeat r a = some (t, events))
    (sent : .sent popReceipt ∈ events) : r.stop = false ∧ r.isOver = false := by
  cases a with
  | wake now =>
      simp only [heartbeat] at action
      split at action
      all_goals first
        | contradiction
        | rename_i loop
          split at action <;> cases action
          · cases sent
          · rename_i running
            exact ⟨by simpa using running, by simp [Renewal.isOver, loop]⟩
  | answer a now =>
      simp only [heartbeat] at action
      split at action
      · split at action
        · cases action
          simp at sent
        · split at action <;> cases action <;> simp at sent
        · cases action
          simp at sent
      · contradiction

theorem Stopped.heartbeat {a : RenewalAction} {r : Renewal} {events : List RenewalEvent}
    (stopped : Stopped w) (action : heartbeat w.renewal a = some (r, events)) :
    r.stop = true ∧ ∀ popReceipt, .sent popReceipt ∉ events := by
  have stepped := Renewal.heartbeat_cases action
  have told : w.renewal.stop = true := by
    rcases stopped with stop | ceased
    · exact stop
    · simp [stepped.alive] at ceased
  refine ⟨stepped.stop.trans told, fun popReceipt sent => ?_⟩
  simp [(heartbeat_sent action sent).1] at told

theorem Stopped.exit (stopped : Stopped w) (how : Exit) : Stopped (w.exit how) := by
  cases how with
  | normal => exact .inl rfl
  | exception => exact stopped

theorem Stopped.step (stopped : Stopped w) (action : step w a = some (v, new)) :
    Stopped v ∧ ∀ popReceipt, .sent popReceipt ∉ new := by
  cases a with
  | renewal a =>
      simp only [HeartbeatWorker.step] at action
      split at action <;> cases action
      rename_i moved
      have quiet := stopped.heartbeat moved
      exact ⟨.inl quiet.1, quiet.2⟩
  | cancelHeartbeat =>
      simp only [HeartbeatWorker.step] at action
      split at action <;> cases action
      exact ⟨.inl rfl, by simp⟩
  | exit how =>
      simp only [HeartbeatWorker.step] at action
      split at action <;> cases action
      exact ⟨stopped.exit how, by simp⟩
  | resume =>
      simp only [HeartbeatWorker.step] at action
      split at action <;> cases action
      exact ⟨stopped, by simp⟩
  | cancel =>
      simp only [HeartbeatWorker.step] at action
      split at action <;> cases action
      exact ⟨stopped, by simp⟩

theorem Stopped.run (stopped : Stopped w) (run : Mealy.Run machine Mealy.always (w, []) log v) :
    Stopped v ∧ ∀ popReceipt, .sent popReceipt ∉ log := by
  apply run.invariant (P := fun log v => Stopped v ∧ ∀ popReceipt, .sent popReceipt ∉ log)
    ⟨stopped, by simp⟩
  rintro log v a u new ⟨stopped, quiet⟩ _ action
  have next := stopped.step action
  refine ⟨next.1, fun popReceipt member => ?_⟩
  rcases List.mem_append.mp member with old | new
  · exact quiet popReceipt old
  · exact next.2 popReceipt new

theorem not_quiet (running : ¬ Stopped w) (interruptible : Interruptible w) : ¬ Quiet w := by
  intro quiet
  simp only [Stopped, not_or, Bool.not_eq_true] at running
  obtain ⟨stop, alive⟩ := running
  have wakes (log : List RenewalEvent) (r : Renewal) (stop : r.stop = false)
      (loop : r.loop = .ready ∨ r.loop = .sleeping)
      (run : Mealy.Run machine Mealy.always (w, []) log { w with renewal := r }) : False := by
    have sends : machine.step { w with renewal := r } (.renewal (.wake 0)) =
        some ({ w with renewal := { r with loop := .inFlight 0 } }, [.sent r.popReceipt]) := by
      rcases loop with loop | loop <;> simp [machine, step, heartbeat, loop, stop]
    have later := run.next trivial sends
    exact quiet _ _ later r.popReceipt (by simp)
  cases loop : w.renewal.loop with
  | absent => exact interruptible.1 loop
  | ready => exact wakes [] w.renewal stop (.inl loop) .refl
  | sleeping => exact wakes [] w.renewal stop (.inr loop) .refl
  | inFlight attempt =>
      let r : Renewal := { w.renewal with loop := .sleeping }
      have fails : machine.step w (.renewal (.answer .error 0)) =
          some ({ w with renewal := r }, [.answered .error]) := by
        simp [machine, step, heartbeat, loop, r]
      exact wakes [.answered .error] r stop (.inr rfl) (.next .refl trivial fails)
  | backoff attempt => exact interruptible.2 attempt loop
  | done => simp [Renewal.isOver, loop] at alive

theorem Interruptible.step (interruptible : Interruptible w) (action : step w a = some (v, new)) :
    Interruptible v := by
  cases a with
  | renewal a =>
      simp only [HeartbeatWorker.step] at action
      split at action <;> cases action
      rename_i moved
      rcases Renewal.heartbeat_loop moved with loop | loop | loop <;> simp [Interruptible, loop]
  | cancelHeartbeat =>
      simp only [HeartbeatWorker.step] at action
      split at action <;> cases action
      exact interruptible
  | exit how =>
      simp only [HeartbeatWorker.step] at action
      split at action <;> cases action
      cases how <;> exact interruptible
  | resume =>
      simp only [HeartbeatWorker.step] at action
      split at action <;> cases action
      exact interruptible
  | cancel =>
      simp only [HeartbeatWorker.step] at action
      split at action <;> cases action
      exact interruptible

/-- In every state of every run, leaving the context ends the heartbeat exactly when it is left
normally, or the heartbeat was stopped before. -/
theorem heartbeat_ends_iff {popReceipt : Receipt}
    (run : Mealy.Run machine Mealy.always (entered popReceipt, []) log w) (how : Exit) :
    EndsWith w how ↔ how = .normal ∨ Stopped w := by
  have interruptible : Interruptible w := by
    apply run.state_invariant (P := Interruptible)
    · exact ⟨nofun, nofun⟩
    · intro _ _ _ _ interruptible _ action
      exact interruptible.step action
  constructor
  · intro ends
    cases how with
    | normal => exact .inl rfl
    | exception =>
        right
        by_contra running
        exact not_quiet (w := w.exit .exception) running interruptible (ends _ _ .refl rfl)
  · intro condition log v left _ later u onward
    have stopped : Stopped (w.exit how) := by
      rcases condition with rfl | stopped
      · exact .inl rfl
      · exact stopped.exit how
    exact ((stopped.run left).1.run onward).2

/-- After a renewal that failed, and with the next one in flight. -/
def renewing : HeartbeatWorker := ⟨.body, { loop := .inFlight 0, popReceipt := 7 }⟩

/-- In the middle of a renewal the context has to be left normally, or the heartbeat to be cancelled
first. -/
theorem heartbeat_ends_renewing : EndsWith renewing .normal ∧ ¬ EndsWith renewing .exception ∧
    EndsWith { renewing with renewal := { renewing.renewal with stop := true } } .exception := by
  have run : Mealy.Run machine Mealy.always (entered 7, [])
      [.sent 7, .answered .error, .sent 7] renewing := by
    have steps : Mealy.exec machine (entered 7, []) [.renewal (.wake 0), .renewal (.answer .error 1),
        .renewal (.wake 61)] = some (renewing, [.sent 7, .answered .error, .sent 7]) := rfl
    exact .of_exec (by simp) steps
  have cancelled := run.next (a := .cancelHeartbeat) trivial rfl
  refine ⟨(heartbeat_ends_iff run .normal).mpr (.inl rfl), fun ends => ?_,
    (heartbeat_ends_iff cancelled .exception).mpr (.inr (.inl rfl))⟩
  rcases (heartbeat_ends_iff run .exception).mp ends with how | stop | ceased
  · cases how
  · cases stop
  · cases ceased

/-- A message that cannot be deserialized stays reserved: the exception leaves the context before
the heartbeat has run at all. -/
theorem heartbeat_survives : ¬ ∀ popReceipt log w how,
    Mealy.Run machine Mealy.always (entered popReceipt, []) log w → w.phase = .body →
    EndsWith w how := by
  intro law
  apply not_quiet (w := (entered 0).exit .exception)
  · simp [Stopped, HeartbeatWorker.exit, entered, Renewal.isOver]
  · simp [Interruptible, HeartbeatWorker.exit, entered]
  · exact law 0 [] (entered 0) .exception .refl rfl [] _ .refl rfl

end JobQ.StorageQueue.HeartbeatWorker
