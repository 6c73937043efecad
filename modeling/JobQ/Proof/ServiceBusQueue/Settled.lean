import JobQ.Proof.ServiceBusQueue.Sound

/-!
# A message is settled once

Two workers may execute a task when the lock of the first one runs out, but only the delivery with
the last lock settles the message, and at most one is told that it did.
-/

namespace JobQ.ServiceBusQueue
open Delivery PeekLock
open QueueSystem (AttemptId)

namespace System

variable {sys : System} {log : List Event} {G : System → Act → Prop} {n : Nat}

theorem removed_once (run : Mealy.Run machine G ({}, []) log sys) {how other : Removal}
    (first : .removed n how ∈ log) (second : .removed n other ∈ log) : other = how := by
  have lives := run_lives (run_broker run) n
  obtain ⟨before, after, split⟩ := List.append_of_mem first
  rw [split] at second
  rcases List.mem_append.mp second with earlier | later
  · obtain ⟨front, between, rfl⟩ := List.append_of_mem earlier
    have quiet := (lives.after_removal
      (split.trans (List.append_assoc front (.removed n other :: between) _))).2
    have absent := quiet (.removed n how) (by simp)
    simp [Event.about] at absent
  · rcases List.mem_cons.mp later with same | later
    · cases same
      rfl
    · have absent := (lives.after_removal split).2 _ later
      simp [Event.about] at absent

/-- How the delivery that was told that it had completed its message did so: its callback had
returned, its lock was the last one, and nothing happens to the message any more. -/
structure Completed (sys : System) (log : List Event) (d : AttemptId) (a : Attempt) : Prop where
  returned : ∃ ret, .callbackEnded (.returned ret) ∈ a.log
  settled : ∃ before after, log = before ++ .removed a.number (.completed a.lockToken) :: after ∧
    Current a.number before a.lockToken ∧ ∀ e ∈ after, e.about a.number = false
  gone : sys.broker.queue a.number = none
  single : ∀ (e : AttemptId) (b : Attempt), sys.attempts[e]? = some b → b.number = a.number →
    .answered .completeMessage true ∈ b.log → e = d

theorem completed_once {d : AttemptId} {a : Attempt}
    (run : Mealy.Run machine Mealy.always ({}, []) log sys)
    (attempt : sys.attempts[d]? = some a)
    (acknowledged : .answered .completeMessage true ∈ a.log) : Completed sys log d a := by
  have sound := run_sound run
  have lives := run_lives (run_broker run) a.number
  have removed := (sound.attempts attempt).acknowledged acknowledged
  obtain ⟨before, after, split⟩ := List.append_of_mem removed
  obtain ⟨gone, quiet⟩ := lives.after_removal split
  refine ⟨?_, ⟨before, after, split, lives.by_holder split (by simp [Event.token]), quiet⟩, ?_, ?_⟩
  · rcases sound.removed removed with same | ⟨e, b, found, -, asks⟩
    · cases same
    generalize how : Removal.completed a.lockToken = done at asks
    cases asks with
    | completes asked =>
        obtain rfl := sound.tokens attempt found (Removal.completed.inj how)
        rw [attempt] at found
        cases found
        exact (sound.attempts attempt).accounted.completes asked
    | givesUp => cases how
  · cases queued : sys.broker.queue a.number with
    | none => rfl
    | some message =>
        rw [status_queued queued] at gone
        cases gone
  · intro e b found number again
    have other := (sound.attempts found).acknowledged again
    rw [number] at other
    exact sound.tokens found attempt (Removal.completed.inj (removed_once run removed other))

theorem completed_once_hello :
    ∃ sys log a, Completed sys log 0 a ∧ a.task = helloTask.delivered :=
  ⟨_, _, _, completed_once (hello_completed.mono fun _ _ _ => trivial) rfl (by simp), rfl⟩

end System

end JobQ.ServiceBusQueue
