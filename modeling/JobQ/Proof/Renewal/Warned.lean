import JobQ.Model.Renewal
import Mathlib.Tactic.Linarith
import Mathlib.Tactic.NormNum

/-!
# What the end of the renewal loop says

Unless it is cancelled or told to stop, the loop of Service Bus ends after it has set
`lock_lost_event`, or at the head of the loop because the lifetime of renewals has run out.
-/

namespace JobQ

def RenewalAction.now : RenewalAction → Rat
  | .wake now | .answer _ now => now

namespace ServiceBus

variable {cfg : RenewalConfig} {r t : Renewal} {a : RenewalAction} {log new : List RenewalEvent}
  {made : List (Renewal × LoopAction × Renewal)}

/-! ## One step -/

theorem loopHead_ends {now : Rat} (ended : (loopHead cfg now r).loop = .done)
    (unstopped : (loopHead cfg now r).stop = false) : cfg.deadline ≤ now := by
  unfold loopHead at ended unstopped
  split at ended
  · cases ended
  · rename_i leaves
    rw [if_neg leaves] at unstopped
    by_contra early
    exact leaves ⟨Rat.not_le.mp early, unstopped⟩

/-- A loop that has just ended has warned of the loss, unless it was told to stop or it is late. -/
def Warns (cfg : RenewalConfig) (now : Rat) (t : Renewal) : Prop :=
  t.loop = .done → t.stop = false → t.lockLost = true ∨ cfg.deadline ≤ now

theorem loopHead_warns (cfg : RenewalConfig) (now : Rat) (r : Renewal) :
    Warns cfg now (loopHead cfg now r) :=
  fun ended unstopped => .inr (loopHead_ends ended unstopped)

theorem endOfCycle_warns (cfg : RenewalConfig) (now : Rat) (r : Renewal) :
    Warns cfg now (endOfCycle cfg now r) := by
  unfold endOfCycle
  split <;> exact loopHead_warns _ _ _

theorem failedAttempt_warns (cfg : RenewalConfig) (now : Rat) (attempt : Nat) (r : Renewal) :
    Warns cfg now (failedAttempt cfg now attempt r) := by
  unfold failedAttempt
  split
  · rename_i stopped
    intro _ unstopped
    simp [stopped] at unstopped
  · split
    · exact fun ended => nomatch ended
    · exact endOfCycle_warns cfg now r

theorem renewLoop_warns (action : renewLoop cfg r a = some (t, new)) :
    r.loop ≠ .done ∧ Warns cfg a.now t := by
  cases a with
  | wake now =>
      simp only [renewLoop] at action
      split at action
      · rename_i loop
        cases action
        exact ⟨by simp [loop], loopHead_warns _ _ _⟩
      · rename_i loop
        refine ⟨by simp [loop], ?_⟩
        split at action <;> cases action
        · rename_i stopped
          intro _ unstopped
          simp [stopped] at unstopped
        · exact fun ended => nomatch ended
      · rename_i loop
        cases action
        exact ⟨by simp [loop], fun ended => nomatch ended⟩
      · contradiction
  | answer answer now =>
      simp only [renewLoop] at action
      split at action
      · rename_i loop
        refine ⟨by simp [loop], ?_⟩
        split at action
        · cases action
          exact endOfCycle_warns _ _ _
        · split at action
          · split at action <;> cases action
            · rename_i stopped
              intro _ unstopped
              simp [stopped] at unstopped
            · exact fun _ _ => .inl rfl
          · cases action
            exact failedAttempt_warns _ _ _ _
        · cases action
          exact failedAttempt_warns _ _ _ _
      · contradiction

/-! ## Runs -/

def Uncancelled {σ : Type} (_ : σ) (a : LoopAction) : Prop := a ≠ .cancels

/-- The step that ended the loop in `r` read a clock past the lifetime of renewals. -/
def EndedLate (cfg : RenewalConfig) (made : List (Renewal × LoopAction × Renewal)) (r : Renewal) :
    Prop :=
  ∃ s a, (s, .runs a, r) ∈ made ∧ s.loop ≠ .done ∧ cfg.deadline ≤ a.now

theorem renewals_end_warned {lockToken : Receipt}
    (run : Mealy.Run (lockRenewal cfg).withTransitions Uncancelled
      ((startLockRenewal lockToken, []), []) log (r, made))
    (ended : r.loop = .done) (unstopped : r.stop = false) :
    r.lockLost = true ∨ EndedLate cfg made r := by
  have told : r.loop = .done → r.stop = false → r.lockLost = true ∨ EndedLate cfg made r := by
    refine run.state_invariant (P := fun last => last.1.loop = .done → last.1.stop = false →
      last.1.lockLost = true ∨ EndedLate cfg last.2 last.1) (fun ended => nomatch ended) ?_
    rintro ⟨r, made⟩ a ⟨t, later⟩ new - other action ended unstopped
    simp only [Mealy.Machine.withTransitions, Option.map_eq_some_iff, Prod.mk.injEq] at action
    obtain ⟨⟨u, events⟩, stepped, ⟨rfl, rfl⟩, rfl⟩ := action
    cases a with
    | runs a =>
        obtain ⟨alive, warns⟩ := renewLoop_warns stepped
        rcases warns ended unstopped with lost | late
        · exact .inl lost
        · exact .inr ⟨r, a, by simp, alive, late⟩
    | stops =>
        cases stepped
        cases unstopped
    | cancels => exact absurd rfl other
  exact told ended unstopped

def stays (_ : Renewal × List (Renewal × LoopAction × Renewal)) : LoopAction → Bool
  | .cancels => false
  | _ => true

theorem uncancelled_run {start last : Renewal × List (Renewal × LoopAction × Renewal)}
    {actions : List LoopAction}
    (steps : Mealy.execIf (lockRenewal cfg).withTransitions stays (start, []) actions =
      some (last, log)) :
    Mealy.Run (lockRenewal cfg).withTransitions Uncancelled (start, []) log last := by
  apply (Mealy.Run.of_execIf steps).mono
  rintro _ a same rfl
  cases same

theorem renewals_end_warned_hello :
    ∃ (r : Renewal) (made : List (Renewal × LoopAction × Renewal)), made.length = 3 ∧
      r.loop = .done ∧
        (r.lockLost = true ∨ EndedLate ⟨30, by decide, maxLockRenewalSeconds⟩ made r) := by
  have steps : Mealy.execIf (lockRenewal ⟨30, by decide, maxLockRenewalSeconds⟩).withTransitions
      stays ((startLockRenewal 0, []), [])
      [.runs (.wake 0), .runs (.wake 15), .runs (.answer (.status 404) 16)] =
        some ((_, _), _) := rfl
  exact ⟨_, _, rfl, rfl, renewals_end_warned (uncancelled_run steps) rfl rfl⟩

/-! ## A callback that runs for more than three weeks -/

/-- A queue with a lock duration of five minutes. -/
def fiveMinutes : RenewalConfig := ⟨300, by decide, maxLockRenewalSeconds⟩

def renewedAt (now : Rat) : Renewal := { loop := .sleeping, popReceipt := 0, lastSuccess := now }

/-- A lock that is renewed every 150 s, by requests of one second, is renewed until the deadline. -/
theorem renewed_each_time (n : Nat) (early : (151 * n : Rat) < maxLockRenewalSeconds) :
    ∃ log, Mealy.Run (lockRenewal fiveMinutes) Uncancelled (startLockRenewal 0, []) log
      (renewedAt (151 * n)) := by
  induction n with
  | zero =>
      have started : (lockRenewal fiveMinutes).step (startLockRenewal 0) (.runs (.wake 0)) =
          some (renewedAt (151 * (0 : Nat)), []) := by
        norm_num [lockRenewal, renewLoop, startLockRenewal, loopHead, renewedAt, fiveMinutes,
          maxLockRenewalSeconds]
      exact ⟨_, .next .refl (by simp [Uncancelled]) started⟩
  | succ n ih =>
      rw [Nat.cast_succ, mul_add, mul_one] at early ⊢
      obtain ⟨log, earlier⟩ := ih (by linarith)
      have asked : (lockRenewal fiveMinutes).step (renewedAt (151 * n))
          (.runs (.wake (151 * n + 150))) =
            some ({ renewedAt (151 * n) with loop := .inFlight 0 }, [.sent 0]) := rfl
      have renewed : (lockRenewal fiveMinutes).step { renewedAt (151 * n) with loop := .inFlight 0 }
          (.runs (.answer (.ok 0) (151 * n + 151))) =
            some (renewedAt (151 * n + 151), [.answered (.ok 0)]) := by
        simp [lockRenewal, renewLoop, endOfCycle, loopHead, renewedAt, fiveMinutes, early]
      exact ⟨_, (earlier.next (by simp [Uncancelled]) asked).next (by simp [Uncancelled]) renewed⟩

/-- The 12016th renewal succeeds after the deadline. -/
theorem renewals_end_silently : ¬ ∀ log r,
    Mealy.Run (lockRenewal fiveMinutes) Uncancelled (startLockRenewal 0, []) log r →
    r.loop = .done → r.stop = false → r.lockLost = true := by
  intro warned
  obtain ⟨log, run⟩ := renewed_each_time 12015 (by norm_num [maxLockRenewalSeconds])
  have asked : (lockRenewal fiveMinutes).step (renewedAt (151 * (12015 : Nat)))
      (.runs (.wake 1814415)) =
        some ({ renewedAt (151 * (12015 : Nat)) with loop := .inFlight 0 }, [.sent 0]) := rfl
  have renewed : (lockRenewal fiveMinutes).step
      { renewedAt (151 * (12015 : Nat)) with loop := .inFlight 0 }
      (.runs (.answer (.ok 0) 1814416)) =
        some ({ renewedAt 1814416 with loop := .done }, [.answered (.ok 0)]) := by
    norm_num [lockRenewal, renewLoop, endOfCycle, loopHead, renewedAt, fiveMinutes,
      maxLockRenewalSeconds]
  have lost := warned _ _
    ((run.next (by simp [Uncancelled]) asked).next (by simp [Uncancelled]) renewed) rfl rfl
  contradiction

end ServiceBus

end JobQ
