import JobQ.Model.Renewal
import Mathlib.Algebra.Order.Field.Rat
import Mathlib.Tactic.Linarith
import Mathlib.Tactic.Ring

/-!
# When a failing cycle of renewals is noticed

A cycle sleeps for the interval and makes up to three attempts, with a pause after each of the first
two. When all of them fail, the loop looks at the time since the last success. If the attempts take
as long as they may, that is after the lock has expired, whatever its duration.
-/

namespace JobQ

def RenewalAnswer.isFailure : RenewalAnswer → Bool
  | .ok _ => false
  | .status code => code ≠ 404
  | .error => true

namespace ServiceBus

/-- The attempts of a cycle in which all fail, each within its time limit. -/
structure FailingCycle (lockDuration : Rat) where
  took : Nat → Rat
  answer : Nat → RenewalAnswer
  nonnegative : ∀ attempt, 0 ≤ took attempt
  limited : ∀ attempt, took attempt ≤ perRequestTimeout lockDuration
  fails : ∀ attempt, (answer attempt).isFailure = true

namespace FailingCycle

variable {L : Rat}

/-- When an attempt is made, in the cycle after a success at `since`. -/
def asked (c : FailingCycle L) (since : Rat) : Nat → Rat
  | 0 => since + interval L
  | attempt + 1 => c.asked since attempt + c.took attempt + retryDelay attempt

def answered (c : FailingCycle L) (since : Rat) (attempt : Nat) : Rat :=
  c.asked since attempt + c.took attempt

/-- When the loop compares the time since the last success with the duration of the lock. -/
def checked (c : FailingCycle L) (since : Rat) : Rat := c.answered since maxFastRetries

def attempt (c : FailingCycle L) (since : Rat) (k : Nat) : List LoopAction :=
  [.runs (.wake (c.asked since k)), .runs (.answer (c.answer k) (c.answered since k))]

def actions (c : FailingCycle L) (since : Rat) : List LoopAction :=
  (List.range (1 + maxFastRetries)).flatMap (c.attempt since)

def events (c : FailingCycle L) (lockToken : Receipt) : List RenewalEvent :=
  (List.range (1 + maxFastRetries)).flatMap fun k => [.sent lockToken, .answered (c.answer k)]

end FailingCycle

/-- Whenever the loop goes through a cycle of failures after a success, it notices before the lock
has expired. -/
def NoticedInTime (cfg : RenewalConfig) : Prop :=
  ∀ (c : FailingCycle cfg.lockDuration) (r t : Renewal) log, r.loop = .sleeping → r.stop = false →
    Mealy.exec (lockRenewal cfg) (r, []) (c.actions r.lastSuccess) = some (t, log) →
    c.checked r.lastSuccess ≤ r.lastSuccess + cfg.lockDuration

/-! ## The cycle is a run of the loop -/

section

variable {cfg : RenewalConfig} {r : Renewal} {answer : RenewalAnswer} {attempt : Nat} {now : Rat}

theorem failure_answered (loop : r.loop = .inFlight attempt) (fails : answer.isFailure = true) :
    renewLoop cfg r (.answer answer now) =
      some (failedAttempt cfg now attempt r, [.answered answer]) := by
  cases answer with
  | ok popReceipt => cases fails
  | status code =>
      have other : code ≠ 404 := by simpa [RenewalAnswer.isFailure] using fails
      simp [renewLoop, loop, other]
  | error => simp [renewLoop, loop]

section

variable (unstopped : r.stop = false)
include unstopped

theorem retried_attempt (left : attempt < maxFastRetries) (loop : r.loop = .inFlight attempt)
    (fails : answer.isFailure = true) :
    renewLoop cfg r (.answer answer now) =
      some ({ r with loop := .backoff attempt }, [.answered answer]) := by
  rw [failure_answered loop fails]
  simp [failedAttempt, unstopped, left]

theorem last_attempt (loop : r.loop = .inFlight maxFastRetries) (fails : answer.isFailure = true) :
    renewLoop cfg r (.answer answer now) =
      some (endOfCycle cfg now r, [.answered answer]) := by
  rw [failure_answered loop fails]
  simp [failedAttempt, unstopped]

/-- After the last failure of the cycle the loop stands where it checks the time. -/
theorem FailingCycle.run (c : FailingCycle cfg.lockDuration) (since : Rat)
    (loop : r.loop = .sleeping) :
    Mealy.exec (lockRenewal cfg) (r, []) (c.actions since) =
      some (endOfCycle cfg (c.checked since) { r with loop := .inFlight maxFastRetries },
        c.events r.popReceipt) := by
  have listed : c.actions since = c.attempt since 0 ++ c.attempt since 1 ++ c.attempt since 2 := rfl
  have first : renewLoop cfg r (.wake (c.asked since 0)) =
      some ({ r with loop := .inFlight 0 }, [.sent r.popReceipt]) := by
    simp [renewLoop, loop, unstopped]
  have again (k : Nat) (now : Rat) : renewLoop cfg { r with loop := .backoff k } (.wake now) =
      some ({ r with loop := .inFlight (k + 1) }, [.sent r.popReceipt]) := rfl
  simp only [listed, FailingCycle.attempt, List.cons_append, List.nil_append, Mealy.exec,
    lockRenewal, first, again,
    retried_attempt (r := { r with loop := .inFlight 0 }) unstopped (by decide) rfl (c.fails 0),
    retried_attempt (r := { r with loop := .inFlight 1 }) unstopped (by decide) rfl (c.fails 1),
    last_attempt (r := { r with loop := .inFlight 2 }) unstopped rfl (c.fails 2)]
  rfl

end

end

/-! ## The times add up -/

variable {L : Rat}

theorem FailingCycle.checked_eq (c : FailingCycle L) (since : Rat) :
    c.checked since = since + (interval L + (c.took 0 + c.took 1 + c.took 2) + 3) := by
  have delays : retryDelay 0 = 1 ∧ retryDelay 1 = 2 := by
    constructor <;> norm_num [retryDelay]
  simp only [FailingCycle.checked, FailingCycle.answered, FailingCycle.asked, maxFastRetries,
    delays]
  ring

theorem perRequestTimeout_nonneg (L : Rat) : 0 ≤ perRequestTimeout L :=
  le_trans (by norm_num) (le_max_right _ _)

def slowest (L : Rat) : FailingCycle L where
  took _ := perRequestTimeout L
  answer _ := .error
  nonnegative _ := perRequestTimeout_nonneg L
  limited _ := le_refl _
  fails _ := rfl

theorem slowest_checked (L : Rat) (since : Rat) :
    (slowest L).checked since =
      since + (max (L / 2) 5 + 3 * max (L / 3) 5 + 1 + 2) := by
  rw [FailingCycle.checked_eq]
  simp only [slowest, interval, perRequestTimeout]
  ring

theorem never_noticed_in_time (cfg : RenewalConfig) : ¬ NoticedInTime cfg := by
  intro noticed
  have late := noticed (slowest _) { loop := .sleeping, popReceipt := 0 }
    _ _ rfl rfl (FailingCycle.run rfl _ _ rfl)
  rw [slowest_checked] at late
  have half : cfg.lockDuration / 2 ≤ max (cfg.lockDuration / 2) 5 := le_max_left _ _
  have third : cfg.lockDuration / 3 ≤ max (cfg.lockDuration / 3) 5 := le_max_left _ _
  have atLeast := cfg.atLeast
  linarith

/-- A lock of 30 seconds: the attempts are made at 15, 26 and 38 seconds, and the last one ends
at 48. -/
theorem thirty_seconds_not_noticed : ¬ NoticedInTime ⟨30, by decide, 1814400⟩ := by
  intro noticed
  have late := noticed ⟨fun _ => 10, fun _ => .error, fun _ => by norm_num,
    fun _ => by norm_num [perRequestTimeout], fun _ => rfl⟩ { loop := .sleeping, popReceipt := 0 }
    _ _ rfl rfl (FailingCycle.run rfl _ _ rfl)
  norm_num [FailingCycle.checked, FailingCycle.answered, FailingCycle.asked, maxFastRetries,
    interval, retryDelay] at late

end ServiceBus

end JobQ
