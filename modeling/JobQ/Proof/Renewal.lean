import JobQ.Library.Machine
import JobQ.Model.Renewal

/-!
# What one step of a renewal task can do
-/

namespace JobQ

def RenewalAnswer.receipt (backend : Backend) (old : Receipt) : RenewalAnswer → Receipt
  | .ok popReceipt =>
    match backend with
    | .storageQueue => popReceipt
    | .serviceBus => old
  | _ => old

def RenewalAction.goesWell : RenewalAction → Bool
  | .wake _ | .answer (.ok _) _ => true
  | _ => false

namespace Renewal

inductive Steps (backend : Backend) (r : Renewal) :
    RenewalAction → Renewal × List RenewalEvent → Prop
  | sends {now : Rat} {attempt : Nat} (alive : r.isOver = false) (idle : r.isInFlight = false)
      (unstopped : r.stop = false ∨ ∃ failed, r.loop = .backoff failed) :
      Steps backend r (.wake now) ({ r with loop := .inFlight attempt }, [.sent r.popReceipt])
  | idles {now lastSuccess : Rat} {loop : Loop} (alive : r.isOver = false)
      (idle : r.isInFlight = false) (waits : ∀ attempt, loop ≠ .inFlight attempt) :
      Steps backend r (.wake now) ({ r with loop := loop, lastSuccess := lastSuccess }, [])
  | answers {a : RenewalAnswer} {now : Rat} {t : Renewal} (flying : r.isInFlight = true)
      (landed : t.isInFlight = false) (stop : t.stop = r.stop)
      (receipt : t.popReceipt = a.receipt backend r.popReceipt)
      (kept : r.lockLost = true → t.lockLost = true)
      (lost : a.meansLost backend = true → backend = .storageQueue ∨ r.stop = false →
        t.lockLost = true) :
      Steps backend r (.answer a now) (t, [.answered a])

theorem heartbeat_cases {r : Renewal} {a : RenewalAction} {next : Renewal × List RenewalEvent}
    (action : StorageQueue.heartbeat r a = some next) : Steps .storageQueue r a next := by
  cases a with
  | wake now =>
      simp only [StorageQueue.heartbeat] at action
      split at action
      all_goals first
        | contradiction
        | rename_i loop
          split at action <;> cases action
          · exact .idles (by simp [isOver, loop]) (by simp [isInFlight, loop]) nofun
          · rename_i unstopped
            exact .sends (by simp [isOver, loop]) (by simp [isInFlight, loop])
              (.inl (by simpa using unstopped))
  | answer a now =>
      simp only [StorageQueue.heartbeat] at action
      split at action
      · rename_i loop
        have flying : r.isInFlight = true := by simp [isInFlight, loop]
        split at action
        · cases action
          exact .answers flying rfl rfl rfl id nofun
        · split at action <;> cases action
          · exact .answers flying rfl rfl rfl (fun _ => rfl) fun _ _ => rfl
          · rename_i other
            exact .answers flying rfl rfl rfl id fun lost => by
              simp [RenewalAnswer.meansLost] at lost
              exact absurd lost other
        · cases action
          exact .answers flying rfl rfl rfl id nofun
      · contradiction

structure Landed (r t : Renewal) : Prop where
  landed : t.isInFlight = false
  stop : t.stop = r.stop
  popReceipt : t.popReceipt = r.popReceipt
  kept : r.lockLost = true → t.lockLost = true

theorem loopHead_landed (cfg : RenewalConfig) (now : Rat) (r : Renewal) :
    Landed r (ServiceBus.loopHead cfg now r) := by
  unfold ServiceBus.loopHead
  split <;> exact ⟨rfl, rfl, rfl, id⟩

theorem endOfCycle_landed (cfg : RenewalConfig) (now : Rat) (r : Renewal) :
    Landed r (ServiceBus.endOfCycle cfg now r) := by
  unfold ServiceBus.endOfCycle
  split
  · have next := loopHead_landed cfg now { r with lockLostLogged := true, lockLost := true }
    exact ⟨next.landed, next.stop, next.popReceipt, fun _ => next.kept rfl⟩
  · exact loopHead_landed cfg now r

theorem failedAttempt_landed (cfg : RenewalConfig) (now : Rat) (attempt : Nat) (r : Renewal) :
    Landed r (ServiceBus.failedAttempt cfg now attempt r) := by
  unfold ServiceBus.failedAttempt
  split
  · exact ⟨rfl, rfl, rfl, id⟩
  · split
    · exact ⟨rfl, rfl, rfl, id⟩
    · exact endOfCycle_landed cfg now r

theorem renewLoop_cases {cfg : RenewalConfig} {r : Renewal} {a : RenewalAction}
    {next : Renewal × List RenewalEvent} (action : ServiceBus.renewLoop cfg r a = some next) :
    Steps .serviceBus r a next := by
  cases a with
  | wake now =>
      simp only [ServiceBus.renewLoop] at action
      split at action
      · rename_i loop
        cases action
        have alive : r.isOver = false := by simp [isOver, loop]
        have idle : r.isInFlight = false := by simp [isInFlight, loop]
        unfold ServiceBus.loopHead
        split <;> exact .idles alive idle nofun
      · rename_i loop
        have alive : r.isOver = false := by simp [isOver, loop]
        have idle : r.isInFlight = false := by simp [isInFlight, loop]
        split at action <;> cases action
        · exact .idles alive idle nofun
        · rename_i unstopped
          exact .sends alive idle (.inl (by simpa using unstopped))
      · rename_i failed loop
        cases action
        exact .sends (by simp [isOver, loop]) (by simp [isInFlight, loop]) (.inr ⟨failed, loop⟩)
      · contradiction
  | answer a now =>
      simp only [ServiceBus.renewLoop] at action
      split at action
      · rename_i attempt loop
        have flying : r.isInFlight = true := by simp [isInFlight, loop]
        have failed := failedAttempt_landed cfg now attempt r
        split at action
        · cases action
          have next := endOfCycle_landed cfg now
            { r with lastSuccess := now, lockLostLogged := false }
          exact .answers flying next.landed next.stop next.popReceipt next.kept nofun
        · split at action
          · split at action <;> cases action
            · rename_i stopped
              exact .answers flying rfl rfl rfl id fun _ expected => by simp [stopped] at expected
            · exact .answers flying rfl rfl rfl (fun _ => rfl) fun _ _ => rfl
          · cases action
            rename_i other
            exact .answers flying failed.landed failed.stop failed.popReceipt failed.kept
              fun lost => by simp [RenewalAnswer.meansLost, other] at lost
        · cases action
          exact .answers flying failed.landed failed.stop failed.popReceipt failed.kept nofun
      · contradiction

theorem step_cases {backend : Backend} {cfg : RenewalConfig} {r : Renewal} {a : RenewalAction}
    {next : Renewal × List RenewalEvent} (action : r.step backend cfg a = some next) :
    Steps backend r a next := by
  cases backend with
  | storageQueue => exact heartbeat_cases action
  | serviceBus => exact renewLoop_cases action

theorem Steps.stop {backend : Backend} {r : Renewal} {a : RenewalAction}
    {next : Renewal × List RenewalEvent} (stepped : Steps backend r a next) :
    next.1.stop = r.stop := by
  cases stepped with
  | sends => rfl
  | idles => rfl
  | answers _ _ stop => exact stop

theorem isOver_not_inFlight {r : Renewal} (ceased : r.isOver = true) : r.isInFlight = false := by
  simp only [isOver, decide_eq_true_eq] at ceased
  rcases ceased with absent | done
  · simp [isInFlight, absent]
  · simp [isInFlight, done]

theorem Steps.alive {backend : Backend} {r : Renewal} {a : RenewalAction}
    {next : Renewal × List RenewalEvent} (stepped : Steps backend r a next) : r.isOver = false := by
  cases stepped with
  | sends alive => exact alive
  | idles alive => exact alive
  | answers flying =>
      by_contra ceased
      simp [isOver_not_inFlight (by simpa using ceased)] at flying

section

variable {backend : Backend} {cfg : RenewalConfig} {r t : Renewal} {a : RenewalAction}
  {events : List RenewalEvent} (action : r.step backend cfg a = some (t, events))
include action

theorem step_stop : t.stop = r.stop := (step_cases action).stop

theorem step_alive : r.isOver = false := (step_cases action).alive

end

theorem step_lost {backend : Backend} {cfg : RenewalConfig} {r t : Renewal} {a : RenewalAnswer}
    {now : Rat} {events : List RenewalEvent}
    (action : r.step backend cfg (.answer a now) = some (t, events))
    (lost : a.meansLost backend = true) (told : backend = .storageQueue ∨ r.stop = false) :
    t.lockLost = true := by
  generalize same : (t, events) = next at action
  cases step_cases action with
  | answers _ _ _ _ _ noticed => cases same; exact noticed lost told

theorem step_events {backend : Backend} {cfg : RenewalConfig} {r t : Renewal} {a : RenewalAction}
    {events : List RenewalEvent} (action : r.step backend cfg a = some (t, events))
    {answer : RenewalAnswer} (member : .answered answer ∈ events) : ∃ now, a = .answer answer now := by
  generalize same : (t, events) = next at action
  cases step_cases action with
  | sends => cases same; simp at member
  | idles => cases same; simp at member
  | answers =>
      cases same
      simp only [List.mem_singleton, RenewalEvent.answered.injEq] at member
      exact ⟨_, by rw [member]⟩

theorem step_lockLost {backend : Backend} {cfg : RenewalConfig} {r t : Renewal} {a : RenewalAction}
    {events : List RenewalEvent} (action : r.step backend cfg a = some (t, events))
    (lost : r.lockLost = true) : t.lockLost = true := by
  generalize same : (t, events) = next at action
  cases step_cases action with
  | sends => cases same; exact lost
  | idles => cases same; exact lost
  | answers _ _ _ _ kept => cases same; exact kept lost

theorem heartbeat_loop {r t : Renewal} {a : RenewalAction} {events : List RenewalEvent}
    (action : StorageQueue.heartbeat r a = some (t, events)) :
    t.loop = .done ∨ t.loop = .sleeping ∨ t.loop = .inFlight 0 := by
  cases a with
  | wake now =>
      simp only [StorageQueue.heartbeat] at action
      split at action
      all_goals first
        | contradiction
        | split at action <;> cases action <;> simp
  | answer a now =>
      simp only [StorageQueue.heartbeat] at action
      split at action
      · split at action
        · cases action
          simp
        · split at action <;> cases action <;> simp
        · cases action
          simp
      · contradiction

@[simp]
theorem abort_stop (r : Renewal) : (ServiceBus.abort r).1.stop = r.stop := by
  unfold ServiceBus.abort
  split <;> rfl

@[simp]
theorem abort_lockLost (r : Renewal) : (ServiceBus.abort r).1.lockLost = r.lockLost := by
  unfold ServiceBus.abort
  split <;> rfl

/-! ## Waiting for the end -/

def machine (backend : Backend) (cfg : RenewalConfig) :
    Mealy.Machine Renewal RenewalAction RenewalEvent := ⟨fun r a => r.step backend cfg a⟩

def Drains (backend : Backend) (cfg : RenewalConfig) (r : Renewal) : Prop :=
  ∀ log, ∃ events t,
    Mealy.Run (machine backend cfg) (fun _ a => a.goesWell = true) (r, log) events t ∧ t.isOver = true ∧ t.stop = r.stop ∧ t.lockLost = r.lockLost

section

variable {backend : Backend} {cfg : RenewalConfig} {r t : Renewal}

theorem Drains.ceased (ceased : r.isOver = true) : Drains backend cfg r :=
  fun _ => ⟨_, r, .refl, ceased, rfl, rfl⟩

theorem Drains.step {a : RenewalAction} {new : List RenewalEvent} (rest : Drains backend cfg t)
    (well : a.goesWell = true) (action : r.step backend cfg a = some (t, new)) (kept : t.lockLost = r.lockLost) :
    Drains backend cfg r := by
  intro log
  obtain ⟨events, u, run, ceased, stop, lost⟩ := rest (log ++ new)
  exact ⟨events, u, .head well action run, ceased, stop.trans (step_stop action), lost.trans kept⟩

variable (stop : r.stop = true)
include stop

theorem loopHead_over (cfg : RenewalConfig) (now : Rat) :
    ServiceBus.loopHead cfg now r = { r with loop := .done } := by
  simp [ServiceBus.loopHead, stop]

theorem sleeping_drains (loop : r.loop = .sleeping) : Drains backend cfg r := by
  have action : r.step backend cfg (.wake 0) = some ({ r with loop := .done }, []) := by
    cases backend <;>
      simp [Renewal.step, StorageQueue.heartbeat, ServiceBus.renewLoop, loop, stop]
  exact .step (.ceased rfl) rfl action rfl

theorem ready_drains (loop : r.loop = .ready) : Drains backend cfg r := by
  cases backend with
  | storageQueue =>
      have action : r.step .storageQueue cfg (.wake 0) = some ({ r with loop := .done }, []) := by
        simp [Renewal.step, StorageQueue.heartbeat, loop, stop]
      exact .step (.ceased rfl) rfl action rfl
  | serviceBus =>
      have action : r.step .serviceBus cfg (.wake 0) =
          some ({ r with loop := .done, lastSuccess := 0 }, []) := by
        simp [Renewal.step, ServiceBus.renewLoop, loop, loopHead_over, stop]
      exact .step (.ceased rfl) rfl action rfl

theorem inFlight_drains {attempt : Nat} (loop : r.loop = .inFlight attempt) :
    Drains backend cfg r := by
  cases backend with
  | storageQueue =>
      have action : r.step .storageQueue cfg (.answer (.ok r.popReceipt) 0) =
          some ({ r with loop := .sleeping }, [.answered (.ok r.popReceipt)]) := by
        simp [Renewal.step, StorageQueue.heartbeat, loop]
      refine .step ?_ rfl action rfl
      exact sleeping_drains stop rfl
  | serviceBus =>
      have action : r.step .serviceBus cfg (.answer (.ok r.popReceipt) 0) =
          some ({ r with loop := .done, lastSuccess := 0, lockLostLogged := false },
            [.answered (.ok r.popReceipt)]) := by
        have early : ¬ cfg.lockDuration < 0 :=
          Rat.not_lt.mpr (Rat.le_trans (by decide : (0 : Rat) ≤ 10) cfg.atLeast)
        simp [Renewal.step, ServiceBus.renewLoop, ServiceBus.endOfCycle, loop, loopHead_over, stop,
          early]
      exact .step (.ceased rfl) rfl action rfl

theorem drains (storage : backend = .storageQueue → ∀ attempt, r.loop ≠ .backoff attempt) :
    Drains backend cfg r := by
  cases loop : r.loop with
  | absent => exact .ceased (by simp [isOver, loop])
  | done => exact .ceased (by simp [isOver, loop])
  | ready => exact ready_drains stop loop
  | sleeping => exact sleeping_drains stop loop
  | inFlight attempt => exact inFlight_drains stop loop
  | backoff attempt =>
      cases backend with
      | storageQueue => exact absurd loop (storage rfl attempt)
      | serviceBus =>
          have action : r.step .serviceBus cfg (.wake 0) =
              some ({ r with loop := .inFlight (attempt + 1) }, [.sent r.popReceipt]) := by
            simp [Renewal.step, ServiceBus.renewLoop, loop]
          refine .step ?_ rfl action rfl
          exact inFlight_drains stop rfl

end

end Renewal

end JobQ
