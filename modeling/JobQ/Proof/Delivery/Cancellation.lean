import JobQ.Proof.Delivery.Contract

/-!
# What a shutdown costs

A delivery that is cancelled while its callback runs should not cost the task a retry. Whether it
does is up to the callback: the handler of the cancellation reads a variable that only the
uncancelled path binds, and what the callback raises is taken for a failure of the task.
-/

namespace JobQ

def Settlement.costs : Settlement → Bool
  | .replace _ | .deadLetter _ => true
  | _ => false

namespace Delivery

/-- No run that is cancelled while the callback runs, whose callback ends with `outcome`, counts
as a failure of the task. -/
def ShutdownIsFree (task : Task) (outcome : Outcome) : Prop :=
  ∀ cfg popReceipt call log s,
    Mealy.Run (machine cfg) Mealy.always (start cfg task popReceipt call) log s →
    .cancelled true ∈ log → .callbackEnded outcome ∈ log →
    (∀ settlement ∈ settlements log, settlement.costs = false) ∧ s.pc ≠ .finished (.returned false)

variable {cfg : Config} {task : Task} {log : List Event} {s : State} {outcome : Outcome}

theorem firstRequest_none {backend : Backend} {popReceipt : Receipt} {settlement : Settlement}
    (none : firstRequest backend task popReceipt settlement = none) : settlement.costs = true := by
  cases settlement <;> cases backend <;> first | contradiction | rfl

theorem Verdict.costs {settlement : Settlement} {request : Request} {answer : Except String Unit}
    (verdict : Verdict settlement request answer (.returned false)) : settlement.costs = true := by
  cases verdict <;> rfl

theorem decision_ne_false (cfg : Config) (task : Task) (after : After) :
    decision cfg task after ≠ .leave (.returned false) := by
  intro same
  have decides := decision_cases cfg task after
  rw [same] at decides
  cases decides

theorem Ends.costs (ends : Ends cfg log s (.returned false)) :
    ∃ settlement ∈ settlements log, settlement.costs = true := by
  cases ends with
  | declined _ _ declined => exact absurd declined (decision_ne_false _ _ _)
  | skipped _ _ first single => exact ⟨_, by rw [single]; simp, firstRequest_none first⟩
  | settled underway _ verdict => exact ⟨_, by rw [underway.single]; simp, verdict.costs⟩

def shutdownExc : Outcome → Exc
  | .returned _ => .unboundLocalError "done"
  | .raised exc => exc

/-- The ends of a callback that cost nothing: it lets the cancellation through, asks for a requeue,
or has a last attempt whose reply cannot be sent or whose exception has no text. -/
def Harmless (task : Task) (outcome : Outcome) : Prop :=
  outcome = .raised .cancelledError ∨ outcome = .raised .workerCanceled ∨
    (task.numRetries ≤ 0 ∧
      (task.replyRequested = true ∨ (shutdownExc outcome).isPrintable = false))

theorem Accounted.failed_exc {lockLost lost : Bool} {exc : Exc} (accounted : Accounted cfg task log s)
    (ended : .callbackEnded outcome ∈ log) (decided : Decided cfg log lockLost (.failed exc lost)) :
    exc = shutdownExc outcome := by
  cases decided with
  | raised member | unbound member =>
      cases accounted.same_outcome ended member
      rfl
  | unreadable parameters =>
      have heard := accounted.heard outcome ended
      simp [accounted.uncalled _ parameters] at heard

theorem Harmless.free (harmless : Harmless task outcome) : ShutdownIsFree task outcome := by
  intro cfg popReceipt call log s run _ ended
  have accounted := run_accounted run
  obtain ⟨numRetries, replyRequested, -⟩ := prepared_fields cfg task
  rw [← accounted.task] at numRetries replyRequested
  have account := accounted.account
  have free : ∀ settlement ∈ settlements log, settlement.costs = false := by
    rcases account.settled with none | ⟨after, settlement, decided, settles, single⟩
    · simp [none]
    · rw [single]
      rintro _ (_ | ⟨_, ⟨⟩⟩)
      have decides := decision_cases cfg s.task after
      rw [settles] at decides
      cases decides with
      | requeues => rfl
      | completes => rfl
      | givesUp reportable final silent =>
          have ordinary := accounted.failed_ordinary ended decided
          rcases harmless with rfl | rfl | ⟨-, requested | unprintable⟩
          · contradiction
          · contradiction
          · simp [replyRequested, requested] at silent
          · have printable := reportable.2.resolve_right (by omega)
            simp [accounted.failed_exc ended decided, unprintable] at printable
      | retries _ left =>
          have ordinary := accounted.failed_ordinary ended decided
          rcases harmless with rfl | rfl | ⟨final, -⟩
          · contradiction
          · contradiction
          · omega
  refine ⟨free, fun pc => ?_⟩
  rw [Account, pc] at account
  obtain ⟨settlement, member, costs⟩ := account.costs
  simp [free settlement member] at costs

theorem cancelledResult_ordinary (cfg : Config) (kept : s.renewal.lockLost = false)
    (ordinary : outcome.isOrdinary = true) :
    cancelledResult cfg s outcome = cancelHeartbeat cfg s (.failed (shutdownExc outcome) false) := by
  cases outcome with
  | returned ret => simp [cancelledResult, handle, shutdownExc, kept]
  | raised exc =>
      cases exc <;> first | contradiction | simp [cancelledResult, handle, shutdownExc, kept]

theorem failed_costs {cfg : Config} {exc : Exc} (readable : cfg.log.isReadable = true)
    (failing : 0 < task.numRetries ∨ task.replyRequested = false ∧ exc.isPrintable = true) :
    ∃ settlement, decision cfg task (.failed exc false) = .settle settlement ∧
      settlement.costs = true := by
  have decides := decision_cases cfg task (.failed exc false)
  generalize decision cfg task (.failed exc false) = decided at decides
  cases decides with
  | abandons lost => cases lost
  | chokes garbled => exact absurd ⟨readable, failing.symm.imp_left And.right⟩ garbled
  | givesUp => exact ⟨_, rfl, rfl⟩
  | retries => exact ⟨_, rfl, rfl⟩
  | raises _ final requested =>
      rcases failing with left | ⟨silent, -⟩
      · omega
      · simp [silent] at requested

theorem shutdown_run (backend : cfg.backend = .storageQueue) (noHeartbeat : cfg.withHeartbeat = false)
    (parameters : cfg.parameters = .ok []) (readable : cfg.log.isReadable = true)
    (ordinary : outcome.isOrdinary = true)
    (failing : 0 < task.numRetries ∨
      task.replyRequested = false ∧ (shutdownExc outcome).isPrintable = true) :
    ∃ log s settlement, Mealy.Run (machine cfg) Mealy.always (start cfg task 0 .coroutine)
      ([.cancelled true, .callbackEnded outcome, .settlement settlement] ++ log) s ∧
      settlement.costs = true := by
  have ended {s : State} (kept : s.renewal.lockLost = false) :=
    cancelledResult_ordinary (s := s) cfg kept ordinary
  obtain ⟨settlement, settles, costs⟩ := failed_costs readable failing
  have run : ∃ log s, Mealy.exec (machine cfg) (start cfg task 0 .coroutine)
      [.cancel, .resume, .resume, .callbackEnds outcome, .resume] =
      some (s, [.cancelled true, .callbackEnded outcome, .settlement settlement] ++ log) := by
    simp only [Mealy.exec, machine, start, received, magicKwargs, noHeartbeat, parameters,
      List.not_mem_nil, step, isRunning, resume, cancel, interrupt, awaitCancelled]
    cases settlement <;>
      simp [ended, cancelHeartbeat, Renewal.isOver, proceed, settles, settle, firstRequest, backend]
  obtain ⟨log, s, run⟩ := run
  exact ⟨log, s, settlement, .of_exec (by simp) run, costs⟩

theorem failing_not_free (ordinary : outcome.isOrdinary = true)
    (failing : 0 < task.numRetries ∨
      task.replyRequested = false ∧ (shutdownExc outcome).isPrintable = true) :
    ¬ ShutdownIsFree task outcome := by
  intro free
  obtain ⟨log, s, settlement, run, costs⟩ :=
    @shutdown_run (plainConfig .storageQueue) task outcome rfl rfl rfl rfl ordinary failing
  have kept := (free _ _ _ _ _ run (by simp) (by simp)).1 settlement
    (by simp [settlements, Event.settlement?])
  simp [costs] at kept

theorem shutdown_free_iff (task : Task) (outcome : Outcome) :
    ShutdownIsFree task outcome ↔ Harmless task outcome := by
  constructor
  · intro free
    by_contra harmful
    simp only [Harmless, not_or, not_and] at harmful
    obtain ⟨cancelled, canceled, reply⟩ := harmful
    have ordinary : outcome.isOrdinary = true := by
      cases outcome with
      | returned ret => rfl
      | raised exc => cases exc <;> first | rfl | simp at cancelled canceled
    have failing : 0 < task.numRetries ∨
        task.replyRequested = false ∧ (shutdownExc outcome).isPrintable = true := by
      by_cases final : task.numRetries ≤ 0
      · exact .inr (by simpa using reply final)
      · exact .inl (by omega)
    exact failing_not_free ordinary failing free
  · exact Harmless.free

/-- A callback that takes the cancellation as a request to stop early, and returns. -/
theorem shutdown_free_fails :
    ¬ ShutdownIsFree helloTask.delivered (.returned (.str "stopped early")) :=
  failing_not_free rfl (.inr ⟨rfl, rfl⟩)

end Delivery

end JobQ
