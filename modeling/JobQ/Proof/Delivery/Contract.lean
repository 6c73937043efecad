import JobQ.Proof.Delivery.Settlement
import JobQ.Proof.Delivery.Progress

/-!
# The settlement contract

When nothing goes wrong around it, the end of the callback decides how the delivery is settled and
what it returns. Both backends keep this contract unless a reply is due: neither implements
`reply`, and its `NotImplementedError` takes the place of the settlement. So does the `TypeError` of
`str.join` when a task fails that has logged something else than texts, and what `str` raises when
the last exception of a task has no text.
-/

namespace JobQ

def Outcome.isReturn : Outcome → Bool
  | .returned _ => true
  | .raised _ => false

def Outcome.settlement (task : Task) : Outcome → Settlement
  | .returned _ => .complete
  | .raised exc =>
    if final : task.numRetries ≤ 0 then .deadLetter exc.text
    else .replace { task with retries := task.retries.pred (task.left final) }

def Action.disturbs : Action → Bool
  | .cancel | .answer (.error _) => true
  | _ => false

def Request.removes : Request → Bool
  | .deleteMessage _ | .completeMessage | .deadletterMessage _ => true
  | _ => false

namespace Delivery

def Undisturbed (_ : State) (a : Action) : Prop := a.disturbs = false

theorem Smooth.undisturbed {s : State} {a : Action} (smooth : Smooth s a) : Undisturbed s a := by
  cases a with
  | answer result => cases result <;> first | rfl | contradiction
  | cancel => contradiction
  | _ => rfl

structure Fulfilled (cfg : Config) (task : Task) (outcome : Outcome) (log : List Event)
    (result : Result) : Prop where
  single : settlements log = [outcome.settlement task]
  value : result = .returned outcome.isReturn
  answered : ∀ request ∈ requests log, .answered request true ∈ log
  removed : (outcome.isReturn = true ∨ task.numRetries ≤ 0) →
    ∃ request ∈ requests log, request.removes = true
  copied : cfg.backend = .storageQueue → ∀ error, outcome.settlement task = .deadLetter error →
    .sendDeadLetter (Task.serialize { task with error := some error }) ∈ requests log
  replaced : cfg.backend = .storageQueue → ∀ next, outcome.settlement task = .replace next →
    ∃ popReceipt, requests log = [.updateMessage popReceipt next.serialize]

/-- The contract, over every callback that ends with `outcome` and leaves this log, and every run in
which the lock is kept, nobody cancels and the requests succeed. -/
structure SettlementContract (backend : Backend) (taskLog : TaskLog) (task : Task)
    (outcome : Outcome) : Prop where
  fulfilled : ∀ cfg popReceipt call log s result, cfg.backend = backend → cfg.log = taskLog →
    Mealy.Run (machine cfg) Undisturbed (start cfg task popReceipt call) log s →
    s.renewal.lockLost = false → .callbackEnded outcome ∈ log → s.pc = .finished result →
    Fulfilled cfg (prepared cfg task) outcome log result
  finishes : ∀ cfg popReceipt call log s, cfg.backend = backend → cfg.log = taskLog →
    Mealy.Run (machine cfg) Undisturbed (start cfg task popReceipt call) log s →
    s.renewal.lockLost = false → .callbackEnded outcome ∈ log →
    ∃ events t result, Mealy.Run (machine cfg) Undisturbed (s, log) events t ∧
      t.pc = .finished result ∧ t.renewal.lockLost = false

variable {cfg : Config} {task : Task} {log new : List Event} {s t : State} {outcome : Outcome}

/-! ## Undisturbed runs -/

structure Calm (log : List Event) (s : State) : Prop where
  calm : s.interrupted = false
  uncancelled : ∀ running, .cancelled running ∉ log
  answered : ∀ request, .answered request false ∉ log

theorem Calm.append (calm : Calm log s) (interrupted : t.interrupted = false)
    (other : ∀ e ∈ new, e.settles = true) : Calm (log ++ new) t := by
  refine ⟨interrupted, fun running member => ?_, fun request member => ?_⟩
  · rcases List.mem_append.mp member with old | new
    · exact calm.uncancelled running old
    · cases other _ new
  · rcases List.mem_append.mp member with old | new
    · exact calm.answered request old
    · cases other _ new

theorem Calm.keeps {next : Step} (calm : Calm log s) (kept : Keeps s next) :
    Calm (log ++ next.2) next.1 :=
  calm.append (kept.calm calm.calm) kept.settles

theorem Calm.step {a : Action} (calm : Calm log s) (undisturbed : Undisturbed s a)
    (action : step cfg s a = some (t, new)) : Calm (log ++ new) t := by
  generalize same : (t, new) = next at action
  cases step_cases action with
  | renewal =>
      cases same
      exact ⟨calm.calm, by simp [calm.uncancelled], by simp [calm.answered]⟩
  | callbackEnds =>
      cases same
      exact ⟨calm.calm, by simp [calm.uncancelled], by simp [calm.answered]⟩
  | lockTaskRuns =>
      cases same
      exact calm.append calm.calm (by simp)
  | throws => cases undisturbed
  | absorbs => cases undisturbed
  | aborts => cases undisturbed
  | resumes resumed =>
      cases same
      exact calm.keeps resumed.keeps
  | @answers settlement request answer next pc _ answered =>
      cases same
      have first : Calm (log ++ [.answered request (isOk answer)]) s := by
        cases answer with
        | ok _ => exact ⟨calm.calm, by simp [calm.uncancelled], by simp [calm.answered, isOk]⟩
        | error text => cases undisturbed
      rw [List.append_cons]
      exact first.keeps answered.keeps

theorem Calm.start (cfg : Config) (task : Task) (popReceipt : Receipt) (call : CallResult) :
    Calm (start cfg task popReceipt call).2 (start cfg task popReceipt call).1 := by
  have initial : Calm [] (received cfg (prepared cfg task) popReceipt) :=
    ⟨rfl, by simp, by simp⟩
  have started := start_cases cfg task popReceipt call
  generalize Delivery.start cfg task popReceipt call = first at started
  cases started with
  | waits => exact ⟨rfl, by simp, by simp⟩
  | called readable resumed =>
      rename_i outcome _ next
      have ended : Calm [.callbackEnded outcome]
          { received cfg (prepared cfg task) popReceipt with callback := .ended outcome } :=
        ⟨rfl, by simp, by simp⟩
      exact ended.keeps resumed.keeps
  | unreadable => exact initial.keeps (cancelHeartbeat_keeps _ _ _)

theorem run_calm {popReceipt : Receipt} {call : CallResult}
    (run : Mealy.Run (machine cfg) Undisturbed (start cfg task popReceipt call) log s) :
    Calm log s :=
  run.invariant (.start cfg task popReceipt call) fun _ _ _ _ _ calm undisturbed action =>
    calm.step undisturbed action

/-! ## The end of the callback decides -/

def keptAfter : Outcome → After
  | .returned ret => .succeeded ret false
  | .raised exc => .failed exc false

theorem Decided.after_eq {after : After} (decided : Decided cfg log false after)
    (accounted : Accounted cfg task log s) (calm : Calm log s)
    (ended : .callbackEnded outcome ∈ log) (ordinary : outcome.isOrdinary = true) :
    after = keptAfter outcome := by
  have same {other : Outcome} (member : .callbackEnded other ∈ log) : outcome = other :=
    accounted.same_outcome ended member
  cases decided with
  | canceled member =>
      cases same member
      contradiction
  | @raised exc lost member _ sampled =>
      cases same member
      cases lost with
      | true => simp at sampled
      | false => rfl
  | @returned ret lost member sampled =>
      cases same member
      cases lost with
      | true => simp at sampled
      | false => rfl
  | unbound _ cancelled => exact absurd cancelled (calm.uncancelled _)
  | unreadable parameters =>
      have heard := accounted.heard outcome ended
      simp [accounted.uncalled _ parameters] at heard
  | lost noticed => contradiction

/-- Nothing takes the place of the settlement: no reply is due, and a failure can be reported. -/
structure Settleable (taskLog : TaskLog) (task : Task) (outcome : Outcome) : Prop where
  silent : task.replyRequested = true → outcome.isReturn = false ∧ 0 < task.numRetries
  reportable : ∀ exc, outcome = .raised exc → Reportable taskLog task exc

theorem decision_eq (cfg : Config) {task : Task} {outcome : Outcome}
    (settleable : Settleable cfg.log task outcome) :
    decision cfg task (keptAfter outcome) = .settle (outcome.settlement task) := by
  have decides := decision_cases cfg task (keptAfter outcome)
  cases outcome with
  | returned ret =>
      generalize decision cfg task (keptAfter (.returned ret)) = decided at decides
      cases decides with
      | abandons lost => cases lost
      | completes => rfl
      | swallows requested => cases (settleable.silent requested).1
  | raised exc =>
      generalize decision cfg task (keptAfter (.raised exc)) = decided at decides
      cases decides with
      | abandons lost => cases lost
      | chokes garbled => exact absurd (settleable.reportable exc rfl) garbled
      | givesUp _ final => simp [Outcome.settlement, final]
      | raises _ final requested =>
          have left := (settleable.silent requested).2
          omega
      | retries _ left => simp [Outcome.settlement, Int.not_le.mpr left]

theorem decision_declined (cfg : Config) {task : Task} {outcome : Outcome}
    (broken : ¬ Settleable cfg.log task outcome) :
    ∃ result, decision cfg task (keptAfter outcome) = .leave result := by
  have decides := decision_cases cfg task (keptAfter outcome)
  cases outcome with
  | returned ret =>
      generalize decision cfg task (keptAfter (.returned ret)) = decided at decides
      cases decides with
      | abandons lost => cases lost
      | completes silent => exact absurd ⟨by simp [silent], nofun⟩ broken
      | swallows => exact ⟨_, rfl⟩
  | raised exc =>
      generalize decision cfg task (keptAfter (.raised exc)) = decided at decides
      cases decides with
      | abandons lost => cases lost
      | chokes => exact ⟨_, rfl⟩
      | givesUp reportable _ silent =>
          refine absurd ⟨by simp [silent], ?_⟩ broken
          rintro _ ⟨⟩
          exact reportable
      | raises => exact ⟨_, rfl⟩
      | retries reportable left =>
          refine absurd ⟨fun _ => ⟨rfl, left⟩, ?_⟩ broken
          rintro _ ⟨⟩
          exact reportable

/-! ## Settled deliveries -/

section

variable {request : Request} {result : Result}

theorem settled_complete {ret : JsonText.Json} (underway : Underway cfg log s .complete request)
    (answered : .answered request true ∈ log)
    (verdict : Verdict .complete request (.ok ()) result) :
    Fulfilled cfg s.task (.returned ret) log result := by
  cases verdict
  cases underway.asked with
  | first first sent =>
      refine ⟨underway.single, rfl, by simpa [sent] using answered, fun _ => ?_, nofun, nofun⟩
      refine ⟨request, by simp [sent], ?_⟩
      unfold firstRequest at first
      cases backend : cfg.backend <;> rw [backend] at first <;> cases first <;> rfl
  | second deadLetter => cases deadLetter

theorem settled_replace {exc : Exc} (left : 0 < s.task.numRetries)
    (underway : Underway cfg log s
      (.replace { s.task with retries := s.task.retries.pred left }) request)
    (answered : .answered request true ∈ log)
    (verdict : Verdict (.replace { s.task with retries := s.task.retries.pred left }) request
      (.ok ()) result) : Fulfilled cfg s.task (.raised exc) log result := by
  have settlement : Outcome.settlement s.task (.raised exc) =
      .replace { s.task with retries := s.task.retries.pred left } := by
    simp [Outcome.settlement, Int.not_le.mpr left]
  cases verdict
  cases underway.asked with
  | @first _ popReceipt first sent =>
      refine ⟨by rw [settlement]; exact underway.single, rfl, by simpa [sent] using answered, ?_, ?_, ?_⟩
      · rintro (returned | final)
        · cases returned
        · omega
      · rw [settlement]
        intro _ _ deadLetter
        cases deadLetter
      · rw [settlement]
        rintro storage _ ⟨⟩
        rw [storage] at first
        cases first
        exact ⟨popReceipt, sent⟩
  | second deadLetter => cases deadLetter

theorem settled_deadLetter {exc : Exc} (final : s.task.numRetries ≤ 0)
    (underway : Underway cfg log s (.deadLetter exc.text) request)
    (answered : .answered request true ∈ log)
    (verdict : Verdict (.deadLetter exc.text) request (.ok ()) result) :
    Fulfilled cfg s.task (.raised exc) log result := by
  have settlement : Outcome.settlement s.task (.raised exc) = .deadLetter exc.text := by
    simp [Outcome.settlement, final]
  cases verdict with
  | deadLetter last =>
      cases underway.asked with
      | first first sent =>
          cases backend : cfg.backend with
          | storageQueue =>
              rw [backend] at first
              cases first
              exact absurd rfl (last _)
          | serviceBus =>
              rw [backend] at first
              cases first
              exact ⟨by rw [settlement]; exact underway.single, rfl, by simpa [sent] using answered,
                fun _ => ⟨_, by rw [sent]; exact List.mem_singleton_self _, rfl⟩,
                by simp [backend], by simp [backend]⟩
      | @second popReceipt next error content deadLetter first copied sent =>
          refine ⟨by rw [settlement]; exact underway.single, rfl, ?_,
            fun _ => ⟨.deleteMessage next, by simp [sent], rfl⟩, ?_, ?_⟩
          · simp only [sent, List.mem_cons, List.not_mem_nil, or_false]
            rintro _ (rfl | rfl)
            · exact copied
            · exact answered
          · rw [settlement]
            rintro storage _ ⟨⟩
            rw [storage] at first
            cases first
            simp [sent]
          · rw [settlement]
            intro _ _ replace
            cases replace

theorem Underway.fulfilled (underway : Underway cfg log s (outcome.settlement s.task) request)
    (answered : .answered request true ∈ log)
    (verdict : Verdict (outcome.settlement s.task) request (.ok ()) result) :
    Fulfilled cfg s.task outcome log result := by
  cases outcome with
  | returned ret => exact settled_complete underway answered verdict
  | raised exc =>
      by_cases final : s.task.numRetries ≤ 0
      · simp only [Outcome.settlement, final, ↓reduceDIte] at underway verdict
        exact settled_deadLetter final underway answered verdict
      · simp only [Outcome.settlement, final, ↓reduceDIte] at underway verdict
        exact settled_replace (by omega) underway answered verdict

theorem skipped_fulfilled {popReceipt : Receipt}
    (first : firstRequest cfg.backend s.task popReceipt (outcome.settlement s.task) = none)
    (single : settlements log = [outcome.settlement s.task]) (silent : requests log = []) :
    Fulfilled cfg s.task outcome log (.returned false) := by
  cases outcome with
  | returned ret => cases backend : cfg.backend <;> rw [backend] at first <;> cases first
  | raised exc =>
      by_cases final : s.task.numRetries ≤ 0
      · simp only [Outcome.settlement, final, ↓reduceDIte] at first
        cases backend : cfg.backend <;> rw [backend] at first <;> cases first
      · cases backend : cfg.backend with
        | storageQueue =>
            simp only [Outcome.settlement, final, ↓reduceDIte, backend] at first
            cases first
        | serviceBus =>
            refine ⟨single, rfl, by simp [silent], ?_, by simp [backend], by simp [backend]⟩
            simp [Outcome.isReturn, final]

theorem Ends.fulfilled (ends : Ends cfg log s result) (accounted : Accounted cfg task log s)
    (calm : Calm log s) (kept : s.renewal.lockLost = false)
    (ended : .callbackEnded outcome ∈ log) (ordinary : outcome.isOrdinary = true)
    (settleable : Settleable cfg.log s.task outcome) :
    Fulfilled cfg s.task outcome log result := by
  have decided {after : After} (decided : Decided cfg log s.renewal.lockLost after) :
      decision cfg s.task after = .settle (outcome.settlement s.task) := by
    rw [kept] at decided
    rw [decided.after_eq accounted calm ended ordinary]
    exact decision_eq cfg settleable
  cases ends with
  | interrupted _ cancelled => exact absurd cancelled (calm.uncancelled _)
  | callback _ member =>
      cases accounted.same_outcome ended member
      contradiction
  | declined _ by_ declined =>
      rw [decided by_] at declined
      contradiction
  | skipped by_ settles first single silent =>
      rw [decided by_] at settles
      cases settles
      exact skipped_fulfilled first single silent
  | aborted _ cancelled => exact absurd cancelled (calm.uncancelled _)
  | @settled settlement request answer _ underway answered verdict =>
      obtain ⟨after, by_, settles⟩ := underway.decided
      rw [decided by_] at settles
      cases settles
      cases answer with
      | error text => exact absurd answered (calm.answered _)
      | ok _ => exact underway.fulfilled answered verdict
  | late _ cancelled => exact absurd cancelled (calm.uncancelled _)

end

/-! ## The contract -/

theorem contract_kept {backend : Backend} {taskLog : TaskLog} (ordinary : outcome.isOrdinary = true)
    (settleable : Settleable taskLog task outcome) :
    SettlementContract backend taskLog task outcome := by
  refine ⟨?_, ?_⟩
  · rintro cfg popReceipt call log s result _ rfl run kept ended pc
    have accounted := run_accounted run
    have account := accounted.account
    rw [Account, pc] at account
    obtain ⟨numRetries, replyRequested, -⟩ := prepared_fields cfg task
    rw [← accounted.task] at numRetries replyRequested ⊢
    refine account.fulfilled accounted (run_calm run) kept ended ordinary ⟨?_, ?_⟩
    · rw [numRetries, replyRequested]
      exact settleable.silent
    · intro exc raised
      rw [Reportable, numRetries]
      exact settleable.reportable exc raised
  · intro cfg popReceipt call log s _ _ run kept ended
    obtain ⟨events, t, result, later, pc, lost⟩ := canFinish (run_drainable run)
      (run_calm run).calm ((run_accounted run).heard outcome ended) log
    exact ⟨events, t, result, later.mono fun _ _ => Smooth.undisturbed, pc, lost.trans kept⟩

theorem callbackResult_ordinary (cfg : Config) (kept : s.renewal.lockLost = false)
    (ordinary : outcome.isOrdinary = true) :
    callbackResult cfg s outcome = cancelHeartbeat cfg s (keptAfter outcome) := by
  cases outcome with
  | returned ret => simp [callbackResult, keptAfter, kept]
  | raised exc => cases exc <;> first | contradiction | simp [callbackResult, handle, keptAfter, kept]

theorem plain_exec (task : Task) {parameters : List String} (readable : cfg.parameters = .ok parameters)
    (ordinary : outcome.isOrdinary = true) (popReceipt : Receipt) :
    ∃ s, s.renewal = (received cfg task popReceipt).renewal ∧ s.task = prepared cfg task ∧
      Mealy.exec (machine cfg) (start cfg task popReceipt .coroutine)
        [.callbackEnds outcome, .resume, .resume] =
      some ((cancelHeartbeat cfg s (keptAfter outcome)).1,
        .callbackEnded outcome :: (cancelHeartbeat cfg s (keptAfter outcome)).2) := by
  have begun : start cfg task popReceipt .coroutine =
      ({ received cfg (prepared cfg task) popReceipt with callback := .running }, []) := by
    simp [start, prepared, readable, received]
  have ended (s : State) (kept : s.renewal.lockLost = false) :=
    callbackResult_ordinary (s := s) cfg kept ordinary
  refine ⟨{ received cfg (prepared cfg task) popReceipt with
    pc := .doneAwaitLock, callback := .ended outcome }, rfl, rfl, ?_⟩
  simp only [begun, Mealy.exec, machine, step, isRunning, received, ↓reduceIte, resume,
    Bool.false_eq_true]
  rw [ended _ rfl]
  rfl

section

variable (noHeartbeat : cfg.withHeartbeat = false) {parameters : List String}
include noHeartbeat

theorem plain_settles {settlement : Settlement} {request : Request} {popReceipt : Receipt}
    (readable : cfg.parameters = .ok parameters) (ordinary : outcome.isOrdinary = true)
    (settles : decision cfg (prepared cfg task) (keptAfter outcome) = .settle settlement)
    (first : firstRequest cfg.backend (prepared cfg task) popReceipt settlement = some request) :
    ∃ s, Mealy.exec (machine cfg) (start cfg task popReceipt .coroutine)
      [.callbackEnds outcome, .resume, .resume] =
        some (s, [.callbackEnded outcome, .settlement settlement, .request request]) := by
  obtain ⟨s, renewal, same, run⟩ := plain_exec task readable ordinary popReceipt
  rw [run]
  simp [cancelHeartbeat, renewal, received, noHeartbeat, Renewal.isOver, proceed, same, settles,
    settle, first]

theorem plain_declines {result : Result} (popReceipt : Receipt)
    (readable : cfg.parameters = .ok parameters) (ordinary : outcome.isOrdinary = true)
    (declined : decision cfg (prepared cfg task) (keptAfter outcome) = .leave result) :
    ∃ s, Mealy.Run (machine cfg) Undisturbed (start cfg task popReceipt .coroutine)
      [.callbackEnded outcome] s ∧ s.renewal.lockLost = false ∧ s.pc = .finished result := by
  obtain ⟨s, renewal, same, run⟩ := plain_exec task readable ordinary popReceipt
  have ends : ∃ t, cancelHeartbeat cfg s (keptAfter outcome) = (t, []) ∧
      t.renewal.lockLost = false ∧ t.pc = .finished result := by
    simp [cancelHeartbeat, renewal, received, noHeartbeat, Renewal.isOver, proceed, same, declined,
      leave]
    cases cfg.backend <;> cases result <;> simp
  obtain ⟨t, eq, kept, pc⟩ := ends
  rw [eq] at run
  exact ⟨t, .of_exec (by simp [Undisturbed, Action.disturbs]) run, kept, pc⟩

end

theorem contract_broken (backend : Backend) {taskLog : TaskLog}
    (ordinary : outcome.isOrdinary = true) (broken : ¬ Settleable taskLog task outcome) :
    ¬ SettlementContract backend taskLog task outcome := by
  intro contract
  have declines : ¬ Settleable taskLog (prepared (plainConfig backend) task) outcome := broken
  obtain ⟨result, declined⟩ :=
    decision_declined { plainConfig backend with log := taskLog } declines
  obtain ⟨s, run, kept, pc⟩ := plain_declines rfl 0 rfl ordinary declined
  have fulfilled := contract.fulfilled _ _ _ _ _ _ rfl rfl run kept (by simp) pc
  cases fulfilled.single

/-- The contract holds exactly where no reply is due, that is, where the task asks for none or fails
with retries left, and where a task that fails has logged texts and, with no retries left, fails with
an exception that has a text. -/
theorem settlement_contract_iff (backend : Backend) (taskLog : TaskLog) (task : Task)
    (outcome : Outcome) (ordinary : outcome.isOrdinary = true) :
    SettlementContract backend taskLog task outcome ↔
      ¬ (task.replyRequested = true ∧ (outcome.isReturn = true ∨ task.numRetries ≤ 0)) ∧
        ∀ exc, outcome = .raised exc → Reportable taskLog task exc := by
  constructor
  · intro contract
    by_contra broken
    refine contract_broken backend ordinary ?_ contract
    rintro ⟨silent, reportable⟩
    refine broken ⟨?_, reportable⟩
    rintro ⟨requested, returned | final⟩
    · simp [returned] at silent
      simp [silent] at requested
    · have left := (silent requested).2
      omega
  · rintro ⟨noReply, reportable⟩
    refine contract_kept ordinary ⟨fun requested => ?_, reportable⟩
    simpa [requested] using noReply

/-- A task that has logged its progress and fails. -/
theorem settlement_contract_hello :
    SettlementContract .storageQueue (some (.ok [.text "1 of 3", .text "2 of 3"]))
      helloTask.delivered (.raised (.other "exit code 1")) :=
  (settlement_contract_iff _ _ _ _ rfl).mpr
    ⟨by simp [helloTask, Task.delivered], by rintro _ ⟨⟩; exact ⟨rfl, .inl rfl⟩⟩

/-- Service Bus accepts a task that asks for a reply. When its callback returns, `pull_and_execute`
returns `True` and leaves the message in the queue. On either backend the message of a task that
fails stays there, too, if the task has logged a number. -/
theorem settlement_contract_fails :
    Backend.serviceBus.accepts { helloTask with replyRequested := true } = true ∧
      (¬ SettlementContract .serviceBus none
        (Task.delivered { helloTask with replyRequested := true }) (.returned .null)) ∧
      ¬ SettlementContract .storageQueue (some (.ok [.text "step", .other "int"]))
        helloTask.delivered (.raised (.other "exit code 1")) := by
  refine ⟨rfl, contract_broken _ rfl ?_, contract_broken _ rfl ?_⟩
  · intro settleable
    cases (settleable.silent rfl).1
  · intro settleable
    exact absurd (settleable.reportable _ rfl).1 (by decide)

end Delivery

end JobQ
