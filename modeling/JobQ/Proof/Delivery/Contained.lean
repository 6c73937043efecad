import JobQ.Proof.Delivery.Contract

/-!
# Which exceptions get out of a delivery

A worker survives a delivery that returns, or that raises `WorkerCanceled` or `LockLostError`. The
requests of a completion and of a requeue are guarded, and so is the one call that dead-letters on
Service Bus. Those that replace a message or dead-letter it on the Storage Queue are not.
-/

namespace JobQ

def Result.isContained : Result → Bool
  | .returned _ | .raised .workerCanceled | .raised (.lockLostError _) => true
  | _ => false

/-- The request stands in a `try` that takes any exception. -/
def Settlement.guards : Settlement → Request → Bool
  | .complete, _ | .requeue, _ | .deadLetter _, .deadletterMessage _ => true
  | _, _ => false

namespace Delivery

variable {cfg : Config} {log new : List Event} {s t : State}

/-- A failure that is settled does not end in another exception: it can be reported, and there is no
reply to send before giving up. -/
def Dealt (cfg : Config) (task : Task) (exc : Exc) : Prop :=
  Reportable cfg.log task exc ∧ (task.replyRequested = false ∨ 0 < task.numRetries)

/-- The exception of a callback leads to one that a worker handles: it is not a `CancelledError`,
and the failure is dealt with unless the lock is lost. -/
def Survives (cfg : Config) (s : State) (exc : Exc) : Prop :=
  exc = .workerCanceled ∨ exc ≠ .cancelledError ∧ (s.renewal.lockLost = true ∨ Dealt cfg s.task exc)

/-- No step but these lets an exception out: a failing request that is not guarded, and reading the
end of the callback. -/
def Meets (cfg : Config) (s : State) : Action → Prop
  | .answer (.error _) =>
    ∀ settlement request, s.pc = .settling settlement request → settlement.guards request = true
  | .resume => s.pc = .doneAwaitLock → ∀ exc, s.callback = .ended (.raised exc) → Survives cfg s exc
  | _ => True

/-- The same of a callback that has ended when it is called. -/
def StartsWell (cfg : Config) (task : Task) (popReceipt : Receipt) (call : CallResult) : Prop :=
  (∀ text, cfg.parameters = .error text →
    Survives cfg (received cfg task popReceipt) (.other text)) ∧
  ∀ parameters exc, cfg.parameters = .ok parameters → call = .ended (.raised exc) →
    Survives cfg (received cfg task popReceipt) exc

def Uncancelled (_ : State × List (State × Action × State)) (a : Action) : Prop := a ≠ .cancel

/-! ## What is going to get out -/

def Escapes (cfg : Config) (task : Task) (after : After) : Prop :=
  ∃ result, decision cfg task after = .leave result ∧ result.isContained = false

def Doomed (cfg : Config) (s : State) : Prop :=
  match s.pc with
  | .exiting result | .finished result => result.isContained = false
  | .cancelHeartbeat after => Escapes cfg s.task after
  | _ => False

theorem deciding_not_doomed (deciding : s.pc.isDeciding = true) : ¬ Doomed cfg s := by
  unfold Doomed
  split
  all_goals first
    | exact id
    | rename_i pc; simp [pc, Pc.isDeciding] at deciding

theorem Leaves.doomed {result : Result} (left : Leaves s result t) :
    Doomed cfg t ↔ result.isContained = false := by
  obtain ⟨pc, stop, leaving, rfl⟩ := left
  rcases leaving with ⟨rfl, -⟩ | rfl <;> exact Iff.rfl

theorem leave_doomed (cfg : Config) (s : State) (result : Result) :
    Doomed cfg (leave cfg s result).1 ↔ result.isContained = false := by
  obtain ⟨t, left, eq⟩ := leave_eq cfg s result
  rw [eq]
  exact left.doomed

theorem settle_not_doomed (cfg : Config) (s : State) (settlement : Settlement) :
    ¬ Doomed cfg (settle cfg s settlement).1 := by
  unfold settle
  split
  · exact id
  · simp [leave_doomed, Result.isContained]

theorem proceed_doomed (cfg : Config) (s : State) (after : After) :
    Doomed cfg (proceed cfg s after).1 ↔ Escapes cfg s.task after := by
  unfold proceed Escapes
  cases decision cfg s.task after with
  | settle settlement => simp [settle_not_doomed]
  | leave result => simp [leave_doomed]

theorem cancelHeartbeat_doomed (cfg : Config) (s : State) (after : After) :
    Doomed cfg (cancelHeartbeat cfg s after).1 ↔ Escapes cfg s.task after := by
  unfold cancelHeartbeat
  dsimp only
  split
  · exact proceed_doomed _ _ _
  · exact Iff.rfl

theorem succeeded_contained (cfg : Config) (task : Task) (ret : JsonText.Json) (lost : Bool) :
    ¬ Escapes cfg task (.succeeded ret lost) := by
  rintro ⟨result, left, escapes⟩
  have decided := decision_cases cfg task (.succeeded ret lost)
  rw [left] at decided
  cases decided with
  | abandons => cases escapes
  | swallows => cases escapes

theorem failed_escapes (cfg : Config) (task : Task) (exc : Exc) (lost : Bool) :
    Escapes cfg task (.failed exc lost) ↔ ¬ (lost = true ∨ Dealt cfg task exc) := by
  unfold Escapes Dealt
  have decided := decision_cases cfg task (.failed exc lost)
  generalize decision cfg task (.failed exc lost) = decided' at decided
  cases decided with
  | abandons lost =>
      simp only [After.lockLost] at lost
      simp [Result.isContained, lockLostError, lost]
  | chokes garbled => simp [Result.isContained, garbled]
  | givesUp reportable _ silent => simp [reportable, silent]
  | raises _ final requested => simp [Result.isContained, requested, final]
  | retries reportable left => simp [reportable, left]

theorem handle_doomed (cfg : Config) (s : State) (exc : Exc) :
    Doomed cfg (handle cfg s exc).1 ↔ ¬ Survives cfg s exc := by
  cases exc with
  | cancelledError => simp [handle, leave_doomed, Result.isContained, Survives]
  | workerCanceled =>
      have contained : ¬ Escapes cfg s.task .requeue := by
        rintro ⟨result, ⟨⟩, -⟩
      simp [handle, cancelHeartbeat_doomed, contained, Survives]
  | lockLostError taskId => simp [handle, cancelHeartbeat_doomed, failed_escapes, Survives]
  | notImplementedError text => simp [handle, cancelHeartbeat_doomed, failed_escapes, Survives]
  | unboundLocalError name => simp [handle, cancelHeartbeat_doomed, failed_escapes, Survives]
  | brokerError text => simp [handle, cancelHeartbeat_doomed, failed_escapes, Survives]
  | other text => simp [handle, cancelHeartbeat_doomed, failed_escapes, Survives]
  | unprintable text => simp [handle, cancelHeartbeat_doomed, failed_escapes, Survives]

theorem callbackResult_doomed (cfg : Config) (s : State) (outcome : Outcome) :
    Doomed cfg (callbackResult cfg s outcome).1 ↔
      ∃ exc, outcome = .raised exc ∧ ¬ Survives cfg s exc := by
  cases outcome with
  | returned ret => simp [callbackResult, cancelHeartbeat_doomed, succeeded_contained]
  | raised exc => simp [callbackResult, handle_doomed]

theorem settleAnswered_doomed (cfg : Config) (s : State) (settlement : Settlement)
    (request : Request) (answer : Except String Unit) :
    Doomed cfg (settleAnswered cfg s settlement request answer).1 ↔
      isOk answer = false ∧ settlement.guards request = false := by
  unfold settleAnswered
  split
  · simp [leave_doomed, Result.isContained, Settlement.guards]
  · simp [leave_doomed, Result.isContained, Settlement.guards]
  · simp [leave_doomed, Result.isContained, Settlement.guards]
  · simp [Doomed, isOk]
  · simp [leave_doomed, Result.isContained, isOk]
  · simp [leave_doomed, Result.isContained, isOk]
  · rename_i text notComplete notRequeue caught
    have unguarded : settlement.guards request = false := by
      cases settlement with
      | complete => exact (notComplete rfl).elim
      | requeue => exact (notRequeue rfl).elim
      | replace task => rfl
      | deadLetter error =>
          cases request with
          | deadletterMessage reason => exact (caught error reason rfl rfl).elim
          | _ => rfl
    simp [leave_doomed, Result.isContained, isOk, unguarded]

/-! ## One step -/

theorem awaitLost_not_doomed (cfg : Config) (s : State) : ¬ Doomed cfg (awaitLost cfg s).1 := by
  unfold awaitLost
  split
  · rw [cancelHeartbeat_doomed]
    exact succeeded_contained _ _ _ _
  · exact id

theorem meets_elsewhere (other : s.pc ≠ .doneAwaitLock) : Meets cfg s .resume :=
  fun pc => absurd pc other

theorem resume_doomed {next : Step} (waits : ¬ Cancelling s) (resumed : resume cfg s = some next) :
    Doomed cfg next.1 ↔ Doomed cfg s ∨ ¬ Meets cfg s .resume := by
  have calm : s.interrupted = false := by
    by_contra due
    exact waits (.inr (.inr (by simpa using due)))
  unfold resume at resumed
  simp only [calm, Bool.false_eq_true, ↓reduceIte] at resumed
  split at resumed
  · rename_i pc callback
    have before : ¬ Doomed cfg s := deciding_not_doomed (by simp [pc, Pc.isDeciding])
    have meets : Meets cfg s .resume := meets_elsewhere (by simp [pc])
    split at resumed <;> cases resumed
    · simp [awaitLost_not_doomed, before, meets]
    · simp only [before, meets]
      exact iff_of_false id (by simp)
  · rename_i pc _
    have before : ¬ Doomed cfg s := deciding_not_doomed (by simp [pc, Pc.isDeciding])
    have meets : Meets cfg s .resume := meets_elsewhere (by simp [pc])
    split at resumed <;> cases resumed
    simp [awaitLost_not_doomed, before, meets]
  · exact absurd (.inl ‹_›) waits
  · exact absurd (.inr (.inl ‹_›)) waits
  · rename_i pc callback
    cases resumed
    have before : ¬ Doomed cfg s := deciding_not_doomed (by simp [pc, Pc.isDeciding])
    have meets : Meets cfg s .resume := meets_elsewhere (by simp [pc])
    simp [cancelHeartbeat_doomed, succeeded_contained, before, meets]
  · rename_i outcome pc callback
    cases resumed
    have before : ¬ Doomed cfg s := deciding_not_doomed (by simp [pc, Pc.isDeciding])
    have meets : Meets cfg s .resume ↔ ∀ exc, outcome = .raised exc → Survives cfg s exc := by
      simp [Meets, pc, callback]
    rw [callbackResult_doomed, meets]
    simp [before]
  · rename_i after pc
    split at resumed <;> cases resumed
    have meets : Meets cfg s .resume := meets_elsewhere (by simp [pc])
    rw [proceed_doomed]
    simp [Doomed, pc, meets]
  · rename_i result pc
    split at resumed <;> cases resumed
    have meets : Meets cfg s .resume := meets_elsewhere (by simp [pc])
    simp [Doomed, pc, meets]
  · contradiction

theorem step_doomed {a : Action} (waits : ¬ Cancelling s) (other : a ≠ .cancel)
    (action : step cfg s a = some (t, new)) : Doomed cfg t ↔ Doomed cfg s ∨ ¬ Meets cfg s a := by
  cases a with
  | renewal a =>
      simp only [step] at action
      split at action <;> cases action
      simp [Doomed, Meets]
  | callbackEnds outcome =>
      simp only [step] at action
      split at action <;> cases action
      simp [Doomed, Meets]
  | lockTaskRuns =>
      simp only [step] at action
      split at action
      · split at action <;> cases action
        simp [Doomed, Meets]
      · contradiction
  | cancel => exact absurd rfl other
  | resume => exact resume_doomed waits action
  | answer result =>
      simp only [step] at action
      split at action
      · rename_i settlement request pc
        split at action <;> cases action
        have before : ¬ Doomed cfg s := by simp [Doomed, pc]
        rw [settleAnswered_doomed]
        cases result with
        | ok _ => simp [isOk, Meets, before]
        | error text => simp [isOk, Meets, before, pc]
      · contradiction

theorem start_doomed (cfg : Config) (task : Task) (popReceipt : Receipt) (call : CallResult) :
    Doomed cfg (start cfg task popReceipt call).1 ↔ ¬ StartsWell cfg task popReceipt call := by
  have fields := prepared_fields cfg task
  unfold start StartsWell
  unfold prepared at fields
  dsimp only
  cases readable : cfg.parameters with
  | error text => simp [handle_doomed]
  | ok parameters =>
      simp only [readable] at fields
      cases call with
      | coroutine =>
          have waits : ¬ Doomed cfg { received cfg task popReceipt with
            task := magicKwargs cfg parameters task, callback := .running } := id
          simpa using waits
      | ended outcome =>
          dsimp only
          rw [callbackResult_doomed]
          cases outcome with
          | returned ret => simp
          | raised exc => simp [Survives, Dealt, Reportable, received, fields.1, fields.2.1]

/-! ## Runs -/

theorem uncancelled_step {a : Action} (other : a ≠ .cancel)
    (action : step cfg s a = some (t, new)) (running : Bool) : .cancelled running ∉ new := by
  have silent {u : State} {next : Step} (kept : Keeps u next) : .cancelled running ∉ next.2 :=
    fun member => by cases kept.settles _ member
  generalize same : (t, new) = next at action
  cases step_cases action with
  | renewal => cases same; simp
  | callbackEnds => cases same; simp
  | lockTaskRuns => cases same; simp
  | throws => exact absurd rfl other
  | absorbs => exact absurd rfl other
  | aborts => exact absurd rfl other
  | resumes resumed => cases same; exact silent resumed.keeps
  | answers _ _ answered => cases same; simpa using silent answered.keeps

section

variable {task : Task} {popReceipt : Receipt} {call : CallResult}
  {made : List (State × Action × State)}

structure Uninterrupted (cfg : Config) (task : Task) (popReceipt : Receipt) (call : CallResult)
    (log : List Event) (s : State) (made : List (State × Action × State)) : Prop where
  accounted : Accounted cfg task log s
  uncancelled : ∀ running, .cancelled running ∉ log
  doomed : Doomed cfg s ↔
    ¬ (StartsWell cfg task popReceipt call ∧ ∀ u a v, (u, a, v) ∈ made → Meets cfg u a)

theorem Uninterrupted.step {a : Action}
    (held : Uninterrupted cfg task popReceipt call log s made) (other : a ≠ .cancel)
    (action : step cfg s a = some (t, new)) :
    Uninterrupted cfg task popReceipt call (log ++ new) t (made ++ [(s, a, t)]) := by
  refine ⟨held.accounted.step action, fun running member => ?_, ?_⟩
  · rcases List.mem_append.mp member with old | now
    · exact held.uncancelled running old
    · exact uncancelled_step other action running now
  · have waits : ¬ Cancelling s := by
      intro cancelling
      obtain ⟨running, cancelled⟩ := held.accounted.witnessed.interrupted cancelling
      exact held.uncancelled running cancelled
    have all : (∀ u b v, (u, b, v) ∈ made ++ [(s, a, t)] → Meets cfg u b) ↔
        (∀ u b v, (u, b, v) ∈ made → Meets cfg u b) ∧ Meets cfg s a := by
      constructor
      · intro every
        exact ⟨fun u b v earlier => every u b v (List.mem_append_left _ earlier),
          every s a t (by simp)⟩
      · rintro ⟨earlier, now⟩ u b v member
        rcases List.mem_append.mp member with old | last
        · exact earlier u b v old
        · cases List.mem_singleton.mp last
          exact now
    rw [step_doomed waits other action, held.doomed, all]
    tauto

theorem run_uninterrupted
    (run : Mealy.Run (machine cfg).withTransitions Uncancelled
      (((start cfg task popReceipt call).1, []), (start cfg task popReceipt call).2)
      log (s, made)) :
    Uninterrupted cfg task popReceipt call log s made := by
  refine run.invariant (P := fun log last =>
    Uninterrupted cfg task popReceipt call log last.1 last.2) ?_ ?_
  · refine ⟨.start cfg task popReceipt call, (Calm.start cfg task popReceipt call).uncancelled, ?_⟩
    simp [start_doomed]
  · rintro log ⟨s, made⟩ a ⟨t, later⟩ new held other action
    simp only [Mealy.Machine.withTransitions, Option.map_eq_some_iff, Prod.mk.injEq] at action
    obtain ⟨⟨u, events⟩, stepped, ⟨rfl, rfl⟩, rfl⟩ := action
    exact held.step other stepped

/-- A delivery that is not cancelled ends as a worker expects exactly if no request fails outside a
`try`, and the callback does not end in a way that `pull_and_execute` lets out. -/
theorem contained_iff {result : Result}
    (run : Mealy.Run (machine cfg).withTransitions Uncancelled
      (((start cfg task popReceipt call).1, []), (start cfg task popReceipt call).2)
      log (s, made)) (finished : s.pc = .finished result) :
    result.isContained = true ↔
      StartsWell cfg task popReceipt call ∧ ∀ u a v, (u, a, v) ∈ made → Meets cfg u a := by
  have doomed := (run_uninterrupted run).doomed
  simp only [Doomed, finished] at doomed
  rw [← Bool.not_eq_false, doomed, not_not]

end

def staysCalled (_ : State × List (State × Action × State)) : Action → Bool
  | .cancel => false
  | _ => true

def failingActions (answer : Except String Unit) : List Action :=
  [.callbackEnds (.raised (.other "exit code 1")), .resume, .resume, .answer answer]

theorem uncancelled_run {start last : State × List (State × Action × State)} {before log : List Event}
    {actions : List Action}
    (steps : Mealy.execIf (machine cfg).withTransitions staysCalled (start, before) actions =
      some (last, log)) :
    Mealy.Run (machine cfg).withTransitions Uncancelled (start, before) log last := by
  apply (Mealy.Run.of_execIf steps).mono
  rintro _ a stays rfl
  cases stays

def loggedConfig : Config :=
  { plainConfig .storageQueue with log := some (.ok [.text "1 of 3", .text "2 of 3"]) }

/-- The callback fails, and the task is put back with a retry less. -/
theorem contained_hello : ∃ log s made,
    Mealy.Run (machine loggedConfig).withTransitions Uncancelled
      (((start loggedConfig helloTask 0 .coroutine).1, []),
        (start loggedConfig helloTask 0 .coroutine).2) log (s, made) ∧
      s.pc = .finished (.returned false) ∧ made.length = 4 ∧
      StartsWell loggedConfig helloTask 0 .coroutine ∧
      ∀ u a v, (u, a, v) ∈ made → Meets loggedConfig u a := by
  have steps : Mealy.execIf (machine loggedConfig).withTransitions staysCalled
      (((start loggedConfig helloTask 0 .coroutine).1, []),
        (start loggedConfig helloTask 0 .coroutine).2)
      (failingActions (.ok ())) = some ((_, _), _) := rfl
  have run := uncancelled_run steps
  exact ⟨_, _, _, run, rfl, rfl, (contained_iff run rfl).mp rfl⟩

/-- The callback fails, and so does the request that puts the task back with a retry less. -/
theorem contained_fails : ¬ ∀ log s made result,
    Mealy.Run (machine (plainConfig .storageQueue)).withTransitions Uncancelled
      (((start (plainConfig .storageQueue) helloTask 0 .coroutine).1, []),
        (start (plainConfig .storageQueue) helloTask 0 .coroutine).2) log (s, made) →
    s.pc = .finished result → result.isContained = true := by
  intro contained
  have steps : Mealy.execIf (machine (plainConfig .storageQueue)).withTransitions staysCalled
      (((start (plainConfig .storageQueue) helloTask 0 .coroutine).1, []),
        (start (plainConfig .storageQueue) helloTask 0 .coroutine).2)
      (failingActions (.error "503")) = some ((_, _), _) := rfl
  exact absurd (contained _ _ _ _ (uncancelled_run steps) rfl) (by simp [Result.isContained])

end Delivery

end JobQ
