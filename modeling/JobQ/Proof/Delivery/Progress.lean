import JobQ.Proof.Delivery.Steps
import JobQ.Proof.Renewal

/-!
# A delivery can always finish

Once the callback has ended, and unless the delivery is cancelled, some continuation with
successful answers finishes: the coroutine waits for nothing that cannot come.
-/

namespace JobQ

def Action.goesWell : Action → Bool
  | .renewal a => a.goesWell
  | .lockTaskRuns | .resume | .answer (.ok _) => true
  | _ => false

namespace Delivery

structure Drainable (cfg : Config) (s : State) : Prop where
  storage : cfg.backend = .storageQueue → ∀ attempt, s.renewal.loop ≠ .backoff attempt
  stop : (∃ after, s.pc = .cancelHeartbeat after) ∨ (∃ result, s.pc = .exiting result) →
    s.renewal.stop = true

def Smooth (_ : State) (a : Action) : Prop := a.goesWell = true

theorem Smooth.resume (s : State) : Smooth s .resume := rfl

theorem Smooth.renewal (s : State) {a : RenewalAction} (well : a.goesWell = true) :
    Smooth s (.renewal a) := well

theorem Smooth.answer (s : State) : Smooth s (.answer (.ok ())) := rfl

variable {cfg : Config} {s t : State} {new : List Event}

namespace Drainable

theorem moved (drainable : Drainable cfg s) (loop : t.renewal.loop = s.renewal.loop)
    (stop : (∃ after, t.pc = .cancelHeartbeat after) ∨ (∃ result, t.pc = .exiting result) →
      t.renewal.stop = true) : Drainable cfg t :=
  ⟨fun storage attempt => loop ▸ drainable.storage storage attempt, stop⟩

theorem left (drainable : Drainable cfg s) {result : Result} (left : Leaves s result t) :
    Drainable cfg t := by
  obtain ⟨pc, stop, leaving, rfl⟩ := left
  refine drainable.moved rfl ?_
  rcases leaving with ⟨rfl, rfl⟩ | rfl
  · exact fun _ => rfl
  · simp

theorem proceeds (drainable : Drainable cfg s) {after : After} {next : Step}
    (proceeded : Proceeds cfg s after next) : Drainable cfg next.1 := by
  cases proceeded with
  | settles => exact drainable.moved rfl (by simp)
  | skips _ _ left => exact drainable.left left
  | leaves _ left => exact drainable.left left

theorem cancelHeartbeat (drainable : Drainable cfg s) (after : After) :
    Drainable cfg (Delivery.cancelHeartbeat cfg s after).1 := by
  rcases cancelHeartbeat_cases cfg s after with ⟨-, proceeded⟩ | ⟨-, eq⟩
  · have stopped : Drainable cfg { s with renewal := { s.renewal with stop := true } } :=
      drainable.moved rfl fun _ => rfl
    exact stopped.proceeds proceeded
  · rw [eq]
    exact drainable.moved rfl fun _ => rfl

theorem resumes (drainable : Drainable cfg s) {next : Step} (resumed : Resumes cfg s next) :
    Drainable cfg next.1 := by
  have calm : Drainable cfg { s with interrupted := false } := drainable.moved rfl drainable.stop
  cases resumed with
  | awaits before after =>
      refine drainable.moved rfl ?_
      rintro (⟨_, rfl⟩ | ⟨_, rfl⟩) <;> contradiction
  | concludes => exact calm.cancelHeartbeat _
  | letsOut =>
      obtain ⟨t, left, eq⟩ := leave_eq cfg { s with interrupted := false } (.raised .cancelledError)
      rw [eq]
      exact calm.left left
  | proceeds => exact drainable.proceeds (proceed_cases _ _ _)
  | exits => exact drainable.moved rfl (by simp)
  | exitInterrupted => exact drainable.moved rfl (by simp)

theorem steps (drainable : Drainable cfg s) {a : Action} {next : Step}
    (stepped : Steps cfg s a next) : Drainable cfg next.1 := by
  cases stepped with
  | renewal action =>
      refine ⟨fun storage => ?_, fun waits => (Renewal.step_stop action).trans (drainable.stop waits)⟩
      rw [storage] at action
      rcases Renewal.heartbeat_loop action with loop | loop | loop <;> simp [loop]
  | callbackEnds => exact drainable.moved rfl drainable.stop
  | lockTaskRuns => exact drainable.moved rfl drainable.stop
  | throws => exact drainable.moved rfl drainable.stop
  | absorbs => exact drainable
  | aborts backend pc =>
      refine ⟨fun storage => ?_, fun waits => ?_⟩
      · simp [backend] at storage
      · rw [Renewal.abort_stop]
        exact drainable.stop waits
  | resumes resumed => exact drainable.resumes resumed
  | answers _ _ answered =>
      cases answered with
      | continues => exact drainable.moved rfl (by simp)
      | leaves _ left => exact drainable.left left

theorem received (cfg : Config) (task : Task) (popReceipt : Receipt) :
    Drainable cfg (Delivery.received cfg task popReceipt) := by
  refine ⟨fun _ attempt => ?_, by simp [Delivery.received]⟩
  simp only [Delivery.received]
  split <;> simp

theorem start (cfg : Config) (task : Task) (popReceipt : Receipt) (call : CallResult) :
    Drainable cfg (Delivery.start cfg task popReceipt call).1 := by
  have initial := received cfg (prepared cfg task) popReceipt
  have started := start_cases cfg task popReceipt call
  generalize Delivery.start cfg task popReceipt call = first at started
  cases started with
  | waits => exact initial.moved rfl initial.stop
  | called readable resumed =>
      rename_i outcome _ next
      have ended : Drainable cfg
          { Delivery.received cfg (prepared cfg task) popReceipt with callback := .ended outcome } :=
        initial.moved rfl initial.stop
      have later : Drainable cfg next.1 := ended.resumes resumed
      exact later
  | unreadable => exact initial.cancelHeartbeat _

end Drainable

theorem run_drainable {G : State → Action → Prop} {task : Task} {popReceipt : Receipt}
    {call : CallResult} {log : List Event}
    (run : Mealy.Run (machine cfg) G (Delivery.start cfg task popReceipt call) log s) :
    Drainable cfg s :=
  run.state_invariant (.start cfg task popReceipt call) fun _ _ _ _ drainable _ action =>
    drainable.steps (step_cases action)

/-! ## Continuations -/

/-- Some smooth continuation finishes, without the loss of the lock meanwhile. -/
def CanFinish (cfg : Config) (s : State) : Prop :=
  ∀ log, ∃ events t result, Mealy.Run (machine cfg) Smooth (s, log) events t ∧
    t.pc = .finished result ∧ t.renewal.lockLost = s.renewal.lockLost

theorem CanFinish.finished {result : Result} (pc : s.pc = .finished result) : CanFinish cfg s :=
  fun _ => ⟨_, s, result, .refl, pc, rfl⟩

theorem CanFinish.step {a : Action} (rest : CanFinish cfg t) (smooth : Smooth s a)
    (action : step cfg s a = some (t, new)) (kept : t.renewal.lockLost = s.renewal.lockLost) :
    CanFinish cfg s := by
  intro log
  obtain ⟨events, u, result, run, pc, lost⟩ := rest (log ++ new)
  exact ⟨events, u, result, .head smooth action run, pc, lost.trans kept⟩

theorem CanFinish.resume {next : Step} (rest : CanFinish cfg next.1)
    (action : Delivery.resume cfg s = some next)
    (kept : next.1.renewal.lockLost = s.renewal.lockLost) : CanFinish cfg s := by
  have resumed : Delivery.step cfg s .resume = some (next.1, next.2) := action
  exact rest.step (.resume s) resumed kept

theorem renewal_run {r u : Renewal} {before after : List RenewalEvent}
    (run : Mealy.Run (Renewal.machine cfg.backend cfg.renewal) (fun _ a => a.goesWell = true)
      (r, before) after u)
    (log : List Event) (same : s.renewal = r) :
    ∃ events, Mealy.Run (machine cfg) Smooth (s, log) events { s with renewal := u } := by
  induction run with
  | refl =>
      subst same
      exact ⟨log, .refl⟩
  | next previous meets action ih =>
      rename_i t u a new
      obtain ⟨events, earlier⟩ := ih
      have stepped : step cfg { s with renewal := t } (.renewal a) =
          some ({ s with renewal := u }, new.map .renewal) := by
        have moved : t.step cfg.backend cfg.renewal a = some (u, new) := action
        simp [step, moved]
      exact ⟨events ++ new.map Event.renewal, earlier.next (.renewal _ meets) stepped⟩

theorem CanFinish.drained (drainable : Drainable cfg s) (stop : s.renewal.stop = true)
    (rest : ∀ r : Renewal, r.isOver = true → Drainable cfg { s with renewal := r } →
      CanFinish cfg { s with renewal := r }) : CanFinish cfg s := by
  intro log
  obtain ⟨_, r, run, ceased, stopped, kept⟩ := Renewal.drains stop drainable.storage []
  obtain ⟨events, earlier⟩ := renewal_run run log rfl
  have ended : ∀ attempt, r.loop ≠ .backoff attempt := by
    intro attempt loop
    simp [Renewal.isOver, loop] at ceased
  obtain ⟨final, t, result, later, pc, lost⟩ :=
    rest r ceased ⟨fun _ => ended, fun _ => stopped.trans stop⟩ events
  exact ⟨final, t, result, earlier.trans later, pc, lost.trans kept⟩

theorem CanFinish.exiting {result : Result} (drainable : Drainable cfg s)
    (pc : s.pc = .exiting result) (calm : s.interrupted = false) : CanFinish cfg s := by
  apply CanFinish.drained drainable (drainable.stop (.inr ⟨result, pc⟩))
  intro r ceased _
  have resumed : Delivery.resume cfg { s with renewal := r } =
      some ({ s with renewal := r, pc := .finished result }, []) := by
    simp [Delivery.resume, calm, pc, ceased]
  exact (finished rfl).resume resumed rfl

theorem CanFinish.left {result : Result} (drainable : Drainable cfg s) (calm : s.interrupted = false)
    (left : Leaves s result t) : CanFinish cfg t ∧ t.renewal.lockLost = s.renewal.lockLost := by
  have later := drainable.left left
  obtain ⟨pc, stop, leaving, rfl⟩ := left
  refine ⟨?_, rfl⟩
  rcases leaving with ⟨rfl, -⟩ | rfl
  · exact exiting later rfl calm
  · exact finished rfl

theorem CanFinish.answer {settlement : Settlement} {request : Request}
    (pc : s.pc = .settling settlement request) (calm : s.interrupted = false)
    (rest : CanFinish cfg (settleAnswered cfg s settlement request (.ok ())).1)
    (kept : (settleAnswered cfg s settlement request (.ok ())).1.renewal.lockLost =
      s.renewal.lockLost) : CanFinish cfg s := by
  have action : Delivery.step cfg s (.answer (.ok ())) =
      some ((settleAnswered cfg s settlement request (.ok ())).1, .answered request true ::
        (settleAnswered cfg s settlement request (.ok ())).2) := by
    simp [Delivery.step, pc, calm, isOk]
  exact rest.step (.answer s) action kept

theorem CanFinish.settling {settlement : Settlement} {request : Request}
    (drainable : Drainable cfg s) (calm : s.interrupted = false)
    (pc : s.pc = .settling settlement request) : CanFinish cfg s := by
  have answered := settleAnswered_cases cfg s settlement request (.ok ())
  generalize next : settleAnswered cfg s settlement request (.ok ()) = after at answered
  cases answered with
  | leaves verdict leaving =>
      obtain ⟨rest, kept⟩ := left drainable calm leaving
      exact answer pc calm (by rw [next]; exact rest) (by rw [next]; exact kept)
  | continues deadLetter sent ok =>
      refine answer pc calm ?_ (by rw [next])
      rw [next]
      -- the answer to `delete_message` is the last one
      generalize second : ({ s with pc := .settling settlement _ } : State) = u
      have pc : u.pc = .settling settlement (.deleteMessage s.renewal.popReceipt) := by rw [← second]
      have last : Drainable cfg u := by
        subst second
        exact drainable.moved rfl (by simp)
      have calm : u.interrupted = false := by rw [← second]; exact calm
      have answered := settleAnswered_cases cfg u settlement
        (.deleteMessage s.renewal.popReceipt) (.ok ())
      generalize next : settleAnswered cfg u settlement _ (.ok ()) = after at answered
      cases answered with
      | leaves verdict leaving =>
          obtain ⟨rest, kept⟩ := left last calm leaving
          exact answer pc calm (by rw [next]; exact rest) (by rw [next]; exact kept)
      | continues _ sent => cases sent

theorem CanFinish.proceeds {after : After} {next : Step} (drainable : Drainable cfg s)
    (calm : s.interrupted = false) (proceeded : Proceeds cfg s after next) :
    CanFinish cfg next.1 ∧ next.1.renewal.lockLost = s.renewal.lockLost := by
  have later := drainable.proceeds proceeded
  cases proceeded with
  | settles => exact ⟨settling later calm rfl, rfl⟩
  | skips _ _ leaving => exact left drainable calm leaving
  | leaves _ leaving => exact left drainable calm leaving

theorem CanFinish.heartbeatCancelled {after : After} (drainable : Drainable cfg s)
    (pc : s.pc = .cancelHeartbeat after) (calm : s.interrupted = false) : CanFinish cfg s := by
  apply drained drainable (drainable.stop (.inl ⟨after, pc⟩))
  intro r ceased drained
  have resumed : Delivery.resume cfg { s with renewal := r } =
      some (proceed cfg { s with renewal := r } after) := by
    simp [Delivery.resume, calm, pc, ceased]
  obtain ⟨rest, kept⟩ := proceeds drained calm (proceed_cases cfg { s with renewal := r } after)
  exact rest.resume resumed kept

theorem CanFinish.cancelHeartbeat (drainable : Drainable cfg s) (calm : s.interrupted = false)
    (after : After) : CanFinish cfg (Delivery.cancelHeartbeat cfg s after).1 ∧
      (Delivery.cancelHeartbeat cfg s after).1.renewal.lockLost = s.renewal.lockLost := by
  have later := drainable.cancelHeartbeat after
  rcases cancelHeartbeat_cases cfg s after with ⟨-, proceeded⟩ | ⟨-, eq⟩
  · have stopped : Drainable cfg { s with renewal := { s.renewal with stop := true } } :=
      drainable.moved rfl fun _ => rfl
    have next := proceeds stopped calm proceeded
    exact next
  · rw [eq] at later ⊢
    exact ⟨heartbeatCancelled later rfl calm, rfl⟩

theorem CanFinish.handle (drainable : Drainable cfg s) (calm : s.interrupted = false) (exc : Exc) :
    CanFinish cfg (Delivery.handle cfg s exc).1 ∧
      (Delivery.handle cfg s exc).1.renewal.lockLost = s.renewal.lockLost := by
  unfold Delivery.handle
  split
  · obtain ⟨t, leaving, eq⟩ := leave_eq cfg s (.raised .cancelledError)
    rw [eq]
    exact left drainable calm leaving
  · exact cancelHeartbeat drainable calm _
  · exact cancelHeartbeat drainable calm _

theorem CanFinish.callbackResult (drainable : Drainable cfg s) (calm : s.interrupted = false)
    (outcome : Outcome) : CanFinish cfg (Delivery.callbackResult cfg s outcome).1 ∧
      (Delivery.callbackResult cfg s outcome).1.renewal.lockLost = s.renewal.lockLost := by
  cases outcome with
  | returned ret => exact cancelHeartbeat drainable calm _
  | raised exc => exact handle drainable calm exc

theorem CanFinish.cancelledResult (drainable : Drainable cfg s) (calm : s.interrupted = false)
    (outcome : Outcome) : CanFinish cfg (Delivery.cancelledResult cfg s outcome).1 ∧
      (Delivery.cancelledResult cfg s outcome).1.renewal.lockLost = s.renewal.lockLost := by
  cases outcome <;> exact handle drainable calm _

/-- Once the callback has ended, nothing that an uncancelled delivery waits for fails to come. -/
theorem canFinish {outcome : Outcome} (drainable : Drainable cfg s) (calm : s.interrupted = false)
    (ended : s.callback = .ended outcome) : CanFinish cfg s := by
  cases pc : s.pc with
  | finished result => exact .finished pc
  | exiting result => exact .exiting drainable pc calm
  | settling settlement request => exact .settling drainable calm pc
  | cancelHeartbeat after => exact .heartbeatCancelled drainable pc calm
  | doneAwaitLock =>
      have resumed : resume cfg s = some (callbackResult cfg s outcome) := by
        simp [resume, calm, pc, ended]
      obtain ⟨rest, kept⟩ := CanFinish.callbackResult drainable calm outcome
      exact rest.resume resumed kept
  | lostAwaitCallback =>
      have resumed : resume cfg s = some (cancelHeartbeat cfg s (.succeeded .null true)) := by
        simp [resume, calm, pc, ended]
      obtain ⟨rest, kept⟩ := CanFinish.cancelHeartbeat drainable calm (.succeeded .null true)
      exact rest.resume resumed kept
  | cancelAwaitCallback =>
      have resumed : resume cfg s = some (cancelledResult cfg s outcome) := by
        simp [resume, calm, pc, ended]
      obtain ⟨rest, kept⟩ := CanFinish.cancelledResult drainable calm outcome
      exact rest.resume resumed kept
  | cancelAwaitLock =>
      have resumed : resume cfg s = some (cancelledResult cfg s outcome) := by
        simp [resume, calm, pc, ended, awaitCancelled]
      obtain ⟨rest, kept⟩ := CanFinish.cancelledResult drainable calm outcome
      exact rest.resume resumed kept
  | waiting =>
      cases noticed : s.lockTaskDone with
      | true =>
          have resumed : resume cfg s = some (cancelHeartbeat cfg s (.succeeded .null true)) := by
            simp [resume, calm, pc, ended, noticed, awaitLost]
          obtain ⟨rest, kept⟩ := CanFinish.cancelHeartbeat drainable calm (.succeeded .null true)
          exact rest.resume resumed kept
      | false =>
          have resumed : resume cfg s = some ({ s with pc := .doneAwaitLock }, []) := by
            simp [resume, calm, pc, ended, noticed]
          have later : resume cfg { s with pc := .doneAwaitLock } =
              some (callbackResult cfg { s with pc := .doneAwaitLock } outcome) := by
            simp [resume, calm, ended]
          have moved : Drainable cfg { s with pc := .doneAwaitLock } := drainable.moved rfl (by simp)
          obtain ⟨rest, kept⟩ := CanFinish.callbackResult moved calm outcome
          exact (rest.resume later kept).resume resumed rfl

end Delivery

end JobQ
