import JobQ.Model.PullAndExecute

/-!
# What one step of a delivery can do

Every resumption of the coroutine either goes to another wait, or concludes what is left to do and
cancels the heartbeat, or lets a `CancelledError` out, or goes on after the heartbeat, or leaves.
-/

namespace JobQ

def After.lockLost : After → Bool
  | .requeue => false
  | .failed _ lost | .succeeded _ lost => lost

def Exc.isOrdinary : Exc → Bool
  | .cancelledError | .workerCanceled => false
  | _ => true

def Outcome.isOrdinary : Outcome → Bool
  | .returned _ => true
  | .raised exc => exc.isOrdinary

def Exc.isPrintable : Exc → Bool
  | .unprintable _ => false
  | _ => true

def Exc.text (exc : Exc) : String := exc.str.toOption.getD ""

theorem Exc.str_printable {exc : Exc} (printable : exc.isPrintable = true) :
    exc.str = .ok exc.text := by
  cases exc <;> first | rfl | contradiction

def Pc.isDeciding : Pc → Bool
  | .waiting | .cancelAwaitLock | .cancelAwaitCallback | .lostAwaitCallback | .doneAwaitLock => true
  | _ => false

/-- What has been cached of the task's log consists of texts. -/
def TaskLog.isReadable (log : TaskLog) : Bool :=
  match log.read with
  | .ok _ => true
  | .error _ => false

/-- The log of the failed task can be read, and its exception has a text if it is given up. -/
def Reportable (log : TaskLog) (task : Task) (exc : Exc) : Prop :=
  log.isReadable = true ∧ (exc.isPrintable = true ∨ 0 < task.numRetries)

def Event.settles : Event → Bool
  | .settlement _ | .request _ => true
  | _ => false

namespace Delivery

/-- The suspensions of the handler of a cancellation, or a cancellation that is due. -/
def Cancelling (s : State) : Prop :=
  s.pc = .cancelAwaitLock ∨ s.pc = .cancelAwaitCallback ∨ s.interrupted = true

inductive Concludes (s : State) : After → Prop
  | canceled (ended : s.callback = .ended (.raised .workerCanceled)) : Concludes s .requeue
  | raised {exc : Exc} (ended : s.callback = .ended (.raised exc)) (ordinary : exc.isOrdinary = true) :
      Concludes s (.failed exc s.renewal.lockLost)
  | returned {ret : JsonText.Json} (ended : s.callback = .ended (.returned ret)) :
      Concludes s (.succeeded ret s.renewal.lockLost)
  | unbound {ret : JsonText.Json} (ended : s.callback = .ended (.returned ret))
      (cancelling : Cancelling s) :
      Concludes s (.failed (.unboundLocalError "done") s.renewal.lockLost)
  | lost (noticed : s.lockTaskDone = true ∨ s.pc = .lostAwaitCallback) :
      Concludes s (.succeeded .null true)

inductive LetsOut (s : State) : Prop
  | callback (deciding : s.pc.isDeciding = true)
      (ended : s.callback = .ended (.raised .cancelledError))
  | interrupted (due : s.interrupted = true)
      (staying : ∀ result, s.pc ≠ .exiting result ∧ s.pc ≠ .finished result)

inductive Resumes (cfg : Config) (s : State) : Step → Prop
  | awaits {pc : Pc} (before : s.pc.isDeciding = true) (after : pc.isDeciding = true)
      (cancelling : pc = .cancelAwaitLock ∨ pc = .cancelAwaitCallback → Cancelling s)
      (noticed : pc = .lostAwaitCallback → s.lockTaskDone = true) :
      Resumes cfg s ({ s with pc := pc, interrupted := false }, [])
  | concludes {after : After} (deciding : s.pc.isDeciding = true) (conclusion : Concludes s after) :
      Resumes cfg s (cancelHeartbeat cfg { s with interrupted := false } after)
  | letsOut (out : LetsOut s) :
      Resumes cfg s (leave cfg { s with interrupted := false } (.raised .cancelledError))
  | proceeds {after : After} (pc : s.pc = .cancelHeartbeat after) (calm : s.interrupted = false)
      (ceased : s.renewal.isOver = true) : Resumes cfg s (proceed cfg s after)
  | exits {result : Result} (pc : s.pc = .exiting result) (calm : s.interrupted = false)
      (ceased : s.renewal.isOver = true) :
      Resumes cfg s ({ s with pc := .finished result, interrupted := false }, [])
  | exitInterrupted {result : Result} (pc : s.pc = .exiting result) (due : s.interrupted = true) :
      Resumes cfg s ({ s with pc := .finished (.raised .cancelledError), interrupted := false }, [])

variable {cfg : Config} {s t : State}

theorem calm_eq (calm : s.interrupted = false) : { s with interrupted := false } = s := by
  rw [← calm]

section

variable (deciding : s.pc.isDeciding = true)
include deciding

theorem handle_resumes {exc : Exc} (ended : s.callback = .ended (.raised exc)) :
    Resumes cfg s (handle cfg { s with interrupted := false } exc) := by
  cases exc with
  | cancelledError => exact .letsOut (.callback deciding ended)
  | workerCanceled => exact .concludes deciding (.canceled ended)
  | _ => exact .concludes deciding (.raised ended rfl)

theorem callbackResult_resumes {outcome : Outcome} (ended : s.callback = .ended outcome) :
    Resumes cfg s (callbackResult cfg { s with interrupted := false } outcome) := by
  cases outcome with
  | returned ret => exact .concludes deciding (.returned ended)
  | raised exc => exact handle_resumes deciding ended

theorem cancelledResult_resumes {outcome : Outcome} (cancelling : Cancelling s)
    (ended : s.callback = .ended outcome) :
    Resumes cfg s (cancelledResult cfg { s with interrupted := false } outcome) := by
  cases outcome with
  | returned ret => exact .concludes deciding (.unbound ended cancelling)
  | raised exc => exact handle_resumes deciding ended

theorem awaitCancelled_resumes (cancelling : Cancelling s) :
    Resumes cfg s (awaitCancelled cfg { s with interrupted := false }) := by
  unfold awaitCancelled
  split
  · exact cancelledResult_resumes deciding cancelling ‹_›
  · exact .awaits deciding rfl (fun _ => cancelling) (by simp)

theorem awaitLost_resumes (noticed : s.lockTaskDone = true) :
    Resumes cfg s (awaitLost cfg { s with interrupted := false }) := by
  unfold awaitLost
  split
  · exact .concludes deciding (.lost (.inl noticed))
  · exact .awaits deciding rfl (by simp) fun _ => noticed

end

theorem interrupt_cases {next : Step} (due : s.interrupted = true)
    (resumed : interrupt cfg { s with interrupted := false } = some next) :
    Resumes cfg s next := by
  have cancelling : Cancelling s := .inr (.inr due)
  cases pc : s.pc with
  | waiting =>
      have deciding : s.pc.isDeciding = true := by rw [pc]; rfl
      simp only [interrupt, pc] at resumed
      split at resumed <;> cases resumed
      · exact awaitCancelled_resumes deciding cancelling
      · exact .awaits deciding rfl (fun _ => cancelling) (by simp)
  | cancelAwaitCallback =>
      simp only [interrupt, pc, Option.some.injEq] at resumed
      subst resumed
      exact .letsOut (.interrupted due (by simp [pc]))
  | lostAwaitCallback =>
      simp only [interrupt, pc, Option.some.injEq] at resumed
      subst resumed
      exact .concludes (by rw [pc]; rfl) (.lost (.inr pc))
  | cancelHeartbeat _ =>
      simp only [interrupt, pc, Option.some.injEq] at resumed
      subst resumed
      exact .letsOut (.interrupted due (by simp [pc]))
  | settling _ _ =>
      simp only [interrupt, pc, Option.some.injEq] at resumed
      subst resumed
      exact .letsOut (.interrupted due (by simp [pc]))
  | exiting result =>
      simp only [interrupt, pc, Option.some.injEq] at resumed
      subst resumed
      exact .exitInterrupted pc due
  | cancelAwaitLock => simp [interrupt, pc] at resumed
  | doneAwaitLock => simp [interrupt, pc] at resumed
  | finished _ => simp [interrupt, pc] at resumed

theorem resume_cases {next : Step} (resumed : resume cfg s = some next) : Resumes cfg s next := by
  cases due : s.interrupted with
  | true =>
      simp only [resume, due, ↓reduceIte] at resumed
      exact interrupt_cases due resumed
  | false =>
      have same := calm_eq due
      simp only [resume, due, Bool.false_eq_true, ↓reduceIte] at resumed
      split at resumed
      · rename_i pc ended
        have deciding : s.pc.isDeciding = true := by rw [pc]; rfl
        split at resumed <;> rename_i noticed <;> cases resumed
        · exact same ▸ awaitLost_resumes deciding noticed
        · exact same ▸ .awaits deciding rfl (by simp) (by simp)
      · rename_i pc _
        split at resumed <;> cases resumed
        rename_i noticed
        exact same ▸ awaitLost_resumes (by rw [pc]; rfl) noticed
      · rename_i pc
        cases resumed
        exact same ▸ awaitCancelled_resumes (by rw [pc]; rfl) (.inl pc)
      · rename_i pc ended
        cases resumed
        exact same ▸ cancelledResult_resumes (by rw [pc]; rfl) (.inr (.inl pc)) ended
      · rename_i pc ended
        cases resumed
        exact same ▸ .concludes (by rw [pc]; rfl) (.lost (.inr pc))
      · rename_i pc ended
        cases resumed
        exact same ▸ callbackResult_resumes (by rw [pc]; rfl) ended
      · rename_i pc
        split at resumed <;> cases resumed
        exact .proceeds pc due ‹_›
      · rename_i pc
        split at resumed <;> cases resumed
        exact .exits pc due ‹_›
      · contradiction

/-! ## From the heartbeat to the end -/

def Leaves (s : State) (result : Result) (t : State) : Prop :=
  ∃ pc stop, (pc = .exiting result ∧ stop = true ∨ pc = .finished result) ∧
    t = { s with pc := pc, renewal := { s.renewal with stop := stop } }

theorem leave_eq (cfg : Config) (s : State) (result : Result) :
    ∃ t, Leaves s result t ∧ leave cfg s result = (t, []) := by
  unfold leave
  split
  · exact ⟨_, ⟨_, s.renewal.stop, .inr rfl, rfl⟩, rfl⟩
  · dsimp only
    split
    · exact ⟨_, ⟨_, true, .inr rfl, rfl⟩, rfl⟩
    · exact ⟨_, ⟨_, true, .inl ⟨rfl, rfl⟩, rfl⟩, rfl⟩


inductive Decides (log : TaskLog) (task : Task) : After → Decision → Prop
  | requeues : Decides log task .requeue (.settle .requeue)
  | abandons {after : After} (lost : after.lockLost = true) :
      Decides log task after (.leave (.raised (lockLostError task)))
  | completes {ret : JsonText.Json} (silent : task.replyRequested = false) :
      Decides log task (.succeeded ret false) (.settle .complete)
  | swallows {ret : JsonText.Json} (requested : task.replyRequested = true) :
      Decides log task (.succeeded ret false) (.leave (.returned true))
  | chokes {exc : Exc} {text : String} (garbled : ¬Reportable log task exc) :
      Decides log task (.failed exc false) (.leave (.raised (.other text)))
  | givesUp {exc : Exc} (reportable : Reportable log task exc) (final : task.numRetries ≤ 0)
      (silent : task.replyRequested = false) :
      Decides log task (.failed exc false) (.settle (.deadLetter exc.text))
  | raises {exc : Exc} {text : String} (reportable : Reportable log task exc)
      (final : task.numRetries ≤ 0) (requested : task.replyRequested = true) :
      Decides log task (.failed exc false) (.leave (.raised (.notImplementedError text)))
  | retries {exc : Exc} (reportable : Reportable log task exc) (left : 0 < task.numRetries) :
      Decides log task (.failed exc false)
        (.settle (.replace { task with retries := task.retries.pred left }))

theorem giveUp_cases {cfg : Config} {task : Task} {exc : Exc} (readable : cfg.log.isReadable = true)
    (final : task.numRetries ≤ 0) :
    Decides cfg.log task (.failed exc false) (giveUp cfg task exc) := by
  unfold giveUp
  cases printable : exc.isPrintable with
  | true =>
      have reportable : Reportable cfg.log task exc := ⟨readable, .inl printable⟩
      rw [Exc.str_printable printable]
      cases requested : task.replyRequested with
      | true => exact .raises reportable final requested
      | false => exact .givesUp reportable final requested
  | false =>
      cases exc with
      | unprintable text => exact .chokes (by simp [Reportable, printable]; omega)
      | _ => contradiction

theorem decision_cases (cfg : Config) (task : Task) (after : After) :
    Decides cfg.log task after (decision cfg task after) := by
  cases after with
  | requeue => exact .requeues
  | succeeded ret lost =>
      cases lost with
      | true => exact .abandons rfl
      | false =>
          cases requested : task.replyRequested with
          | true =>
              simp only [decision, requested, reply]
              exact .swallows requested
          | false =>
              simp only [decision, requested]
              exact .completes requested
  | failed exc lost =>
      cases lost with
      | true => exact .abandons rfl
      | false =>
          cases log : cfg.log.read with
          | error text =>
              simp only [decision, log]
              exact .chokes (by simp [Reportable, TaskLog.isReadable, log])
          | ok text =>
              have readable : cfg.log.isReadable = true := by simp [TaskLog.isReadable, log]
              by_cases final : task.numRetries ≤ 0
              · simp only [decision, log, final, ↓reduceDIte]
                exact giveUp_cases readable final
              · simp only [decision, log, final]
                exact .retries ⟨readable, .inr (by omega)⟩ (by omega)

inductive Proceeds (cfg : Config) (s : State) (after : After) : Step → Prop
  | settles {settlement : Settlement} {request : Request}
      (decided : decision cfg s.task after = .settle settlement)
      (first : firstRequest cfg.backend s.task s.renewal.popReceipt settlement = some request) :
      Proceeds cfg s after ({ s with pc := .settling settlement request },
        [.settlement settlement, .request request])
  | skips {settlement : Settlement} {t : State}
      (decided : decision cfg s.task after = .settle settlement)
      (first : firstRequest cfg.backend s.task s.renewal.popReceipt settlement = none) (left : Leaves s (.returned false) t) :
      Proceeds cfg s after (t, [.settlement settlement])
  | leaves {result : Result} {t : State} (decided : decision cfg s.task after = .leave result)
      (left : Leaves s result t) : Proceeds cfg s after (t, [])

theorem proceed_cases (cfg : Config) (s : State) (after : After) :
    Proceeds cfg s after (proceed cfg s after) := by
  unfold proceed
  cases decided : decision cfg s.task after with
  | settle settlement =>
      simp only [settle]
      cases first : firstRequest cfg.backend s.task s.renewal.popReceipt settlement with
      | some request => exact .settles decided first
      | none =>
          obtain ⟨t, left, eq⟩ := leave_eq cfg s (.returned false)
          rw [eq]
          exact .skips decided first left
  | leave result =>
      obtain ⟨t, left, eq⟩ := leave_eq cfg s result
      simp only [eq]
      exact .leaves decided left

theorem cancelHeartbeat_cases (cfg : Config) (s : State) (after : After) :
    (s.renewal.isOver = true ∧ Proceeds cfg { s with renewal := { s.renewal with stop := true } } after
      (cancelHeartbeat cfg s after)) ∨
    (s.renewal.isOver = false ∧ cancelHeartbeat cfg s after =
      ({ s with pc := .cancelHeartbeat after, renewal := { s.renewal with stop := true } }, [])) := by
  have same : { s.renewal with stop := true }.isOver = s.renewal.isOver := rfl
  unfold cancelHeartbeat
  simp only [same]
  split
  · rename_i ceased
    exact .inl ⟨ceased, proceed_cases _ _ _⟩
  · rename_i running
    exact .inr ⟨by simpa using running, rfl⟩

inductive Verdict : Settlement → Request → Except String Unit → Result → Prop
  | complete {request : Request} {answer : Except String Unit} :
      Verdict .complete request answer (.returned true)
  | requeue {request : Request} {answer : Except String Unit} :
      Verdict .requeue request answer (.raised .workerCanceled)
  | replace {task : Task} {request : Request} : Verdict (.replace task) request (.ok ()) (.returned false)
  | deadLetter {error : String} {request : Request}
      (last : ∀ content, request ≠ .sendDeadLetter content) :
      Verdict (.deadLetter error) request (.ok ()) (.returned false)
  | deadLetterCaught {error reason text : String} :
      Verdict (.deadLetter error) (.deadletterMessage reason) (.error text) (.returned false)
  | replaceFailed {task : Task} {request : Request} {text : String} :
      Verdict (.replace task) request (.error text) (.raised (.brokerError text))
  | deadLetterFailed {error : String} {request : Request} {text : String} :
      Verdict (.deadLetter error) request (.error text) (.raised (.brokerError text))

inductive Answers (s : State) (settlement : Settlement) (request : Request)
    (answer : Except String Unit) : Step → Prop
  | continues {error content : String} (deadLetter : settlement = .deadLetter error)
      (sent : request = .sendDeadLetter content) (ok : answer = .ok ()) :
      Answers s settlement request answer
        ({ s with pc := .settling settlement (.deleteMessage s.renewal.popReceipt) },
          [.request (.deleteMessage s.renewal.popReceipt)])
  | leaves {result : Result} {t : State} (verdict : Verdict settlement request answer result)
      (left : Leaves s result t) : Answers s settlement request answer (t, [])

theorem settleAnswered_cases (cfg : Config) (s : State) (settlement : Settlement)
    (request : Request) (answer : Except String Unit) :
    Answers s settlement request answer (settleAnswered cfg s settlement request answer) := by
  have leaves {result : Result} (verdict : Verdict settlement request answer result) :
      Answers s settlement request answer (leave cfg s result) := by
    obtain ⟨t, left, eq⟩ := leave_eq cfg s result
    rw [eq]
    exact .leaves verdict left
  unfold settleAnswered
  split
  · exact leaves .complete
  · exact leaves .requeue
  · cases answer with
    | ok _ => exact leaves (.deadLetter (by simp))
    | error text => exact leaves .deadLetterCaught
  · exact .continues rfl rfl rfl
  · rename_i error request _ other
    exact leaves (.deadLetter fun content same => other content same)
  · exact leaves .replace
  · cases settlement with
    | replace task => exact leaves .replaceFailed
    | deadLetter error => exact leaves .deadLetterFailed
    | complete => simp_all
    | requeue => simp_all

/-! ## What the coroutine keeps -/

structure Keeps (s : State) (next : Step) : Prop where
  task : next.1.task = s.task
  callback : next.1.callback = s.callback
  calm : s.interrupted = false → next.1.interrupted = false
  settles : ∀ e ∈ next.2, e.settles = true

theorem Leaves.keeps {result : Result} (left : Leaves s result t) {events : List Event}
    (settles : ∀ e ∈ events, e.settles = true) : Keeps s (t, events) := by
  obtain ⟨pc, stop, -, rfl⟩ := left
  exact ⟨rfl, rfl, id, settles⟩

theorem leave_keeps (cfg : Config) (s : State) (result : Result) : Keeps s (leave cfg s result) := by
  obtain ⟨t, left, eq⟩ := leave_eq cfg s result
  rw [eq]
  exact left.keeps (by simp)

theorem Proceeds.keeps {after : After} {next : Step} (proceeded : Proceeds cfg s after next) :
    Keeps s next := by
  cases proceeded with
  | settles => exact ⟨rfl, rfl, id, by simp [Event.settles]⟩
  | skips _ _ left => exact left.keeps (by simp [Event.settles])
  | leaves _ left => exact left.keeps (by simp)

theorem cancelHeartbeat_keeps (cfg : Config) (s : State) (after : After) :
    Keeps s (cancelHeartbeat cfg s after) := by
  rcases cancelHeartbeat_cases cfg s after with ⟨-, proceeded⟩ | ⟨-, eq⟩
  · have kept := proceeded.keeps
    exact ⟨kept.task, kept.callback, kept.calm, kept.settles⟩
  · rw [eq]
    exact ⟨rfl, rfl, id, by simp⟩

theorem Resumes.keeps {next : Step} (resumed : Resumes cfg s next) : Keeps s next := by
  cases resumed with
  | awaits => exact ⟨rfl, rfl, fun _ => rfl, by simp⟩
  | concludes =>
      have kept := cancelHeartbeat_keeps cfg { s with interrupted := false }
      exact ⟨(kept _).task, (kept _).callback, fun _ => (kept _).calm rfl, (kept _).settles⟩
  | letsOut =>
      have kept := leave_keeps cfg { s with interrupted := false } (.raised .cancelledError)
      exact ⟨kept.task, kept.callback, fun _ => kept.calm rfl, kept.settles⟩
  | proceeds => exact (proceed_cases _ _ _).keeps
  | exits => exact ⟨rfl, rfl, fun _ => rfl, by simp⟩
  | exitInterrupted => exact ⟨rfl, rfl, fun _ => rfl, by simp⟩

theorem Answers.keeps {settlement : Settlement} {request : Request} {answer : Except String Unit}
    {next : Step} (answered : Answers s settlement request answer next) : Keeps s next := by
  cases answered with
  | continues => exact ⟨rfl, rfl, id, by simp [Event.settles]⟩
  | leaves _ left => exact left.keeps (by simp)

/-! ## Every step -/

inductive Steps (cfg : Config) (s : State) : Action → Step → Prop
  | renewal {a : RenewalAction} {r : Renewal} {events : List RenewalEvent}
      (action : s.renewal.step cfg.backend cfg.renewal a = some (r, events)) :
      Steps cfg s (.renewal a) ({ s with renewal := r }, events.map .renewal)
  | callbackEnds {outcome : Outcome} (running : s.callback = .running) :
      Steps cfg s (.callbackEnds outcome)
        ({ s with callback := .ended outcome }, [.callbackEnded outcome])
  | lockTaskRuns (pc : s.pc = .waiting) (lost : s.renewal.lockLost = true) :
      Steps cfg s .lockTaskRuns ({ s with lockTaskDone := true }, [])
  | throws (unfinished : ∀ result, s.pc ≠ .finished result) :
      Steps cfg s .cancel ({ s with interrupted := true }, [.cancelled (isRunning s)])
  | absorbs (unfinished : ∀ result, s.pc ≠ .finished result) :
      Steps cfg s .cancel (s, [.cancelled (isRunning s)])
  | aborts (backend : cfg.backend = .serviceBus)
      (pc : (∃ after, s.pc = .cancelHeartbeat after) ∨ ∃ result, s.pc = .exiting result) :
      Steps cfg s .cancel ({ s with renewal := (ServiceBus.abort s.renewal).1 },
        .cancelled (isRunning s) :: (ServiceBus.abort s.renewal).2.map .renewal)
  | resumes {next : Step} (resumed : Resumes cfg s next) : Steps cfg s .resume next
  | answers {settlement : Settlement} {request : Request} {answer : Except String Unit} {next : Step}
      (pc : s.pc = .settling settlement request) (calm : s.interrupted = false)
      (answered : Answers s settlement request answer next) :
      Steps cfg s (.answer answer) (next.1, .answered request (isOk answer) :: next.2)

theorem cancel_cases {next : Step} (action : cancel cfg s = some next) :
    Steps cfg s .cancel next := by
  have throws (unfinished : ∀ result, s.pc ≠ .finished result) :
      Steps cfg s .cancel ({ s with interrupted := true }, [.cancelled (isRunning s)]) :=
    .throws unfinished
  have absorbs (unfinished : ∀ result, s.pc ≠ .finished result) :
      Steps cfg s .cancel (s, [.cancelled (isRunning s)]) :=
    .absorbs unfinished
  unfold cancel at action
  dsimp only at action
  split at action <;> rename_i pc
  · cases action
    exact throws (by simp [pc])
  · cases action
    exact throws (by simp [pc])
  · cases action
    exact absorbs (by simp [pc])
  · cases action
    exact absorbs (by simp [pc])
  · split at action <;> cases action
    · exact absorbs (by simp [pc])
    · exact throws (by simp [pc])
  · split at action <;> cases action
    · exact absorbs (by simp [pc])
    · exact throws (by simp [pc])
  · split at action <;> cases action
    · exact throws (by simp [pc])
    · exact .aborts ‹_› (.inl ⟨_, pc⟩)
  · split at action <;> cases action
    · exact throws (by simp [pc])
    · exact .aborts ‹_› (.inr ⟨_, pc⟩)
  · contradiction

theorem step_cases {a : Action} {next : Step} (action : step cfg s a = some next) :
    Steps cfg s a next := by
  cases a with
  | renewal a =>
      simp only [step] at action
      split at action <;> cases action
      exact .renewal ‹_›
  | callbackEnds outcome =>
      simp only [step] at action
      split at action <;> cases action
      rename_i running
      apply Steps.callbackEnds
      cases callback : s.callback with
      | running => rfl
      | absent => simp [isRunning, callback] at running
      | ended _ => simp [isRunning, callback] at running
  | lockTaskRuns =>
      simp only [step] at action
      split at action
      · rename_i pc
        split at action <;> cases action
        rename_i lost
        exact .lockTaskRuns pc lost.1
      · contradiction
  | cancel => exact cancel_cases action
  | resume => exact .resumes (resume_cases action)
  | answer result =>
      simp only [step] at action
      split at action
      · rename_i pc
        split at action <;> cases action
        rename_i calm
        exact .answers pc (by simpa using calm) (settleAnswered_cases _ _ _ _ _)
      · contradiction

/-! ## The start -/

def prepared (cfg : Config) (task : Task) : Task :=
  match cfg.parameters with
  | .ok parameters => magicKwargs cfg parameters task
  | .error _ => task

section

variable (task : Task) (key : String) (value : Option String)

@[simp]
theorem setKwarg_numRetries : (setKwarg task key value).numRetries = task.numRetries := by
  cases value <;> rfl

@[simp]
theorem setKwarg_replyRequested :
    (setKwarg task key value).replyRequested = task.replyRequested := by
  cases value <;> rfl

@[simp]
theorem setKwarg_id : (setKwarg task key value).id = task.id := by
  cases value <;> rfl

end

theorem prepared_fields (cfg : Config) (task : Task) :
    (prepared cfg task).numRetries = task.numRetries ∧
      (prepared cfg task).replyRequested = task.replyRequested ∧
      (prepared cfg task).id = task.id := by
  unfold prepared
  split
  · simp only [magicKwargs]
    split <;> split <;> simp
  · exact ⟨rfl, rfl, rfl⟩

inductive Starts (cfg : Config) (s : State) : CallResult → Step → Prop
  | waits {parameters : List String} (readable : cfg.parameters = .ok parameters) :
      Starts cfg s .coroutine ({ s with callback := .running }, [])
  | called {outcome : Outcome} {parameters : List String} {next : Step}
      (readable : cfg.parameters = .ok parameters)
      (resumed : Resumes cfg { s with callback := .ended outcome } next) :
      Starts cfg s (.ended outcome) (next.1, .callbackEnded outcome :: next.2)
  | unreadable {call : CallResult} {text : String} (parameters : cfg.parameters = .error text) :
      Starts cfg s call (cancelHeartbeat cfg s (.failed (.other text) false))

theorem start_cases (cfg : Config) (task : Task) (popReceipt : Receipt) (call : CallResult) :
    Starts cfg (received cfg (prepared cfg task) popReceipt) call
      (start cfg task popReceipt call) := by
  unfold start prepared
  cases parameters : cfg.parameters with
  | error text => exact .unreadable parameters
  | ok parameters =>
      cases call with
      | coroutine => exact .waits parameters
      | ended outcome => exact .called parameters (callbackResult_resumes rfl rfl)

/-! ## Two configurations -/

def plainConfig (backend : Backend) : Config where
  backend := backend
  withHeartbeat := false
  renewal := ⟨30, by decide, 0⟩
  workerId := none
  parameters := .ok []

def heartbeatConfig (backend : Backend) : Config := { plainConfig backend with withHeartbeat := true }

end Delivery

end JobQ
