import JobQ.Model.ShellCommand
import JobQ.Proof.Delivery.Cancellation
import JobQ.Proof.QueueSystem.NoLoss
import JobQ.Proof.RunCmd

/-!
# What becomes of a task whose command has ended

From the signals and the exit of the process to what the broker is asked: a task is completed only
if its command has exited with 0, and a command that was told to stop costs no retry.
-/

namespace JobQ.ShellCommandProcessor
open JsonText Delivery

variable {repr : Json → String} {c : Call} {kwargs : Dict} {outcome : Outcome} {cfg : Config}
  {task : Task} {log : List Event} {s : State}

/-! ## Commands -/

/-- A call with what happened to its process before `run_cmd_and_log_outputs` ended. -/
structure Command extends Call where
  log : List RunCmd.Event := []

namespace Command

variable {command : Command}

/-- The call is made with these arguments, its process goes through this log, and the outcome is
what comes of both. -/
structure Runs (repr : Json → String) (kwargs : Dict) (outcome : Outcome) (command : Command) :
    Prop where
  passed : ∀ cmd, command.arguments = .ok cmd → kwargs.get "cmd" = some cmd
  process : ∀ result, command.future = .ended result → ∃ cfg after final,
    Mealy.Run (RunCmd.machine cfg) Mealy.always ({}, []) (command.log ++ .ended result :: after) final
  ended : outcome = (call repr command.toCall).1

def ExitedWith (command : Command) (ret : Int) : Prop := ∃ time, .exited ret time ∈ command.log

def Signalled (command : Command) : Prop := ∃ time, .sigusr1 time ∈ command.log

/-- The process has exited with this code, and nobody has told it or its pool to stop. -/
structure Finished (command : Command) (cmd : Json) (ret : Int) : Prop where
  called : command.arguments = .ok cmd
  exited : command.ExitedWith ret
  unsignalled : ¬command.Signalled
  accepting : command.inShutdown = false

/-- Something else has been raised with this text. -/
def Raises (command : Command) (text : String) : Prop :=
  command.arguments = .error text ∨ command.contexts = some text ∨ command.future = .failed text

inductive Ends (repr : Json → String) (command : Command) : Outcome → Prop
  | succeeded {cmd : Json} (finished : command.Finished cmd 0) :
      Ends repr command (.returned (.int 0))
  | failed {cmd : Json} {ret : Int} (finished : command.Finished cmd ret) (nonzero : ret ≠ 0) :
      Ends repr command (.raised (.other (failure repr cmd ret)))
  | told (told : command.Signalled ∨ command.inShutdown = true) :
      Ends repr command (.raised .workerCanceled)
  | cancelled : Ends repr command (.raised .cancelledError)
  | raises {text : String} (raises : command.Raises text) : Ends repr command (.raised (.other text))

theorem Runs.truthful (runs : command.Runs repr kwargs outcome) {result : RunCmd.Result}
    (future : command.future = .ended result) : RunCmd.Truthful command.log result := by
  obtain ⟨cfg, after, final, run⟩ := runs.process result future
  exact (RunCmd.result_truthful run rfl).1

theorem Runs.ends (runs : command.Runs repr kwargs outcome) : command.Ends repr outcome := by
  have ended := runs.ended
  cases arguments : command.arguments with
  | error text =>
      simp only [call, arguments] at ended
      exact ended ▸ .raises (.inl arguments)
  | ok cmd =>
      cases contexts : command.contexts with
      | some text =>
          simp only [call, arguments, submit, contexts] at ended
          exact ended ▸ .raises (.inr (.inl contexts))
      | none =>
          cases future : command.future with
          | failed text =>
              simp only [call, arguments, submit, contexts, future] at ended
              exact ended ▸ .raises (.inr (.inr future))
          | cancelled =>
              simp only [call, arguments, submit, contexts, future] at ended
              exact ended ▸ .cancelled
          | ended result =>
              have truthful := runs.truthful future
              cases result with
              | workerCanceled =>
                  simp only [call, arguments, submit, contexts, future] at ended
                  exact ended ▸ .told (.inl truthful)
              | unboundLocalError => exact truthful.elim
              | returned ret =>
                  cases inShutdown : command.inShutdown with
                  | true =>
                      simp only [call, arguments, submit, contexts, future, inShutdown,
                        ↓reduceIte] at ended
                      exact ended ▸ .told (.inr inShutdown)
                  | false =>
                      have finished : command.Finished cmd ret := ⟨arguments, truthful.1,
                        fun ⟨time, member⟩ => truthful.2 time member, inShutdown⟩
                      by_cases zero : ret = 0
                      · subst zero
                        simp only [call, arguments, submit, contexts, future, inShutdown] at ended
                        exact ended ▸ .succeeded finished
                      · simp only [call, arguments, submit, contexts, future, inShutdown, zero,
                          ne_eq, not_false_eq_true, ↓reduceIte, Bool.false_eq_true] at ended
                        exact ended ▸ .failed finished zero

theorem Runs.returned (runs : command.Runs repr kwargs outcome) {ret : Json}
    (returned : outcome = .returned ret) :
    ∃ cmd, kwargs.get "cmd" = some cmd ∧ command.Finished cmd 0 := by
  have ends := runs.ends
  rw [returned] at ends
  cases ends with
  | succeeded finished => exact ⟨_, runs.passed _ finished.called, finished⟩

end Command

/-! ## Deliveries -/

/-- What may be settled once the command has ended. A failure of the task is one of the command,
something that kept it from its end, or a cancellation of the coroutine that comes when the command
is done. -/
inductive Settles (repr : Json → String) (command : Command) (log : List Event) : Settlement → Prop
  | complete {cmd : Json} (finished : command.Finished cmd 0) : Settles repr command log .complete
  | requeue (told : command.Signalled ∨ command.inShutdown = true) :
      Settles repr command log .requeue
  | failed {cmd : Json} {ret : Int} {settlement : Settlement} (finished : command.Finished cmd ret)
      (nonzero : ret ≠ 0) (costs : settlement.costs = true)
      (reason : ∀ error, settlement = .deadLetter error → error = failure repr cmd ret) :
      Settles repr command log settlement
  | cancelled {cmd : Json} {running : Bool} {settlement : Settlement}
      (finished : command.Finished cmd 0) (costs : settlement.costs = true)
      (cancelled : .cancelled running ∈ log) : Settles repr command log settlement
  | raises {text : String} {settlement : Settlement} (raises : command.Raises text)
      (costs : settlement.costs = true)
      (reason : ∀ error, settlement = .deadLetter error → error = text) :
      Settles repr command log settlement

variable {command : Command}

theorem Command.Runs.fails (runs : command.Runs repr kwargs outcome) {lockLost : Bool} {exc : Exc}
    {settlement : Settlement} (accounted : Accounted cfg task log s)
    (ended : .callbackEnded outcome ∈ log) (decided : Decided cfg log lockLost (.failed exc false))
    (costs : settlement.costs = true)
    (reason : ∀ error, settlement = .deadLetter error → error = exc.text) :
    Settles repr command log settlement := by
  cases decided with
  | raised member ordinary =>
      have ends := runs.ends
      rw [accounted.same_outcome ended member] at ends
      cases ends with
      | failed finished nonzero => exact .failed finished nonzero costs reason
      | told => cases ordinary
      | cancelled => cases ordinary
      | raises raises => exact .raises raises costs reason
  | unbound member cancelled =>
      obtain ⟨cmd, -, finished⟩ := runs.returned (accounted.same_outcome ended member)
      exact .cancelled finished costs cancelled
  | unreadable parameters =>
      have heard := accounted.heard outcome ended
      simp [accounted.uncalled _ parameters] at heard

/-- Whatever happens meanwhile, a delivery of a command settles its task as the command's end calls
for. -/
theorem command_settled {popReceipt : Receipt} {result : CallResult}
    (run : Mealy.Run (machine cfg) Mealy.always (start cfg task popReceipt result) log s)
    (ended : .callbackEnded outcome ∈ log)
    (runs : command.Runs repr (prepared cfg task).kwargs outcome) :
    ∀ settlement ∈ settlements log, Settles repr command log settlement := by
  have accounted := run_accounted run
  rcases accounted.account.settled with none | ⟨after, settlement, decided, settles, single⟩
  · simp [none]
  rw [single]
  rintro _ (_ | ⟨_, ⟨⟩⟩)
  have decides := decision_cases cfg s.task after
  rw [settles] at decides
  cases decides with
  | requeues =>
      cases decided with
      | canceled member =>
          have ends := runs.ends
          rw [accounted.same_outcome ended member] at ends
          cases ends with
          | told told => exact .requeue told
  | completes =>
      cases decided with
      | returned member =>
          obtain ⟨cmd, -, finished⟩ := runs.returned (accounted.same_outcome ended member)
          exact .complete finished
  | givesUp =>
      refine runs.fails accounted ended decided rfl ?_
      rintro _ ⟨⟩
      rfl
  | retries => exact runs.fails accounted ended decided rfl (by simp)

/-- `echo hello`, which exits with 0. -/
def echoHello : Command where
  arguments := .ok (.str "echo hello")
  future := .ended (.returned 0)
  log := [.exited 0 0, .readerEnded .stdout, .readerEnded .stderr]

theorem echoHello_runs : echoHello.Runs repr helloTask.delivered.kwargs (.returned (.int 0)) where
  passed := by
    rintro _ ⟨⟩
    rfl
  process := by
    rintro _ ⟨⟩
    have steps : Mealy.exec (RunCmd.machine ⟨600⟩) ({}, []) [.exits 0, .readerEnds .stdout,
      .readerEnds .stderr, .resume .sent, .resume .sent] = some (_, _) := rfl
    exact ⟨⟨600⟩, [], _, .of_exec (by simp) steps⟩
  ended := rfl

/-- The directory that it is to run in is missing. -/
def strayHello : Command where
  arguments := .ok (.str "echo hello")
  future := .failed "[Errno 2] No such file or directory: '/gone'"

theorem strayHello_runs : strayHello.Runs repr helloTask.delivered.kwargs
    (.raised (.other "[Errno 2] No such file or directory: '/gone'")) where
  passed := by
    rintro _ ⟨⟩
    rfl
  process := by
    rintro _ ⟨⟩
  ended := rfl

def echoedLog : List Event :=
  [.callbackEnded (.returned (.int 0)), .settlement .complete, .request (.deleteMessage 1)]

def helloRepr (_ : Json) : String := "'echo hello'"

theorem command_settled_hello : Settles helloRepr echoHello echoedLog .complete ∧
    ∃ log settlement, Settles helloRepr strayHello log settlement ∧ settlement.costs = true := by
  have echoes : Mealy.exec (machine (plainConfig .storageQueue))
      (start (plainConfig .storageQueue) helloTask.delivered 1 .coroutine)
      [.callbackEnds (.returned (.int 0)), .resume, .resume] = some (_, echoedLog) := rfl
  have strays : Mealy.exec (machine (plainConfig .storageQueue))
      (start (plainConfig .storageQueue) helloTask.delivered 1 .coroutine)
      [.callbackEnds (.raised (.other "[Errno 2] No such file or directory: '/gone'")), .resume,
        .resume] = some (_, [.callbackEnded (.raised (.other _)), .settlement (.replace _),
          .request (.updateMessage 1 _)]) := rfl
  exact ⟨command_settled (.of_exec (by simp) echoes) (by simp [echoedLog]) echoHello_runs .complete
    (.head _), _, _, command_settled (.of_exec (by simp) strays) (by simp) strayHello_runs _ (.head _),
    rfl⟩

/-! ## On the queue -/

open QueueSystem

/-- The command of a delivery is that of the task that was pushed. -/
def SameCommand (pushed read : Task) : Prop := read.kwargs.get "cmd" = pushed.kwargs.get "cmd"

theorem prepared_cmd (cfg : Config) (task : Task) :
    (prepared cfg task).kwargs.get "cmd" = task.kwargs.get "cmd" := by
  have kept (task : Task) {key : String} (other : "cmd" ≠ key) (value : Option String) :
      (setKwarg task key value).kwargs.get "cmd" = task.kwargs.get "cmd" := by
    cases value with
    | none => exact Dict.get_setItem_other task.kwargs .null trivial other
    | some text => exact Dict.get_setItem_other task.kwargs (.str text) Str.ofString_joined other
  unfold prepared
  split
  · unfold magicKwargs
    split <;> split <;> simp [kept]
  · rfl

/-- A task that is neither queued nor dead-lettered has been executed by a command that exited with
0 and was never told to stop: the command of one of its own deliveries, which is the task's. -/
theorem gone_command_succeeded {sys : System} {es : List Empty} {m : MessageId} {task : Task}
    (run : Mealy.Run System.machine Mealy.always (System.initial, []) es sys)
    (commands : AttemptId → Command)
    (runs : ∀ (d : AttemptId) (a : Attempt) outcome, sys.attempts[d]? = some a →
      .callbackEnded outcome ∈ a.log →
      (commands d).Runs repr (prepared a.cfg a.task).kwargs outcome)
    (pushed : sys.pushed m = some task) (gone : sys.service.queue m = none)
    (uncopied : ∀ content, (m, content) ∉ sys.service.deadLetter) :
    ∃ (d : AttemptId) (a : Attempt) (cmd : Json), sys.attempts[d]? = some a ∧ a.message = m ∧
      task.kwargs.get "cmd" = some cmd ∧ (commands d).Finished cmd 0 := by
  rcases System.run_accountable run m task pushed gone with ⟨content, copied⟩ | executed
  · exact absurd copied (uncopied content)
  · obtain ⟨d, a, ret, attempt, same, ended⟩ := executed
    have holds : System.Holds SameCommand sys := by
      refine System.run_holds (fun _ _ => rfl) (run.mono fun _ _ _ _ _ b _ _ _ => ?_)
      exact fun task retries error same => (prepared_cmd b.cfg b.task).trans same
    obtain ⟨origin, read, found, readable, related⟩ := holds.received attempt
    rw [same, pushed] at found
    cases found
    rw [((System.run_sound run).attempts attempt).read] at readable
    cases readable
    obtain ⟨cmd, passed, finished⟩ := (runs d a _ attempt ended).returned rfl
    rw [prepared_cmd, related] at passed
    exact ⟨d, a, cmd, attempt, same, passed, finished⟩

theorem gone_command_succeeded_hello : ∃ cmd, helloTask.kwargs.get "cmd" = some cmd ∧
    echoHello.Finished cmd 0 := by
  have returns : Mealy.exec (machine (plainConfig .storageQueue))
      (start (plainConfig .storageQueue) helloTask.delivered 1 .coroutine)
      [.callbackEnds (.returned (.int 0)), .resume, .resume] = some (_, echoedLog) := rfl
  obtain ⟨sys, run, pushed, queued, uncopied, attempts⟩ := System.delivery_run (G := Mealy.always)
    (fun _ _ _ => trivial) rfl rfl (System.callback_unaided _) returns
  have served : ∃ next, System.machine.step sys (.serve 0 (.settle (.deleteMessage 1))) =
      some (next, []) ∧ next.pushed 0 = some helloTask ∧ next.service.queue 0 = none ∧
        next.service.deadLetter = [] ∧ next.attempts = sys.attempts := by
    simp [System.machine, System.step, System.serve, attempts, echoedLog, calls, Event.call?,
      Service.perform, Service.holds, queued, pushed, uncopied]
  obtain ⟨next, served, pushed, gone, uncopied, still⟩ := served
  have runs : ∀ (d : AttemptId) (a : Attempt) outcome, next.attempts[d]? = some a →
      .callbackEnded outcome ∈ a.log →
      echoHello.Runs helloRepr (prepared a.cfg a.task).kwargs outcome := by
    intro d a outcome attempt ended
    rw [still, attempts, List.getElem?_singleton] at attempt
    split at attempt <;> cases attempt
    obtain rfl : outcome = .returned (.int 0) := by simpa [echoedLog] using ended
    exact echoHello_runs
  obtain ⟨d, a, cmd, -, -, own, finished⟩ := gone_command_succeeded (run.next trivial served)
    (fun _ => echoHello) runs pushed gone (by simp [uncopied])
  exact ⟨cmd, own, finished⟩

end JobQ.ShellCommandProcessor
