import JobQ.Proof.QueueSystem.NoLoss

/-!
# The payload survives, unless a callback asks for magic parameters

`pull_and_execute` sets the magic parameters in the dictionary of the task itself, so that they
are written back with it. Every other delivery writes back what was pushed.
-/

namespace JobQ
open JsonText

def magicValue : Option String → Json
  | some text => .str text
  | none => .null

namespace Delivery

/-- The callback declares no magic parameter, or the arguments hold its value already. -/
def Undemanding (cfg : Config) (task : Task) : Prop :=
  ∀ parameters, cfg.parameters = .ok parameters →
    ("_job_id" ∈ parameters → task.kwargs.get "_job_id" = some (magicValue task.id)) ∧
    ("_worker_id" ∈ parameters → task.kwargs.get "_worker_id" = some (magicValue cfg.workerId))

theorem magicValue_wellFormed (value : Option String) : WellFormed (magicValue value) := by
  cases value with
  | some text => exact Str.ofString_joined
  | none => trivial

theorem setKwarg_eq (task : Task) (key : String) (value : Option String) :
    setKwarg task key value = { task with
      kwargs := task.kwargs.setItem key (magicValue value) (magicValue_wellFormed value) } := by
  cases value <;> rfl

theorem setKwarg_of_get {task : Task} {key : String} {value : Option String}
    (stored : task.kwargs.get key = some (magicValue value)) : setKwarg task key value = task := by
  rw [setKwarg_eq, (Dict.setItem_eq_iff _ _ _ _).mpr stored]

theorem prepared_of_undemanding {cfg : Config} {task : Task} (undemanding : Undemanding cfg task) :
    prepared cfg task = task := by
  unfold prepared
  split
  · rename_i parameters readable
    obtain ⟨job, worker⟩ := undemanding parameters readable
    unfold magicKwargs
    by_cases jobDeclared : "_job_id" ∈ parameters
    · by_cases workerDeclared : "_worker_id" ∈ parameters
      · simp [jobDeclared, workerDeclared, setKwarg_of_get (job jobDeclared),
          setKwarg_of_get (worker workerDeclared)]
      · simp [jobDeclared, workerDeclared, setKwarg_of_get (job jobDeclared)]
    · by_cases workerDeclared : "_worker_id" ∈ parameters
      · simp [jobDeclared, workerDeclared, setKwarg_of_get (worker workerDeclared)]
      · simp [jobDeclared, workerDeclared]
  · rfl

theorem undemanding_of_kwargs {cfg : Config} {task : Task}
    (kept : (prepared cfg task).kwargs = task.kwargs) : Undemanding cfg task := by
  intro parameters readable
  simp only [prepared, readable, magicKwargs, setKwarg_eq] at kept
  have distinct : "_job_id" ≠ "_worker_id" := by decide
  constructor
  · intro declared
    rw [← kept]
    split
    · simp only [Dict.get_setItem_other _ _ _ distinct, Dict.get_setItem_same]
    · simp only [Dict.get_setItem_same]
  · intro declared
    rw [← kept]
    simp only [declared, ↓reduceIte, Dict.get_setItem_same]

end Delivery

namespace QueueSystem.System
open Delivery

variable {sys next : System}

def SamePayload (pushed read : Task) : Prop :=
  ∃ retries, read = { pushed.delivered with retries }

structure PayloadPreserved (sys : System) : Prop where
  queued : ∀ m task message, sys.pushed m = some task → sys.service.queue m = some message →
    ∃ read, Task.deserialize message.content = .ok read ∧ SamePayload task read
  copied : ∀ m task content, sys.pushed m = some task → (m, content) ∈ sys.service.deadLetter →
    ∃ read, Task.deserialize content = .ok read ∧ SamePayload task read

def WritesUndemanding (sys : System) (act : Act) : Prop :=
  ∀ d request a, act = .serve d (.settle request) → sys.attempts[d]? = some a →
    request.content?.isSome = true → Undemanding a.cfg a.task

theorem rewritten_kwargs {task read : Task} {retries : WireInt} {error : Option String}
    (same : SamePayload task (Task.delivered { read with retries, error })) :
    read.kwargs = task.kwargs := by
  obtain ⟨n, eq⟩ := same
  have kwargs := congrArg Task.kwargs eq
  exact kwargs

theorem samePayload_rewrites {a : Attempt} (undemanding : Undemanding a.cfg a.task) :
    Rewrites SamePayload a := by
  rintro task retries error ⟨n, eq⟩
  refine ⟨retries, ?_⟩
  rw [prepared_of_undemanding undemanding, eq]
  have id : ({ task.delivered with retries, error } : Task)._id = task._id :=
    Task._id_of_id rfl task._id_ne_empty
  simp only [Task.delivered] at id ⊢
  simp only [id]

theorem Holds.preserved (holds : Holds SamePayload sys) : PayloadPreserved sys := by
  constructor
  · intro m task message pushed stored
    obtain ⟨origin, read, same, readable, related⟩ := holds.queued stored
    rw [pushed] at same
    cases same
    exact ⟨read, readable, related⟩
  · intro m task content pushed copied
    obtain ⟨origin, read, same, readable, related⟩ := holds.copied copied
    rw [pushed] at same
    cases same
    exact ⟨read, readable, related⟩

theorem spares_samePayload {act : Act} (undemanding : WritesUndemanding sys act) :
    Spares SamePayload sys act := fun d request a same attempt writes =>
  samePayload_rewrites (undemanding d request a same attempt writes)

theorem performs_stored {a : Attempt} {request : Request} {content : String} {service : Service}
    (performs : Service.Performs sys.service a.message a.content (.settle request) service)
    (writes : request.content? = some content) :
    (∃ message, service.queue a.message = some message ∧ message.content = content) ∨
      (a.message, content) ∈ service.deadLetter := by
  cases performs with
  | updates written set =>
      cases writes
      exact .inl ⟨_, set.same, written⟩
  | deletes => cases writes
  | copies =>
      cases writes
      exact .inr (by simp)

theorem undemanding_of_preserved {act : Act} (holds : Holds SamePayload sys) (sound : Sound sys)
    (stepped : Steps sys act next) (preserved : PayloadPreserved next) :
    WritesUndemanding sys act := by
  rintro d request a rfl attempt writes
  obtain ⟨content, writes⟩ := Option.isSome_iff_exists.mp writes
  generalize call : Call.settle request = c at stepped
  cases stepped with
  | @serve d b c service popReceipt found sent performs =>
      rw [attempt] at found
      cases found
      subst call
      obtain ⟨task, read, pushed, readable, n, related⟩ := holds.received attempt
      have grounded := sound.attempts attempt
      rw [grounded.read] at readable
      cases readable
      obtain ⟨retries, error, written⟩ :=
        grounded.accounted.written (settle_mem.mp sent) writes
      have same : ∃ read, Task.deserialize content = .ok read ∧ SamePayload task read := by
        rcases performs_stored performs writes with ⟨message, stored, rfl⟩ | copied
        · exact preserved.queued _ _ _ pushed stored
        · exact preserved.copied _ _ _ pushed copied
      obtain ⟨rewritten, readable, same⟩ := same
      rw [written, Task.deserialize_serialize] at readable
      cases readable
      apply undemanding_of_kwargs
      rw [rewritten_kwargs same, related]
      rfl

theorem delivered_samePayload (task : Task) : SamePayload task task.delivered :=
  ⟨task.retries, rfl⟩

/-- The payload is preserved as long as nothing is written back for a demanding callback, and not
any longer. -/
theorem payload_preserved_iff {es : List Empty}
    (run : Mealy.Run machine WritesUndemanding (initial, []) es sys) :
    PayloadPreserved sys ∧ ∀ act next new, machine.step sys act = some (next, new) →
      (PayloadPreserved next ↔ WritesUndemanding sys act) := by
  have holds : Holds SamePayload sys :=
    run_holds (fun task _ => delivered_samePayload task) (run.mono fun _ _ => spares_samePayload)
  refine ⟨holds.preserved, fun act next new action => ?_⟩
  have stepped := machine_step action
  constructor
  · exact undemanding_of_preserved holds (run_sound run) stepped
  · intro undemanding
    exact (holds.step (run_sound run) (fun task _ => delivered_samePayload task)
      (spares_samePayload undemanding) stepped).preserved

def demandingConfig : Config :=
  { plainConfig .storageQueue with parameters := .ok ["cmd", "_worker_id"], workerId := "w" }

def helloRetried : Task :=
  { setKwarg helloTask.delivered "_worker_id" "w" with retries := helloTask.retries.pred (by decide) }

theorem hello_rewritten : ∃ sys next act,
    Mealy.Run machine WritesUndemanding (initial, []) [] sys ∧
    machine.step sys act = some (next, []) ∧ next.pushed 0 = some helloTask ∧
    ∃ message, next.service.queue 0 = some message ∧ message.content = helloRetried.serialize := by
  have fails : ∃ s, Mealy.exec (Delivery.machine demandingConfig)
      (start demandingConfig helloTask.delivered 1 .coroutine)
      [.callbackEnds (.raised (.other "exit code 1")), .resume, .resume] =
      some (s, [.callbackEnded (.raised (.other "exit code 1")), .settlement (.replace helloRetried),
        .request (.updateMessage 1 helloRetried.serialize)]) :=
    plain_settles rfl rfl rfl rfl rfl
  obtain ⟨s, fails⟩ := fails
  have quiet (sys : System) (act : Act) (unserved : ∀ d call, act ≠ .serve d call) :
      WritesUndemanding sys act := fun d _ _ same => absurd same (unserved d _)
  obtain ⟨sys, run, pushed, queued, -, attempts⟩ :=
    delivery_run quiet rfl rfl (callback_unaided _) fails
  have served : ∃ next, machine.step sys
      (.serve 0 (.settle (.updateMessage 1 helloRetried.serialize))) = some (next, []) ∧
      next.pushed 0 = some helloTask ∧ ∃ message, next.service.queue 0 = some message ∧
        message.content = helloRetried.serialize := by
    simp [machine, step, serve, attempts, calls, Event.call?, Service.perform, Service.update,
      Service.holds, queued, pushed]
  obtain ⟨next, served, facts⟩ := served
  exact ⟨sys, next, _, run, served, facts⟩

theorem helloRetried_kwargs : helloRetried.kwargs ≠ helloTask.kwargs := by
  intro same
  have set : helloTask.kwargs.setItem "_worker_id" (.str "w") Str.ofString_joined = helloTask.kwargs := same
  have absent : helloTask.kwargs.get "_worker_id" = none := rfl
  simp [(Dict.setItem_eq_iff _ _ _ _).mp set] at absent

theorem payload_changed : ∃ sys es message read, Mealy.Run machine Mealy.always (initial, []) es sys ∧
    sys.pushed 0 = some helloTask ∧ sys.service.queue 0 = some message ∧
    Task.deserialize message.content = .ok read ∧ read.kwargs ≠ helloTask.kwargs ∧
    ¬ PayloadPreserved sys := by
  obtain ⟨sys, next, act, run, served, pushed, message, stored, written⟩ := hello_rewritten
  have readable : Task.deserialize message.content = .ok helloRetried.delivered := by
    rw [written, Task.deserialize_serialize]
  refine ⟨next, _, message, helloRetried.delivered,
    (run.mono fun _ _ _ => trivial).next trivial served, pushed, stored, readable,
    helloRetried_kwargs, fun preserved => ?_⟩
  obtain ⟨read, again, retries, same⟩ := preserved.queued 0 helloTask message pushed stored
  rw [readable] at again
  cases again
  have kwargs := congrArg Task.kwargs same
  exact helloRetried_kwargs kwargs

theorem payload_preserved_hello : ∃ sys next act, PayloadPreserved sys ∧
    (PayloadPreserved next ↔ WritesUndemanding sys act) := by
  obtain ⟨sys, next, act, run, served, -⟩ := hello_rewritten
  have preserved := payload_preserved_iff run
  exact ⟨sys, next, act, preserved.1, preserved.2 act next [] served⟩

end QueueSystem.System

end JobQ
