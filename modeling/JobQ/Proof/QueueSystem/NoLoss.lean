import JobQ.Proof.QueueSystem.Steps
import JobQ.Proof.Delivery.Contract

/-!
# No task is lost

Every text that the queues hold for a message goes back to the task that was pushed, whatever
deliveries wrote it, and a message leaves the main queue only with a copy made or the callback
returned.
-/

namespace JobQ.QueueSystem
open Delivery

theorem Service.Sets.queue {service next : Service} {m n : MessageId} {value : Option Message}
    {message : Message} (set : Sets service m value next) (stored : next.queue n = some message) :
    (n = m ∧ value = some message) ∨ service.queue n = some message := by
  by_cases same : n = m
  · subst same
    exact .inl ⟨rfl, set.same ▸ stored⟩
  · exact .inr (set.other n same ▸ stored)

theorem Service.Sets.removed {service next : Service} {m n : MessageId} {value : Option Message}
    (set : Sets service m value next) (gone : next.queue n = none) :
    (n = m ∧ value = none) ∨ service.queue n = none := by
  by_cases same : n = m
  · subst same
    exact .inl ⟨rfl, set.same ▸ gone⟩
  · exact .inr (set.other n same ▸ gone)

namespace System

variable {sys next : System} {R : Task → Task → Prop}

/-! ## Where the texts come from -/

def Origin (R : Task → Task → Prop) (sys : System) (m : MessageId) (content : String) : Prop :=
  ∃ task read, sys.pushed m = some task ∧ Task.deserialize content = .ok read ∧ R task read

structure Holds (R : Task → Task → Prop) (sys : System) : Prop where
  queued : ∀ {m message}, sys.service.queue m = some message → Origin R sys m message.content
  copied : ∀ {m content}, (m, content) ∈ sys.service.deadLetter → Origin R sys m content
  answered : ∀ {answer}, answer ∈ sys.answers → Origin R sys answer.id answer.message.content
  received : ∀ {d : AttemptId} {a : Attempt}, sys.attempts[d]? = some a →
    Origin R sys a.message a.content

def Rewrites (R : Task → Task → Prop) (a : Attempt) : Prop :=
  ∀ task retries error, R task a.task →
    R task (Task.delivered { prepared a.cfg a.task with retries, error })

def Spares (R : Task → Task → Prop) (sys : System) (act : Act) : Prop :=
  ∀ d request a, act = .serve d (.settle request) → sys.attempts[d]? = some a →
    request.content?.isSome = true → Rewrites R a

theorem Origin.extend {m : MessageId} {content : String} (origin : Origin R sys m content)
    (extended : Extends sys next) : Origin R next m content := by
  obtain ⟨task, read, pushed, rest⟩ := origin
  exact ⟨task, read, extended.pushed pushed, rest⟩

theorem Origin.written {a : Attempt} {request : Request} {content : String}
    (origin : Origin R sys a.message a.content) (grounded : Grounded sys a)
    (rewrites : Rewrites R a) (sent : .settle request ∈ calls a.log)
    (writes : request.content? = some content) : Origin R sys a.message content := by
  obtain ⟨task, read, pushed, readable, related⟩ := origin
  rw [grounded.read] at readable
  cases readable
  obtain ⟨retries, error, rfl⟩ := grounded.accounted.written (settle_mem.mp sent) writes
  exact ⟨task, _, pushed, Task.deserialize_serialize _, rewrites task retries error related⟩

theorem Holds.performs (holds : Holds R sys) (sound : Sound sys) {d : AttemptId} {a : Attempt}
    {call : Call} {service : Service} (attempt : sys.attempts[d]? = some a)
    (sent : call ∈ calls a.log) (spares : Spares R sys (.serve d call))
    (performs : Service.Performs sys.service a.message a.content call service) :
    (∀ {m message}, service.queue m = some message → Origin R sys m message.content) ∧
      ∀ {m content}, (m, content) ∈ service.deadLetter → Origin R sys m content := by
  have written {request : Request} {content : String} (same : call = .settle request)
      (writes : request.content? = some content) : Origin R sys a.message content := by
    subst same
    exact (holds.received attempt).written (sound.attempts attempt)
      (spares d request a rfl attempt (by simp [writes])) sent writes
  have sets {value : Option Message} (set : Service.Sets sys.service a.message value service)
      (origin : ∀ message, value = some message → Origin R sys a.message message.content) :
      (∀ {m message}, service.queue m = some message → Origin R sys m message.content) ∧
        ∀ {m content}, (m, content) ∈ service.deadLetter → Origin R sys m content := by
    refine ⟨fun stored => ?_, fun member => holds.copied (set.deadLetter ▸ member)⟩
    rcases set.queue stored with ⟨rfl, same⟩ | old
    · exact origin _ same
    · exact holds.queued old
  cases performs with
  | renews same set =>
      apply sets set
      rintro _ ⟨⟩
      exact same ▸ holds.received attempt
  | updates same set =>
      apply sets set
      rintro _ ⟨⟩
      exact same ▸ written rfl rfl
  | deletes set => exact sets set (by simp)
  | copies =>
      refine ⟨holds.queued, fun member => ?_⟩
      rcases List.mem_append.mp member with old | new
      · exact holds.copied old
      · cases List.mem_singleton.mp new
        exact written rfl rfl

theorem Holds.step {act : Act} (holds : Holds R sys) (sound : Sound sys)
    (reflexive : ∀ task, Backend.storageQueue.accepts task = true → R task task.delivered)
    (spares : Spares R sys act) (stepped : Steps sys act next) : Holds R next := by
  have extended := stepped.extends
  have queued {m : MessageId} {message : Message} (stored : sys.service.queue m = some message) :
      Origin R next m message.content := (holds.queued stored).extend extended
  have copied {m : MessageId} {content : String} (member : (m, content) ∈ sys.service.deadLetter) :
      Origin R next m content := (holds.copied member).extend extended
  have answered {answer : Answer} (member : answer ∈ sys.answers) :
      Origin R next answer.id answer.message.content := (holds.answered member).extend extended
  have received {d : AttemptId} {a : Attempt} (found : sys.attempts[d]? = some a) :
      Origin R next a.message a.content := (holds.received found).extend extended
  have read {i : Nat} {answer other : Answer} (found : sys.answers[i]? = some answer)
      (member : other ∈ sys.answers.set i { answer with isRead := true }) :
      Origin R next other.id other.message.content := by
    rcases List.mem_or_eq_of_mem_set member with old | rfl
    · exact answered old
    · have before := answered (List.mem_of_getElem? found)
      exact before
  -- a message received again, or visible again, keeps its content
  have refreshed {m n : MessageId} {old fresh message : Message} {service : Service}
      (before : sys.service.queue m = some old) (same : fresh.content = old.content)
      (set : Service.Sets sys.service m (some fresh) service)
      (stored : service.queue n = some message) : Origin R next n message.content := by
    rcases set.queue stored with ⟨rfl, eq⟩ | other
    · cases eq
      rw [same]
      exact queued before
    · exact queued other
  cases stepped with
  | @push m task fresh accepted =>
      refine ⟨fun {n message} stored => ?_, copied, answered, received⟩
      rcases (Service.send_sets _ _ _).queue stored with ⟨rfl, same⟩ | old
      · cases same
        exact ⟨task, _, by simp, Task.deserialize_serialize task, reflexive task accepted⟩
      · exact queued old
  | hand taken =>
      obtain ⟨old, before, same, set⟩ := Service.receive_cases taken
      refine ⟨refreshed before same set, fun member => copied (set.deadLetter ▸ member),
        fun member => ?_, received⟩
      rcases List.mem_append.mp member with earlier | now
      · exact answered earlier
      · obtain rfl := List.mem_singleton.mp now
        show Origin R _ _ _
        rw [same]
        exact queued before
  | unreadable found => exact ⟨queued, copied, read found, received⟩
  | receive _ found =>
      refine ⟨queued, copied, read found, fun attempt => ?_⟩
      rcases append_attempt attempt with old | rfl
      · exact received old
      · have before := answered (List.mem_of_getElem? found)
        exact before
  | @advance d a action state events attempt =>
      refine ⟨queued, copied, answered, fun found => ?_⟩
      rcases set_attempt found with ⟨-, rfl⟩ | ⟨-, old⟩
      · show Origin R _ a.message a.content
        exact received attempt
      · exact received old
  | serve attempt sent performs =>
      obtain ⟨kept, copies⟩ := holds.performs sound attempt sent spares performs
      exact ⟨fun stored => (kept stored).extend extended,
        fun member => (copies member).extend extended, answered, received⟩
  | @expire m =>
      rcases sys.service.expire_cases m with unchanged | ⟨old, message, before, same, set⟩
      · exact ⟨fun stored => queued (unchanged ▸ stored), fun member => copied (unchanged ▸ member),
          answered, received⟩
      · exact ⟨refreshed before same set, fun member => copied (set.deadLetter ▸ member), answered,
          received⟩
  | @crash d a attempt =>
      refine ⟨queued, copied, answered, fun found => ?_⟩
      rcases set_attempt found with ⟨-, rfl⟩ | ⟨-, old⟩
      · show Origin R _ a.message a.content
        exact received attempt
      · exact received old

/-! ## Why a message is gone -/

def Executed (sys : System) (m : MessageId) : Prop :=
  ∃ (d : AttemptId) (a : Attempt) (ret : JsonText.Json), sys.attempts[d]? = some a ∧
    a.message = m ∧ .callbackEnded (.returned ret) ∈ a.log

def Accountable (sys : System) : Prop :=
  ∀ m task, sys.pushed m = some task → sys.service.queue m = none →
    (∃ content, (m, content) ∈ sys.service.deadLetter) ∨ Executed sys m

theorem Executed.extend {m : MessageId} (executed : Executed sys m)
    (extended : Extends sys next) : Executed next m := by
  obtain ⟨d, a, ret, found, same, ended⟩ := executed
  obtain ⟨b, found, later⟩ := extended.attempts found
  exact ⟨d, b, ret, found, later.message.trans same, later.log _ ended⟩

theorem Steps.removal {act : Act} {m : MessageId} {task : Task} (stepped : Steps sys act next)
    (pushed : next.pushed m = some task) (gone : next.service.queue m = none) :
    (sys.pushed m = some task ∧ sys.service.queue m = none) ∨
    ∃ (d : AttemptId) (a : Attempt) (popReceipt : Receipt), sys.attempts[d]? = some a ∧
      a.message = m ∧ .deleteMessage popReceipt ∈ requests a.log := by
  have stays {n : MessageId} {message : Message} {service : Service}
      (set : Service.Sets sys.service n (some message) service)
      (gone : service.queue m = none) : sys.service.queue m = none := by
    rcases set.removed gone with ⟨-, same⟩ | before
    · cases same
    · exact before
  cases stepped with
  | @push n _ =>
      have set := Service.send_sets sys.service n
      rcases (set _).removed gone with ⟨-, same⟩ | before
      · cases same
      · have other : m ≠ n := by
          rintro rfl
          exact absurd gone (by simp [(set _).same])
        exact .inl ⟨by simpa [other] using pushed, before⟩
  | hand taken =>
      obtain ⟨-, -, -, set⟩ := Service.receive_cases taken
      exact .inl ⟨pushed, stays set gone⟩
  | unreadable => exact .inl ⟨pushed, gone⟩
  | receive => exact .inl ⟨pushed, gone⟩
  | advance => exact .inl ⟨pushed, gone⟩
  | @serve d a call service _ attempt sent performs =>
      cases performs with
      | renews _ set => exact .inl ⟨pushed, stays set gone⟩
      | updates _ set => exact .inl ⟨pushed, stays set gone⟩
      | copies => exact .inl ⟨pushed, gone⟩
      | deletes set =>
          rcases set.removed gone with ⟨same, -⟩ | before
          · exact .inr ⟨d, a, _, attempt, same.symm, settle_mem.mp sent⟩
          · exact .inl ⟨pushed, before⟩
  | @expire n =>
      rcases sys.service.expire_cases n with unchanged | ⟨_, _, _, _, set⟩
      · exact .inl ⟨pushed, unchanged ▸ gone⟩
      · exact .inl ⟨pushed, stays set gone⟩
  | crash => exact .inl ⟨pushed, gone⟩

theorem Accountable.step {act : Act} (accountable : Accountable sys) (sound : Sound sys)
    (stepped : Steps sys act next) : Accountable next := by
  intro m task pushed gone
  have extended := stepped.extends
  rcases stepped.removal pushed gone with ⟨before, absent⟩ | ⟨d, a, popReceipt, attempt, same, sent⟩
  · rcases accountable m task before absent with ⟨content, copied⟩ | executed
    · exact .inl ⟨content, extended.copies copied⟩
    · exact .inr (executed.extend extended)
  · have grounded := sound.attempts attempt
    rcases grounded.accounted.removal sent with ⟨ret, ended⟩ | ⟨content, answered⟩
    · exact .inr (Executed.extend ⟨d, a, ret, attempt, same, ended⟩ extended)
    · exact .inl ⟨content, extended.copies (same ▸ grounded.copied content answered)⟩

/-! ## Runs -/

def Identified (pushed read : Task) : Prop := read.id = some pushed._id

theorem rewrites_identified (a : Attempt) : Rewrites Identified a := by
  intro task retries error same
  have id : ({ prepared a.cfg a.task with retries, error } : Task)._id = task._id :=
    Task._id_of_id ((prepared_fields a.cfg a.task).2.2.trans same) task._id_ne_empty
  simp only [Identified, Task.delivered, id]

theorem initial_sound : Sound initial := ⟨by simp [initial], by simp [initial]⟩

theorem run_sound {G : System → Act → Prop} {es : List Empty}
    (run : Mealy.Run machine G (initial, []) es sys) : Sound sys :=
  run.state_invariant initial_sound fun _ _ _ _ sound _ action => sound.step (machine_step action)

theorem run_holds {es : List Empty}
    (reflexive : ∀ task, Backend.storageQueue.accepts task = true → R task task.delivered)
    (run : Mealy.Run machine (Spares R) (initial, []) es sys) : Holds R sys := by
  have both : Sound sys ∧ Holds R sys := by
    apply run.state_invariant (P := fun sys => Sound sys ∧ Holds R sys)
    · exact ⟨initial_sound, by simp [initial], by simp [initial], by simp [initial],
        by simp [initial]⟩
    · rintro s a t new ⟨sound, holds⟩ spares action
      have stepped := machine_step action
      exact ⟨sound.step stepped, holds.step sound reflexive spares stepped⟩
  exact both.2

theorem run_accountable {G : System → Act → Prop} {es : List Empty}
    (run : Mealy.Run machine G (initial, []) es sys) : Accountable sys := by
  have both : Sound sys ∧ Accountable sys := by
    apply run.state_invariant (P := fun sys => Sound sys ∧ Accountable sys)
    · exact ⟨initial_sound, by simp [Accountable, initial]⟩
    · rintro s a t new ⟨sound, accountable⟩ - action
      have stepped := machine_step action
      exact ⟨sound.step stepped, accountable.step sound stepped⟩
  exact both.2

/-- Where a pushed task is found: in the main queue or in the dead-letter queue, under its id, or
among the executions that returned. -/
inductive Kept (sys : System) (m : MessageId) (task : Task) : Prop
  | queued {message : Message} {read : Task} (stored : sys.service.queue m = some message)
      (readable : Task.deserialize message.content = .ok read) (same : read.id = some task._id)
  | copied {content : String} {read : Task} (copied : (m, content) ∈ sys.service.deadLetter)
      (readable : Task.deserialize content = .ok read) (same : read.id = some task._id)
  | executed {d : AttemptId} {a : Attempt} {ret : JsonText.Json} (attempt : sys.attempts[d]? = some a)
      (message : a.message = m) (same : a.task.id = some task._id)
      (returned : .callbackEnded (.returned ret) ∈ a.log)

/-- In every state of every run, no task that was pushed is lost. -/
theorem no_task_lost {es : List Empty} {m : MessageId} {task : Task}
    (run : Mealy.Run machine Mealy.always (initial, []) es sys)
    (pushed : sys.pushed m = some task) : Kept sys m task := by
  have holds : Holds Identified sys :=
    run_holds (fun task _ => rfl) (run.mono fun _ _ _ _ _ a _ _ _ => rewrites_identified a)
  cases stored : sys.service.queue m with
  | some message =>
      obtain ⟨origin, read, same, readable, related⟩ := holds.queued stored
      rw [pushed] at same
      cases same
      exact .queued stored readable related
  | none =>
      rcases run_accountable run m task pushed stored with ⟨content, copied⟩ | executed
      · obtain ⟨origin, read, same, readable, related⟩ := holds.copied copied
        rw [pushed] at same
        cases same
        exact .copied copied readable related
      · obtain ⟨d, a, ret, attempt, rfl, returned⟩ := executed
        obtain ⟨origin, read, same, readable, related⟩ := holds.received attempt
        rw [pushed] at same
        cases same
        rw [((run_sound run).attempts attempt).read] at readable
        cases readable
        exact .executed attempt rfl related returned

theorem hello_deleted : ∃ sys, Mealy.Run machine Mealy.always (initial, []) [] sys ∧
    sys.pushed 0 = some helloTask ∧ sys.service.queue 0 = none := by
  have returns : ∃ s, Mealy.exec (Delivery.machine (plainConfig .storageQueue))
      (start (plainConfig .storageQueue) helloTask.delivered 1 .coroutine)
      [.callbackEnds (.returned .null), .resume, .resume] =
      some (s, [.callbackEnded (.returned .null), .settlement .complete,
        .request (.deleteMessage 1)]) := plain_settles rfl rfl rfl rfl rfl
  obtain ⟨s, returns⟩ := returns
  obtain ⟨sys, run, pushed, queued, -, attempts⟩ :=
    delivery_run (fun _ _ _ => trivial) rfl rfl (callback_unaided _) returns
  have served : ∃ next, machine.step sys (.serve 0 (.settle (.deleteMessage 1))) =
      some (next, []) ∧ next.pushed 0 = some helloTask ∧ next.service.queue 0 = none := by
    simp [machine, step, serve, attempts, calls, Event.call?, Service.perform, Service.holds, queued,
      pushed]
  obtain ⟨next, served, pushed, gone⟩ := served
  exact ⟨next, run.next trivial served, pushed, gone⟩

theorem no_task_lost_hello : ∃ sys, Kept sys 0 helloTask ∧ sys.service.queue 0 = none := by
  obtain ⟨sys, run, pushed, gone⟩ := hello_deleted
  exact ⟨sys, no_task_lost run pushed, gone⟩

end System

end JobQ.QueueSystem
