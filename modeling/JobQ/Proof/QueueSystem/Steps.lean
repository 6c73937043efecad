import JobQ.Model.QueueSystem
import JobQ.Proof.Delivery.Requests
import JobQ.Proof.Task.Wire

/-!
# What one step of the system can do

The inversion lemma of each of its functions, and the facts about every delivery that the broker
and the logs agree on in all reachable states.
-/

namespace JobQ.QueueSystem
open Delivery

namespace Service

variable {service : Service} {m n : MessageId}

@[simp]
theorem setMessage_same (message : Option Message) :
    (service.setMessage m message).queue m = message := by simp [setMessage]

theorem setMessage_other (message : Option Message) (other : n ≠ m) :
    (service.setMessage m message).queue n = service.queue n := by simp [setMessage, other]

@[simp]
theorem setMessage_deadLetter (message : Option Message) :
    (service.setMessage m message).deadLetter = service.deadLetter := rfl

structure Sets (service : Service) (m : MessageId) (message : Option Message) (next : Service) :
    Prop where
  same : next.queue m = message
  other : ∀ n, n ≠ m → next.queue n = service.queue n
  deadLetter : next.deadLetter = service.deadLetter

theorem sets (message : Option Message) (nextReceipt : Receipt) :
    Sets service m message { service.setMessage m message with nextReceipt := nextReceipt } :=
  ⟨setMessage_same _, fun _ => setMessage_other _, rfl⟩

theorem send_sets (service : Service) (m : MessageId) (content : String) :
    Sets service m (some ⟨content, service.nextReceipt, true⟩) (service.send m content) :=
  sets _ _

theorem receive_cases {next : Service} {message : Message}
    (received : service.receive m = some (next, message)) :
    ∃ old, service.queue m = some old ∧ message.content = old.content ∧
      Sets service m (some message) next := by
  unfold receive at received
  split at received
  · rename_i old stored
    split at received <;> cases received
    exact ⟨old, stored, rfl, sets _ _⟩
  · contradiction

theorem expire_cases (service : Service) (m : MessageId) :
    service.expire m = service ∨ ∃ old message, service.queue m = some old ∧
      message.content = old.content ∧ Sets service m (some message) (service.expire m) := by
  unfold expire
  split
  · rename_i old stored
    exact .inr ⟨old, { old with visible := true }, stored, rfl, sets _ service.nextReceipt⟩
  · exact .inl rfl

inductive Performs (service : Service) (m : MessageId) (content : String) :
    Call → Service → Prop
  | renews {popReceipt : Receipt} {message : Message} {next : Service}
      (written : message.content = content) (set : Sets service m (some message) next) :
      Performs service m content (.renew popReceipt) next
  | updates {popReceipt : Receipt} {text : String} {message : Message} {next : Service}
      (written : message.content = text) (set : Sets service m (some message) next) :
      Performs service m content (.settle (.updateMessage popReceipt text)) next
  | deletes {popReceipt : Receipt} {next : Service} (set : Sets service m none next) :
      Performs service m content (.settle (.deleteMessage popReceipt)) next
  | copies {text : String} :
      Performs service m content (.settle (.sendDeadLetter text))
        { service with deadLetter := service.deadLetter ++ [(m, text)] }

theorem update_cases {popReceipt fresh : Receipt} {content : String} {visible : Bool}
    {next : Service} (updated : service.update m popReceipt content visible = some (next, fresh)) :
    ∃ message : Message, message.content = content ∧ Sets service m (some message) next := by
  unfold update at updated
  split at updated <;> cases updated
  exact ⟨_, rfl, sets _ _⟩

theorem perform_cases {content : String} {call : Call} {next : Service} {fresh : Receipt}
    (performed : service.perform m content call = some (next, fresh)) :
    Performs service m content call next := by
  unfold perform at performed
  split at performed
  · obtain ⟨message, written, set⟩ := update_cases performed
    exact .renews written set
  · obtain ⟨message, written, set⟩ := update_cases performed
    exact .updates written set
  · split at performed <;> cases performed
    exact .deletes (sets none service.nextReceipt)
  · cases performed
    exact .copies
  · contradiction

end Service

theorem settle_mem {log : List Event} {request : Request} :
    .settle request ∈ calls log ↔ request ∈ requests log := by
  unfold calls requests
  rw [List.mem_filterMap, List.mem_filterMap]
  constructor
  · rintro ⟨e, member, called⟩
    unfold Event.call? at called
    split at called <;> cases called
    exact ⟨_, member, rfl⟩
  · rintro ⟨e, member, requested⟩
    unfold Event.request? at requested
    split at requested <;> cases requested
    exact ⟨_, member, rfl⟩

namespace System

variable {sys next : System}

inductive Steps (sys : System) : Act → System → Prop
  | push {m : MessageId} {task : Task} (fresh : sys.pushed m = none)
      (accepted : Backend.storageQueue.accepts task = true) :
      Steps sys (.push m task) { sys with
        service := sys.service.send m task.serialize
        pushed := fun n => if n = m then some task else sys.pushed n }
  | hand {m : MessageId} {service : Service} {message : Message}
      (received : sys.service.receive m = some (service, message)) :
      Steps sys (.hand m) { sys with
        service := service
        answers := sys.answers ++ [⟨m, message, false⟩] }
  | unreadable {i : Nat} {cfg : Config} {call : CallResult} {answer : Answer} {error : DecodeError}
      (found : sys.answers[i]? = some answer) (unread : answer.isRead = false)
      (unreadable : Task.deserialize answer.message.content = .error error) :
      Steps sys (.receive i cfg call) { sys with
        answers := sys.answers.set i { answer with isRead := true } }
  | receive {i : Nat} {cfg : Config} {call : CallResult} {answer : Answer} {task : Task}
      (storage : cfg.backend = .storageQueue) (found : sys.answers[i]? = some answer)
      (unread : answer.isRead = false) (read : Task.deserialize answer.message.content = .ok task) :
      Steps sys (.receive i cfg call) { sys with
        answers := sys.answers.set i { answer with isRead := true }
        attempts := sys.attempts ++ [⟨answer.id, answer.message.content, cfg, task,
          (start cfg task answer.message.popReceipt call).1,
          (start cfg task answer.message.popReceipt call).2, false⟩] }
  | advance {d : AttemptId} {a : Attempt} {action : Action} {state : State} {events : List Event}
      (attempt : sys.attempts[d]? = some a) (allowed : sys.answerable d a action = true)
      (stepped : Delivery.step a.cfg a.state action = some (state, events)) :
      Steps sys (.advance d action) { sys with
        attempts := sys.attempts.set d { a with state := state, log := a.log ++ events } }
  | serve {d : AttemptId} {a : Attempt} {call : Call} {service : Service} {popReceipt : Receipt}
      (attempt : sys.attempts[d]? = some a) (sent : call ∈ calls a.log)
      (performs : Service.Performs sys.service a.message a.content call service) :
      Steps sys (.serve d call) { sys with
        service := service, performed := sys.performed ++ [(d, call, popReceipt)] }
  | expire {m : MessageId} : Steps sys (.expire m) { sys with service := sys.service.expire m }
  | crash {d : AttemptId} {a : Attempt} (attempt : sys.attempts[d]? = some a) :
      Steps sys (.crash d) { sys with attempts := sys.attempts.set d { a with crashed := true } }

theorem step_cases {act : Act} (action : sys.step act = some next) : Steps sys act next := by
  cases act with
  | push m task =>
      simp only [step, push] at action
      split at action <;> cases action
      rename_i allowed
      exact .push (by simpa using allowed.1) allowed.2
  | hand m =>
      simp only [step, hand] at action
      split at action <;> cases action
      exact .hand ‹_›
  | receive i cfg call =>
      simp only [step, receive] at action
      split at action
      · contradiction
      · rename_i found
        split at action
        · rename_i allowed
          split at action <;> cases action
          · exact .unreadable found allowed.2 ‹_›
          · exact .receive allowed.1 found allowed.2 ‹_›
        · contradiction
  | advance d a =>
      simp only [step, advance] at action
      split at action
      · contradiction
      · rename_i attempt
        split at action
        · rename_i allowed
          split at action <;> cases action
          exact .advance attempt allowed.2 ‹_›
        · contradiction
  | serve d call =>
      simp only [step, serve] at action
      split at action
      · contradiction
      · rename_i attempt
        split at action
        · rename_i sent
          split at action <;> cases action
          rename_i performed
          exact .serve attempt sent (Service.perform_cases performed)
        · contradiction
  | expire m =>
      cases action
      exact .expire
  | crash d =>
      simp only [step] at action
      split at action <;> cases action
      exact .crash ‹_›

theorem machine_step {act : Act} {events : List Empty}
    (action : machine.step sys act = some (next, events)) : Steps sys act next := by
  simp only [machine, Option.map_eq_some_iff, Prod.mk.injEq] at action
  obtain ⟨next, action, rfl, -⟩ := action
  exact step_cases action

/-! ## What stays -/

structure Later (a b : Attempt) : Prop where
  message : b.message = a.message
  content : b.content = a.content
  cfg : b.cfg = a.cfg
  task : b.task = a.task
  log : ∀ e ∈ a.log, e ∈ b.log

theorem Later.refl (a : Attempt) : Later a a := ⟨rfl, rfl, rfl, rfl, fun _ => id⟩

structure Extends (sys next : System) : Prop where
  pushed : ∀ {m task}, sys.pushed m = some task → next.pushed m = some task
  copies : ∀ {x}, x ∈ sys.service.deadLetter → x ∈ next.service.deadLetter
  attempts : ∀ {d : AttemptId} {a : Attempt}, sys.attempts[d]? = some a →
    ∃ b, next.attempts[d]? = some b ∧ Later a b

theorem set_attempt {attempts : List Attempt} {d i : AttemptId} {b c : Attempt}
    (found : (attempts.set d b)[i]? = some c) :
    (i = d ∧ c = b) ∨ (i ≠ d ∧ attempts[i]? = some c) := by
  rw [List.getElem?_set] at found
  split at found
  · rename_i same
    split at found <;> cases found
    exact .inl ⟨same.symm, rfl⟩
  · rename_i other
    exact .inr ⟨fun same => other same.symm, found⟩

theorem append_attempt {attempts : List Attempt} {i : AttemptId} {b c : Attempt}
    (found : (attempts ++ [b])[i]? = some c) : attempts[i]? = some c ∨ c = b := by
  rw [List.getElem?_append] at found
  split at found
  · exact .inl found
  · rw [List.getElem?_singleton] at found
    split at found <;> cases found
    exact .inr rfl

theorem attempts_later {attempts : List Attempt} {d i : AttemptId} {a b c : Attempt}
    (attempt : attempts[d]? = some a) (later : Later a b) (found : attempts[i]? = some c) :
    ∃ e, (attempts.set d b)[i]? = some e ∧ Later c e := by
  rw [List.getElem?_set]
  split
  · rename_i same
    subst same
    rw [attempt] at found
    cases found
    exact ⟨b, by simp [(List.getElem?_eq_some_iff.mp attempt).1], later⟩
  · exact ⟨c, found, .refl c⟩

theorem Steps.extends {act : Act} (stepped : Steps sys act next) : Extends sys next := by
  have same {d : AttemptId} {a : Attempt} (found : sys.attempts[d]? = some a) :
      ∃ b, sys.attempts[d]? = some b ∧ Later a b := ⟨a, found, .refl a⟩
  cases stepped with
  | @push m task fresh =>
      refine ⟨fun {n task} stored => ?_, id, same⟩
      have other : n ≠ m := by
        rintro rfl
        simp [fresh] at stored
      simpa [other] using stored
  | hand received =>
      obtain ⟨-, -, -, set⟩ := Service.receive_cases received
      exact ⟨id, fun member => set.deadLetter ▸ member, same⟩
  | unreadable => exact ⟨id, id, same⟩
  | receive =>
      refine ⟨id, id, fun {d a} found => ⟨a, ?_, .refl a⟩⟩
      rw [List.getElem?_append_left (List.getElem?_eq_some_iff.mp found).1, found]
  | advance attempt =>
      exact ⟨id, id, attempts_later attempt
        ⟨rfl, rfl, rfl, rfl, fun _ => List.mem_append_left _⟩⟩
  | serve _ _ performs =>
      refine ⟨id, ?_, same⟩
      intro x member
      cases performs with
      | renews _ set => rwa [set.deadLetter]
      | updates _ set => rwa [set.deadLetter]
      | deletes set => rwa [set.deadLetter]
      | copies => exact List.mem_append_left _ member
  | @expire m =>
      refine ⟨id, ?_, same⟩
      rcases sys.service.expire_cases m with unchanged | ⟨_, _, _, _, set⟩
      · simp [unchanged]
      · simp [set.deadLetter]
  | crash attempt =>
      exact ⟨id, id, attempts_later attempt ⟨rfl, rfl, rfl, rfl, fun _ => id⟩⟩

/-! ## What the logs say is so -/

/-- A delivery that began with what was read, whose log accounts for its state, and whose copies
are there. -/
structure Grounded (sys : System) (a : Attempt) : Prop where
  accounted : Accounted a.cfg a.task a.log a.state
  read : Task.deserialize a.content = .ok a.task
  copied : ∀ content, .answered (.sendDeadLetter content) true ∈ a.log →
    (a.message, content) ∈ sys.service.deadLetter

structure Sound (sys : System) : Prop where
  attempts : ∀ {d : AttemptId} {a : Attempt}, sys.attempts[d]? = some a → Grounded sys a
  performed : ∀ {d : AttemptId} {content : String} {popReceipt : Receipt},
    (d, .settle (.sendDeadLetter content), popReceipt) ∈ sys.performed →
    ∃ a, sys.attempts[d]? = some a ∧ (a.message, content) ∈ sys.service.deadLetter

theorem Grounded.extend {a : Attempt} (grounded : Grounded sys a) (extended : Extends sys next) :
    Grounded next a :=
  ⟨grounded.accounted, grounded.read,
    fun content answered => extended.copies (grounded.copied content answered)⟩

theorem answerable_success {d : AttemptId} {a : Attempt} {settlement : Settlement}
    {request : Request} (allowed : sys.answerable d a (.answer (.ok ())) = true)
    (pc : a.state.pc = .settling settlement request) :
    ∃ popReceipt, (d, .settle request, popReceipt) ∈ sys.performed := by
  simp only [answerable, pc, List.any_eq_true, decide_eq_true_eq] at allowed
  obtain ⟨⟨i, call, popReceipt⟩, member, rfl, rfl⟩ := allowed
  exact ⟨popReceipt, member⟩

theorem Grounded.advance (sound : Sound sys) {d : AttemptId} {a : Attempt} {action : Action}
    {state : State} {events : List Event} (attempt : sys.attempts[d]? = some a)
    (allowed : sys.answerable d a action = true)
    (stepped : Delivery.step a.cfg a.state action = some (state, events)) :
    Grounded sys { a with state := state, log := a.log ++ events } := by
  have grounded := sound.attempts attempt
  refine ⟨grounded.accounted.step stepped, grounded.read, fun content answered => ?_⟩
  rcases List.mem_append.mp answered with old | new
  · exact grounded.copied content old
  · obtain ⟨rfl, settlement, pc⟩ := answered_success stepped new
    obtain ⟨popReceipt, member⟩ := answerable_success allowed pc
    obtain ⟨b, found, copied⟩ := sound.performed member
    rw [attempt] at found
    cases found
    exact copied

theorem Sound.step {act : Act} (sound : Sound sys) (stepped : Steps sys act next) :
    Sound next := by
  have extended := stepped.extends
  have performed {d : AttemptId} {content : String} {popReceipt : Receipt}
      (member : (d, .settle (.sendDeadLetter content), popReceipt) ∈ sys.performed) :
      ∃ a, next.attempts[d]? = some a ∧ (a.message, content) ∈ next.service.deadLetter := by
    obtain ⟨a, found, copied⟩ := sound.performed member
    obtain ⟨b, later, same⟩ := extended.attempts found
    exact ⟨b, later, same.message ▸ extended.copies copied⟩
  have grounded {d : AttemptId} {a : Attempt} (found : sys.attempts[d]? = some a) :
      Grounded next a := (sound.attempts found).extend extended
  cases stepped with
  | push => exact ⟨grounded, performed⟩
  | hand => exact ⟨grounded, performed⟩
  | unreadable => exact ⟨grounded, performed⟩
  | @receive i cfg call answer task _ _ _ read =>
      refine ⟨fun {d a} found => ?_, performed⟩
      rcases append_attempt found with old | rfl
      · exact grounded old
      · exact ⟨.start cfg task _ call, read, fun content answered =>
          absurd answered (start_unanswered _ _ _ _ _ _)⟩
  | advance attempt allowed stepped =>
      refine ⟨fun found => ?_, performed⟩
      rcases set_attempt found with ⟨-, rfl⟩ | ⟨-, old⟩
      · exact (Grounded.advance sound attempt allowed stepped).extend extended
      · exact grounded old
  | @serve d a call service popReceipt attempt sent performs =>
      refine ⟨grounded, fun {i content p} member => ?_⟩
      rcases List.mem_append.mp member with old | new
      · exact performed old
      · cases List.mem_singleton.mp new
        cases performs with
        | copies => exact ⟨a, attempt, by simp⟩
  | expire => exact ⟨grounded, performed⟩
  | crash attempt =>
      refine ⟨fun found => ?_, performed⟩
      rcases set_attempt found with ⟨-, rfl⟩ | ⟨-, old⟩
      · have before := grounded attempt
        exact ⟨before.accounted, before.read, before.copied⟩
      · exact grounded old

/-! ## One delivery as a run of the system -/

def Unaided (a : Action) : Prop := ∀ sys d attempt, answerable sys d attempt a = true

section

variable {G : System → Act → Prop} (quiet : ∀ sys act, (∀ d call, act ≠ .serve d call) → G sys act)
include quiet

/-- A delivery that needs nothing of the broker runs in the system as it runs alone. -/
theorem advance_run {sys : System} {d : AttemptId} {a : Attempt} {actions : List Action}
    {state : State} {log : List Event} (attempt : sys.attempts[d]? = some a)
    (alive : a.crashed = false) (unaided : ∀ x ∈ actions, Unaided x)
    (run : Mealy.exec (Delivery.machine a.cfg) (a.state, a.log) actions = some (state, log)) :
    Mealy.Run machine G (sys, [])
      [] { sys with attempts := sys.attempts.set d { a with state := state, log := log } } := by
  induction actions generalizing sys a with
  | nil =>
      simp only [Mealy.exec, Option.some.injEq, Prod.mk.injEq] at run
      obtain ⟨rfl, rfl⟩ := run
      have same : sys.attempts.set d a = sys.attempts := by
        obtain ⟨bound, found⟩ := List.getElem?_eq_some_iff.mp attempt
        rw [← found, List.set_getElem_self]
      show Mealy.Run _ _ _ _ { sys with attempts := sys.attempts.set d a }
      rw [same]
      exact .refl
  | cons action rest ih =>
      simp only [Mealy.exec] at run
      split at run
      · contradiction
      · rename_i s new stepped
        have first : machine.step sys (.advance d action) = some ({ sys with
            attempts := sys.attempts.set d { a with state := s, log := a.log ++ new } }, []) := by
          have allowed := unaided action (by simp) sys d a
          have stepped : Delivery.step a.cfg a.state action = some (s, new) := stepped
          simp [machine, step, advance, attempt, alive, allowed, stepped]
        have bound := (List.getElem?_eq_some_iff.mp attempt).1
        have moved : ({ sys with
            attempts := sys.attempts.set d { a with state := s, log := a.log ++ new } } : System).attempts[d]? =
            some { a with state := s, log := a.log ++ new } := by simp [bound]
        have later := ih moved alive (fun x member => unaided x (by simp [member])) run
        simp only [List.set_set] at later
        exact .head (quiet _ _ (by simp)) first later

theorem delivery_run {cfg : Config} {task : Task} {call : CallResult} {actions : List Action}
    {state : State} {log : List Event} (storage : cfg.backend = .storageQueue)
    (accepted : Backend.storageQueue.accepts task = true) (unaided : ∀ x ∈ actions, Unaided x)
    (run : Mealy.exec (Delivery.machine cfg) (start cfg task.delivered 1 call) actions =
      some (state, log)) :
    ∃ sys, Mealy.Run machine G (initial, []) [] sys ∧ sys.pushed 0 = some task ∧
      sys.service.queue 0 = some ⟨task.serialize, 1, false⟩ ∧ sys.service.deadLetter = [] ∧
      sys.attempts = [⟨0, task.serialize, cfg, task.delivered, state, log, false⟩] := by
  have begun : ∃ sys, Mealy.exec machine (initial, []) [.push 0 task, .hand 0, .receive 0 cfg call] =
      some (sys, []) ∧ sys.pushed 0 = some task ∧
      sys.service.queue 0 = some ⟨task.serialize, 1, false⟩ ∧ sys.service.deadLetter = [] ∧
      sys.attempts = [⟨0, task.serialize, cfg, task.delivered,
        (start cfg task.delivered 1 call).1, (start cfg task.delivered 1 call).2, false⟩] := by
    simp [Mealy.exec, machine, step, push, hand, receive, initial, accepted, storage, Service.send,
      Service.setMessage, Service.receive, Task.deserialize_serialize]
  obtain ⟨sys, first, pushed, queued, copies, attempts⟩ := begun
  have meets : ∀ sys, ∀ act ∈ [Act.push 0 task, .hand 0, .receive 0 cfg call], G sys act := by
    intro sys act member
    apply quiet
    rintro d call rfl
    simp at member
  have attempt : sys.attempts[0]? = _ := congrArg (·[0]?) attempts
  exact ⟨_, (Mealy.Run.of_exec meets first).trans (advance_run quiet attempt rfl unaided run),
    pushed, queued, copies, by simp [attempts]⟩

end

theorem callback_unaided (outcome : Outcome) :
    ∀ x ∈ [Action.callbackEnds outcome, .resume, .resume], Unaided x := by
  simp [Unaided, answerable]

end System

end JobQ.QueueSystem
