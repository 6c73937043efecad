import JobQ.Library.Pool
import JobQ.Proof.QueueSystem.Grip
import JobQ.Proof.QueueSystem.NoLoss
import JobQ.Proof.QueueSystem.Receipts

/-!
# Every message is visible or attended to

If the service answers truly and nothing disturbs the deliveries, a message that is invisible is on
its way to a worker, or in the hand of a delivery that has not ended.
-/

namespace JobQ.QueueSystem
open Delivery

namespace System

variable {sys next : System} {m n : MessageId} {message fresh : Message} {d e : AttemptId}
  {p q : Receipt}

/-- What the service did for the delivery last, and its answer. -/
def lastPerformed (sys : System) (d : AttemptId) : Option (Call × Receipt) :=
  ((sys.performed.filter fun x => x.1 = d).map Prod.snd).getLast?

def Refuses (sys : System) (a : Attempt) (call : Call) : Prop :=
  sys.service.perform a.message a.content call = none

/-- The request that the delivery has sent and not heard of. -/
def Awaits (s : State) : Call → Prop
  | .renew popReceipt => s.renewal.isInFlight = true ∧ s.renewal.popReceipt = popReceipt
  | .settle request => ∃ settlement, s.pc = .settling settlement request

/-- The service performs what is awaited and answers with what it did, and no delivery crashes, is
cancelled without its callback, lets a `CancelledError` of its callback out, fails with an exception
without a text, or has logged something else than texts. -/
def Undisturbed (sys : System) : Act → Prop
  | .receive _ cfg call => cfg.log.isReadable = true ∧
      ∀ outcome, call = .ended outcome → outcome.isPlain = true
  | .advance d action => ∀ a, sys.attempts[d]? = some a →
      Honest (sys.lastPerformed d) (sys.Refuses a) a.state action
  | .serve d call => ∀ a, sys.attempts[d]? = some a → Awaits a.state call
  | .crash _ => False
  | .push _ _ | .hand _ | .expire _ => True

theorem lastPerformed_append {call : Call} (service : Service) :
    lastPerformed { sys with service, performed := sys.performed ++ [(d, call, q)] } e =
      if d = e then some (call, q) else sys.lastPerformed e := by
  simp only [lastPerformed, List.filter_append]
  by_cases same : d = e
  · simp [same]
  · simp [same]

/-- The message is on its way to a worker, in the hand of a delivery, or visible under a receipt that
nobody has. -/
inductive AttendedTo (sys : System) (m : MessageId) (message : Message) : Prop
  | onItsWay {i : Nat} {answer : Answer} (found : sys.answers[i]? = some answer)
      (same : answer.id = m) (unread : answer.isRead = false)
      (receipt : answer.message.popReceipt = message.popReceipt) : AttendedTo sys m message
  | inHand {d : AttemptId} {a : Attempt} (attempt : sys.attempts[d]? = some a) (same : a.message = m)
      (grip : Grip (sys.lastPerformed d) a.state message.popReceipt) : AttendedTo sys m message
  | free (visible : message.visible = true) (unheld : ∀ x, ¬Has sys message.popReceipt x) :
      AttendedTo sys m message

structure Attended (sys : System) : Prop where
  distinct : Distinct sys
  known : ∀ {d x}, (d, x) ∈ sys.performed → d < sys.attempts.length
  configured : ∀ {d : AttemptId} {a : Attempt}, sys.attempts[d]? = some a →
    a.cfg.backend = .storageQueue ∧ a.cfg.log.isReadable = true
  attended : ∀ {m message}, sys.service.queue m = some message → AttendedTo sys m message

theorem mem_of_lastPerformed {x : Call × Receipt} (last : sys.lastPerformed d = some x) :
    (d, x) ∈ sys.performed := by
  have member := List.mem_of_getLast? last
  simp only [List.mem_map, List.mem_filter, decide_eq_true_eq] at member
  obtain ⟨⟨i, y⟩, ⟨member, rfl⟩, rfl⟩ := member
  exact member

theorem holder_of_grip {a : Attempt} (attempt : sys.attempts[d]? = some a)
    (grip : Grip (sys.lastPerformed d) a.state p) : Holder sys p d := by
  rcases grip.holder with same | ⟨old, last⟩
  · exact .inl ⟨a, attempt, same⟩
  · exact .inr ⟨old, mem_of_lastPerformed last⟩

theorem perform_holds {a : Attempt} (stored : sys.service.queue a.message = some message) :
    Refusal message.popReceipt (sys.Refuses a) := by
  have holds : sys.service.holds a.message message.popReceipt = true :=
    Service.holds_iff.mpr ⟨message, stored, rfl⟩
  constructor <;> simp [Refuses, Service.perform, Service.update, holds]

/-- What keeps a message attended to: its receipt, the answer or the delivery that has it, and that
nobody else gets the receipt. -/
theorem AttendedTo.keeps (attended : AttendedTo sys m message)
    (receipt : fresh.popReceipt = message.popReceipt)
    (visible : message.visible = true → fresh.visible = true)
    (answers : ∀ {i : Nat} {answer : Answer}, sys.answers[i]? = some answer →
      next.answers[i]? = some answer)
    (grips : ∀ {d : AttemptId} {a : Attempt}, sys.attempts[d]? = some a → a.message = m →
      Grip (sys.lastPerformed d) a.state message.popReceipt → ∃ b, next.attempts[d]? = some b ∧
        b.message = m ∧ Grip (next.lastPerformed d) b.state message.popReceipt)
    (holders : ∀ x, Has next message.popReceipt x → Has sys message.popReceipt x) :
    AttendedTo next m fresh := by
  cases attended with
  | onItsWay found same unread brings =>
      exact .onItsWay (answers found) same unread (brings.trans receipt.symm)
  | inHand attempt same grip =>
      obtain ⟨b, found, message, kept⟩ := grips attempt same grip
      exact .inHand found message (receipt ▸ kept)
  | free seen unheld => exact .free (visible seen) fun x has => unheld x (holders x (receipt ▸ has))

/-! ## Every step -/

def Quiet (content : String) : Prop :=
  ∃ task, Task.deserialize content = .ok task ∧ task.replyRequested = false

/-- The texts on the queue and on their way are tasks that want no reply. -/
structure Silent (sys : System) : Prop where
  queued : ∀ {m message}, sys.service.queue m = some message → Quiet message.content
  answered : ∀ {answer}, answer ∈ sys.answers → Quiet answer.message.content

theorem attempt_held {a b : Attempt} (found : sys.attempts[d]? = some a)
    (other : sys.attempts[e]? = some b) (same : e = d) : b = a := by
  subst same
  exact Option.some.inj (other.symm.trans found)

theorem Attended.pushes {task : Task} (attended : Attended sys)
    (stored : (sys.service.send m task.serialize).queue n = some message) :
    AttendedTo { sys with
      service := sys.service.send m task.serialize
      pushed := fun k => if k = m then some task else sys.pushed k } n message := by
  rcases (Service.send_sets sys.service m task.serialize).queue stored with ⟨rfl, same⟩ | old
  · cases same
    exact .free rfl attended.distinct.unheld
  · exact (attended.attended old).keeps rfl id id (fun found same grip => ⟨_, found, same, grip⟩)
      fun _ => id

theorem Attended.hands {old : Message} (attended : Attended sys)
    (stored : ((sys.service.setMessage m
      (some { old with popReceipt := sys.service.nextReceipt, visible := false })).queue n =
        some message)) :
    AttendedTo { sys with
      service := { sys.service.setMessage m
        (some { old with popReceipt := sys.service.nextReceipt, visible := false }) with
          nextReceipt := sys.service.nextReceipt + 1 }
      answers := sys.answers ++
        [⟨m, { old with popReceipt := sys.service.nextReceipt, visible := false }, false⟩] } n
      message := by
  by_cases same : n = m
  · subst same
    simp only [Service.setMessage_same, Option.some.injEq] at stored
    subst stored
    exact .onItsWay List.getElem?_concat_length rfl rfl rfl
  · rw [Service.setMessage_other _ same] at stored
    refine (attended.attended stored).keeps rfl id (fun found => ?_)
      (fun found same grip => ⟨_, found, same, grip⟩) fun x has => ?_
    · rw [List.getElem?_append_left (List.getElem?_eq_some_iff.mp found).1, found]
    · cases x with
      | delivery d => exact has
      | answer i =>
          rcases Brings.handed has with brings | ⟨fresh, -⟩
          · exact brings
          · exact absurd (attended.distinct.issued stored) (by simp [fresh])

/-- The delivery that the answer begins has its message in hand; all else stays as it is. -/
theorem Attended.receives {i : Nat} {answer : Answer} {cfg : Config} {task : Task}
    {call : CallResult} (attended : Attended sys) (storage : cfg.backend = .storageQueue)
    (readable : cfg.log.isReadable = true) (found : sys.answers[i]? = some answer)
    (unread : answer.isRead = false) (silent : task.replyRequested = false)
    (ended : ∀ outcome, call = .ended outcome → outcome.isPlain = true)
    (stored : sys.service.queue n = some message) :
    AttendedTo { sys with
      answers := sys.answers.set i { answer with isRead := true }
      attempts := sys.attempts ++ [⟨answer.id, answer.message.content, cfg, task,
        (start cfg task answer.message.popReceipt call).1,
        (start cfg task answer.message.popReceipt call).2, false⟩] } n message := by
  cases attended.attended stored with
  | @onItsWay j other before same pending receipt =>
      by_cases own : j = i
      · subst own
        obtain rfl : other = answer := Option.some.inj (before.symm.trans found)
        have first : sys.lastPerformed sys.attempts.length = none := by
          cases last : sys.lastPerformed sys.attempts.length with
          | none => rfl
          | some x => exact absurd (attended.known (mem_of_lastPerformed last)) (Nat.lt_irrefl _)
        refine .inHand (d := sys.attempts.length) List.getElem?_concat_length same ?_
        show Grip (sys.lastPerformed _) _ _
        rw [first, ← receipt]
        exact .start storage readable silent ended
      · exact .onItsWay (by rw [List.getElem?_set_ne (Ne.symm own), before]) same pending receipt
  | inHand attempt same grip =>
      refine .inHand ?_ same grip
      rw [List.getElem?_append_left (List.getElem?_eq_some_iff.mp attempt).1, attempt]
  | free visible unheld =>
      refine .free visible fun x has => ?_
      cases x with
      | answer j => exact unheld (.answer j) (Brings.unread _ has).2
      | delivery d =>
          rcases Holder.received has with old | ⟨same, -⟩
          · exact unheld (.delivery d) old
          · rw [start_popReceipt] at same
            exact unheld (.answer i) ⟨answer, found, unread, same.symm⟩

theorem Attended.advances {a : Attempt} {action : Action} {state : State} {events : List Event}
    (attended : Attended sys) (attempt : sys.attempts[d]? = some a)
    (honest : Honest (sys.lastPerformed d) (sys.Refuses a) a.state action)
    (allowed : sys.answerable d a action = true)
    (stepped : Delivery.step a.cfg a.state action = some (state, events))
    (stored : sys.service.queue m = some message) :
    AttendedTo { sys with
      attempts := sys.attempts.set d { a with state := state, log := a.log ++ events } } m message := by
  have bound := (List.getElem?_eq_some_iff.mp attempt).1
  refine (attended.attended stored).keeps rfl id id ?_ fun _ =>
    .of_holder rfl (Holder.advanced attempt (advance_learns allowed stepped))
  intro e b found same grip
  by_cases own : e = d
  · subst own
    obtain rfl := attempt_held attempt found rfl
    subst same
    exact ⟨{ b with state := state, log := b.log ++ events }, by simp [bound], rfl,
      grip.step (attended.configured attempt).1 (attended.configured attempt).2
        (perform_holds stored) honest stepped⟩
  · exact ⟨b, by simpa [List.getElem?_set_ne (Ne.symm own)] using found, same, grip⟩

/-- A request is served for one delivery; what the others have in hand stays there. -/
theorem Attended.elsewhere {a : Attempt} {service : Service} {call : Call} (attended : Attended sys)
    (attempt : sys.attempts[d]? = some a) (other : n ≠ a.message)
    (fresh : q = sys.service.nextReceipt ∨ ∃ request, call = .settle request)
    (stored : sys.service.queue n = some message) :
    AttendedTo { sys with service, performed := sys.performed ++ [(d, call, q)] } n message := by
  refine (attended.attended stored).keeps rfl id id ?_ ?_
  · intro e b found same grip
    refine ⟨b, found, same, ?_⟩
    rw [lastPerformed_append, if_neg]
    · exact grip
    · rintro rfl
      obtain rfl := attempt_held attempt found rfl
      exact other same.symm
  · refine fun _ => .of_holder rfl fun holder => ?_
    rcases Holder.served holder with old | ⟨rfl, ⟨_, renews⟩, same⟩
    · exact old
    · rcases fresh with rfl | ⟨request, settles⟩
      · exact absurd (attended.distinct.issued stored) (by simp [same])
      · simp [renews] at settles

theorem Attended.serves {a : Attempt} {service : Service} {call : Call} (attended : Attended sys)
    (attempt : sys.attempts[d]? = some a) (awaits : Awaits a.state call)
    (serves : Service.Serves sys.service a.message a.content call (service, q))
    (stored : service.queue n = some message) :
    AttendedTo { sys with service, performed := sys.performed ++ [(d, call, q)] } n message := by
  have old (other : n ≠ a.message) {value : Option Message}
      (stored : (sys.service.setMessage a.message value).queue n = some message) :
      sys.service.queue n = some message := Service.setMessage_other _ other ▸ stored
  cases serves with
  | renews holds =>
      by_cases own : n = a.message
      · subst own
        simp only [Service.setMessage_same, Option.some.injEq] at stored
        subst stored
        obtain ⟨inFlight, known⟩ := awaits
        obtain ⟨before, queued, receipt⟩ := Service.holds_iff.mp holds
        have holder : Holder sys before.popReceipt d := .inl ⟨a, attempt, known.trans receipt.symm⟩
        cases attended.attended queued with
        | onItsWay found _ unread brings =>
            exact absurd holder (attended.distinct.apart ⟨_, found, unread, brings⟩)
        | inHand found same grip =>
            -- the receipt is this delivery's, so the message was in its hand already
            obtain rfl := attended.distinct.holder_eq (holder_of_grip found grip) holder
            obtain rfl := attempt_held found attempt rfl
            refine .inHand attempt rfl ?_
            rw [lastPerformed_append, if_pos rfl, ← receipt]
            refine grip.renewed inFlight (known.trans receipt.symm) fun same => ?_
            exact absurd (attended.distinct.issued queued) (by simp [same])
        | free _ unheld => exact absurd holder (unheld (.delivery d))
      · exact attended.elsewhere attempt own (.inl rfl) (old own stored)
  | updates holds =>
      by_cases own : n = a.message
      · subst own
        simp only [Service.setMessage_same, Option.some.injEq] at stored
        subst stored
        exact .free rfl fun x has => attended.distinct.unheld x has.settled
      · exact attended.elsewhere attempt own (.inr ⟨_, rfl⟩) (old own stored)
  | deletes =>
      by_cases own : n = a.message
      · subst own
        simp at stored
      · exact attended.elsewhere attempt own (.inr ⟨_, rfl⟩) (old own stored)
  | copies =>
      refine (attended.attended stored).keeps rfl id id ?_ fun _ => Has.settled
      intro e b found same grip
      refine ⟨b, found, same, ?_⟩
      rw [lastPerformed_append]
      split
      · rename_i own
        subst own
        obtain rfl := attempt_held attempt found rfl
        obtain ⟨settlement, pc⟩ := awaits
        exact grip.copied pc
      · exact grip

theorem Attended.expires (attended : Attended sys)
    (stored : (sys.service.expire m).queue n = some message) :
    AttendedTo { sys with service := sys.service.expire m } n message := by
  have same {old : Message} (queued : sys.service.queue n = some old)
      (receipt : message.popReceipt = old.popReceipt)
      (visible : old.visible = true → message.visible = true) :
      AttendedTo { sys with service := sys.service.expire m } n message :=
    (attended.attended queued).keeps receipt visible id
      (fun found same grip => ⟨_, found, same, grip⟩) fun _ => id
  unfold Service.expire at stored
  split at stored
  · rename_i old queued
    by_cases own : n = m
    · subst own
      simp only [Service.setMessage_same, Option.some.injEq] at stored
      subst stored
      exact same queued rfl fun _ => rfl
    · rw [Service.setMessage_other _ own] at stored
      exact same stored rfl id
  · exact same stored rfl id

theorem Attended.step {act : Act} (attended : Attended sys) (silent : Silent sys)
    (undisturbed : Undisturbed sys act) (action : sys.step act = some next) : Attended next := by
  have distinct := attended.distinct.step action
  have configured {e : AttemptId} {b : Attempt} (found : sys.attempts[e]? = some b) :
      b.cfg.backend = .storageQueue ∧ b.cfg.log.isReadable = true := attended.configured found
  cases act with
  | push m task =>
      cases step_cases action with
      | push => exact ⟨distinct, attended.known, configured, attended.pushes⟩
  | hand m =>
      cases step_cases action with
      | hand received =>
          obtain ⟨old, -, -, rfl, rfl⟩ := Service.receive_eq received
          exact ⟨distinct, attended.known, configured, attended.hands⟩
  | receive i cfg call =>
      cases step_cases action with
      | unreadable found _ unreadable =>
          obtain ⟨task, read, -⟩ := silent.answered (List.mem_of_getElem? found)
          simp [read] at unreadable
      | receive backend found unread read =>
          obtain ⟨task, same, quiet⟩ := silent.answered (List.mem_of_getElem? found)
          simp only [same, Except.ok.injEq] at read
          subst read
          refine ⟨distinct, fun member => ?_, fun attempt => ?_,
            attended.receives backend undisturbed.1 found unread quiet undisturbed.2⟩
          · simpa using Nat.lt_succ_of_lt (attended.known member)
          · rcases append_attempt attempt with old | rfl
            · exact configured old
            · exact ⟨backend, undisturbed.1⟩
  | advance d a =>
      cases step_cases action with
      | advance attempt allowed stepped =>
          refine ⟨distinct, fun member => ?_, fun found => ?_,
            attended.advances attempt (undisturbed _ attempt) allowed stepped⟩
          · simpa using attended.known member
          · rcases set_attempt found with ⟨-, rfl⟩ | ⟨-, old⟩
            · have before := configured attempt
              exact before
            · exact configured old
  | serve d call =>
      obtain ⟨a, service, q, attempt, -, serves, rfl⟩ := serve_serves action
      refine ⟨distinct, fun {e x} member => ?_, configured,
        attended.serves attempt (undisturbed a attempt) serves⟩
      rcases List.mem_append.mp member with old | new
      · exact attended.known old
      · cases List.mem_singleton.mp new
        exact (List.getElem?_eq_some_iff.mp attempt).1
  | expire m =>
      cases step_cases action with
      | expire =>
          refine ⟨distinct, attended.known, configured, attended.expires⟩
  | crash d => exact undisturbed.elim

/-! ## What a step brings -/

/-- Only a push brings a message. -/
theorem queued_before {b : Act} (action : sys.step b = some next)
    (stored : next.service.queue n = some message) :
    (∃ old, sys.service.queue n = some old) ∨ ∃ m task, b = .push m task := by
  have set {m : MessageId} {value : Option Message} {old : Message} (queued : sys.service.queue m = some old)
      (after : (sys.service.setMessage m value).queue n = some message) :
      (∃ old, sys.service.queue n = some old) ∨ ∃ m task, b = .push m task := by
    rcases (@Service.sets sys.service m value 0).queue after with ⟨rfl, -⟩ | before
    · exact .inl ⟨old, queued⟩
    · exact .inl ⟨message, before⟩
  cases b with
  | push m task => exact .inr ⟨m, task, rfl⟩
  | hand m =>
      cases step_cases action with
      | hand received =>
          obtain ⟨old, queued, -, -, rfl⟩ := Service.receive_eq received
          exact set queued stored
  | receive | advance | crash =>
      cases step_cases action <;> exact .inl ⟨message, stored⟩
  | serve d call =>
      obtain ⟨a, service, q, -, -, serves, rfl⟩ := serve_serves action
      cases serves with
      | renews holds | updates holds | deletes holds =>
          obtain ⟨old, queued, -⟩ := Service.holds_iff.mp holds
          exact set queued stored
      | copies => exact .inl ⟨message, stored⟩
  | expire m =>
      cases step_cases action
      rcases sys.service.expire_cases m with same | ⟨old, fresh, queued, -, sets⟩
      · exact .inl ⟨message, same ▸ stored⟩
      · rcases sets.queue stored with ⟨rfl, -⟩ | before
        · exact .inl ⟨old, queued⟩
        · exact .inl ⟨message, before⟩

/-- The answer has not been read, or the delivery has not ended. -/
def Pending (sys : System) : Party → Prop
  | .answer i => ∃ answer, sys.answers[i]? = some answer ∧ answer.isRead = false
  | .delivery d => ∃ a, sys.attempts[d]? = some a ∧ ∀ result, a.state.pc ≠ .finished result

/-- What is pending was pending before, or has been brought about by this step. -/
theorem pending_before {b : Act} {x : Party} (action : sys.step b = some next)
    (pending : Pending next x) : Pending sys x ∨
      (x = .answer sys.answers.length ∧ ∃ m, b = .hand m) ∨
      x = .delivery sys.attempts.length ∧ ∃ i cfg call, b = .receive i cfg call := by
  cases x with
  | answer i =>
      obtain ⟨answer, found, unread⟩ := pending
      cases step_cases action with
      | push | serve | expire | advance | crash => exact .inl ⟨answer, found, unread⟩
      | hand =>
          rcases Pool.append_cases found with old | ⟨rfl, -⟩
          · exact .inl ⟨answer, old, unread⟩
          · exact .inr (.inl ⟨rfl, _, rfl⟩)
      | unreadable | receive =>
          have brings := Brings.unread sys.attempts ⟨answer, found, unread, rfl⟩
          obtain ⟨-, old, before, pending, -⟩ := brings
          exact .inl ⟨old, before, pending⟩
  | delivery d =>
      obtain ⟨a, attempt, unfinished⟩ := pending
      cases step_cases action with
      | push | serve | expire | hand | unreadable => exact .inl ⟨a, attempt, unfinished⟩
      | receive =>
          rcases Pool.append_cases attempt with old | ⟨rfl, -⟩
          · exact .inl ⟨a, old, unfinished⟩
          · exact .inr (.inr ⟨rfl, _, _, _, rfl⟩)
      | advance found _ stepped =>
          rcases set_attempt attempt with ⟨rfl, rfl⟩ | ⟨-, old⟩
          · exact .inl ⟨_, found, fun result finished =>
              unfinished result (finished_stays stepped finished)⟩
          · exact .inl ⟨a, old, unfinished⟩
      | crash found =>
          rcases set_attempt attempt with ⟨rfl, rfl⟩ | ⟨-, old⟩
          · exact .inl ⟨_, found, unfinished⟩
          · exact .inl ⟨a, old, unfinished⟩

/-- An answer is read once. -/
theorem not_pending_received {i : Nat} {cfg : Config} {call : CallResult}
    (action : sys.step (.receive i cfg call) = some next) : ¬Pending next (.answer i) := by
  rintro ⟨answer, found, unread⟩
  cases step_cases action with
  | unreadable | receive =>
      have brings := Brings.unread sys.attempts ⟨answer, found, unread, rfl⟩
      exact brings.1 rfl

/-! ## Runs -/

theorem run_silent {G : System → Act → Prop} {es : List Empty}
    (run : Mealy.Run machine G (initial, []) es sys) : Silent sys := by
  have holds : Holds (fun _ read => read.replyRequested = false) sys := by
    refine run_holds (fun task accepted => ?_) (run.mono fun _ _ _ _ _ a _ _ _ => ?_)
    · have silent : task.replyRequested = false := by simpa [Backend.accepts] using accepted
      exact silent
    · intro task retries error silent
      exact (prepared_fields a.cfg a.task).2.1.trans silent
  have quiet {m : MessageId} {content : String}
      (origin : Origin (fun _ read => read.replyRequested = false) sys m content) :
      Quiet content := by
    obtain ⟨_, read, -, readable, silent⟩ := origin
    exact ⟨read, readable, silent⟩
  exact ⟨fun stored => quiet (holds.queued stored), fun member => quiet (holds.answered member)⟩

theorem initial_attended : Attended initial := by
  have none (p : Receipt) (x : Party) : ¬Has initial p x := by
    cases x <;> simp [Has, Brings, Holder, initial]
  exact ⟨⟨by simp [initial], fun holder => absurd holder (none _ _),
    fun holder => absurd holder (none _ _)⟩, by simp [initial], by simp [initial], by simp [initial]⟩

theorem run_attended {es : List Empty}
    (run : Mealy.Run machine Undisturbed (initial, []) es sys) : Attended sys := by
  have both : (∃ es, Mealy.Run machine Undisturbed (initial, []) es sys) ∧ Attended sys := by
    refine run.state_invariant
      (P := fun sys => (∃ es, Mealy.Run machine Undisturbed (initial, []) es sys) ∧ Attended sys)
      ⟨⟨_, .refl⟩, initial_attended⟩ ?_
    rintro s a t new ⟨⟨es, before⟩, attended⟩ undisturbed action
    have stepped : s.step a = some t ∧ new = [] := Mealy.silent_step action
    exact ⟨⟨_, before.next undisturbed action⟩,
      attended.step (run_silent before) undisturbed stepped.1⟩
  exact both.2

/-- It brings the message, or delivers it. -/
def Bears (sys : System) (m : MessageId) : Party → Prop
  | .answer i => ∃ answer, sys.answers[i]? = some answer ∧ answer.id = m
  | .delivery d => ∃ a, sys.attempts[d]? = some a ∧ a.message = m

theorem Attended.invisible (attended : Attended sys) (stored : sys.service.queue m = some message)
    (invisible : message.visible = false) :
    ∃ x, Bears sys m x ∧ Pending sys x ∧ Has sys message.popReceipt x := by
  cases attended.attended stored with
  | @onItsWay i answer found same unread receipt =>
      exact ⟨.answer i, ⟨answer, found, same⟩, ⟨answer, found, unread⟩,
        ⟨answer, found, unread, receipt⟩⟩
  | @inHand d a attempt same grip =>
      exact ⟨.delivery d, ⟨a, attempt, same⟩, ⟨a, attempt, grip.unfinished⟩,
        holder_of_grip attempt grip⟩
  | free visible => simp [invisible] at visible

/-- An invisible message is on its way in one answer that has not been read, or in the hand of one
delivery that has not ended, and nobody else has its receipt. -/
theorem invisible_in_hand {es : List Empty}
    (run : Mealy.Run machine Undisturbed (initial, []) es sys)
    (stored : sys.service.queue m = some message) (invisible : message.visible = false) :
    ∃ x, Bears sys m x ∧ Pending sys x ∧ Has sys message.popReceipt x ∧
      ∀ y, Has sys message.popReceipt y → y = x := by
  have attended := run_attended run
  obtain ⟨x, bears, pending, has⟩ := attended.invisible stored invisible
  exact ⟨x, bears, pending, has, fun y other => attended.distinct.sole other has⟩

def helloQueue (queued : Option Message) (nextReceipt : Receipt) (answers : List Answer)
    (attempts : List Attempt) (performed : List (AttemptId × Call × Receipt)) : System where
  service := ⟨fun m => if m = 0 then queued else none, [], nextReceipt⟩
  pushed := fun m => if m = 0 then some helloTask else none
  answers := answers
  attempts := attempts
  performed := performed

def helloAnswer (isRead : Bool) : Answer := ⟨0, ⟨helloTask.serialize, 1, false⟩, isRead⟩

/-- The delivery of `helloTask` by a callback that returned at once. -/
def helloAttempt (pc : Pc) (answered : List Event) : Attempt where
  message := 0
  content := helloTask.serialize
  cfg := plainConfig .storageQueue
  task := helloTask.delivered
  state := {
    pc := pc
    task := helloTask.delivered
    renewal := { loop := .absent, popReceipt := 1, stop := true }
    callback := .ended (.returned .null) }
  log := [.callbackEnded (.returned .null), .settlement .complete, .request (.deleteMessage 1)] ++
    answered

def helloQueued : System := helloQueue (some ⟨helloTask.serialize, 0, true⟩) 1 [] [] []

def helloHanded : System :=
  helloQueue (some ⟨helloTask.serialize, 1, false⟩) 2 [helloAnswer false] [] []

def helloReceived : System :=
  helloQueue (some ⟨helloTask.serialize, 1, false⟩) 2 [helloAnswer true]
    [helloAttempt (.settling .complete (.deleteMessage 1)) []] []

theorem hello_handed : helloQueued.hand 0 = some helloHanded := by
  have taken : helloQueued.service.receive 0 =
      some (helloHanded.service, ⟨helloTask.serialize, 1, false⟩) := by
    simp only [helloQueued, helloHanded, helloQueue, Service.receive, Service.setMessage, if_true,
      Option.some.injEq, Prod.mk.injEq, and_true, Service.mk.injEq]
    funext m
    by_cases here : m = 0 <;> simp [here]
  simp only [hand, taken]
  rfl

theorem hello_receives : helloHanded.receive 0 (plainConfig .storageQueue) (.ended (.returned .null)) =
    some helloReceived := by
  have storage : (plainConfig .storageQueue).backend = .storageQueue := rfl
  have found : helloHanded.answers[0]? = some (helloAnswer false) := rfl
  have unread : (helloAnswer false).isRead = false := rfl
  have read : Task.deserialize (helloAnswer false).message.content = .ok helloTask.delivered :=
    Task.deserialize_serialize helloTask
  simp only [receive, found, storage, unread, read]
  rfl

/-- The message on its way, and in hand. -/
theorem invisible_in_hand_hello :
    (∃ x, Bears helloHanded 0 x ∧ Pending helloHanded x ∧ Has helloHanded 1 x ∧
      ∀ y, Has helloHanded 1 y → y = x) ∧
    ∃ x, Bears helloReceived 0 x ∧ Pending helloReceived x ∧ Has helloReceived 1 x ∧
      ∀ y, Has helloReceived 1 y → y = x := by
  have pushed : machine.step initial (.push 0 helloTask) = some (helloQueued, []) := rfl
  have handed : machine.step helloQueued (.hand 0) = some (helloHanded, []) := by
    simp [machine, step, hello_handed]
  have calm : Undisturbed helloHanded
      (.receive 0 (plainConfig .storageQueue) (.ended (.returned .null))) := by
    refine ⟨rfl, ?_⟩
    rintro _ ⟨⟩
    rfl
  have free : Undisturbed initial (.push 0 helloTask) ∧ Undisturbed helloQueued (.hand 0) :=
    ⟨trivial, trivial⟩
  have first : Mealy.Run machine Undisturbed (initial, []) [] helloHanded :=
    .head free.1 pushed (.head free.2 handed .refl)
  have received : machine.step helloHanded
      (.receive 0 (plainConfig .storageQueue) (.ended (.returned .null))) =
        some (helloReceived, []) := by simp [machine, step, hello_receives]
  have second := first.next calm received
  have onItsWay : helloHanded.service.queue 0 = some ⟨helloTask.serialize, 1, false⟩ := rfl
  have inHand : helloReceived.service.queue 0 = some ⟨helloTask.serialize, 1, false⟩ := rfl
  exact ⟨invisible_in_hand first onItsWay rfl, invisible_in_hand second inHand rfl⟩

end System

end JobQ.QueueSystem
