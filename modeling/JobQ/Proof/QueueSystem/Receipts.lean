import JobQ.Library.Pool
import JobQ.Proof.Renewal
import JobQ.Proof.QueueSystem.Steps

/-!
# Who has which receipt

Every receipt is given to one delivery or to none: the service makes a new one whenever it hands out
or rewrites a message, and a delivery learns one only from the service. Until the answer that hands
a message out is read, its receipt is the answer's.
-/

namespace JobQ

namespace Delivery

variable {cfg : Config} {s t : State}

theorem Leaves.popReceipt {result : Result} (left : Leaves s result t) :
    t.renewal.popReceipt = s.renewal.popReceipt := by
  obtain ⟨pc, stop, -, rfl⟩ := left
  rfl

theorem Proceeds.popReceipt {after : After} {next : Step} (proceeded : Proceeds cfg s after next) :
    next.1.renewal.popReceipt = s.renewal.popReceipt := by
  cases proceeded with
  | settles => rfl
  | skips _ _ left => exact left.popReceipt
  | leaves _ left => exact left.popReceipt

theorem cancelHeartbeat_popReceipt (cfg : Config) (s : State) (after : After) :
    (cancelHeartbeat cfg s after).1.renewal.popReceipt = s.renewal.popReceipt := by
  rcases cancelHeartbeat_cases cfg s after with ⟨-, proceeded⟩ | ⟨-, eq⟩
  · exact proceeded.popReceipt
  · rw [eq]

theorem Resumes.popReceipt {next : Step} (resumed : Resumes cfg s next) :
    next.1.renewal.popReceipt = s.renewal.popReceipt := by
  cases resumed with
  | concludes => exact cancelHeartbeat_popReceipt _ _ _
  | letsOut =>
      obtain ⟨t, left, eq⟩ := leave_eq cfg { s with interrupted := false } (.raised .cancelledError)
      rw [eq]
      exact left.popReceipt
  | proceeds => exact (proceed_cases _ _ _).popReceipt
  | awaits | exits | exitInterrupted => rfl

theorem step_popReceipt {a : Action} {next : Step} (stepped : step cfg s a = some next) :
    next.1.renewal.popReceipt = s.renewal.popReceipt ∨
      ∃ now, a = .renewal (.answer (.ok next.1.renewal.popReceipt) now) := by
  cases step_cases stepped with
  | renewal action =>
      cases Renewal.step_cases action with
      | sends | idles => exact .inl rfl
      | @answers answer now r _ _ _ receipt =>
          unfold RenewalAnswer.receipt at receipt
          split at receipt
          · rename_i q
            split at receipt
            · exact .inr ⟨now, by rw [receipt]⟩
            · exact .inl receipt
          · exact .inl receipt
  | aborts =>
      refine .inl ?_
      simp only [ServiceBus.abort]
      split <;> rfl
  | resumes resumed => exact .inl resumed.popReceipt
  | answers _ _ answered =>
      cases answered with
      | continues => exact .inl rfl
      | leaves _ left => exact .inl left.popReceipt
  | callbackEnds | lockTaskRuns | throws | absorbs => exact .inl rfl

theorem start_popReceipt (cfg : Config) (task : Task) (popReceipt : Receipt) (call : CallResult) :
    (start cfg task popReceipt call).1.renewal.popReceipt = popReceipt := by
  have starts := start_cases cfg task popReceipt call
  generalize start cfg task popReceipt call = next at starts
  cases starts with
  | waits => rfl
  | called _ resumed => exact resumed.popReceipt
  | unreadable => exact cancelHeartbeat_popReceipt _ _ _

end Delivery

namespace QueueSystem
open Delivery

namespace Service

variable {service next : Service} {m : MessageId} {p q : Receipt} {content : String}

theorem holds_iff : service.holds m p = true ↔
    ∃ message, service.queue m = some message ∧ message.popReceipt = p := by
  unfold holds
  split
  · rename_i message stored
    simp [stored]
  · rename_i none
    simp [none]

/-- What the service does with a request that it does not refuse. -/
inductive Serves (service : Service) (m : MessageId) (content : String) :
    Call → Service × Receipt → Prop
  | renews {p : Receipt} (holds : service.holds m p = true) :
      Serves service m content (.renew p)
        ({ service.setMessage m (some ⟨content, service.nextReceipt, false⟩) with
          nextReceipt := service.nextReceipt + 1 }, service.nextReceipt)
  | updates {p : Receipt} {text : String} (holds : service.holds m p = true) :
      Serves service m content (.settle (.updateMessage p text))
        ({ service.setMessage m (some ⟨text, service.nextReceipt, true⟩) with
          nextReceipt := service.nextReceipt + 1 }, service.nextReceipt)
  | deletes {p : Receipt} (holds : service.holds m p = true) :
      Serves service m content (.settle (.deleteMessage p)) (service.setMessage m none, p)
  | copies {text : String} :
      Serves service m content (.settle (.sendDeadLetter text))
        ({ service with deadLetter := service.deadLetter ++ [(m, text)] }, 0)

theorem perform_serves {call : Call} {done : Service × Receipt}
    (performed : service.perform m content call = some done) :
    Serves service m content call done := by
  unfold perform update at performed
  split at performed
  · split at performed <;> cases performed
    exact .renews ‹_›
  · split at performed <;> cases performed
    exact .updates ‹_›
  · split at performed <;> cases performed
    exact .deletes ‹_›
  · cases performed
    exact .copies
  · contradiction

theorem receive_eq {message : Message} (received : service.receive m = some (next, message)) :
    ∃ old, service.queue m = some old ∧ old.visible = true ∧
      message = { old with popReceipt := service.nextReceipt, visible := false } ∧
      next = { service.setMessage m (some message) with nextReceipt := service.nextReceipt + 1 } := by
  unfold receive at received
  split at received
  · rename_i old stored
    split at received <;> cases received
    exact ⟨old, stored, ‹_›, rfl, rfl⟩
  · contradiction

end Service

namespace System

variable {sys next : System} {d e : AttemptId} {p q : Receipt}

theorem serve_serves {call : Call} (served : sys.serve d call = some next) :
    ∃ a service q, sys.attempts[d]? = some a ∧ call ∈ calls a.log ∧
      Service.Serves sys.service a.message a.content call (service, q) ∧
      next = { sys with service := service, performed := sys.performed ++ [(d, call, q)] } := by
  unfold serve at served
  split at served
  · contradiction
  · rename_i a attempt
    split at served
    · split at served <;> cases served
      exact ⟨a, _, _, attempt, ‹_›, Service.perform_serves ‹_›, rfl⟩
    · contradiction

/-- The delivery knows the receipt, or a renewal for it brought it about. -/
def Holder (sys : System) (p : Receipt) (d : AttemptId) : Prop :=
  (∃ a, sys.attempts[d]? = some a ∧ a.state.renewal.popReceipt = p) ∨
    ∃ old, (d, .renew old, p) ∈ sys.performed

def Brings (sys : System) (p : Receipt) (i : Nat) : Prop :=
  ∃ answer, sys.answers[i]? = some answer ∧ answer.isRead = false ∧ answer.message.popReceipt = p

inductive Party where
  | answer (i : Nat)
  | delivery (d : AttemptId)

def Has (sys : System) (p : Receipt) : Party → Prop
  | .answer i => Brings sys p i
  | .delivery d => Holder sys p d

structure Distinct (sys : System) : Prop where
  issued : ∀ {m message}, sys.service.queue m = some message →
    message.popReceipt < sys.service.nextReceipt
  fresh : ∀ {p x}, Has sys p x → p < sys.service.nextReceipt
  sole : ∀ {p x y}, Has sys p x → Has sys p y → x = y

theorem Distinct.unheld (distinct : Distinct sys) (x : Party) :
    ¬Has sys sys.service.nextReceipt x := fun holder => Nat.lt_irrefl _ (distinct.fresh holder)

theorem Distinct.holder_eq (distinct : Distinct sys) (first : Holder sys p d)
    (second : Holder sys p e) : d = e := by
  have same : Party.delivery d = .delivery e := distinct.sole (p := p) first second
  injection same

theorem Distinct.apart (distinct : Distinct sys) {i : Nat} (brings : Brings sys p i) :
    ¬Holder sys p d := by
  intro holder
  have same : Party.answer i = .delivery d := distinct.sole (p := p) brings holder
  cases same

/-- A step after which every receipt is held as before, and the new ones are still unused. -/
theorem Distinct.keeps (distinct : Distinct sys)
    (later : sys.service.nextReceipt ≤ next.service.nextReceipt)
    (holders : ∀ {p x}, Has next p x → Has sys p x)
    (issued : ∀ {m message}, next.service.queue m = some message →
      message.popReceipt < next.service.nextReceipt) : Distinct next :=
  ⟨issued, fun holder => Nat.lt_of_lt_of_le (distinct.fresh (holders holder)) later,
    fun first second => distinct.sole (holders first) (holders second)⟩

/-- A step that gives one new receipt to one party. -/
theorem Distinct.gives (distinct : Distinct sys) {z : Party}
    (later : next.service.nextReceipt = sys.service.nextReceipt + 1)
    (holders : ∀ {p x}, Has next p x → Has sys p x ∨ p = sys.service.nextReceipt ∧ x = z)
    (issued : ∀ {m message}, next.service.queue m = some message →
      message.popReceipt < next.service.nextReceipt) : Distinct next := by
  refine ⟨issued, fun holder => ?_, fun first second => ?_⟩
  · rw [later]
    rcases holders holder with old | ⟨rfl, -⟩
    · exact Nat.lt_succ_of_lt (distinct.fresh old)
    · exact Nat.lt_succ_self _
  · rcases holders first with old | ⟨rfl, rfl⟩
    · rcases holders second with other | ⟨rfl, -⟩
      · exact distinct.sole old other
      · exact absurd old (distinct.unheld _)
    · rcases holders second with other | ⟨-, rfl⟩
      · exact absurd other (distinct.unheld _)
      · rfl

/-- A step that passes a receipt on, from `w` to `z`. -/
theorem Distinct.passes (distinct : Distinct sys) {w z : Party} (before : Has sys q w)
    (same : next.service = sys.service)
    (holders : ∀ {p x}, Has next p x → x ≠ w ∧ (Has sys p x ∨ p = q ∧ x = z)) : Distinct next := by
  refine ⟨fun stored => ?_, fun holder => ?_, fun first second => ?_⟩
  · rw [same] at stored ⊢
    exact distinct.issued stored
  · rw [same]
    rcases holders holder with ⟨-, old | ⟨rfl, -⟩⟩
    · exact distinct.fresh old
    · exact distinct.fresh before
  · obtain ⟨left, old | ⟨rfl, rfl⟩⟩ := holders first
    · obtain ⟨-, other | ⟨rfl, -⟩⟩ := holders second
      · exact distinct.sole old other
      · exact absurd (distinct.sole old before) left
    · obtain ⟨gone, other | ⟨-, rfl⟩⟩ := holders second
      · exact absurd (distinct.sole other before) gone
      · rfl

theorem issued_set {service : Service} {m n : MessageId} {value : Option Message} {limit : Receipt}
    (issued : ∀ {m message}, service.queue m = some message → message.popReceipt < limit)
    (fine : ∀ message, value = some message → message.popReceipt < limit) {message : Message}
    (stored : (service.setMessage m value).queue n = some message) :
    message.popReceipt < limit := by
  by_cases same : n = m
  · subst same
    exact fine message (by simpa using stored)
  · exact issued (Service.setMessage_other _ same ▸ stored)

theorem Holder.advanced {a b : Attempt} (attempt : sys.attempts[e]? = some a)
    (learns : b.state.renewal.popReceipt = a.state.renewal.popReceipt ∨
      ∃ old, (e, .renew old, b.state.renewal.popReceipt) ∈ sys.performed)
    (holder : Holder { sys with attempts := sys.attempts.set e b } p d) : Holder sys p d := by
  rcases holder with ⟨c, found, rfl⟩ | performed
  · rcases set_attempt found with ⟨rfl, rfl⟩ | ⟨-, old⟩
    · rcases learns with same | renewed
      · exact .inl ⟨a, attempt, same.symm⟩
      · exact .inr renewed
    · exact .inl ⟨c, old, rfl⟩
  · exact .inr performed

theorem Holder.received {a : Attempt} {answers : List Answer}
    (holder : Holder { sys with answers, attempts := sys.attempts ++ [a] } p d) :
    Holder sys p d ∨ p = a.state.renewal.popReceipt ∧ d = sys.attempts.length := by
  rcases holder with ⟨b, found, rfl⟩ | performed
  · by_cases bound : d < sys.attempts.length
    · rw [List.getElem?_append_left bound] at found
      exact .inl (.inl ⟨b, found, rfl⟩)
    · rw [List.getElem?_append_right (Nat.le_of_not_lt bound), List.getElem?_singleton] at found
      split at found <;> cases found
      rename_i first
      exact .inr ⟨rfl, Nat.le_antisymm (Nat.sub_eq_zero_iff_le.mp first) (Nat.le_of_not_lt bound)⟩
  · exact .inl (.inr performed)

theorem Brings.handed {answer : Answer} {service : Service} {i : Nat}
    (brings : Brings { sys with service, answers := sys.answers ++ [answer] } p i) :
    Brings sys p i ∨ p = answer.message.popReceipt ∧ i = sys.answers.length := by
  obtain ⟨other, found, unread, rfl⟩ := brings
  rcases Pool.append_cases found with old | ⟨rfl, rfl⟩
  · exact .inl ⟨other, old, unread, rfl⟩
  · exact .inr ⟨rfl, rfl⟩

theorem Brings.unread {answer : Answer} {i j : Nat} (attempts : List Attempt)
    (brings : Brings { sys with
      answers := sys.answers.set i { answer with isRead := true }, attempts } p j) :
    j ≠ i ∧ Brings sys p j := by
  obtain ⟨other, later, unread, same⟩ := brings
  rw [List.getElem?_set] at later
  split at later
  · split at later <;> cases later
    cases unread
  · rename_i apart
    exact ⟨Ne.symm apart, other, later, unread, same⟩

theorem Holder.served {service : Service} {call : Call}
    (holder : Holder { sys with service, performed := sys.performed ++ [(e, call, q)] } p d) :
    Holder sys p d ∨ d = e ∧ (∃ old, call = .renew old) ∧ p = q := by
  rcases holder with known | ⟨old, member⟩
  · exact .inl (.inl known)
  · rcases List.mem_append.mp member with before | now
    · exact .inl (.inr ⟨old, before⟩)
    · cases List.mem_singleton.mp now
      exact .inr ⟨rfl, ⟨old, rfl⟩, rfl⟩

theorem advance_learns {a : Attempt} {action : Action} {state : State} {events : List Event}
    (allowed : sys.answerable d a action = true)
    (stepped : Delivery.step a.cfg a.state action = some (state, events)) :
    state.renewal.popReceipt = a.state.renewal.popReceipt ∨
      ∃ old, (d, .renew old, state.renewal.popReceipt) ∈ sys.performed := by
  rcases step_popReceipt stepped with same | ⟨now, rfl⟩
  · exact .inl same
  · simp only [answerable, List.any_eq_true, decide_eq_true_eq] at allowed
    obtain ⟨⟨i, call, q⟩, member, rfl, renews, same⟩ := allowed
    cases call with
    | settle => simp at renews
    | renew old => exact .inr ⟨old, by simpa [← same] using member⟩

/-- The same deliveries hold a receipt, and no answer is new. -/
theorem Has.of_holder {x : Party} (answers : next.answers = sys.answers)
    (holders : ∀ {d}, Holder next p d → Holder sys p d) (has : Has next p x) : Has sys p x := by
  cases x with
  | delivery d => exact holders has
  | answer i =>
      obtain ⟨answer, found, rest⟩ := has
      exact ⟨answer, answers ▸ found, rest⟩

/-- Only a renewal gives the receipt that it makes to the delivery. -/
theorem Has.settled {service : Service} {request : Request} {x : Party}
    (has : Has { sys with service, performed := sys.performed ++ [(d, .settle request, q)] } p x) :
    Has sys p x := by
  cases x with
  | answer i => exact has
  | delivery e =>
      rcases Holder.served has with old | ⟨-, ⟨_, other⟩, -⟩
      · exact old
      · cases other

theorem Distinct.serves {d : AttemptId} {call : Call} (distinct : Distinct sys)
    (action : sys.serve d call = some next) : Distinct next := by
  have later {m : MessageId} {message : Message} (stored : sys.service.queue m = some message) :
      message.popReceipt < sys.service.nextReceipt + 1 := Nat.lt_succ_of_lt (distinct.issued stored)
  obtain ⟨a, service, q, attempt, -, serves, rfl⟩ := serve_serves action
  cases serves with
  | renews =>
      refine distinct.gives (z := .delivery d) rfl (fun {p x} has => ?_) (issued_set later (by simp))
      cases x with
      | answer i => exact .inl has
      | delivery e =>
          rcases Holder.served has with old | ⟨rfl, -, rfl⟩
          · exact .inl old
          · exact .inr ⟨rfl, rfl⟩
  | updates => exact distinct.keeps (Nat.le_succ _) Has.settled (issued_set later (by simp))
  | deletes => exact distinct.keeps (Nat.le_refl _) Has.settled (issued_set distinct.issued (by simp))
  | copies => exact distinct.keeps (Nat.le_refl _) Has.settled distinct.issued

theorem Distinct.receives {i : Nat} {cfg : Config} {call : CallResult} (distinct : Distinct sys)
    (action : sys.step (.receive i cfg call) = some next) : Distinct next := by
  cases step_cases action with
  | unreadable =>
      refine distinct.keeps (Nat.le_refl _) (fun {p x} has => ?_) distinct.issued
      cases x with
      | answer j => exact (Brings.unread _ has).2
      | delivery d => exact has
  | receive _ found unread =>
      refine distinct.passes (w := .answer i) (z := .delivery sys.attempts.length)
        ⟨_, found, unread, rfl⟩ rfl fun {p x} has => ?_
      cases x with
      | answer j =>
          obtain ⟨other, brings⟩ := Brings.unread _ has
          exact ⟨by simpa using other, .inl brings⟩
      | delivery d =>
          refine ⟨by simp, ?_⟩
          rcases Holder.received has with old | ⟨rfl, rfl⟩
          · exact .inl old
          · exact .inr ⟨start_popReceipt _ _ _ _, rfl⟩

theorem Distinct.step {act : Act} (distinct : Distinct sys) (action : sys.step act = some next) :
    Distinct next := by
  have later {m : MessageId} {message : Message} (stored : sys.service.queue m = some message) :
      message.popReceipt < sys.service.nextReceipt + 1 := Nat.lt_succ_of_lt (distinct.issued stored)
  cases act with
  | serve d call => exact distinct.serves action
  | receive i cfg call => exact distinct.receives action
  | push m task =>
      cases step_cases action with
      | push => exact distinct.keeps (Nat.le_succ _) id (issued_set later (by simp))
  | hand m =>
      cases step_cases action with
      | hand received =>
          obtain ⟨old, -, -, rfl, rfl⟩ := Service.receive_eq received
          refine distinct.gives (z := .answer sys.answers.length) rfl (fun {p x} has => ?_)
            (issued_set later (by simp))
          cases x with
          | delivery d => exact .inl has
          | answer i =>
              rcases Brings.handed has with brings | ⟨rfl, rfl⟩
              · exact .inl brings
              · exact .inr ⟨rfl, rfl⟩
  | advance d a =>
      cases step_cases action with
      | advance attempt allowed stepped =>
          exact distinct.keeps (Nat.le_refl _)
            (.of_holder rfl (Holder.advanced attempt (advance_learns allowed stepped)))
            distinct.issued
  | expire m =>
      cases step_cases action with
      | expire =>
          refine distinct.keeps ?_ id ?_
          · simp only [Service.expire]
            split <;> exact Nat.le_refl _
          · simp only [Service.expire]
            split
            · rename_i old stored
              refine issued_set distinct.issued ?_
              rintro _ ⟨⟩
              have issued := distinct.issued stored
              exact issued
            · exact distinct.issued
  | crash d =>
      cases step_cases action with
      | crash attempt =>
          exact distinct.keeps (Nat.le_refl _)
            (.of_holder rfl (Holder.advanced attempt (.inl rfl))) distinct.issued

end System

end QueueSystem

end JobQ
