import JobQ.Proof.QueueSystem.Steps
import JobQ.Proof.Delivery.Contract

/-!
# The retry budget

Deliveries of one message, one after another, while nobody cancels and the requests succeed. Each
settled failure takes one retry, until the last one makes a copy and removes the message.
-/

namespace JobQ

namespace Delivery

def leaving : Pc → Option Result
  | .exiting result | .finished result => some result
  | _ => none

def settledAs (pc : Pc) : Option Bool :=
  match leaving pc with
  | some (.returned value) => some value
  | _ => none

variable {cfg : Config} {task : Task} {log : List Event} {s : State}

inductive Settles (task : Task) : Option Bool → List Request → Prop
  | leaves : Settles task none []
  | requeues {popReceipt : Receipt} :
      Settles task none [.updateMessage popReceipt task.serialize]
  | completes {popReceipt : Receipt} : Settles task (some true) [.deleteMessage popReceipt]
  | retries {popReceipt : Receipt} (left : 0 < task.numRetries) :
      Settles task (some false) [.updateMessage popReceipt
        (Task.serialize { task with retries := task.retries.pred left })]
  | givesUp {popReceipt : Receipt} {content : String} (final : task.numRetries ≤ 0) :
      Settles task (some false) [.sendDeadLetter content, .deleteMessage popReceipt]

theorem Underway.settles {settlement : Settlement} {request : Request} {result : Result}
    (underway : Underway cfg log s settlement request) (storage : cfg.backend = .storageQueue)
    (verdict : Verdict settlement request (.ok ()) result) :
    Settles s.task (settledAs (.finished result)) (requests log) := by
  obtain ⟨after, -, settles⟩ := underway.decided
  have decided := decision_cases cfg s.task after
  rw [settles] at decided
  cases underway.asked with
  | first first sent =>
      rw [sent]
      rw [storage] at first
      cases decided with
      | requeues =>
          cases first
          cases verdict
          exact .requeues
      | completes =>
          cases first
          cases verdict
          exact .completes
      | retries _ left =>
          cases first
          cases verdict
          exact .retries left
      | givesUp =>
          cases first
          cases verdict with
          | deadLetter last => exact absurd rfl (last _)
  | second deadLetter first answered sent =>
      subst deadLetter
      rw [sent]
      cases decided with
      | givesUp _ final =>
          cases verdict with
          | deadLetter => exact .givesUp final

theorem Ends.settles {result : Result} (ends : Ends cfg log s result) (calm : Calm log s)
    (storage : cfg.backend = .storageQueue) (silent : s.task.replyRequested = false) :
    Settles s.task (settledAs (.finished result)) (requests log) := by
  cases ends with
  | interrupted _ cancelled => exact absurd cancelled (calm.uncancelled _)
  | callback untouched =>
      rw [untouched.2]
      exact .leaves
  | @declined after result untouched _ declined =>
      have decided := decision_cases cfg s.task after
      rw [untouched.2]
      rw [declined] at decided
      cases decided with
      | abandons => exact .leaves
      | swallows requested => simp [silent] at requested
      | chokes => exact .leaves
      | raises _ _ requested => simp [silent] at requested
  | @skipped after settlement popReceipt _ _ first =>
      rw [storage] at first
      cases settlement <;> cases first
  | aborted _ cancelled => exact absurd cancelled (calm.uncancelled _)
  | @settled settlement request answer _ underway answered verdict =>
      cases answer with
      | ok => exact Underway.settles underway storage verdict
      | error => exact absurd answered (calm.answered _)
  | late _ cancelled => exact absurd cancelled (calm.uncancelled _)

theorem delivery_settles {popReceipt : Receipt} {call : CallResult}
    (run : Mealy.Run (machine cfg) Undisturbed (start cfg task popReceipt call) log s)
    (storage : cfg.backend = .storageQueue) (silent : task.replyRequested = false)
    (ended : (leaving s.pc).isSome = true ∨ requests log = []) :
    Settles (prepared cfg task) (settledAs s.pc) (requests log) := by
  have accounted := run_accounted run
  have account := accounted.account
  rw [← accounted.task]
  have quiet : s.task.replyRequested = false := by
    rw [accounted.task, (prepared_fields cfg task).2.1, silent]
  cases pc : s.pc with
  | exiting result =>
      rw [Account, pc] at account
      exact account.settles (run_calm run) storage quiet
  | finished result =>
      rw [Account, pc] at account
      exact account.settles (run_calm run) storage quiet
  | _ =>
      have none : requests log = [] := by simpa [pc, leaving] using ended
      rw [none]
      exact .leaves

end Delivery

namespace QueueSystem
open Delivery

structure Entry where
  main : Option String
  copies : List String

def Entry.apply (entry : Entry) : Request → Entry
  | .updateMessage _ content => { entry with main := some content }
  | .deleteMessage _ => { entry with main := none }
  | .sendDeadLetter content => { entry with copies := entry.copies ++ [content] }
  | _ => entry

def Service.entry (service : Service) (m : MessageId) : Entry where
  main := (service.queue m).map Message.content
  copies := (service.deadLetter.filter fun x => x.1 = m).map Prod.snd

/-- One delivery of the entry, with the kind of its end: the coroutine came to its end, or its
process died before it settled anything. -/
inductive Delivered (entry : Entry) : Option Bool → Entry → Prop
  | intro {content : String} {task : Task} {cfg : Config} {popReceipt : Receipt} {call : CallResult}
      {log : List Event} {s : State} (queued : entry.main = some content)
      (read : Task.deserialize content = .ok task) (storage : cfg.backend = .storageQueue)
      (run : Mealy.Run (machine cfg) Undisturbed (start cfg task popReceipt call) log s)
      (ended : (leaving s.pc).isSome = true ∨ requests log = []) :
      Delivered entry (settledAs s.pc) ((requests log).foldl Entry.apply entry)

/-- `History task failures succeeded entry`: deliveries of a pushed task, of which so many were
settled failures, have led to this entry. -/
inductive History (task : Task) : Nat → Bool → Entry → Prop
  | pushed (accepted : Backend.storageQueue.accepts task = true) :
      History task 0 false ⟨some task.serialize, []⟩
  | unsettled {failures : Nat} {succeeded : Bool} {entry next : Entry}
      (history : History task failures succeeded entry) (delivered : Delivered entry none next) :
      History task failures succeeded next
  | failed {failures : Nat} {succeeded : Bool} {entry next : Entry}
      (history : History task failures succeeded entry)
      (delivered : Delivered entry (some false) next) : History task (failures + 1) succeeded next
  | succeeded {failures : Nat} {succeeded : Bool} {entry next : Entry}
      (history : History task failures succeeded entry)
      (delivered : Delivered entry (some true) next) : History task failures true next

theorem perform_entry {service next : Service} {m : MessageId} {content : String}
    {request : Request} {popReceipt : Receipt}
    (performed : service.perform m content (.settle request) = some (next, popReceipt)) :
    next.entry m = (service.entry m).apply request := by
  have sets {value : Option Message} (set : Service.Sets service m value next) :
      next.entry m = { service.entry m with main := value.map Message.content } := by
    simp [Service.entry, set.same, set.deadLetter]
  cases Service.perform_cases performed with
  | updates written set =>
      rw [sets set]
      simp [written, Entry.apply]
  | deletes set =>
      rw [sets set]
      rfl
  | copies => simp [Service.entry, Entry.apply]

/-! ## All deliveries -/

variable {task : Task}

inductive Budget (task : Task) (failures : Nat) : Bool → Entry → Prop
  | queued {content : String} {read : Task} (readable : Task.deserialize content = .ok read)
      (silent : read.replyRequested = false)
      (left : read.numRetries = task.numRetries - failures)
      (within : (failures : Int) ≤ max task.numRetries 0) :
      Budget task failures false ⟨some content, []⟩
  | succeeded (within : (failures : Int) ≤ max task.numRetries 0) :
      Budget task failures true ⟨none, []⟩
  | gaveUp {copy : String} (spent : (failures : Int) = max task.numRetries 0 + 1) :
      Budget task failures false ⟨none, [copy]⟩

theorem Budget.delivered {failures : Nat} {succeeded : Bool} {entry next : Entry}
    {kind : Option Bool} (budget : Budget task failures succeeded entry)
    (delivered : Delivered entry kind next) :
    Budget task (failures + if kind = some false then 1 else 0) (succeeded || kind = some true)
      next := by
  obtain ⟨queued, read, storage, run, ended⟩ := delivered
  rename_i content received cfg popReceipt call log s
  cases budget with
  | succeeded => cases queued
  | gaveUp => cases queued
  | @queued text origin readable silent left within =>
      cases queued
      rw [readable] at read
      injection read with same
      subst same
      have settles := delivery_settles run storage silent ended
      obtain ⟨retries, reply, -⟩ := prepared_fields cfg origin
      generalize settledAs s.pc = kind at settles
      generalize requests log = sent at settles
      cases settles with
      | leaves => exact .queued readable silent (by simpa using left) (by simpa using within)
      | requeues =>
          refine .queued (Task.deserialize_serialize _) (reply.trans silent) ?_ (by simpa using within)
          show (prepared cfg origin).numRetries = _
          simp [retries, left]
      | completes => exact .succeeded (by simpa using within)
      | retries more =>
          refine .queued (Task.deserialize_serialize _) (reply.trans silent) ?_ ?_
          · show (prepared cfg origin).numRetries - 1 = _
            simp
            omega
          · simp
            omega
      | givesUp final =>
          refine .gaveUp ?_
          simp
          omega

theorem history_budget {failures : Nat} {succeeded : Bool} {entry : Entry}
    (history : History task failures succeeded entry) : Budget task failures succeeded entry := by
  induction history with
  | pushed accepted =>
      refine .queued (Task.deserialize_serialize task) ?_ (by simp [Task.delivered, Task.numRetries]) (by omega)
      simpa [Backend.accepts, Task.delivered] using accepted
  | unsettled _ delivered ih => simpa using ih.delivered delivered
  | failed _ delivered ih => simpa using ih.delivered delivered
  | succeeded _ delivered ih => simpa using ih.delivered delivered

/-- After `failures` settled failures the queued message has so many retries fewer, and the copy is
made, and the message removed, at number `max(r, 0) + 1`. -/
theorem retry_budget {failures : Nat} {succeeded : Bool} {entry : Entry}
    (history : History task failures succeeded entry) :
    (∀ content, entry.main = some content → ∃ read, Task.deserialize content = .ok read ∧
      read.numRetries = task.numRetries - failures) ∧
    entry.copies.length = (if (failures : Int) = max task.numRetries 0 + 1 then 1 else 0) ∧
    (entry.main = none ↔ succeeded = true ∨ (failures : Int) = max task.numRetries 0 + 1) ∧
    (failures : Int) ≤ max task.numRetries 0 + 1 := by
  cases history_budget history with
  | queued readable _ left within =>
      have short : (failures : Int) ≠ max task.numRetries 0 + 1 := by omega
      refine ⟨?_, by simp [short], by simp [short], by omega⟩
      rintro _ ⟨⟩
      exact ⟨_, readable, left⟩
  | succeeded within =>
      have short : (failures : Int) ≠ max task.numRetries 0 + 1 := by omega
      exact ⟨by simp, by simp [short], by simp, by omega⟩
  | gaveUp spent => exact ⟨by simp, by simp [spent], by simp [spent], by omega⟩

def oneRetry : Task := { helloTask with retries := ⟨1, JsonText.fits_of_lt (by decide)⟩ }
def lastTry : Task := { oneRetry.delivered with retries := oneRetry.retries.pred (by decide) }

theorem oneRetry_fails : Delivered ⟨some oneRetry.serialize, []⟩ (some false)
    ⟨some lastTry.serialize, []⟩ := by
  have steps : Mealy.exec (machine (plainConfig .storageQueue))
      (start (plainConfig .storageQueue) oneRetry.delivered 0 .coroutine)
      [.callbackEnds (.raised (.other "exit code 1")), .resume, .resume, .answer (.ok ())] =
      some (_, _) := rfl
  have run : Mealy.Run (machine (plainConfig .storageQueue)) Undisturbed
      (start (plainConfig .storageQueue) oneRetry.delivered 0 .coroutine) _ _ :=
    .of_exec (by simp [Undisturbed, Action.disturbs]) steps
  exact .intro rfl (Task.deserialize_serialize _) rfl run (.inl rfl)

theorem lastTry_fails : Delivered ⟨some lastTry.serialize, []⟩ (some false)
    ⟨none, [Task.serialize { lastTry.delivered with error := some "exit code 1" }]⟩ := by
  have steps : Mealy.exec (machine (plainConfig .storageQueue))
      (start (plainConfig .storageQueue) lastTry.delivered 0 .coroutine)
      [.callbackEnds (.raised (.other "exit code 1")), .resume, .resume, .answer (.ok ()),
        .answer (.ok ())] = some (_, _) := rfl
  have run : Mealy.Run (machine (plainConfig .storageQueue)) Undisturbed
      (start (plainConfig .storageQueue) lastTry.delivered 0 .coroutine) _ _ :=
    .of_exec (by simp [Undisturbed, Action.disturbs]) steps
  exact .intro rfl (Task.deserialize_serialize _) rfl run (.inl rfl)

/-- The first failure spends the only retry, and the second makes the copy. -/
theorem retry_budget_oneRetry : ∃ content read entry,
    History oneRetry 1 false ⟨some content, []⟩ ∧ Task.deserialize content = .ok read ∧
    read.numRetries = 0 ∧ History oneRetry 2 false entry ∧ entry.main = none ∧
    entry.copies.length = 1 := by
  have pushed : History oneRetry 0 false ⟨some oneRetry.serialize, []⟩ := .pushed rfl
  have once := pushed.failed oneRetry_fails
  have twice := once.failed lastTry_fails
  obtain ⟨read, readable, left⟩ := (retry_budget once).1 _ rfl
  have budget := retry_budget twice
  exact ⟨_, read, _, once, readable, left, twice, budget.2.2.1.mpr (.inr rfl), budget.2.1⟩

end QueueSystem

end JobQ
