import JobQ.Proof.Delivery.Settlement

/-!
# What a delivery asks of the broker

Every text a delivery sends is that of its task, with another retry count or an error at most, and
it asks to remove its message only once the callback has returned or a copy has been made.
-/

namespace JobQ

def Request.content? : Request → Option String
  | .updateMessage _ content | .sendDeadLetter content => some content
  | _ => none

namespace Delivery

variable {cfg : Config} {task : Task} {log new : List Event} {s t : State}

theorem Ends.asked {result : Result} (ends : Ends cfg log s result) :
    requests log = [] ∨ ∃ settlement request, Underway cfg log s settlement request := by
  induction ends with
  | interrupted untouched => exact .inl untouched.2
  | callback untouched => exact .inl untouched.2
  | declined untouched => exact .inl untouched.2
  | skipped _ _ _ _ silent => exact .inl silent
  | aborted underway => exact .inr ⟨_, _, underway⟩
  | settled underway => exact .inr ⟨_, _, underway⟩
  | late _ _ ih => exact ih

theorem Account.asked (account : Account cfg log s) :
    requests log = [] ∨ ∃ settlement request, Underway cfg log s settlement request := by
  unfold Account at account
  split at account
  · exact .inl account.1.2
  · exact .inr ⟨_, _, account⟩
  · exact account.asked
  · exact account.asked
  · exact .inl account.2

/-- Where a request comes from: it is the first of its settlement, or removes a message of which a
copy was made. -/
theorem Underway.origin {settlement : Settlement} {last request : Request}
    (underway : Underway cfg log s settlement last) (member : request ∈ requests log) :
    (∃ popReceipt, firstRequest cfg.backend s.task popReceipt settlement = some request) ∨
    ∃ content popReceipt, .answered (.sendDeadLetter content) true ∈ log ∧
      request = .deleteMessage popReceipt := by
  cases underway.asked with
  | first first sent =>
      rw [sent, List.mem_singleton] at member
      exact .inl ⟨_, member ▸ first⟩
  | second _ first answered sent =>
      rw [sent, List.mem_cons, List.mem_singleton] at member
      rcases member with rfl | rfl
      · exact .inl ⟨_, first⟩
      · exact .inr ⟨_, _, answered, rfl⟩

theorem firstRequest_content {backend : Backend} {after : After} {settlement : Settlement}
    {popReceipt : Receipt} {request : Request} {content : String}
    (settles : decision cfg task after = .settle settlement)
    (first : firstRequest backend task popReceipt settlement = some request)
    (writes : request.content? = some content) :
    ∃ retries error, content = Task.serialize { task with retries, error } := by
  have decided := decision_cases cfg task after
  rw [settles] at decided
  cases decided with
  | requeues =>
      cases backend <;> cases first <;> cases writes
      exact ⟨task.retries, task.error, rfl⟩
  | completes => cases backend <;> cases first <;> cases writes
  | givesUp =>
      cases backend <;> cases first <;> cases writes
      exact ⟨task.retries, _, rfl⟩
  | retries =>
      cases backend <;> cases first
      cases writes
      exact ⟨_, task.error, rfl⟩

theorem Accounted.written (accounted : Accounted cfg task log s) {request : Request}
    {content : String} (member : request ∈ requests log)
    (writes : request.content? = some content) :
    ∃ retries error,
      content = Task.serialize { prepared cfg task with retries, error } := by
  rcases accounted.account.asked with none | ⟨settlement, last, underway⟩
  · simp [none] at member
  obtain ⟨after, -, settles⟩ := underway.decided
  rw [← accounted.task]
  rcases underway.origin member with ⟨popReceipt, first⟩ | ⟨copy, popReceipt, -, rfl⟩
  · exact firstRequest_content settles first writes
  · cases writes

theorem Accounted.removal (accounted : Accounted cfg task log s) {popReceipt : Receipt}
    (member : .deleteMessage popReceipt ∈ requests log) :
    (∃ ret, .callbackEnded (.returned ret) ∈ log) ∨
      ∃ content, .answered (.sendDeadLetter content) true ∈ log := by
  rcases accounted.account.asked with none | ⟨settlement, last, underway⟩
  · simp [none] at member
  rcases underway.origin member with ⟨receipt, first⟩ | ⟨content, receipt, answered, -⟩
  · obtain ⟨after, decided, settles⟩ := underway.decided
    left
    have deciding := decision_cases cfg s.task after
    rw [settles] at deciding
    cases deciding with
    | requeues => cases backend : cfg.backend <;> rw [backend] at first <;> cases first
    | completes =>
        cases decided with
        | returned ended => exact ⟨_, ended⟩
    | givesUp => cases backend : cfg.backend <;> rw [backend] at first <;> cases first
    | retries => cases backend : cfg.backend <;> rw [backend] at first <;> cases first
  · exact .inr ⟨content, answered⟩

theorem answered_success {a : Action} {request : Request}
    (action : step cfg s a = some (t, new)) (member : .answered request true ∈ new) :
    a = .answer (.ok ()) ∧ ∃ settlement, s.pc = .settling settlement request := by
  generalize same : (t, new) = next at action
  have silent {s : State} {next : Step} (kept : Keeps s next) : .answered request true ∉ next.2 :=
    fun member => by cases kept.settles _ member
  cases step_cases action with
  | renewal => cases same; simp at member
  | callbackEnds => cases same; simp at member
  | lockTaskRuns => cases same; simp at member
  | throws => cases same; simp at member
  | absorbs => cases same; simp at member
  | aborts => cases same; simp at member
  | resumes resumed => cases same; exact absurd member (silent resumed.keeps)
  | @answers settlement awaited answer next pc _ answered =>
      cases same
      rcases List.mem_cons.mp member with first | later
      · cases answer with
        | ok _ =>
            cases first
            exact ⟨rfl, settlement, pc⟩
        | error text => cases first
      · exact absurd later (silent answered.keeps)

theorem start_unanswered (cfg : Config) (task : Task) (popReceipt : Receipt) (call : CallResult)
    (request : Request) (success : Bool) :
    .answered request success ∉ (start cfg task popReceipt call).2 := by
  have started := start_cases cfg task popReceipt call
  generalize start cfg task popReceipt call = first at started
  have silent {s : State} {next : Step} (kept : Keeps s next) :
      .answered request success ∉ next.2 := fun member => by cases kept.settles _ member
  cases started with
  | waits => simp
  | called _ resumed => simpa using silent resumed.keeps
  | unreadable => exact silent (cancelHeartbeat_keeps _ _ _)

end Delivery

end JobQ
