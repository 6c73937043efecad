import JobQ.Proof.Delivery.Steps
import JobQ.Proof.Renewal

/-!
# What a delivery settles, and why

In every state of every run the log accounts for the position of the coroutine: nothing is settled
before the heartbeat is cancelled, at most one settlement is begun, it is the one that the end of
the callback calls for, and its requests follow each other in order.
-/

namespace JobQ

def Event.settlement? : Event → Option Settlement
  | .settlement s => some s
  | _ => none

namespace Delivery

def settlements (log : List Event) : List Settlement := log.filterMap Event.settlement?

def Untouched (log : List Event) : Prop := settlements log = [] ∧ requests log = []

inductive Decided (cfg : Config) (log : List Event) (lockLost : Bool) : After → Prop
  | canceled (ended : .callbackEnded (.raised .workerCanceled) ∈ log) : Decided cfg log lockLost .requeue
  | raised {exc : Exc} {lost : Bool} (ended : .callbackEnded (.raised exc) ∈ log)
      (ordinary : exc.isOrdinary = true) (sampled : lost = true → lockLost = true) :
      Decided cfg log lockLost (.failed exc lost)
  | returned {ret : JsonText.Json} {lost : Bool} (ended : .callbackEnded (.returned ret) ∈ log)
      (sampled : lost = true → lockLost = true) : Decided cfg log lockLost (.succeeded ret lost)
  | unbound {ret : JsonText.Json} {lost running : Bool} (ended : .callbackEnded (.returned ret) ∈ log)
      (cancelled : .cancelled running ∈ log) (sampled : lost = true → lockLost = true) :
      Decided cfg log lockLost (.failed (.unboundLocalError "done") lost)
  | unreadable {text : String} (parameters : cfg.parameters = .error text) :
      Decided cfg log lockLost (.failed (.other text) false)
  | lost (noticed : lockLost = true) : Decided cfg log lockLost (.succeeded .null true)

inductive Asked (cfg : Config) (task : Task) (log : List Event) (settlement : Settlement) :
    Request → Prop
  | first {request : Request} {popReceipt : Receipt}
      (first : firstRequest cfg.backend task popReceipt settlement = some request)
      (sent : requests log = [request]) : Asked cfg task log settlement request
  | second {popReceipt next : Receipt} {error content : String}
      (deadLetter : settlement = .deadLetter error)
      (first : firstRequest cfg.backend task popReceipt settlement = some (.sendDeadLetter content))
      (answered : .answered (.sendDeadLetter content) true ∈ log)
      (sent : requests log = [.sendDeadLetter content, .deleteMessage next]) :
      Asked cfg task log settlement (.deleteMessage next)

structure Underway (cfg : Config) (log : List Event) (s : State) (settlement : Settlement)
    (request : Request) : Prop where
  decided : ∃ after, Decided cfg log s.renewal.lockLost after ∧
    decision cfg s.task after = .settle settlement
  single : settlements log = [settlement]
  asked : Asked cfg s.task log settlement request

inductive Ends (cfg : Config) (log : List Event) (s : State) : Result → Prop
  | interrupted {running : Bool} (untouched : Untouched log) (cancelled : .cancelled running ∈ log) :
      Ends cfg log s (.raised .cancelledError)
  | callback (untouched : Untouched log) (ended : .callbackEnded (.raised .cancelledError) ∈ log) :
      Ends cfg log s (.raised .cancelledError)
  | declined {after : After} {result : Result} (untouched : Untouched log)
      (decided : Decided cfg log s.renewal.lockLost after)
      (declined : decision cfg s.task after = .leave result) : Ends cfg log s result
  | skipped {after : After} {settlement : Settlement} {popReceipt : Receipt}
      (decided : Decided cfg log s.renewal.lockLost after)
      (settles : decision cfg s.task after = .settle settlement)
      (first : firstRequest cfg.backend s.task popReceipt settlement = none)
      (single : settlements log = [settlement]) (silent : requests log = []) :
      Ends cfg log s (.returned false)
  | aborted {settlement : Settlement} {request : Request} {running : Bool}
      (underway : Underway cfg log s settlement request) (cancelled : .cancelled running ∈ log) :
      Ends cfg log s (.raised .cancelledError)
  | settled {settlement : Settlement} {request : Request} {answer : Except String Unit}
      {result : Result} (underway : Underway cfg log s settlement request)
      (answered : .answered request (isOk answer) ∈ log)
      (verdict : Verdict settlement request answer result) : Ends cfg log s result
  | late {result : Result} {running : Bool} (ends : Ends cfg log s result)
      (cancelled : .cancelled running ∈ log) : Ends cfg log s (.raised .cancelledError)

def Account (cfg : Config) (log : List Event) (s : State) : Prop :=
  match s.pc with
  | .cancelHeartbeat after => Untouched log ∧ Decided cfg log s.renewal.lockLost after
  | .settling settlement request => Underway cfg log s settlement request
  | .exiting result | .finished result => Ends cfg log s result
  | _ => Untouched log

structure Witnessed (log : List Event) (s : State) : Prop where
  callback : ∀ outcome, s.callback = .ended outcome → .callbackEnded outcome ∈ log
  interrupted : Cancelling s → ∃ running, .cancelled running ∈ log
  noticed : s.lockTaskDone = true ∨ s.pc = .lostAwaitCallback → s.renewal.lockLost = true

variable {cfg : Config} {log new : List Event} {s t : State}

theorem settlements_append : settlements (log ++ new) = settlements log ++ settlements new := by
  simp [settlements]

theorem requests_append : requests (log ++ new) = requests log ++ requests new := by
  simp [requests]

theorem Untouched.append (untouched : Untouched log) (plain : Untouched new) :
    Untouched (log ++ new) := by
  rw [Untouched, settlements_append, requests_append, untouched.1, untouched.2, plain.1, plain.2]
  exact ⟨rfl, rfl⟩

theorem untouched_renewals (events : List RenewalEvent) : Untouched (events.map .renewal) := by
  induction events with
  | nil => exact ⟨rfl, rfl⟩
  | cons e events ih => exact ih

/-! ## A longer log still accounts for what it did -/

theorem Decided.extend {lockLost later : Bool} {after : After}
    (decided : Decided cfg log lockLost after) (kept : lockLost = true → later = true) :
    Decided cfg (log ++ new) later after := by
  have member {e : Event} : e ∈ log → e ∈ log ++ new := List.mem_append_left new
  cases decided with
  | canceled ended => exact .canceled (member ended)
  | raised ended ordinary sampled => exact .raised (member ended) ordinary (kept ∘ sampled)
  | returned ended sampled => exact .returned (member ended) (kept ∘ sampled)
  | unbound ended cancelled sampled => exact .unbound (member ended) (member cancelled) (kept ∘ sampled)
  | unreadable parameters => exact .unreadable parameters
  | lost noticed => exact .lost (kept noticed)

theorem Asked.extend {task : Task} {settlement : Settlement} {request : Request}
    (asked : Asked cfg task log settlement request) (plain : Untouched new) :
    Asked cfg task (log ++ new) settlement request := by
  cases asked with
  | first first sent => exact .first first (by rw [requests_append, sent, plain.2]; rfl)
  | second deadLetter first answered sent =>
      exact .second deadLetter first (List.mem_append_left _ answered)
        (by rw [requests_append, sent, plain.2]; rfl)

theorem Underway.extend {settlement : Settlement} {request : Request}
    (underway : Underway cfg log s settlement request) (plain : Untouched new)
    (task : t.task = s.task) (kept : s.renewal.lockLost = true → t.renewal.lockLost = true) :
    Underway cfg (log ++ new) t settlement request := by
  obtain ⟨after, decided, settles⟩ := underway.decided
  refine ⟨⟨after, decided.extend kept, by rw [task]; exact settles⟩, ?_, ?_⟩
  · rw [settlements_append, underway.single, plain.1]
    rfl
  · rw [task]
    exact underway.asked.extend plain

theorem Ends.extend {result : Result} (ends : Ends cfg log s result) (plain : Untouched new)
    (task : t.task = s.task) (kept : s.renewal.lockLost = true → t.renewal.lockLost = true) :
    Ends cfg (log ++ new) t result := by
  have member {e : Event} : e ∈ log → e ∈ log ++ new := List.mem_append_left new
  induction ends with
  | interrupted untouched cancelled => exact .interrupted (untouched.append plain) (member cancelled)
  | callback untouched ended => exact .callback (untouched.append plain) (member ended)
  | declined untouched decided declined =>
      exact .declined (untouched.append plain) (decided.extend kept) (by rw [task]; exact declined)
  | skipped decided settles first single silent =>
      apply Ends.skipped (decided.extend kept)
      · rw [task]
        exact settles
      · rw [task]
        exact first
      · rw [settlements_append, single, plain.1]
        rfl
      · rw [requests_append, silent, plain.2]
        rfl
  | aborted underway cancelled =>
      exact .aborted (underway.extend plain task kept) (member cancelled)
  | settled underway answered verdict =>
      exact .settled (underway.extend plain task kept) (member answered) verdict
  | late _ cancelled ih => exact .late ih (member cancelled)

theorem Account.extend (account : Account cfg log s) (plain : Untouched new) (pc : t.pc = s.pc)
    (task : t.task = s.task) (kept : s.renewal.lockLost = true → t.renewal.lockLost = true) :
    Account cfg (log ++ new) t := by
  unfold Account at account ⊢
  rw [pc]
  split at account
  · exact ⟨account.1.append plain, account.2.extend kept⟩
  · exact account.extend plain task kept
  · exact account.extend plain task kept
  · exact account.extend plain task kept
  · exact account.append plain

/-! ## Every step keeps the account -/

theorem Leaves.account {result : Result} (left : Leaves s result t) (ends : Ends cfg log s result) :
    Account cfg log t := by
  obtain ⟨pc, stop, leaving, rfl⟩ := left
  have moved : Ends cfg (log ++ []) { s with pc := pc, renewal := { s.renewal with stop := stop } }
      result := ends.extend ⟨rfl, rfl⟩ rfl id
  rw [List.append_nil] at moved
  rcases leaving with ⟨rfl, -⟩ | rfl <;> exact moved

theorem Proceeds.account {after : After} {next : Step} (proceeded : Proceeds cfg s after next)
    (untouched : Untouched log) (decided : Decided cfg log s.renewal.lockLost after) :
    Account cfg (log ++ next.2) next.1 := by
  have grown {e : List Event} : Decided cfg (log ++ e) s.renewal.lockLost after := decided.extend id
  cases proceeded with
  | settles settles first =>
      refine ⟨⟨after, grown, settles⟩, ?_, .first first ?_⟩
      · rw [settlements_append, untouched.1]
        rfl
      · rw [requests_append, untouched.2]
        rfl
  | skips settles first left =>
      apply left.account
      apply Ends.skipped grown settles first
      · rw [settlements_append, untouched.1]
        rfl
      · rw [requests_append, untouched.2]
        rfl
  | leaves declined left =>
      rw [List.append_nil]
      exact left.account (.declined untouched decided declined)

theorem cancelHeartbeat_account {after : After} (untouched : Untouched log)
    (decided : Decided cfg log s.renewal.lockLost after) :
    Account cfg (log ++ (cancelHeartbeat cfg s after).2) (cancelHeartbeat cfg s after).1 := by
  rcases cancelHeartbeat_cases cfg s after with ⟨-, proceeded⟩ | ⟨-, eq⟩
  · exact proceeded.account untouched decided
  · rw [eq, List.append_nil]
    exact ⟨untouched, decided⟩

theorem Account.untouched (account : Account cfg log s) (deciding : s.pc.isDeciding = true) :
    Untouched log := by
  unfold Account at account
  split at account
  all_goals first
    | exact account
    | rename_i pc; simp [pc, Pc.isDeciding] at deciding

theorem Account.of_untouched (deciding : s.pc.isDeciding = true) (untouched : Untouched log) :
    Account cfg log s := by
  unfold Account
  split
  all_goals first
    | exact untouched
    | rename_i pc; simp [pc, Pc.isDeciding] at deciding

theorem Concludes.decided {after : After} (conclusion : Concludes s after)
    (witnessed : Witnessed log s) : Decided cfg log s.renewal.lockLost after := by
  cases conclusion with
  | canceled ended => exact .canceled (witnessed.callback _ ended)
  | raised ended ordinary => exact .raised (witnessed.callback _ ended) ordinary id
  | returned ended => exact .returned (witnessed.callback _ ended) id
  | unbound ended cancelling =>
      obtain ⟨running, cancelled⟩ := witnessed.interrupted cancelling
      exact .unbound (witnessed.callback _ ended) cancelled id
  | lost noticed => exact .lost (witnessed.noticed noticed)

theorem LetsOut.ends (out : LetsOut s) (account : Account cfg log s)
    (witnessed : Witnessed log s) : Ends cfg log s (.raised .cancelledError) := by
  cases out with
  | callback deciding ended =>
      exact .callback (account.untouched deciding) (witnessed.callback _ ended)
  | interrupted due staying =>
      obtain ⟨running, cancelled⟩ := witnessed.interrupted (.inr (.inr due))
      unfold Account at account
      split at account
      · exact .interrupted account.1 cancelled
      · exact .aborted account cancelled
      · exact absurd ‹_› (staying _).1
      · exact absurd ‹_› (staying _).2
      · exact .interrupted account cancelled

theorem Ends.moved {result : Result} (ends : Ends cfg log s result) (task : t.task = s.task)
    (lost : t.renewal.lockLost = s.renewal.lockLost) : Ends cfg log t result := by
  have moved : Ends cfg (log ++ []) t result := ends.extend ⟨rfl, rfl⟩ task (by simp [lost])
  rwa [List.append_nil] at moved

theorem Resumes.account {next : Step} (resumed : Resumes cfg s next) (account : Account cfg log s)
    (witnessed : Witnessed log s) : Account cfg (log ++ next.2) next.1 := by
  cases resumed with
  | awaits before after =>
      rw [List.append_nil]
      exact .of_untouched after (account.untouched before)
  | concludes deciding conclusion =>
      exact cancelHeartbeat_account (account.untouched deciding) (conclusion.decided witnessed)
  | letsOut out =>
      obtain ⟨t, left, eq⟩ := leave_eq cfg { s with interrupted := false } (.raised .cancelledError)
      rw [eq, List.append_nil]
      exact left.account ((out.ends account witnessed).moved rfl rfl)
  | proceeds pc calm ceased =>
      rw [Account, pc] at account
      exact (proceed_cases _ _ _).account account.1 account.2
  | exits pc =>
      rw [Account, pc] at account
      rw [List.append_nil]
      exact account.moved rfl rfl
  | exitInterrupted pc due =>
      rw [Account, pc] at account
      rw [List.append_nil]
      obtain ⟨running, cancelled⟩ := witnessed.interrupted (.inr (.inr due))
      exact .late (account.moved rfl rfl) cancelled

theorem Answers.account {settlement : Settlement} {request : Request}
    {answer : Except String Unit} {next : Step} (answered : Answers s settlement request answer next)
    (underway : Underway cfg log s settlement request) :
    Account cfg (log ++ .answered request (isOk answer) :: next.2) next.1 := by
  cases answered with
  | continues deadLetter sent ok =>
      subst deadLetter sent ok
      obtain ⟨after, decided, settles⟩ := underway.decided
      refine ⟨⟨after, decided.extend id, settles⟩, ?_, ?_⟩
      · rw [settlements_append, underway.single]
        rfl
      · cases underway.asked with
        | first first sent =>
            apply Asked.second rfl first (by simp [isOk])
            rw [requests_append, sent]
            rfl
  | leaves verdict left =>
      apply left.account
      exact .settled (underway.extend ⟨rfl, rfl⟩ rfl id) (by simp) verdict

theorem Steps.account {a : Action} {next : Step} (stepped : Steps cfg s a next)
    (account : Account cfg log s) (witnessed : Witnessed log s) :
    Account cfg (log ++ next.2) next.1 := by
  cases stepped with
  | renewal action =>
      exact account.extend (untouched_renewals _) rfl rfl (Renewal.step_lockLost action)
  | callbackEnds => exact account.extend ⟨rfl, rfl⟩ rfl rfl id
  | lockTaskRuns => exact account.extend ⟨rfl, rfl⟩ rfl rfl id
  | throws => exact account.extend ⟨rfl, rfl⟩ rfl rfl id
  | absorbs => exact account.extend ⟨rfl, rfl⟩ rfl rfl id
  | aborts => exact account.extend (untouched_renewals _) rfl rfl (by simp)
  | resumes resumed => exact resumed.account account witnessed
  | answers pc _ answered =>
      rw [Account, pc] at account
      exact answered.account account

/-! ## Every step keeps what the log witnesses -/

theorem Witnessed.extend (witnessed : Witnessed log s)
    (callback : ∀ outcome, t.callback = .ended outcome →
      s.callback = .ended outcome ∨ .callbackEnded outcome ∈ new)
    (interrupted : Cancelling t → Cancelling s ∨ ∃ running, .cancelled running ∈ new)
    (noticed : t.lockTaskDone = true ∨ t.pc = .lostAwaitCallback →
      s.lockTaskDone = true ∨ s.pc = .lostAwaitCallback ∨ t.renewal.lockLost = true)
    (kept : s.renewal.lockLost = true → t.renewal.lockLost = true) :
    Witnessed (log ++ new) t := by
  refine ⟨fun outcome ended => ?_, fun cancelling => ?_, fun notices => ?_⟩
  · rcases callback outcome ended with old | member
    · exact List.mem_append_left _ (witnessed.callback outcome old)
    · exact List.mem_append_right _ member
  · rcases interrupted cancelling with old | ⟨running, member⟩
    · obtain ⟨running, member⟩ := witnessed.interrupted old
      exact ⟨running, List.mem_append_left _ member⟩
    · exact ⟨running, List.mem_append_right _ member⟩
  · rcases noticed notices with old | old | lost
    · exact kept (witnessed.noticed (.inl old))
    · exact kept (witnessed.noticed (.inr old))
    · exact lost

theorem Witnessed.past (witnessed : Witnessed log s) (callback : t.callback = s.callback)
    (interrupted : t.interrupted = true → s.interrupted = true)
    (lockTaskDone : t.lockTaskDone = s.lockTaskDone) (pc : t.pc.isDeciding = false)
    (kept : t.renewal.lockLost = s.renewal.lockLost) : Witnessed (log ++ new) t := by
  apply witnessed.extend
  · intro outcome ended
    exact .inl (callback ▸ ended)
  · rintro (waits | waits | due)
    · simp [waits, Pc.isDeciding] at pc
    · simp [waits, Pc.isDeciding] at pc
    · exact .inl (.inr (.inr (interrupted due)))
  · rintro (done | waits)
    · exact .inl (lockTaskDone ▸ done)
    · simp [waits, Pc.isDeciding] at pc
  · exact fun lost => kept ▸ lost

theorem Witnessed.left {result : Result} (witnessed : Witnessed log s) (left : Leaves s result t) :
    Witnessed (log ++ new) t := by
  obtain ⟨pc, stop, leaving, rfl⟩ := left
  refine witnessed.past rfl id rfl ?_ rfl
  rcases leaving with ⟨rfl, -⟩ | rfl <;> rfl

theorem Witnessed.proceeds {after : After} {next : Step} (witnessed : Witnessed log s)
    (proceeded : Proceeds cfg s after next) : Witnessed (log ++ next.2) next.1 := by
  cases proceeded with
  | settles => exact witnessed.past rfl id rfl rfl rfl
  | skips _ _ left => exact witnessed.left left
  | leaves _ left => exact witnessed.left left

theorem Witnessed.cancelHeartbeat (witnessed : Witnessed log s) (after : After) :
    Witnessed (log ++ (cancelHeartbeat cfg s after).2) (cancelHeartbeat cfg s after).1 := by
  rcases cancelHeartbeat_cases cfg s after with ⟨-, proceeded⟩ | ⟨-, eq⟩
  · have stopped : Witnessed (log ++ []) { s with renewal := { s.renewal with stop := true } } :=
      witnessed.extend (fun _ => .inl) .inl (fun noticed => noticed.imp id .inl) id
    rw [List.append_nil] at stopped
    exact stopped.proceeds proceeded
  · rw [eq]
    exact witnessed.past rfl id rfl rfl rfl

theorem Witnessed.calm (witnessed : Witnessed log s) :
    Witnessed log { s with interrupted := false } := by
  have calm : Witnessed (log ++ []) { s with interrupted := false } := by
    refine witnessed.extend (fun _ => .inl) ?_ (fun noticed => noticed.imp id .inl) id
    rintro (waits | waits | due)
    · exact .inl (.inl waits)
    · exact .inl (.inr (.inl waits))
    · cases due
  rwa [List.append_nil] at calm

theorem Witnessed.resumes {next : Step} (witnessed : Witnessed log s)
    (resumed : Resumes cfg s next) : Witnessed (log ++ next.2) next.1 := by
  cases resumed with
  | awaits _ _ cancelling noticed =>
      refine witnessed.extend (fun _ => .inl) ?_ ?_ id
      · rintro (waits | waits | due)
        · exact .inl (cancelling (.inl waits))
        · exact .inl (cancelling (.inr waits))
        · cases due
      · rintro (done | waits)
        · exact .inl done
        · exact .inl (noticed waits)
  | concludes => exact witnessed.calm.cancelHeartbeat _
  | letsOut =>
      obtain ⟨t, left, eq⟩ := leave_eq cfg { s with interrupted := false } (.raised .cancelledError)
      rw [eq]
      exact witnessed.calm.left left
  | proceeds => exact witnessed.proceeds (proceed_cases _ _ _)
  | exits => exact witnessed.past rfl (by simp) rfl rfl rfl
  | exitInterrupted => exact witnessed.past rfl (by simp) rfl rfl rfl

theorem Witnessed.steps {a : Action} {next : Step} (witnessed : Witnessed log s)
    (stepped : Steps cfg s a next) : Witnessed (log ++ next.2) next.1 := by
  cases stepped with
  | renewal action =>
      exact witnessed.extend (fun _ => .inl) .inl (fun noticed => noticed.imp id .inl)
        (Renewal.step_lockLost action)
  | callbackEnds running =>
      refine witnessed.extend ?_ .inl (fun noticed => noticed.imp id .inl) id
      rintro outcome ⟨⟩
      exact .inr (by simp)
  | lockTaskRuns pc lost =>
      exact witnessed.extend (fun _ => .inl) .inl (fun _ => .inr (.inr lost)) id
  | throws =>
      exact witnessed.extend (fun _ => .inl) (fun _ => .inr ⟨isRunning s, by simp⟩)
        (fun noticed => noticed.imp id .inl) id
  | absorbs =>
      exact witnessed.extend (fun _ => .inl) .inl (fun noticed => noticed.imp id .inl) id
  | aborts =>
      exact witnessed.extend (fun _ => .inl) .inl (fun noticed => noticed.imp id .inl) (by simp)
  | resumes resumed => exact witnessed.resumes resumed
  | answers pc _ answered =>
      cases answered with
      | continues => exact witnessed.past rfl id rfl rfl rfl
      | leaves _ left => exact witnessed.left left

/-! ## Runs -/

theorem Keeps.silent {next : Step} (kept : Keeps s next) (outcome : Outcome) :
    .callbackEnded outcome ∉ next.2 := by
  intro member
  cases kept.settles _ member

theorem Steps.keeps {a : Action} {next : Step} (stepped : Steps cfg s a next) :
    (next.1.task = s.task ∧ next.1.callback = s.callback ∧
      ∀ outcome, .callbackEnded outcome ∉ next.2) ∨
    ∃ outcome, s.callback = .running ∧
      next = ({ s with callback := .ended outcome }, [.callbackEnded outcome]) := by
  cases stepped with
  | renewal => exact .inl ⟨rfl, rfl, by simp⟩
  | callbackEnds running => exact .inr ⟨_, running, rfl⟩
  | lockTaskRuns => exact .inl ⟨rfl, rfl, by simp⟩
  | throws => exact .inl ⟨rfl, rfl, by simp⟩
  | absorbs => exact .inl ⟨rfl, rfl, by simp⟩
  | aborts => exact .inl ⟨rfl, rfl, by simp⟩
  | resumes resumed => exact .inl ⟨resumed.keeps.task, resumed.keeps.callback, resumed.keeps.silent⟩
  | answers _ _ answered =>
      exact .inl ⟨answered.keeps.task, answered.keeps.callback, by simpa using answered.keeps.silent⟩

/-- Everything the log accounts for in a state of a delivery of `task`. -/
structure Accounted (cfg : Config) (task : Task) (log : List Event) (s : State) : Prop where
  account : Account cfg log s
  witnessed : Witnessed log s
  task : s.task = prepared cfg task
  heard : ∀ outcome, .callbackEnded outcome ∈ log → s.callback = .ended outcome
  uncalled : ∀ text, cfg.parameters = .error text → s.callback = .absent

theorem heard_append (callback : t.callback = s.callback)
    (silent : ∀ outcome, .callbackEnded outcome ∉ new)
    (heard : ∀ outcome, .callbackEnded outcome ∈ log → s.callback = .ended outcome)
    (outcome : Outcome) (member : .callbackEnded outcome ∈ log ++ new) :
    t.callback = .ended outcome := by
  rcases List.mem_append.mp member with old | new
  · rw [callback]
    exact heard outcome old
  · exact absurd new (silent outcome)

theorem Accounted.step {task : Task} {a : Action} (accounted : Accounted cfg task log s)
    (action : step cfg s a = some (t, new)) : Accounted cfg task (log ++ new) t := by
  have stepped := step_cases action
  have account := stepped.account accounted.account accounted.witnessed
  have witnessed := accounted.witnessed.steps stepped
  rcases stepped.keeps with ⟨task, callback, silent⟩ | ⟨outcome, running, eq⟩
  · exact ⟨account, witnessed, task.trans accounted.task,
      heard_append callback silent accounted.heard,
      fun text parameters => callback.trans (accounted.uncalled text parameters)⟩
  · refine ⟨account, witnessed, ?_, ?_, ?_⟩
    · cases eq
      exact accounted.task
    · cases eq
      intro other member
      rcases List.mem_append.mp member with old | new
      · simp [accounted.heard other old] at running
      · cases List.mem_singleton.mp new
        rfl
    · intro text parameters
      simp [accounted.uncalled text parameters] at running

theorem received_witnessed (cfg : Config) (task : Task) (popReceipt : Receipt) :
    Witnessed [] (received cfg task popReceipt) := by
  refine ⟨nofun, ?_, ?_⟩
  · rintro (waits | waits | due)
    · cases waits
    · cases waits
    · cases due
  · rintro (done | waits)
    · cases done
    · cases waits

theorem Accounted.start (cfg : Config) (task : Task) (popReceipt : Receipt) (call : CallResult) :
    Accounted cfg task (start cfg task popReceipt call).2 (start cfg task popReceipt call).1 := by
  have initial := received_witnessed cfg (prepared cfg task) popReceipt
  have started := start_cases cfg task popReceipt call
  generalize Delivery.start cfg task popReceipt call = first at started
  cases started with
  | waits readable =>
      refine ⟨⟨rfl, rfl⟩, ?_, rfl, by simp, by simp [readable]⟩
      have waiting : Witnessed ([] ++ [])
          { received cfg (prepared cfg task) popReceipt with callback := .running } :=
        initial.extend nofun .inl (fun noticed => noticed.imp id .inl) id
      exact waiting
  | called readable resumed =>
      rename_i outcome _ next
      have ended : Witnessed ([] ++ [.callbackEnded outcome])
          { received cfg (prepared cfg task) popReceipt with callback := .ended outcome } := by
        refine initial.extend ?_ .inl (fun noticed => noticed.imp id .inl) id
        rintro _ ⟨⟩
        exact .inr (by simp)
      have account : Account cfg [.callbackEnded outcome]
          { received cfg (prepared cfg task) popReceipt with callback := .ended outcome } := ⟨rfl, rfl⟩
      refine ⟨resumed.account account ended, ended.resumes resumed, resumed.keeps.task, ?_,
        by simp [readable]⟩
      have heard : ∀ other, .callbackEnded other ∈ [Event.callbackEnded outcome] →
          CallbackTask.ended outcome = .ended other := by
        intro other member
        cases List.mem_singleton.mp member
        rfl
      exact heard_append resumed.keeps.callback resumed.keeps.silent heard
  | unreadable parameters =>
      have untouched : Untouched [] := ⟨rfl, rfl⟩
      have kept := cancelHeartbeat_keeps cfg (received cfg (prepared cfg task) popReceipt)
      exact ⟨cancelHeartbeat_account untouched (.unreadable parameters), initial.cancelHeartbeat _,
        (kept _).task, fun outcome member => absurd member ((kept _).silent outcome),
        fun _ _ => (kept _).callback⟩

theorem run_accounted {G : State → Action → Prop} {task : Task} {popReceipt : Receipt}
    {call : CallResult} (run : Mealy.Run (machine cfg) G (start cfg task popReceipt call) log s) :
    Accounted cfg task log s :=
  run.invariant (.start cfg task popReceipt call) fun _ _ _ _ _ accounted _ action =>
    accounted.step action

theorem Accounted.same_outcome {task : Task} {outcome other : Outcome}
    (accounted : Accounted cfg task log s) (ended : .callbackEnded outcome ∈ log)
    (member : .callbackEnded other ∈ log) : outcome = other := by
  have heard := accounted.heard other member
  rw [accounted.heard outcome ended] at heard
  injection heard

theorem Accounted.failed_ordinary {task : Task} {outcome : Outcome} {lockLost lost : Bool} {exc : Exc}
    (accounted : Accounted cfg task log s) (ended : .callbackEnded outcome ∈ log)
    (decided : Decided cfg log lockLost (.failed exc lost)) : outcome.isOrdinary = true := by
  cases decided with
  | raised member ordinary =>
      cases accounted.same_outcome ended member
      exact ordinary
  | unbound member =>
      cases accounted.same_outcome ended member
      rfl
  | unreadable parameters =>
      have heard := accounted.heard outcome ended
      simp [accounted.uncalled _ parameters] at heard

/-! ## What the account says of the settlements -/

theorem Account.settled (account : Account cfg log s) :
    settlements log = [] ∨ ∃ after settlement, Decided cfg log s.renewal.lockLost after ∧
      decision cfg s.task after = .settle settlement ∧ settlements log = [settlement] := by
  have underway {settlement : Settlement} {request : Request}
      (underway : Underway cfg log s settlement request) : ∃ after settlement,
      Decided cfg log s.renewal.lockLost after ∧ decision cfg s.task after = .settle settlement ∧
        settlements log = [settlement] := by
    obtain ⟨after, decided, settles⟩ := underway.decided
    exact ⟨after, settlement, decided, settles, underway.single⟩
  have ends {result : Result} (ends : Ends cfg log s result) : settlements log = [] ∨
      ∃ after settlement, Decided cfg log s.renewal.lockLost after ∧
        decision cfg s.task after = .settle settlement ∧ settlements log = [settlement] := by
    induction ends with
    | interrupted untouched => exact .inl untouched.1
    | callback untouched => exact .inl untouched.1
    | declined untouched => exact .inl untouched.1
    | skipped decided settles _ single => exact .inr ⟨_, _, decided, settles, single⟩
    | aborted begun => exact .inr (underway begun)
    | settled begun => exact .inr (underway begun)
    | late _ _ ih => exact ih
  unfold Account at account
  split at account
  · exact .inl account.1.1
  · exact .inr (underway account)
  · exact ends account
  · exact ends account
  · exact .inl account.1

end Delivery

end JobQ
