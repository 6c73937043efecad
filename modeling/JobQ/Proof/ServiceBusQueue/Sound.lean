import JobQ.Library.Pool
import JobQ.Proof.ServiceBusQueue.Steps

/-!
# What the broker and the deliveries agree on

A message holds the text of a posted task as long as it lives, so every delivery of it starts with
the same task, and a message is removed by the requests of one delivery, which has its last lock.
-/

namespace JobQ

namespace Delivery

variable {cfg : Config} {task : Task} {log : List Event} {s : State}

theorem Accounted.completes (accounted : Accounted cfg task log s)
    (asked : .completeMessage ∈ requests log) : ∃ ret, .callbackEnded (.returned ret) ∈ log := by
  rcases accounted.account.asked with none | ⟨settlement, last, underway⟩
  · simp [none] at asked
  rcases underway.origin asked with ⟨popReceipt, first⟩ | ⟨_, _, -, same⟩
  · obtain ⟨after, decided, settles⟩ := underway.decided
    have deciding := decision_cases cfg s.task after
    rw [settles] at deciding
    cases deciding with
    | completes =>
        cases decided with
        | returned ended => exact ⟨_, ended⟩
    | _ => cases backend : cfg.backend <;> rw [backend] at first <;> cases first
  · cases same

/-- A delivery gives its task up only when no retry is left, and says why. -/
theorem Accounted.givesUp (accounted : Accounted cfg task log s) {reason : String}
    (asked : .deadletterMessage reason ∈ requests log) :
    task.numRetries ≤ 0 ∧ ∃ exc lockLost, Decided cfg log lockLost (.failed exc false) ∧
      reason = if exc.text = "" then "Failed" else exc.text := by
  rcases accounted.account.asked with none | ⟨settlement, last, underway⟩
  · simp [none] at asked
  rcases underway.origin asked with ⟨popReceipt, first⟩ | ⟨_, _, -, same⟩
  · obtain ⟨after, decided, settles⟩ := underway.decided
    have deciding := decision_cases cfg s.task after
    rw [settles] at deciding
    cases deciding with
    | @givesUp exc _ final =>
        rw [accounted.task, (prepared_fields cfg task).1] at final
        refine ⟨final, exc, _, decided, ?_⟩
        cases backend : cfg.backend <;> rw [backend] at first <;> cases first
        rfl
    | _ => cases backend : cfg.backend <;> rw [backend] at first <;> cases first
  · cases same

end Delivery

namespace ServiceBusQueue
open Delivery PeekLock
open QueueSystem (AttemptId calls settle_mem)

namespace System

variable {sys next : System} {log events : List Event} {act : Act}

/-! ## What stays -/

structure Later (a b : Attempt) : Prop where
  number : b.number = a.number
  lockToken : b.lockToken = a.lockToken
  content : b.content = a.content
  cfg : b.cfg = a.cfg
  task : b.task = a.task
  log : ∀ e ∈ a.log, e ∈ b.log

theorem Later.refl (a : Attempt) : Later a a := ⟨rfl, rfl, rfl, rfl, rfl, fun _ => id⟩

theorem Later.requests {a b : Attempt} (later : Later a b) {request : Request}
    (asked : request ∈ requests a.log) : request ∈ requests b.log := by
  obtain ⟨e, member, requested⟩ := List.mem_filterMap.mp asked
  exact List.mem_filterMap.mpr ⟨e, later.log e member, requested⟩

theorem attempts_later {attempts : List Attempt} {d i : AttemptId} {a b c : Attempt}
    (attempt : attempts[d]? = some a) (later : Later a b) (found : attempts[i]? = some c) :
    ∃ e, (attempts.set d b)[i]? = some e ∧ Later c e := by
  by_cases same : d = i
  · subst same
    rw [attempt] at found
    cases found
    exact ⟨b, by simp [(List.getElem?_eq_some_iff.mp attempt).1], later⟩
  · exact ⟨c, by rw [List.getElem?_set_ne same, found], .refl c⟩

theorem Steps.attempts (stepped : Steps sys act next events) {d : AttemptId} {a : Attempt}
    (attempt : sys.attempts[d]? = some a) : ∃ b, next.attempts[d]? = some b ∧ Later a b := by
  have same : ∃ b, sys.attempts[d]? = some b ∧ Later a b := ⟨a, attempt, .refl a⟩
  cases stepped with
  | push => exact same
  | take => exact same
  | unreadable => exact same
  | receive =>
      refine ⟨a, ?_, .refl a⟩
      rw [List.getElem?_append_left (List.getElem?_eq_some_iff.mp attempt).1, attempt]
  | advance found =>
      exact attempts_later found ⟨rfl, rfl, rfl, rfl, rfl, fun _ => List.mem_append_left _⟩ attempt
  | serve => exact same
  | own => exact same
  | crash found => exact attempts_later found ⟨rfl, rfl, rfl, rfl, rfl, fun _ => id⟩ attempt

theorem Steps.posted (stepped : Steps sys act next events) {i : Nat}
    {x : Task × ServiceBus.HttpRequest} (posted : sys.posted[i]? = some x) :
    next.posted[i]? = some x := by
  cases stepped with
  | push =>
      rw [List.getElem?_append_left (List.getElem?_eq_some_iff.mp posted).1, posted]
  | _ => exact posted

/-! ## Soundness -/

/-- A delivery whose message was accepted with its content and locked for it, whose log accounts
for its state, and which knows that its message is removed only when it is. -/
structure Grounded (log : List Event) (a : Attempt) : Prop where
  serviceBus : a.cfg.backend = .serviceBus
  accounted : Accounted a.cfg a.task a.log a.state
  read : Task.deserialize a.content = .ok a.task
  accepted : ∃ id, .accepted a.number id a.content ∈ log
  locked : .locked a.number a.lockToken ∈ log
  acknowledged : .answered .completeMessage true ∈ a.log →
    .removed a.number (.completed a.lockToken) ∈ log

/-- How a delivery brings it about that its message is removed. -/
inductive Asks (a : Attempt) : Removal → Prop
  | completes (asked : .completeMessage ∈ requests a.log) : Asks a (.completed a.lockToken)
  | givesUp {reason : String} (asked : .deadletterMessage reason ∈ requests a.log) :
      Asks a (.deadLettered a.lockToken)

structure Sound (sys : System) (log : List Event) : Prop where
  posted : ∀ {i : Nat} {x : Task × ServiceBus.HttpRequest}, sys.posted[i]? = some x →
    message x.2 = some (x.1._id, x.1.serialize)
  accepted : ∀ {n : Nat} {id content : String}, .accepted n id content ∈ log →
    ∃ (i : Nat) (x : Task × ServiceBus.HttpRequest), sys.posted[i]? = some x ∧ id = x.1._id ∧
      content = x.1.serialize
  taken : ∀ {i : Nat}, i ∈ sys.taken → ∃ (x : Task × ServiceBus.HttpRequest) (n : Nat)
    (content : String), sys.posted[i]? = some x ∧ .accepted n x.1._id content ∈ log
  attempts : ∀ {d : AttemptId} {a : Attempt}, sys.attempts[d]? = some a → Grounded log a
  performed : ∀ {d : AttemptId}, (d, .settle .completeMessage) ∈ sys.performed →
    ∃ a, sys.attempts[d]? = some a ∧ .removed a.number (.completed a.lockToken) ∈ log
  removed : ∀ {n : Nat} {how : Removal}, .removed n how ∈ log → how = .exceeded ∨
    ∃ (d : AttemptId) (a : Attempt), sys.attempts[d]? = some a ∧ a.number = n ∧ Asks a how
  tokens : ∀ {d e : AttemptId} {a b : Attempt}, sys.attempts[d]? = some a →
    sys.attempts[e]? = some b → a.lockToken = b.lockToken → d = e

theorem Grounded.extend {a : Attempt} (grounded : Grounded log a) :
    Grounded (log ++ events) a := by
  have member {e : Event} : e ∈ log → e ∈ log ++ events := List.mem_append_left events
  obtain ⟨id, accepted⟩ := grounded.accepted
  exact ⟨grounded.serviceBus, grounded.accounted, grounded.read, ⟨id, member accepted⟩,
    member grounded.locked, member ∘ grounded.acknowledged⟩

theorem Asks.later {a b : Attempt} {how : Removal} (asks : Asks a how) (later : Later a b) :
    Asks b how := by
  cases asks with
  | completes asked =>
      rw [← later.lockToken]
      exact .completes (later.requests asked)
  | givesUp asked =>
      rw [← later.lockToken]
      exact .givesUp (later.requests asked)

theorem answerable_success {d : AttemptId} {a : Attempt} {settlement : Settlement}
    {request : Request} (allowed : sys.answerable d a (.answer (.ok ())) = true)
    (pc : a.state.pc = .settling settlement request) : (d, .settle request) ∈ sys.performed := by
  simpa [answerable, pc] using allowed

theorem Grounded.advance (sound : Sound sys log) {d : AttemptId} {a : Attempt} {action : Action}
    {state : State} {events : List JobQ.Event} (attempt : sys.attempts[d]? = some a)
    (allowed : sys.answerable d a action = true)
    (stepped : Delivery.step a.cfg a.state action = some (state, events)) :
    Grounded log { a with state := state, log := a.log ++ events } := by
  have grounded := sound.attempts attempt
  refine ⟨grounded.serviceBus, grounded.accounted.step stepped, grounded.read, grounded.accepted,
    grounded.locked, fun answered => ?_⟩
  rcases List.mem_append.mp answered with old | new
  · exact grounded.acknowledged old
  · obtain ⟨rfl, settlement, pc⟩ := answered_success stepped new
    obtain ⟨b, found, removed⟩ := sound.performed (answerable_success allowed pc)
    rw [attempt] at found
    cases found
    exact removed

/-! ## Every step is sound -/

theorem Performs.cases {op : Op String String} {broker : Broker String String}
    (performs : sys.Performs op broker events) :
    PeekLock.Steps maxDeliveryCount sys.broker op broker events := PeekLock.step_cases performs

theorem Sound.accepts (sound : Sound sys log) (stepped : Steps sys act next events) {n : Nat}
    {id content : String} (accepted : .accepted n id content ∈ events) :
    ∃ (i : Nat) (x : Task × ServiceBus.HttpRequest), sys.posted[i]? = some x ∧ id = x.1._id ∧
      content = x.1.serialize := by
  cases stepped with
  | take posted reads sent =>
      cases sent.cases.accepted accepted
      have own := sound.posted posted
      rw [reads] at own
      cases own
      exact ⟨_, _, posted, rfl, rfl⟩
  | unreadable _ _ locks => cases locks.cases.accepted accepted
  | receive _ _ _ locks => cases locks.cases.accepted accepted
  | @serve _ _ call _ _ _ _ _ named performs =>
      cases performs.cases.accepted accepted
      unfold operation at named
      split at named <;> cases named
  | @own act _ _ _ own performs =>
      cases performs.cases.accepted accepted
      unfold Act.own at own
      split at own <;> cases own
  | _ => cases accepted

theorem Sound.takes (sound : Sound sys log) {G : Broker String String → Op String String → Prop}
    (run : Mealy.Run (PeekLock.machine maxDeliveryCount) G ({}, []) log sys.broker)
    (stepped : Steps sys act next events) {i : Nat} (taken : i ∈ next.taken) :
    ∃ (x : Task × ServiceBus.HttpRequest) (n : Nat) (content : String),
      next.posted[i]? = some x ∧ .accepted n x.1._id content ∈ log ++ events := by
  have old (taken : i ∈ sys.taken) : ∃ (x : Task × ServiceBus.HttpRequest) (n : Nat)
      (content : String), next.posted[i]? = some x ∧ .accepted n x.1._id content ∈ log ++ events := by
    obtain ⟨x, n, content, posted, accepted⟩ := sound.taken taken
    exact ⟨x, n, content, stepped.posted posted, List.mem_append_left _ accepted⟩
  cases stepped with
  | take posted reads sent =>
      rcases List.mem_cons.mp taken with rfl | before
      · have own := sound.posted posted
        rw [reads] at own
        cases own
        rcases sent.cases.sends with ⟨known, -⟩ | accepts
        · obtain ⟨n, content, accepted⟩ := run_known run known
          exact ⟨_, n, content, posted, List.mem_append_left _ accepted⟩
        · exact ⟨_, _, _, posted, accepts ▸ List.mem_append_right _ (List.mem_singleton.mpr rfl)⟩
      · exact old before
  | _ => exact old taken

theorem Sound.grounds (sound : Sound sys log)
    {G : Broker String String → Op String String → Prop}
    (run : Mealy.Run (PeekLock.machine maxDeliveryCount) G ({}, []) log sys.broker)
    (stepped : Steps sys act next events) {d : AttemptId} {a : Attempt}
    (attempt : next.attempts[d]? = some a) : Grounded (log ++ events) a := by
  have old {i : AttemptId} {b : Attempt} (attempt : sys.attempts[i]? = some b) :
      Grounded (log ++ events) b := (sound.attempts attempt).extend
  cases stepped with
  | @receive n cfg call stored task broker events serviceBus queued read locks =>
      rcases Pool.append_cases attempt with before | ⟨-, rfl⟩
      · exact old before
      · have accepted : ∃ id, .accepted n id stored.content ∈ log := by
          rcases (run_lives run n).origin with unborn | ⟨id, content, origin⟩
          · rw [status_queued queued] at unborn
            cases unborn
          · obtain ⟨-, same⟩ := origin.kept stored (status_queued queued)
            exact ⟨id, same ▸ origin.accepted⟩
        obtain ⟨id, accepted⟩ := accepted
        have locked : .locked n sys.broker.nextToken ∈ log ++ events := by simp [locks.cases.locking]
        exact ⟨serviceBus, .start cfg task _ call, read, ⟨id, List.mem_append_left _ accepted⟩,
          locked, fun answered => absurd answered (start_unanswered _ _ _ _ _ _)⟩
  | advance found allowed moved =>
      rcases Pool.set_cases attempt with ⟨-, rfl⟩ | ⟨-, before⟩
      · exact (Grounded.advance sound found allowed moved).extend
      · exact old before
  | crash found =>
      rcases Pool.set_cases attempt with ⟨-, rfl⟩ | ⟨-, before⟩
      · have kept := old found
        exact ⟨kept.serviceBus, kept.accounted, kept.read, kept.accepted, kept.locked,
          kept.acknowledged⟩
      · exact old before
  | _ => exact old attempt

theorem Sound.performs (sound : Sound sys log) (stepped : Steps sys act next events)
    {d : AttemptId} (performed : (d, .settle .completeMessage) ∈ next.performed) :
    ∃ a, next.attempts[d]? = some a ∧
      .removed a.number (.completed a.lockToken) ∈ log ++ events := by
  have old (performed : (d, .settle .completeMessage) ∈ sys.performed) :
      ∃ a, next.attempts[d]? = some a ∧
        .removed a.number (.completed a.lockToken) ∈ log ++ events := by
    obtain ⟨a, found, removed⟩ := sound.performed performed
    obtain ⟨b, later, same⟩ := stepped.attempts found
    exact ⟨b, later, by rw [same.number, same.lockToken]; exact List.mem_append_left _ removed⟩
  cases stepped with
  | @serve i a call op broker events attempt sent named performs =>
      rcases List.mem_append.mp performed with before | now
      · exact old before
      · cases List.mem_singleton.mp now
        cases named
        exact ⟨a, attempt, by simp [performs.cases.completing]⟩
  | _ => exact old performed

theorem Sound.removes (sound : Sound sys log) (stepped : Steps sys act next events) {n : Nat}
    {how : Removal} (removed : .removed n how ∈ log ++ events) : how = .exceeded ∨
      ∃ (d : AttemptId) (a : Attempt), next.attempts[d]? = some a ∧ a.number = n ∧ Asks a how := by
  rcases List.mem_append.mp removed with old | new
  · rcases sound.removed old with exceeded | ⟨d, a, attempt, same, asks⟩
    · exact .inl exceeded
    · obtain ⟨b, found, later⟩ := stepped.attempts attempt
      exact .inr ⟨d, b, found, later.number.trans same, asks.later later⟩
  · cases stepped with
    | take _ _ sent => simpa using sent.cases.removed new
    | unreadable _ _ locks => simpa using locks.cases.removed new
    | receive _ _ _ locks => simpa using locks.cases.removed new
    | @serve d a call op broker events attempt sent named performs =>
        refine (performs.cases.removed new).elim ?_ (Or.elim · ?_ ?_)
        · rintro ⟨token, rfl, rfl⟩
          unfold operation at named
          split at named <;> cases named
          exact .inr ⟨d, a, attempt, rfl, .completes (settle_mem.mp sent)⟩
        · rintro ⟨token, rfl, rfl⟩
          unfold operation at named
          split at named <;> cases named
          exact .inr ⟨d, a, attempt, rfl, .givesUp (settle_mem.mp sent)⟩
        · exact fun exceeded => .inl exceeded.2
    | @own act op broker events own performs =>
        rcases performs.cases.removed new with ⟨_, rfl, -⟩ | ⟨_, rfl, -⟩ | ⟨-, exceeded⟩
        · cases act <;> cases own
        · cases act <;> cases own
        · exact .inl exceeded
    | _ => cases new

theorem Sound.unique (sound : Sound sys log)
    {G : Broker String String → Op String String → Prop}
    (run : Mealy.Run (PeekLock.machine maxDeliveryCount) G ({}, []) log sys.broker)
    (stepped : Steps sys act next events) {d e : AttemptId} {a b : Attempt}
    (first : next.attempts[d]? = some a) (second : next.attempts[e]? = some b)
    (same : a.lockToken = b.lockToken) : d = e := by
  -- the two deliveries were there before, with the tokens that they have
  have kept {i : AttemptId} {c c' : Attempt} (found : sys.attempts[i]? = some c)
      {j : AttemptId} {x : Attempt} (attempt : (sys.attempts.set i c')[j]? = some x)
      (token : c'.lockToken = c.lockToken) :
      ∃ y, sys.attempts[j]? = some y ∧ y.lockToken = x.lockToken := by
    rcases Pool.set_cases attempt with ⟨rfl, rfl⟩ | ⟨-, before⟩
    · exact ⟨c, found, token.symm⟩
    · exact ⟨x, before, rfl⟩
  have moved {i : AttemptId} {c c' : Attempt} (found : sys.attempts[i]? = some c)
      (first : (sys.attempts.set i c')[d]? = some a)
      (second : (sys.attempts.set i c')[e]? = some b) (token : c'.lockToken = c.lockToken) :
      d = e := by
    obtain ⟨x, left, leftToken⟩ := kept found first token
    obtain ⟨y, right, rightToken⟩ := kept found second token
    exact sound.tokens left right (leftToken.trans (same.trans rightToken.symm))
  cases stepped with
  | receive =>
      have fresh {i : AttemptId} {c : Attempt} (found : sys.attempts[i]? = some c) :
          c.lockToken < sys.broker.nextToken := run_tokens run (sound.attempts found).locked
      rcases Pool.append_cases first with left | ⟨here, rfl⟩
      · rcases Pool.append_cases second with right | ⟨-, rfl⟩
        · exact sound.tokens left right same
        · exact absurd (fresh left) (by simp [same])
      · rcases Pool.append_cases second with right | ⟨there, -⟩
        · exact absurd (fresh right) (by simp [← same])
        · exact here.trans there.symm
  | advance found => exact moved found first second rfl
  | crash found => exact moved found first second rfl
  | _ => exact sound.tokens first second same

theorem Sound.step (sound : Sound sys log) {G : Broker String String → Op String String → Prop}
    (run : Mealy.Run (PeekLock.machine maxDeliveryCount) G ({}, []) log sys.broker)
    (stepped : Steps sys act next events) : Sound next (log ++ events) where
  posted {i x} found := by
    cases stepped with
    | push reads =>
        rw [List.getElem?_append] at found
        split at found
        · exact sound.posted found
        · obtain ⟨rfl, reads⟩ := reads x (List.mem_of_getElem? found)
          exact reads
    | _ => exact sound.posted found
  accepted {n id content} member := by
    have earlier : ∃ (i : Nat) (x : Task × ServiceBus.HttpRequest), sys.posted[i]? = some x ∧
        id = x.1._id ∧ content = x.1.serialize := by
      rcases List.mem_append.mp member with old | new
      · exact sound.accepted old
      · exact sound.accepts stepped new
    obtain ⟨i, x, posted, rest⟩ := earlier
    exact ⟨i, x, stepped.posted posted, rest⟩
  taken taken := sound.takes run stepped taken
  attempts attempt := sound.grounds run stepped attempt
  performed performed := sound.performs stepped performed
  removed removed := sound.removes stepped removed
  tokens first second same := sound.unique run stepped first second same

theorem run_sound {G : System → Act → Prop} (run : Mealy.Run machine G ({}, []) log sys) :
    Sound sys log := by
  induction run with
  | refl => exact ⟨by simp, by simp, by simp, by simp, by simp, by simp, by simp⟩
  | next previous _ action ih => exact ih.step (run_broker previous) (step_cases action)

end System

end ServiceBusQueue

end JobQ
