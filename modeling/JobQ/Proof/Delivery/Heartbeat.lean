import JobQ.Proof.Delivery.Steps
import JobQ.Proof.Renewal

/-!
# Renewal and settlement never overlap

The heartbeat is over before the first settle request, whatever the interleaving. On the Storage
Queue the receipt that settles is therefore the last one the heartbeat was given.
-/

namespace JobQ

def Event.isRenewal : Event → Bool
  | .renewal _ => true
  | _ => false

def Request.popReceipt? : Request → Option Receipt
  | .updateMessage popReceipt _ | .deleteMessage popReceipt => some popReceipt
  | _ => none

namespace Delivery

def awaited (log : List Event) : Bool :=
  log.foldl (fun flying event => match event with
    | .renewal (.sent _) => true
    | .renewal _ => false
    | _ => flying) false

def lastReceipt (received : Receipt) (log : List Event) : Receipt :=
  log.foldl (fun last event => match event with
    | .renewal (.answered (.ok popReceipt)) => popReceipt
    | _ => last) received

structure Apart (cfg : Config) (received : Receipt) (before : List Event) (e : Event)
    (after : List Event) : Prop where
  landed : awaited before = false
  silent : ∀ popReceipt, .renewal (.sent popReceipt) ∉ after
  waited : cfg.backend = .storageQueue → .renewal .aborted ∉ before
  receipt : cfg.backend = .storageQueue → ∀ request popReceipt, e = .request request →
    request.popReceipt? = some popReceipt → popReceipt = lastReceipt received before

structure HeartbeatInv (cfg : Config) (received : Receipt) (log : List Event) (s : State) :
    Prop where
  flying : awaited log = s.renewal.isInFlight
  receipt : cfg.backend = .storageQueue → s.renewal.popReceipt = lastReceipt received log
  waited : cfg.backend = .storageQueue → .renewal .aborted ∉ log
  ceased : (∃ e ∈ log, e.settles = true) ∨ (∃ settlement request, s.pc = .settling settlement request) →
    s.renewal.isOver = true
  apart : ∀ before e after, log = before ++ e :: after → e.settles = true →
    Apart cfg received before e after

variable {cfg : Config} {received : Receipt} {log new : List Event} {s t : State}

theorem awaited_append (other : ∀ e ∈ new, e.isRenewal = false) :
    awaited (log ++ new) = awaited log := by
  induction new generalizing log with
  | nil => simp
  | cons e new ih =>
      have first := other e (by simp)
      rw [List.append_cons log e new, ih fun e member => other e (by simp [member])]
      cases e <;> first | contradiction | simp [awaited]

theorem lastReceipt_append (other : ∀ e ∈ new, e.isRenewal = false) :
    lastReceipt received (log ++ new) = lastReceipt received log := by
  induction new generalizing log with
  | nil => simp
  | cons e new ih =>
      have first := other e (by simp)
      rw [List.append_cons log e new, ih fun e member => other e (by simp [member])]
      cases e <;> first | contradiction | simp [lastReceipt]

theorem firstRequest_popReceipt {backend : Backend} {task : Task} {current popReceipt : Receipt}
    {settlement : Settlement} {request : Request}
    (first : firstRequest backend task current settlement = some request)
    (receipt : request.popReceipt? = some popReceipt) : popReceipt = current := by
  cases settlement <;> cases backend <;> cases first <;> cases receipt <;> rfl

namespace HeartbeatInv

theorem extend (inv : HeartbeatInv cfg received log s)
    (renewal : ∃ stop, t.renewal = { s.renewal with stop := stop })
    (other : ∀ e ∈ new, e.isRenewal = false)
    (ceased : (∃ e ∈ new, e.settles = true) ∨
      (∃ settlement request, t.pc = .settling settlement request) → s.renewal.isOver = true)
    (receipts : ∀ request popReceipt, .request request ∈ new →
      request.popReceipt? = some popReceipt → popReceipt = s.renewal.popReceipt) :
    HeartbeatInv cfg received (log ++ new) t := by
  obtain ⟨stop, renewal⟩ := renewal
  refine ⟨?_, ?_, ?_, ?_, ?_⟩
  · rw [awaited_append other, inv.flying, renewal]
    rfl
  · intro storage
    rw [lastReceipt_append other, ← inv.receipt storage, renewal]
  · intro storage member
    rcases List.mem_append.mp member with old | new
    · exact inv.waited storage old
    · cases other _ new
  · intro settled
    rw [renewal]
    show s.renewal.isOver = true
    rcases settled with ⟨e, member, settles⟩ | settling
    · rcases List.mem_append.mp member with old | new
      · exact inv.ceased (.inl ⟨e, old, settles⟩)
      · exact ceased (.inl ⟨e, new, settles⟩)
    · exact ceased (.inr settling)
  · intro before e after split settles
    rcases Mealy.split_append split with ⟨rest, old, rfl⟩ | ⟨between, rfl, rfl⟩
    · have apart := inv.apart before e rest old settles
      refine ⟨apart.landed, fun popReceipt member => ?_, apart.waited, apart.receipt⟩
      rcases List.mem_append.mp member with early | late
      · exact apart.silent popReceipt early
      · cases other _ late
    · have first : ∀ f ∈ between, f.isRenewal = false :=
        fun f member => other f (by simp [member])
      refine ⟨?_, fun popReceipt member => ?_, fun storage member => ?_,
        fun storage request popReceipt same receipt => ?_⟩
      · rw [awaited_append first, inv.flying]
        exact Renewal.isOver_not_inFlight (ceased (.inl ⟨e, by simp, settles⟩))
      · cases other _ (List.mem_append_right _ (List.mem_cons_of_mem _ member))
      · rcases List.mem_append.mp member with old | new
        · exact inv.waited storage old
        · cases first _ new
      · rw [lastReceipt_append first, ← inv.receipt storage]
        exact receipts request popReceipt (by simp [same]) receipt

theorem renewed (inv : HeartbeatInv cfg received log s) (alive : s.renewal.isOver = false)
    (pc : t.pc = s.pc) (other : ∀ e ∈ new, e.settles = false)
    (flying : awaited (log ++ new) = t.renewal.isInFlight)
    (receipt : cfg.backend = .storageQueue →
      t.renewal.popReceipt = lastReceipt received (log ++ new))
    (waited : cfg.backend = .storageQueue → .renewal .aborted ∉ new) :
    HeartbeatInv cfg received (log ++ new) t := by
  have unsettled : ∀ e ∈ log ++ new, e.settles = false := by
    intro e member
    rcases List.mem_append.mp member with old | new
    · by_contra settles
      simp [inv.ceased (.inl ⟨e, old, by simpa using settles⟩)] at alive
    · exact other e new
  refine ⟨flying, receipt, ?_, ?_, ?_⟩
  · intro storage member
    rcases List.mem_append.mp member with old | new
    · exact inv.waited storage old
    · exact waited storage new
  · rintro (⟨e, member, settles⟩ | settling)
    · simp [unsettled e member] at settles
    · rw [pc] at settling
      simp [inv.ceased (.inr settling)] at alive
  · intro before e after split settles
    simp [unsettled e (by simp [split])] at settles

theorem renewal (inv : HeartbeatInv cfg received log s) {a : RenewalAction} {r : Renewal}
    {events : List RenewalEvent}
    (action : s.renewal.step cfg.backend cfg.renewal a = some (r, events)) :
    HeartbeatInv cfg received (log ++ events.map .renewal) { s with renewal := r } := by
  have flying := inv.flying
  have receipt := inv.receipt
  have alive := Renewal.step_alive action
  generalize next : (r, events) = result at action
  cases Renewal.step_cases action with
  | sends _ idle unstopped =>
      cases next
      exact inv.renewed alive rfl (by simp [Event.settles]) (by simp [awaited, Renewal.isInFlight])
        (by simpa [lastReceipt] using receipt) (by simp)
  | idles _ idle waits =>
      cases next
      refine inv.renewed alive rfl (by simp) ?_ (by simpa [lastReceipt] using receipt) (by simp)
      rw [List.map_nil, List.append_nil, flying, idle]
      symm
      rw [Renewal.isInFlight]
      split
      · exact absurd ‹_› (waits _)
      · rfl
  | answers inFlight landed stop changed kept lost =>
      cases next
      refine inv.renewed alive rfl (by simp [Event.settles]) (by simp [awaited, landed]) ?_ (by simp)
      intro storage
      show r.popReceipt = _
      rw [changed, receipt storage, storage]
      cases ‹RenewalAnswer› <;> simp [lastReceipt, RenewalAnswer.receipt]

theorem left (inv : HeartbeatInv cfg received log s) {result : Result} (left : Leaves s result t)
    (other : ∀ e ∈ new, e.isRenewal = false ∧ e.settles = false) :
    HeartbeatInv cfg received (log ++ new) t := by
  obtain ⟨pc, stop, leaving, rfl⟩ := left
  apply inv.extend ⟨stop, rfl⟩ fun e member => (other e member).1
  · rintro (⟨e, member, settles⟩ | ⟨settlement, request, settling⟩)
    · simp [(other e member).2] at settles
    · rcases leaving with ⟨rfl, -⟩ | rfl <;> cases settling
  · intro request popReceipt member
    cases (other _ member).2

theorem proceeds (inv : HeartbeatInv cfg received log s) (ceased : s.renewal.isOver = true)
    {after : After} {next : Step} (proceeded : Proceeds cfg s after next) :
    HeartbeatInv cfg received (log ++ next.2) next.1 := by
  cases proceeded with
  | settles decided first =>
      refine inv.extend ⟨_, rfl⟩ (by simp [Event.isRenewal]) (fun _ => ceased) ?_
      intro request popReceipt member receipt
      simp only [List.mem_cons, Event.request.injEq, reduceCtorEq, List.not_mem_nil, or_false,
        false_or] at member
      subst member
      exact firstRequest_popReceipt first receipt
  | skips decided first left =>
      obtain ⟨pc, stop, leaving, rfl⟩ := left
      exact inv.extend ⟨stop, rfl⟩ (by simp [Event.isRenewal]) (fun _ => ceased) (by simp)
  | leaves decided left => exact inv.left left (by simp)

theorem cancelHeartbeat (inv : HeartbeatInv cfg received log s) (after : After) :
    HeartbeatInv cfg received (log ++ (Delivery.cancelHeartbeat cfg s after).2)
      (Delivery.cancelHeartbeat cfg s after).1 := by
  rcases cancelHeartbeat_cases cfg s after with ⟨ceased, proceeded⟩ | ⟨running, eq⟩
  · have stopped : HeartbeatInv cfg received (log ++ [])
        { s with renewal := { s.renewal with stop := true } } :=
      inv.extend ⟨true, rfl⟩ (by simp) (fun _ => ceased) (by simp)
    rw [List.append_nil] at stopped
    exact stopped.proceeds ceased proceeded
  · rw [eq]
    exact inv.extend ⟨true, rfl⟩ (by simp) (by simp) (by simp)

theorem moved (inv : HeartbeatInv cfg received log s) (renewal : t.renewal = s.renewal)
    (pc : (∃ settlement request, t.pc = .settling settlement request) →
      ∃ settlement request, s.pc = .settling settlement request)
    (other : ∀ e ∈ new, e.isRenewal = false ∧ e.settles = false) :
    HeartbeatInv cfg received (log ++ new) t := by
  apply inv.extend ⟨s.renewal.stop, renewal⟩ fun e member => (other e member).1
  · rintro (⟨e, member, settles⟩ | settling)
    · simp [(other e member).2] at settles
    · exact inv.ceased (.inr (pc settling))
  · intro request popReceipt member
    cases (other _ member).2

theorem calm (inv : HeartbeatInv cfg received log s) :
    HeartbeatInv cfg received log { s with interrupted := false } := by
  have moved : HeartbeatInv cfg received (log ++ []) { s with interrupted := false } :=
    inv.moved rfl id (by simp)
  rwa [List.append_nil] at moved

theorem resumes (inv : HeartbeatInv cfg received log s) {next : Step}
    (resumed : Resumes cfg s next) : HeartbeatInv cfg received (log ++ next.2) next.1 := by
  cases resumed with
  | awaits before after =>
      refine inv.moved rfl ?_ (by simp)
      rintro ⟨settlement, request, rfl⟩
      contradiction
  | concludes => exact inv.calm.cancelHeartbeat _
  | letsOut =>
      obtain ⟨t, left, eq⟩ := leave_eq cfg { s with interrupted := false } (.raised .cancelledError)
      rw [eq]
      exact inv.calm.left left (by simp)
  | proceeds pc calm ceased => exact inv.proceeds ceased (proceed_cases _ _ _)
  | exits => exact inv.moved rfl (by simp) (by simp)
  | exitInterrupted => exact inv.moved rfl (by simp) (by simp)

theorem answers (inv : HeartbeatInv cfg received log s) {settlement : Settlement}
    {request : Request} {answer : Except String Unit} {next : Step}
    (pc : s.pc = .settling settlement request)
    (answered : Answers s settlement request answer next) :
    HeartbeatInv cfg received (log ++ .answered request (isOk answer) :: next.2) next.1 := by
  cases answered with
  | continues deadLetter sent ok =>
      refine inv.extend ⟨s.renewal.stop, rfl⟩ (by simp [Event.isRenewal])
        (fun _ => inv.ceased (.inr ⟨_, _, pc⟩)) ?_
      intro request popReceipt member receipt
      simp only [List.mem_cons, reduceCtorEq, Event.request.injEq, List.not_mem_nil, or_false,
        false_or] at member
      subst member
      exact (Option.some.inj receipt).symm
  | leaves verdict left => exact inv.left left (by simp [Event.isRenewal, Event.settles])

theorem step (inv : HeartbeatInv cfg received log s) {a : Action}
    (stepped : Delivery.step cfg s a = some (t, new)) :
    HeartbeatInv cfg received (log ++ new) t := by
  generalize same : (t, new) = next at stepped
  cases step_cases stepped with
  | renewal action => cases same; exact inv.renewal action
  | callbackEnds => cases same; exact inv.moved rfl id (by simp [Event.isRenewal, Event.settles])
  | lockTaskRuns => cases same; exact inv.moved rfl id (by simp)
  | throws => cases same; exact inv.moved rfl id (by simp [Event.isRenewal, Event.settles])
  | absorbs => cases same; exact inv.moved rfl id (by simp [Event.isRenewal, Event.settles])
  | aborts backend pc =>
      cases same
      unfold ServiceBus.abort
      split
      · exact inv.moved rfl id (by simp [Event.isRenewal, Event.settles])
      · rename_i alive
        have flying := inv.flying
        refine inv.renewed (by simpa using alive) rfl ?_ ?_ (by simp [backend]) (by simp [backend])
        · split <;> simp [Event.settles]
        · split
          · simp [awaited, Renewal.isInFlight]
          · rename_i idle
            rw [awaited_append (by simp [Event.isRenewal]), flying]
            simpa [Renewal.isInFlight] using idle
  | resumes resumed => subst same; exact inv.resumes resumed
  | answers pc _ answered => cases same; exact inv.answers pc answered

theorem received_inv (cfg : Config) (task : Task) (popReceipt : Receipt) :
    HeartbeatInv cfg popReceipt [] (Delivery.received cfg task popReceipt) := by
  refine ⟨?_, fun _ => rfl, by simp, by simp [Delivery.received], by simp⟩
  simp only [Delivery.received]
  split <;> rfl

theorem start (task : Task) (popReceipt : Receipt) (call : CallResult) :
    HeartbeatInv cfg popReceipt (Delivery.start cfg task popReceipt call).2
      (Delivery.start cfg task popReceipt call).1 := by
  have initial := received_inv cfg (prepared cfg task) popReceipt
  have started := start_cases cfg task popReceipt call
  generalize Delivery.start cfg task popReceipt call = first at started
  cases started with
  | waits =>
      have waiting : HeartbeatInv cfg popReceipt ([] ++ [])
          { Delivery.received cfg (prepared cfg task) popReceipt with callback := .running } :=
        initial.moved rfl id (by simp)
      exact waiting
  | called readable resumed =>
      rename_i outcome _ next
      have ended : HeartbeatInv cfg popReceipt ([] ++ [.callbackEnded outcome])
          { Delivery.received cfg (prepared cfg task) popReceipt with callback := .ended outcome } :=
        initial.moved rfl id (by simp [Event.isRenewal, Event.settles])
      simpa using ended.resumes resumed
  | unreadable parameters => simpa using initial.cancelHeartbeat _

end HeartbeatInv

/-- In every run of a delivery, a settle request finds no renewal in flight and is followed by
none; on the Storage Queue it carries the receipt of the last update. -/
theorem renewal_settlement_apart (cfg : Config) (task : Task) (popReceipt : Receipt)
    (call : CallResult) {before after : List Event} {e : Event} {s : State}
    (run : Mealy.Run (machine cfg) Mealy.always (start cfg task popReceipt call)
      (before ++ e :: after) s)
    (settles : e.settles = true) : Apart cfg popReceipt before e after := by
  have inv := run.invariant (HeartbeatInv.start task popReceipt call)
    fun _ _ _ _ _ inv _ action => inv.step action
  exact inv.apart before e after rfl settles

theorem renewal_settlement_apart_hello :
    Apart (heartbeatConfig .storageQueue) 0
      [.renewal (.sent 0), .callbackEnded (.returned .null), .renewal (.answered (.ok 7)),
        .settlement .complete] (.request (.deleteMessage 7)) [] := by
  have run : ∃ s, Mealy.exec (machine (heartbeatConfig .storageQueue))
      (start (heartbeatConfig .storageQueue) helloTask 0 .coroutine)
      [.renewal (.wake 0), .callbackEnds (.returned .null), .resume, .resume,
        .renewal (.answer (.ok 7) 1), .renewal (.wake 1), .resume] =
      some (s, [.renewal (.sent 0), .callbackEnded (.returned .null), .renewal (.answered (.ok 7)),
        .settlement .complete, .request (.deleteMessage 7)]) :=
    ⟨_, rfl⟩
  obtain ⟨s, run⟩ := run
  exact renewal_settlement_apart _ _ _ _ (.of_exec (by simp) run) rfl

end Delivery

end JobQ
