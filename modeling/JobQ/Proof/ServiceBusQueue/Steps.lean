import JobQ.Model.ServiceBusQueue
import JobQ.Proof.Request
import JobQ.Proof.QueueSystem.Steps

/-!
# What one step of a Service Bus queue can do

Every run of the queue is a run of its broker with the same events. What the broker accepted was
posted for a task, and what it removed was asked for by the delivery that holds the lock.
-/

namespace JobQ

/-! ## What a push posts -/

namespace ServiceBus

/-- A request as an attempt sends it. -/
def bearing (method url : String) (headers : List (String × String)) (data : Option String)
    (token : String) : HttpRequest :=
  { method, url, headers := ("Authorization", "Bearer " ++ token) :: headers, data }

variable (env : Endpoint) (method url : String) (headers : List (String × String))
  (data : Option String)

theorem doRequest_sent (s : Session) : ∃ token, (doRequest env method url headers data s).2.sent =
    s.sent ++ [bearing method url headers data token] := by
  have sent := getToken_sent env s
  unfold doRequest
  cases given : getToken env s with
  | mk token t =>
      rw [given] at sent
      simp only at sent ⊢
      rw [sent]
      refine ⟨token, ?_⟩
      cases env.outcome s.sent.length with
      | raises exc => rfl
      | response status =>
          simp only
          split <;> rfl

theorem request_sent (client : Client) (s : Session) :
    ∃ made, (request client env method url headers data s).2.sent = s.sent ++ made ∧
      ∀ q ∈ made, ∃ token, q = bearing method url headers data token := by
  let attempt := doRequest env method url headers data
  have before (k : Nat) : ∃ made, (Retry.before attempt s k).sent = s.sent ++ made ∧
      ∀ q ∈ made, ∃ token, q = bearing method url headers data token := by
    induction k with
    | zero => exact ⟨[], by simp [Retry.before]⟩
    | succ k ih =>
        obtain ⟨made, earlier, each⟩ := ih
        obtain ⟨token, sent⟩ := doRequest_sent env method url headers data
          (Retry.before attempt s k)
        refine ⟨made ++ [bearing method url headers data token], ?_, fun q member => ?_⟩
        · rw [Retry.before, sent, earlier, List.append_assoc]
        · rcases List.mem_append.mp member with old | last
          · exact each q old
          · exact ⟨token, List.mem_singleton.mp last⟩
  obtain ⟨k, -, -, result, -⟩ := @Retry.retrying_decisive _ _ _ isRetryable attempt
    (client.maxRetries - 1).toNat s
  have requested : request client env method url headers data s =
      attempt (Retry.before attempt s k) := result
  rw [requested]
  exact before (k + 1)

end ServiceBus

namespace ServiceBusQueue
open Delivery JsonText PeekLock
open QueueSystem (AttemptId calls)

/-- What a push puts on the wire is read back as the id and the text of its task. -/
theorem message_bearing (task : Task) (method url token : String) :
    message (ServiceBus.bearing method url (ServiceBus.sendHeaders task._id) (some task.serialize)
      token) = some (task._id, task.serialize) := by
  have wellFormed : WellFormed (.obj [("MessageId", .str task._id)]) := by
    simp [WellFormed, MembersWellFormed]
  have found : (("Authorization", "Bearer " ++ token) :: ServiceBus.sendHeaders task._id).lookup
      "BrokerProperties" = some (ServiceBus.brokerProperties task._id) := by
    simp [ServiceBus.sendHeaders, List.lookup_cons]
  simp only [message, ServiceBus.bearing, found, ServiceBus.brokerProperties]
  simp [loads_text wellFormed, getItem]

theorem push_posts (sys : System) (client : ServiceBus.Client) (env : ServiceBus.Endpoint)
    (session : ServiceBus.Session) (task : Task) :
    ∃ sent, sys.push client env session task = { sys with posted := sys.posted ++ sent } ∧
      ∀ x ∈ sent, x.1 = task ∧ message x.2 = some (task._id, task.serialize) := by
  refine ⟨_, rfl, ?_⟩
  have pushed : (ServiceBus.push client env task session).2 =
      (ServiceBus.request client env "POST"
        ("https://" ++ client.fqns ++ "/" ++ client.queueName ++ "/messages")
        (ServiceBus.sendHeaders task._id) (some task.serialize) session).2 := by
    unfold ServiceBus.push ServiceBus.sendMessage
    dsimp only
    split <;> (rename_i same; rw [same])
  obtain ⟨made, sent, each⟩ := ServiceBus.request_sent env "POST"
    ("https://" ++ client.fqns ++ "/" ++ client.queueName ++ "/messages")
    (ServiceBus.sendHeaders task._id) (some task.serialize) client session
  rw [pushed, sent, List.drop_left]
  intro x member
  obtain ⟨request, made, rfl⟩ := List.mem_map.mp member
  obtain ⟨token, rfl⟩ := each request made
  exact ⟨rfl, message_bearing _ _ _ _⟩

/-- What the broker does by itself. -/
def Act.own : Act → Option (Op String String)
  | .expire n => some (.expire n)
  | .exceed n => some (.exceed n)
  | .forget id => some (.forget id)
  | _ => none

namespace System

variable {sys next : System} {log events : List Event} {act : Act}

/-! ## Steps -/

def Performs (sys : System) (op : Op String String) (broker : Broker String String)
    (events : List Event) : Prop :=
  sys.broker.step maxDeliveryCount op = some (broker, events)

inductive Steps (sys : System) : Act → System → List Event → Prop
  | push {client : ServiceBus.Client} {env : ServiceBus.Endpoint} {session : ServiceBus.Session}
      {task : Task} {sent : List (Task × ServiceBus.HttpRequest)}
      (reads : ∀ x ∈ sent, x.1 = task ∧ message x.2 = some (task._id, task.serialize)) :
      Steps sys (.push client env session task) { sys with posted := sys.posted ++ sent } []
  | take {i : Nat} {task : Task} {request : ServiceBus.HttpRequest} {id body : String}
      {broker : Broker String String} {events : List Event}
      (posted : sys.posted[i]? = some (task, request)) (reads : message request = some (id, body))
      (sent : sys.Performs (.send id body) broker events) :
      Steps sys (.take i) { sys with taken := i :: sys.taken, broker := broker } events
  | unreadable {n : Nat} {cfg : Config} {call : CallResult} {message : Message String String}
      {error : DecodeError} {broker : Broker String String} {events : List Event}
      (queued : sys.broker.queue n = some message)
      (unreadable : Task.deserialize message.content = .error error)
      (locks : sys.Performs (.lock n) broker events) :
      Steps sys (.receive n cfg call) { sys with broker := broker } events
  | receive {n : Nat} {cfg : Config} {call : CallResult} {message : Message String String}
      {task : Task} {broker : Broker String String} {events : List Event}
      (serviceBus : cfg.backend = .serviceBus) (queued : sys.broker.queue n = some message)
      (read : Task.deserialize message.content = .ok task)
      (locks : sys.Performs (.lock n) broker events) :
      Steps sys (.receive n cfg call) { sys with
        broker := broker
        attempts := sys.attempts ++ [{
          number := n, lockToken := sys.broker.nextToken, content := message.content, cfg, task
          state := (start cfg task sys.broker.nextToken call).1
          log := (start cfg task sys.broker.nextToken call).2 }] } events
  | advance {d : AttemptId} {a : Attempt} {action : Action} {state : State}
      {events : List JobQ.Event} (attempt : sys.attempts[d]? = some a)
      (allowed : sys.answerable d a action = true)
      (stepped : Delivery.step a.cfg a.state action = some (state, events)) :
      Steps sys (.advance d action) { sys with
        attempts := sys.attempts.set d { a with state := state, log := a.log ++ events } } []
  | serve {d : AttemptId} {a : Attempt} {call : Call} {op : Op String String}
      {broker : Broker String String} {events : List Event} (attempt : sys.attempts[d]? = some a)
      (sent : call ∈ calls a.log) (named : operation a.number a.lockToken call = some op)
      (performs : sys.Performs op broker events) :
      Steps sys (.serve d call)
        { sys with performed := sys.performed ++ [(d, call)], broker := broker } events
  | own {act : Act} {op : Op String String} {broker : Broker String String} {events : List Event}
      (own : act.own = some op) (performs : sys.Performs op broker events) :
      Steps sys act { sys with broker := broker } events
  | crash {d : AttemptId} {a : Attempt} (attempt : sys.attempts[d]? = some a) :
      Steps sys (.crash d) { sys with attempts := sys.attempts.set d { a with crashed := true } } []

theorem perform_cases {op : Op String String} (performed : sys.perform op = some (next, events)) :
    ∃ broker, sys.Performs op broker events ∧ next = { sys with broker := broker } := by
  obtain ⟨⟨broker, made⟩, performs, same⟩ := Option.map_eq_some_iff.mp performed
  cases same
  exact ⟨broker, performs, rfl⟩

theorem receive_cases {n : Nat} {cfg : Config} {call : CallResult}
    (received : sys.receive n cfg call = some (next, events)) :
    Steps sys (.receive n cfg call) next events := by
  unfold receive at received
  split at received
  · rename_i serviceBus
    split at received
    · rename_i locked made message performed queued
      obtain ⟨broker, locks, rfl⟩ := perform_cases performed
      split at received <;> cases received
      · exact .unreadable queued ‹_› locks
      · exact .receive serviceBus queued ‹_› locks
    · contradiction
  · contradiction

theorem step_cases (action : sys.step act = some (next, events)) : Steps sys act next events := by
  have own {op : Op String String} (own : act.own = some op)
      (performed : sys.perform op = some (next, events)) : Steps sys act next events := by
    obtain ⟨broker, performs, rfl⟩ := perform_cases performed
    exact .own own performs
  cases act with
  | push client env session task =>
      obtain ⟨sent, same, reads⟩ := push_posts sys client env session task
      simp only [step, same] at action
      cases action
      exact .push reads
  | take i =>
      simp only [step, take] at action
      split at action
      · rename_i posted
        split at action
        · rename_i reads
          obtain ⟨broker, sent, rfl⟩ := perform_cases action
          exact .take posted reads sent
        · contradiction
      · contradiction
  | receive n cfg call => exact receive_cases action
  | advance d a =>
      obtain ⟨moved, advanced, same⟩ := Option.map_eq_some_iff.mp action
      cases same
      simp only [advance] at advanced
      split at advanced
      · contradiction
      · split at advanced
        · rename_i allowed
          split at advanced <;> cases advanced
          exact .advance ‹_› allowed.2 ‹_›
        · contradiction
  | serve d call =>
      simp only [step, serve] at action
      split at action
      · contradiction
      · rename_i attempt
        split at action
        · rename_i sent
          split at action
          · rename_i named
            obtain ⟨broker, performs, rfl⟩ := perform_cases action
            exact .serve attempt sent named performs
          · contradiction
        · contradiction
  | expire n => exact own rfl action
  | exceed n => exact own rfl action
  | forget id => exact own rfl action
  | crash d =>
      simp only [step] at action
      split at action <;> cases action
      exact .crash ‹_›

/-! ## The broker of a run -/

theorem Steps.broker (stepped : Steps sys act next events) :
    next.broker = sys.broker ∧ events = [] ∨ ∃ op, sys.Performs op next.broker events := by
  cases stepped with
  | push => exact .inl ⟨rfl, rfl⟩
  | take _ _ sent => exact .inr ⟨_, sent⟩
  | unreadable _ _ locks => exact .inr ⟨_, locks⟩
  | receive _ _ _ locks => exact .inr ⟨_, locks⟩
  | advance => exact .inl ⟨rfl, rfl⟩
  | serve _ _ _ performs => exact .inr ⟨_, performs⟩
  | own _ performs => exact .inr ⟨_, performs⟩
  | crash => exact .inl ⟨rfl, rfl⟩

/-- A run of the queue is a run of its broker with the same events. -/
theorem run_broker {G : System → Act → Prop} (run : Mealy.Run machine G ({}, []) log sys) :
    Mealy.Run (PeekLock.machine maxDeliveryCount) Mealy.always ({}, []) log sys.broker := by
  induction run with
  | refl => exact .refl
  | @next log s t act events _ _ action ih =>
      rcases (step_cases action).broker with ⟨same, rfl⟩ | ⟨op, performs⟩
      · rw [same, List.append_nil]
        exact ih
      · exact ih.next trivial performs

/-! ## One delivery as a run of the queue -/

/-- A delivery that needs nothing of the broker runs in the queue as it runs alone. -/
theorem advance_run {G : System → Act → Prop} {d : AttemptId} {a : Attempt} {actions : List Action} {state : State}
    {new : List JobQ.Event} (quiet : ∀ sys d action, G sys (.advance d action))
    (attempt : sys.attempts[d]? = some a) (alive : a.crashed = false)
    (unaided : ∀ x ∈ actions, ∀ sys d attempt, answerable sys d attempt x = true)
    (run : Mealy.exec (Delivery.machine a.cfg) (a.state, a.log) actions = some (state, new)) :
    Mealy.Run machine G (sys, log)
      log { sys with attempts := sys.attempts.set d { a with state := state, log := new } } := by
  induction actions generalizing sys a with
  | nil =>
      simp only [Mealy.exec, Option.some.injEq, Prod.mk.injEq] at run
      obtain ⟨rfl, rfl⟩ := run
      have same : sys.attempts.set d a = sys.attempts := by
        obtain ⟨bound, found⟩ := List.getElem?_eq_some_iff.mp attempt
        rw [← found, List.set_getElem_self]
      show Mealy.Run _ _ _ _ { sys with attempts := sys.attempts.set d a }
      rw [same]
      exact .refl
  | cons action rest ih =>
      simp only [Mealy.exec] at run
      split at run
      · contradiction
      · rename_i s made stepped
        have first : machine.step sys (.advance d action) = some ({ sys with
            attempts := sys.attempts.set d { a with state := s, log := a.log ++ made } }, []) := by
          have allowed := unaided action (by simp) sys d a
          have stepped : Delivery.step a.cfg a.state action = some (s, made) := stepped
          simp [machine, step, advance, attempt, alive, allowed, stepped]
        have bound := (List.getElem?_eq_some_iff.mp attempt).1
        have moved : ({ sys with
            attempts := sys.attempts.set d { a with state := s, log := a.log ++ made } } : System).attempts[d]? =
              some { a with state := s, log := a.log ++ made } := by simp [bound]
        have later := ih moved alive (fun x member => unaided x (by simp [member])) run
        simp only [List.set_set] at later
        refine .head (quiet _ _ _) first ?_
        rw [List.append_nil]
        exact later

def createdEndpoint : ServiceBus.Endpoint where
  outcome _ := .response 201
  token _ := ⟨"token", 3600⟩
  time _ := 0

def helloRequest : ServiceBus.HttpRequest :=
  ServiceBus.bearing "POST" "https://ns.servicebus.windows.net/jobs/messages"
    (ServiceBus.sendHeaders helloTask._id) (some helloTask.serialize) "token"

/-- The queue while `helloTask` is delivered from it for the first time. -/
def helloSystem (queued : Option (Message String String)) (state : State)
    (log : List JobQ.Event) (performed : List (AttemptId × Call)) : System where
  broker := {
    queue := Function.update (fun _ => none) 0 queued
    history := [helloTask._id], nextNumber := 1, nextToken := 1 }
  posted := [(helloTask, helloRequest)]
  taken := [0]
  attempts := [{
    number := 0, lockToken := 0, content := helloTask.serialize, cfg := plainConfig .serviceBus
    task := helloTask.delivered, state, log }]
  performed := performed

def helloLocked : Message String String :=
  { id := helloTask._id, content := helloTask.serialize, lock := some 0, deliveries := 1 }

def helloWaiting : State where
  pc := .waiting
  task := helloTask.delivered
  renewal := { loop := .absent, popReceipt := 0 }
  callback := .running

theorem receive_step (sys : System) (call : CallResult) {n : Nat} {cfg : Config} {locked : System}
    {message : Message String String} {task : Task} (serviceBus : cfg.backend = .serviceBus)
    (locks : sys.perform (.lock n) = some (locked, events))
    (queued : sys.broker.queue n = some message)
    (read : Task.deserialize message.content = .ok task) :
    machine.step sys (.receive n cfg call) = some ({ locked with
      attempts := sys.attempts ++ [{
        number := n, lockToken := sys.broker.nextToken, content := message.content, cfg, task
        state := (start cfg task sys.broker.nextToken call).1
        log := (start cfg task sys.broker.nextToken call).2 }] }, events) := by
  simp [machine, step, receive, serviceBus, locks, queued, read]

/-- No id is forgotten. -/
def Remembers (_ : System) (act : Act) : Prop := ∀ id, act ≠ .forget id

theorem hello_received : Mealy.Run machine Remembers ({}, [])
    [.accepted 0 helloTask._id helloTask.serialize, .locked 0 0]
    (helloSystem (some helloLocked) helloWaiting [] []) := by
  let taken : System := {
    broker := {
      queue := Function.update (fun _ => none) 0
        (some { id := helloTask._id, content := helloTask.serialize })
      history := [helloTask._id], nextNumber := 1 }
    posted := [(helloTask, helloRequest)], taken := [0] }
  have pushed : machine.step {} (.push ⟨"ns.servicebus.windows.net", "jobs", 4⟩ createdEndpoint {}
      helloTask) = some ({ posted := [(helloTask, helloRequest)] }, []) := rfl
  have reads : message helloRequest = some (helloTask._id, helloTask.serialize) :=
    message_bearing _ _ _ _
  have takes : machine.step { posted := [(helloTask, helloRequest)] } (.take 0) =
      some (taken, [.accepted 0 helloTask._id helloTask.serialize]) := by
    simp [taken, machine, step, take, reads, perform, Broker.step, Broker.put]
  have locks : taken.perform (.lock 0) = some ({ taken with broker :=
      { queue := Function.update (fun _ => none) 0 (some helloLocked)
        history := [helloTask._id], nextNumber := 1, nextToken := 1 } }, [.locked 0 0]) := by
    simp [taken, perform, Broker.step, Broker.put, helloLocked]
  have queued : taken.broker.queue 0 =
      some { id := helloTask._id, content := helloTask.serialize } := rfl
  have read : Task.deserialize (⟨helloTask._id, helloTask.serialize, none, 0⟩ :
      Message String String).content = .ok helloTask.delivered := Task.deserialize_serialize helloTask
  have serviceBus : (plainConfig .serviceBus).backend = .serviceBus := rfl
  have received : machine.step taken (.receive 0 (plainConfig .serviceBus) .coroutine) =
      some (helloSystem (some helloLocked) helloWaiting [] [], [.locked 0 0]) := by
    have step := receive_step taken .coroutine serviceBus locks queued read
    exact step
  exact .head (by simp [Remembers]) pushed
    (.head (by simp [Remembers]) takes (.head (by simp [Remembers]) received .refl))

def helloSettling : State :=
  { helloWaiting with
    pc := .settling .complete .completeMessage, callback := .ended (.returned .null)
    renewal := { helloWaiting.renewal with stop := true } }

def helloFinished : State := { helloSettling with pc := .finished (.returned true) }

def helloLog : List JobQ.Event :=
  [.callbackEnded (.returned .null), .settlement .complete, .request .completeMessage]

theorem hello_completed : Mealy.Run machine Remembers ({}, [])
    [.accepted 0 helloTask._id helloTask.serialize, .locked 0 0, .removed 0 (.completed 0)]
    (helloSystem none helloFinished (helloLog ++ [.answered .completeMessage true])
      [(0, .settle .completeMessage)]) := by
  let completed : List (AttemptId × Call) := [(0, .settle .completeMessage)]
  have ends : Mealy.exec (Delivery.machine (plainConfig .serviceBus)) (helloWaiting, [])
      [.callbackEnds (.returned .null), .resume, .resume] = some (helloSettling, helloLog) := rfl
  have asked := hello_received.trans (advance_run (d := 0) (fun _ _ _ => by simp [Remembers]) rfl
    rfl (by simp [answerable]) ends)
  have performed : machine.step (helloSystem (some helloLocked) helloSettling helloLog [])
      (.serve 0 (.settle .completeMessage)) =
      some (helloSystem none helloSettling helloLog completed, [.removed 0 (.completed 0)]) := by
    simp [completed, machine, step, serve, perform, Broker.step, Broker.put, Broker.held,
      helloSystem, helloLocked, helloLog, calls, Event.call?, operation]
  have answered : machine.step (helloSystem none helloSettling helloLog completed)
      (.advance 0 (.answer (.ok ()))) = some (helloSystem none helloFinished
        (helloLog ++ [.answered .completeMessage true]) completed, []) := by
    simp [completed, machine, step, advance, answerable, helloSystem, helloSettling, Delivery.step]
    rfl
  exact (asked.next (by simp [Remembers]) performed).next (by simp [Remembers]) answered

end System

end ServiceBusQueue

end JobQ
