import JobQ.Library.PeekLock
import JobQ.Model.QueueSystem
import JobQ.Model.ServiceBusClient

/-!
# Workers on a Service Bus queue

A queue as `ServiceBusRestBackend.create` makes it, the requests that `push` posts to it, and any
number of deliveries of its messages to workers that run `pull_and_execute`. The broker may take a
request at any time after it was posted, once or again, and any answer may get lost. What duplicate
detection remembers it may forget at any time, since the window is that of the queue.
-/

namespace JobQ.ServiceBusQueue
open Delivery JsonText QueueSystem

def maxDeliveryCount : Nat := 1000

structure Attempt where
  number : Nat
  lockToken : Nat
  content : String
  cfg : Config
  task : Task
  state : State
  log : List JobQ.Event
  crashed : Bool := false

structure System where
  broker : PeekLock.Broker String String := {}
  /-- The requests that pushes have posted, each with the task of its push. -/
  posted : List (Task × ServiceBus.HttpRequest) := []
  /-- Which of them the broker has taken. -/
  taken : List Nat := []
  attempts : List Attempt := []
  performed : List (AttemptId × Call) := []

inductive Act where
  | push (client : ServiceBus.Client) (env : ServiceBus.Endpoint) (session : ServiceBus.Session)
      (task : Task)
  | take (i : Nat)
  | receive (n : Nat) (cfg : Config) (call : CallResult)
  | advance (d : AttemptId) (a : Action)
  | serve (d : AttemptId) (call : Call)
  | expire (n : Nat)
  | exceed (n : Nat)
  | forget (id : String)
  | crash (d : AttemptId)

abbrev Event := PeekLock.Event String String

/-- The id and the body of the message that the broker reads from a request to send one. -/
def message (request : ServiceBus.HttpRequest) : Option (String × String) :=
  match request.data, request.headers.lookup "BrokerProperties" with
  | some body, some properties =>
    match loads properties with
    | some (.obj members) =>
      match getItem members "MessageId" with
      | some (.str id) => id.toString?.map (·, body)
      | _ => none
    | _ => none
  | _, _ => none

/-- The operation that a request to the URL of a locked message stands for. -/
def operation (n lockToken : Nat) : Call → Option (PeekLock.Op String String)
  | .renew _ => some (.renew n lockToken)
  | .settle .completeMessage => some (.complete n lockToken)
  | .settle .unlockMessage => some (.abandon n lockToken)
  | .settle (.deadletterMessage _) => some (.deadLetter n lockToken)
  | .settle _ => none

namespace System

def perform (sys : System) (op : PeekLock.Op String String) : Option (System × List Event) :=
  (sys.broker.step maxDeliveryCount op).map fun next => ({ sys with broker := next.1 }, next.2)

/-- Only a request that was performed is answered with a success. Any request may fail. -/
def answerable (sys : System) (d : AttemptId) (a : Attempt) : Action → Bool
  | .answer (.ok ()) =>
    match a.state.pc with
    | .settling _ request => (d, .settle request) ∈ sys.performed
    | _ => false
  | .renewal (.answer (.ok _) _) => sys.performed.any fun x => x.1 = d ∧ (x.2 matches .renew _)
  | _ => true

def push (sys : System) (client : ServiceBus.Client) (env : ServiceBus.Endpoint)
    (session : ServiceBus.Session) (task : Task) : System :=
  let sent := (ServiceBus.push client env task session).2.sent.drop session.sent.length
  { sys with posted := sys.posted ++ sent.map (Prod.mk task) }

def take (sys : System) (i : Nat) : Option (System × List Event) :=
  match sys.posted[i]? with
  | some (_, request) =>
    match message request with
    | some (id, body) => { sys with taken := i :: sys.taken }.perform (.send id body)
    | none => none
  | none => none

def receive (sys : System) (n : Nat) (cfg : Config) (call : CallResult) :
    Option (System × List Event) :=
  if cfg.backend = .serviceBus then
    match sys.perform (.lock n), sys.broker.queue n with
    | some (locked, events), some message =>
      match Task.deserialize message.content with
      | .error _ => some (locked, events)
      | .ok task =>
        let lockToken := sys.broker.nextToken
        let (state, log) := start cfg task lockToken call
        some ({ locked with
          attempts := sys.attempts ++ [{
            number := n, lockToken, content := message.content, cfg, task, state, log }] }, events)
    | _, _ => none
  else none

def advance (sys : System) (d : AttemptId) (action : Action) : Option System :=
  match sys.attempts[d]? with
  | none => none
  | some a =>
    if a.crashed = false ∧ sys.answerable d a action then
      match Delivery.step a.cfg a.state action with
      | none => none
      | some (state, events) =>
        some { sys with
          attempts := sys.attempts.set d { a with state := state, log := a.log ++ events } }
    else none

def serve (sys : System) (d : AttemptId) (call : Call) : Option (System × List Event) :=
  match sys.attempts[d]? with
  | none => none
  | some a =>
    if call ∈ calls a.log then
      match operation a.number a.lockToken call with
      | some op => { sys with performed := sys.performed ++ [(d, call)] }.perform op
      | none => none
    else none

def step (sys : System) : Act → Option (System × List Event)
  | .push client env session task => some (sys.push client env session task, [])
  | .take i => sys.take i
  | .receive n cfg call => sys.receive n cfg call
  | .advance d a => (sys.advance d a).map (·, [])
  | .serve d call => sys.serve d call
  | .expire n => sys.perform (.expire n)
  | .exceed n => sys.perform (.exceed n)
  | .forget id => sys.perform (.forget id)
  | .crash d =>
    match sys.attempts[d]? with
    | none => none
    | some a => some ({ sys with attempts := sys.attempts.set d { a with crashed := true } }, [])

def machine : Mealy.Machine System Act Event := ⟨step⟩

end System

end JobQ.ServiceBusQueue
