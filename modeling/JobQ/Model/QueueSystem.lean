import JobQ.Model.PullAndExecute

/-!
# Workers on a Storage Queue

The main queue and the dead-letter queue, and any number of deliveries of their messages to workers
that run `pull_and_execute`. A request is in the broker's hands from the moment it is sent, and may
be performed at any later time, once or again, whether or not its sender still waits for the answer.
The answer that brings a message may never be read.
-/

namespace JobQ

inductive Call where
  | renew (popReceipt : Receipt)
  | settle (request : Request)
deriving DecidableEq

def Event.call? : Event → Option Call
  | .renewal (.sent popReceipt) => some (.renew popReceipt)
  | .request r => some (.settle r)
  | _ => none

namespace QueueSystem
open Delivery

abbrev MessageId := Nat

structure Message where
  content : String
  popReceipt : Receipt
  visible : Bool

/-- The queues of the service. A copy in the dead-letter queue is kept with the message that it was
made for. -/
structure Service where
  queue : MessageId → Option Message
  deadLetter : List (MessageId × String)
  nextReceipt : Receipt

def calls (log : List Event) : List Call := log.filterMap Event.call?

namespace Service

def setMessage (service : Service) (m : MessageId) (message : Option Message) : Service :=
  { service with queue := fun n => if n = m then message else service.queue n }

def send (service : Service) (m : MessageId) (content : String) : Service :=
  { service.setMessage m (some ⟨content, service.nextReceipt, true⟩) with
    nextReceipt := service.nextReceipt + 1 }

def receive (service : Service) (m : MessageId) : Option (Service × Message) :=
  match service.queue m with
  | some message =>
    if message.visible then
      let message := { message with popReceipt := service.nextReceipt, visible := false }
      some ({ service.setMessage m (some message) with nextReceipt := service.nextReceipt + 1 },
        message)
    else none
  | none => none

def expire (service : Service) (m : MessageId) : Service :=
  match service.queue m with
  | some message => service.setMessage m (some { message with visible := true })
  | none => service

def holds (service : Service) (m : MessageId) (popReceipt : Receipt) : Bool :=
  match service.queue m with
  | some message => message.popReceipt = popReceipt
  | none => false

def update (service : Service) (m : MessageId) (popReceipt : Receipt) (content : String)
    (visible : Bool) : Option (Service × Receipt) :=
  if service.holds m popReceipt then
    some ({ service.setMessage m (some ⟨content, service.nextReceipt, visible⟩) with
      nextReceipt := service.nextReceipt + 1 }, service.nextReceipt)
  else none

/-- Perform a request for message `m`, which was received with this content. A renewal passes the
message object on, and so writes its content again. -/
def perform (service : Service) (m : MessageId) (content : String) :
    Call → Option (Service × Receipt)
  | .renew popReceipt => service.update m popReceipt content false
  | .settle (.updateMessage popReceipt content) => service.update m popReceipt content true
  | .settle (.deleteMessage popReceipt) =>
    if service.holds m popReceipt then some (service.setMessage m none, popReceipt) else none
  | .settle (.sendDeadLetter content) =>
    some ({ service with deadLetter := service.deadLetter ++ [(m, content)] }, 0)
  | .settle _ => none

end Service

structure Attempt where
  message : MessageId
  content : String
  cfg : Config
  task : Task
  state : State
  log : List Event
  crashed : Bool := false

abbrev AttemptId := Nat

/-- An answer to a request for a message. -/
structure Answer where
  id : MessageId
  message : Message
  isRead : Bool := false

structure System where
  service : Service
  pushed : MessageId → Option Task
  answers : List Answer
  attempts : List Attempt
  performed : List (AttemptId × Call × Receipt)

inductive Act where
  | push (m : MessageId) (task : Task)
  | hand (m : MessageId)
  | receive (i : Nat) (cfg : Config) (call : CallResult)
  | advance (d : AttemptId) (a : Action)
  | serve (d : AttemptId) (call : Call)
  | expire (m : MessageId)
  | crash (d : AttemptId)

namespace System

def initial : System where
  service := ⟨fun _ => none, [], 0⟩
  pushed := fun _ => none
  answers := []
  attempts := []
  performed := []

/-- Only a request that was performed is answered with a success. Any request may fail. -/
def answerable (sys : System) (d : AttemptId) (a : Attempt) : Action → Bool
  | .answer (.ok ()) =>
    match a.state.pc with
    | .settling _ request => sys.performed.any fun x => x.1 = d ∧ x.2.1 = .settle request
    | _ => false
  | .renewal (.answer (.ok popReceipt) _) =>
    sys.performed.any fun x => x.1 = d ∧ (x.2.1 matches .renew _) ∧ x.2.2 = popReceipt
  | _ => true

def push (sys : System) (m : MessageId) (task : Task) : Option System :=
  if (sys.pushed m).isNone ∧ Backend.storageQueue.accepts task then
    some { sys with
      service := sys.service.send m task.serialize
      pushed := fun n => if n = m then some task else sys.pushed n }
  else none

/-- The service performs a request for a message. -/
def hand (sys : System) (m : MessageId) : Option System :=
  match sys.service.receive m with
  | none => none
  | some (service, message) =>
    some { sys with service := service, answers := sys.answers ++ [⟨m, message, false⟩] }

/-- A worker reads the answer to its request. -/
def receive (sys : System) (i : Nat) (cfg : Config) (call : CallResult) : Option System :=
  match sys.answers[i]? with
  | none => none
  | some answer =>
    if cfg.backend = .storageQueue ∧ answer.isRead = false then
      let sys := { sys with answers := sys.answers.set i { answer with isRead := true } }
      match Task.deserialize answer.message.content with
      | .error _ => some sys
      | .ok task =>
        let (state, log) := start cfg task answer.message.popReceipt call
        some { sys with
          attempts := sys.attempts ++
            [⟨answer.id, answer.message.content, cfg, task, state, log, false⟩] }
    else none

def advance (sys : System) (d : AttemptId) (action : Action) : Option System :=
  match sys.attempts[d]? with
  | none => none
  | some a =>
    if a.crashed = false ∧ sys.answerable d a action then
      match Delivery.step a.cfg a.state action with
      | none => none
      | some (state, events) =>
        some { sys with
          attempts := sys.attempts.set d { a with state := state, log := a.log ++ events } }
    else none

def serve (sys : System) (d : AttemptId) (call : Call) : Option System :=
  match sys.attempts[d]? with
  | none => none
  | some a =>
    if call ∈ calls a.log then
      match sys.service.perform a.message a.content call with
      | none => none
      | some (service, popReceipt) =>
        some { sys with service := service, performed := sys.performed ++ [(d, call, popReceipt)] }
    else none

def step (sys : System) : Act → Option System
  | .push m task => sys.push m task
  | .hand m => sys.hand m
  | .receive i cfg call => sys.receive i cfg call
  | .advance d a => sys.advance d a
  | .serve d call => sys.serve d call
  | .expire m => some { sys with service := sys.service.expire m }
  | .crash d =>
    match sys.attempts[d]? with
    | none => none
    | some a => some { sys with attempts := sys.attempts.set d { a with crashed := true } }

def machine : Mealy.Machine System Act Empty := ⟨fun sys a => (sys.step a).map fun t => (t, [])⟩

end System

end QueueSystem

end JobQ
