import JobQ.Library.Json

/-!
# Watching for preemptions

`ScheduledEventHandler` and `PreemptionEventHandler` in `ai4s/jobq/scheduled_events.py`, on a machine
of Azure: elsewhere the handler starts no task. An answer of the endpoint is a failure, whatever its
kind, or the document that `resp.json()` returns. The log is left out.
-/

namespace JobQ.ScheduledEvents

open JsonText

inductive Exc where
  | keyError (key : String)
  | typeError
deriving DecidableEq

structure ScheduledEvent where
  eventId : Json
  eventStatus : Json
  eventType : Json
  resourceType : Json
  resources : Json
  notBefore : Json
  description : Json
  eventSource : Json
  durationInSeconds : Json

def fields : List Str :=
  ["EventId", "EventStatus", "EventType", "ResourceType", "Resources", "NotBefore", "Description",
    "EventSource", "DurationInSeconds"]

/-! ## Reading an answer -/

def argument (members : Members) (name : Str) : Except Exc Json :=
  match getItem members name with
  | some value => .ok value
  | none => .error .typeError

/-- `ScheduledEvent(**event)` checks the names of the fields, and not their types. -/
def scheduledEvent : Json → Except Exc ScheduledEvent
  | .obj members =>
    if members.all fun m => m.1 ∈ fields then do
      let eventId ← argument members "EventId"
      let eventStatus ← argument members "EventStatus"
      let eventType ← argument members "EventType"
      let resourceType ← argument members "ResourceType"
      let resources ← argument members "Resources"
      let notBefore ← argument members "NotBefore"
      let description ← argument members "Description"
      let eventSource ← argument members "EventSource"
      let durationInSeconds ← argument members "DurationInSeconds"
      return { eventId, eventStatus, eventType, resourceType, resources, notBefore, description,
               eventSource, durationInSeconds }
    else .error .typeError
  | _ => .error .typeError

def subscript (data : Json) (key : String) : Except Exc Json :=
  match data with
  | .obj members =>
    match getItem members key with
    | some value => .ok value
    | none => .error (.keyError key)
  | _ => .error .typeError

/-- A loop over the value: a dictionary yields its keys, and a text its letters. -/
def iterate : Json → Except Exc (List Json)
  | .arr items => .ok items
  | .obj members => .ok (members.map fun m => .str m.1)
  | .str s => .ok (s.points.map fun p => .str ⟨[p]⟩)
  | _ => .error .typeError

inductive Answer where
  | fails
  | document (data : Json)

/-- `_get_scheduled_events`, where only the request is inside the `try`. -/
def getScheduledEvents : Answer → Except Exc (List ScheduledEvent)
  | .fails => .ok []
  | .document data => do
    let events ← subscript data "Events"
    let events ← iterate events
    events.mapM scheduledEvent

/-! ## The handler -/

inductive Poller where
  | polling
  | failed (exc : Exc)
deriving DecidableEq

structure Handler where
  poller : Poller := .polling
  shutdownEvent : Bool
  initiatedByUs : Bool := false
  disabled : Bool
deriving DecidableEq

def isPreempt (event : ScheduledEvent) : Bool :=
  match event.eventType with
  | .str eventType => eventType == "Preempt"
  | _ => false

def callback (h : Handler) (events : List ScheduledEvent) : Handler :=
  if events.any isPreempt then
    if h.disabled then h else { h with shutdownEvent := true, initiatedByUs := true }
  else if h.shutdownEvent && h.initiatedByUs then
    if h.disabled then h else { h with shutdownEvent := false, initiatedByUs := false }
  else h

inductive Input where
  | answers (answer : Answer)
  | sets
  | clears

def step (h : Handler) : Input → Handler
  | .answers answer =>
    match h.poller with
    | .failed _ => h
    | .polling =>
      match getScheduledEvents answer with
      | .ok events => callback h events
      | .error exc => { h with poller := .failed exc }
  | .sets => { h with shutdownEvent := true }
  | .clears => { h with shutdownEvent := false }

def run (h : Handler) (inputs : List Input) : Handler := inputs.foldl step h

/-- What `__aexit__` raises: it cancels the task and awaits it, and suppresses only the
`CancelledError`. -/
def leave (h : Handler) : Option Exc :=
  match h.poller with
  | .polling => none
  | .failed exc => some exc

end JobQ.ScheduledEvents
