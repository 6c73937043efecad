import JobQ.Library.Retry
import JobQ.Model.Entities
import Mathlib.Data.Rat.Defs

/-!
# The Service Bus REST client

`_CachedTokenCredential`, `_is_retryable` and the sending half of `ServiceBusRestClient` in
`ai4s/jobq/backend/servicebus_rest.py`, up to `ServiceBusRestBackend.push`, and `renew_lock`. The
endpoint, the credential and the clock are given from outside.
-/

namespace JobQ.ServiceBus
open JsonText

inductive HttpExc where
  | clientConnectionError
  | timeoutError
  | clientResponseError (status : Nat)
  | other (text : String)

inductive HttpOutcome where
  | response (status : Nat)
  | raises (exc : HttpExc)

structure AccessToken where
  token : String
  expiresOn : Rat

structure HttpRequest where
  method : String
  url : String
  headers : List (String × String)
  data : Option String

/-- The world a client talks to: the outcome of its `i`-th request, its `i`-th fresh token, and the
time at which it prepares its `i`-th request. -/
structure Endpoint where
  outcome : Nat → HttpOutcome
  token : Nat → AccessToken
  time : Nat → Rat

structure Client where
  fqns : String
  queueName : String
  maxRetries : Int

structure Session where
  token : Option AccessToken := none
  fetched : Nat := 0
  sent : List HttpRequest := []

def retryableStatusCodes : List Nat := [401, 408, 429, 500, 502, 503, 504]

def isRetryable : HttpExc → Bool
  | .clientConnectionError | .timeoutError => true
  | .clientResponseError status => status ∈ retryableStatusCodes
  | .other _ => false

def getToken (env : Endpoint) (s : Session) : String × Session :=
  let fetch := ((env.token s.fetched).token,
    { s with token := some (env.token s.fetched), fetched := s.fetched + 1 })
  match s.token with
  | none => fetch
  | some cached =>
    if env.time s.sent.length > cached.expiresOn - 60 then fetch else (cached.token, s)

def forceTokenRefresh (s : Session) : Session := { s with token := none }

def doRequest (env : Endpoint) (method url : String) (headers : List (String × String))
    (data : Option String) (s : Session) : Except HttpExc Nat × Session :=
  let (token, s) := getToken env s
  let request : HttpRequest :=
    { method, url, headers := ("Authorization", "Bearer " ++ token) :: headers, data }
  let outcome := env.outcome s.sent.length
  let s := { s with sent := s.sent ++ [request] }
  match outcome with
  | .raises exc => (.error exc, s)
  | .response status =>
    if status = 401 then (.error (.clientResponseError 401), forceTokenRefresh s)
    else (.ok status, s)

/-- The attempts `stop_after_attempt` allows: it is asked only after an attempt has been made. -/
def attempts (maxRetries : Int) : Nat := (maxRetries - 1).toNat + 1

def request (client : Client) (env : Endpoint) (method url : String)
    (headers : List (String × String)) (data : Option String) :
    Session → Except HttpExc Nat × Session :=
  Retry.retrying isRetryable (doRequest env method url headers data) (attempts client.maxRetries)

def effectiveRetries (client : Client) (maxRetries : Option Int) : Int :=
  maxRetries.getD client.maxRetries

/-- `_request` with the `max_retries` of its caller; `request` is the one that leaves it out. -/
def requestUpTo (client : Client) (env : Endpoint) (maxRetries : Option Int) (method url : String)
    (headers : List (String × String)) (data : Option String) :
    Session → Except HttpExc Nat × Session :=
  Retry.retrying isRetryable (doRequest env method url headers data)
    (attempts (effectiveRetries client maxRetries))

/-- `raise_for_status` of aiohttp. -/
def raiseForStatus (status : Nat) : Except HttpExc Nat :=
  if 400 ≤ status then .error (.clientResponseError status) else .ok status

def renewLock (client : Client) (env : Endpoint) (locationUrl : String) (s : Session) :
    Except HttpExc Nat × Session :=
  match requestUpTo client env (some 1) "POST" locationUrl [] none s with
  | (.error exc, s) => (.error exc, s)
  | (.ok status, s) => (raiseForStatus status, s)

def brokerProperties (messageId : String) : String :=
  text (.obj [("MessageId", .str messageId)])

def sendHeaders (messageId : String) : List (String × String) :=
  [("Content-Type", "application/atom+xml;type=entry;charset=utf-8"),
    ("BrokerProperties", brokerProperties messageId)]

/-- `send_message`. The response is closed and its status is not looked at. -/
def sendMessage (client : Client) (env : Endpoint) (body messageId : String) (s : Session) :
    Except HttpExc String × Session :=
  let url := "https://" ++ client.fqns ++ "/" ++ client.queueName ++ "/messages"
  match request client env "POST" url (sendHeaders messageId) (some body) s with
  | (.error exc, s) => (.error exc, s)
  | (.ok _, s) => (.ok messageId, s)

def push (client : Client) (env : Endpoint) (task : Task) (s : Session) :
    Except HttpExc String × Session :=
  sendMessage client env task.serialize task._id s

end JobQ.ServiceBus
