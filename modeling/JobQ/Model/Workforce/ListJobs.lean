import JobQ.Library.Json
import JobQ.Model.Workforce.Hire
import JobQ.Model.Workforce.RequestWithRetry

/-!
# Listing the jobs of an experiment

`list_jobs` in `ai4s/jobq/orchestration/workforce.py`. The tokens that the credential gives, and what
comes of the requests, are inputs. So are the two readers of third parties that the code relies on:
the one that parses a time, and the one that reads the value of a metric.
-/

namespace JobQ.ListJobs

open JsonText RequestWithRetry Workforce

/-! ## Jobs -/

structure AmlExperiment where
  id : Str
  subscriptionId : String
  resourceGroup : String
  workspace : String
deriving DecidableEq

structure AmlJob (DateTime Number : Type) where
  experiment : AmlExperiment
  status : Status
  name : Str
  startTime : Option DateTime
  cluster : Str
  errorMsg : Option Str := none
  metrics : List (Str × Number)

inductive Raised where
  | request (exc : RequestWithRetry.Raised)
  | runtimeError (message : String)
  /-- The message ends in the data, as Python writes it. -/
  | runtimeErrorWith (message : String) (data : Json)
  | valueError
  | keyError (key : String)
  | typeError
  | attributeError
  | parserError
  | validationError
  | credentialError (message : String)

structure Readers (DateTime Number : Type) where
  parseUtc : Json → Option DateTime
  number : Json → Option Number

structure Config where
  workspaceLocation : String
  experimentName : String
  subscriptionId : String
  resourceGroup : String
  workspaceName : Option String
deriving DecidableEq

section

variable {DateTime Number : Type}

def subscript (data : Json) (key : String) : Except Raised Json :=
  match data with
  | .obj members =>
    match getItem members key with
    | some value => .ok value
    | none => .error (.keyError key)
  | _ => .error .typeError

def get (data : Json) (key : String) : Except Raised Json :=
  match data with
  | .obj members => .ok ((getItem members key).getD .null)
  | _ => .error .attributeError

def asStr : Json → Except Raised Str
  | .str s => .ok s
  | _ => .error .validationError

def statuses : List Status :=
  [.cancelRequested, .canceled, .completed, .failed, .finalizing, .notStarted, .paused, .preparing,
    .queued, .running, .starting, .succeeded, .validating, .waiting]

def asStatus : Json → Except Raised Status
  | .str s =>
    match statuses.find? fun status => status.text = s with
    | some status => .ok status
    | none => .error .validationError
  | _ => .error .validationError

def lastValues : Json → Except Raised Members
  | .null => .ok []
  | .obj metrics => metrics.mapM fun metric => (subscript metric.2 "lastValue").map (metric.1, ·)
  | _ => .error .attributeError

def asNumber (readers : Readers DateTime Number) (value : Json) : Except Raised Number :=
  match readers.number value with
  | some number => .ok number
  | none => .error .validationError

/-- What the loop makes of a listed job. Pydantic checks the experiment first, and the job last. -/
def buildJob (readers : Readers DateTime Number) (config : Config) (workspace : String)
    (raw : Json) : Except Raised (AmlJob DateTime Number) := do
  let properties ← subscript raw "properties"
  let id ← asStr (← subscript properties "experimentId")
  let experiment := ⟨id, config.subscriptionId, config.resourceGroup, workspace⟩
  let annotations ← subscript raw "annotations"
  let status ← subscript annotations "status"
  let name ← subscript annotations "displayName"
  let startTime ← match ← get annotations "effectiveStartTimeUtc" with
    | .null => pure none
    | st =>
      match readers.parseUtc st with
      | some time => pure (some time)
      | none => .error .parserError
  let cluster ← subscript (← subscript properties "compute") "target"
  let err ← get annotations "error"
  let errorMsg ← if err.truthy then subscript err "message" else pure Json.null
  let metrics ← lastValues (← get annotations "metrics")
  let status ← asStatus status
  let name ← asStr name
  let cluster ← asStr cluster
  let errorMsg ← match errorMsg with
    | .null => pure none
    | message => (asStr message).map some
  let metrics ← metrics.mapM fun metric => (asNumber readers metric.2).map (metric.1, ·)
  pure { experiment, status, name, startTime, cluster, errorMsg, metrics }

/-! ## Requests -/

inductive Ordering where
  | asc
  | desc
deriving DecidableEq

def Ordering.text : Ordering → String
  | .asc => "Asc"
  | .desc => "Desc"

def eqFilter (field : String) (values : List String) : Json :=
  .obj [("field", .str field), ("operator", .str "eq"), ("values", .arr (values.map fun value => .str value))]

def baseFilters (config : Config) : List Json :=
  [eqFilter "type" ["runs"], eqFilter "annotations/archived" ["false"],
    eqFilter "properties/experimentName" [config.experimentName]]

/-- The list that was given, or else a new one, after the filter by status is appended to it. -/
def extend (extraFilters : List Json) : Option (List Status) → List Json
  | none => extraFilters
  | some withStatus =>
    extraFilters ++ [eqFilter "annotations/status" (withStatus.map Status.text)]

def payload (config : Config) (ordering : Ordering) (extraFilters : List Json) : Members :=
  [("filters", .arr (baseFilters config ++ extraFilters)),
    ("order", .arr [.obj [("field", .str "properties/creationContext/createdTime"),
      ("direction", .str ordering.text)]]),
    ("freeTextSearch", .str ""), ("pageSize", .int 100), ("includeTotalResultCount", .bool true),
    ("searchBuilder", .str "AppendPrefix")]

def url (config : Config) (workspace : String) : String :=
  "https://ml.azure.com/api/" ++ config.workspaceLocation ++ "/index/v1.0/subscriptions/" ++
    config.subscriptionId ++ "/resourceGroups/" ++ config.resourceGroup ++
    "/providers/Microsoft.MachineLearningServices/workspaces/" ++ workspace ++ "/entities"

structure Request where
  method : String
  url : String
  headers : List (String × String)
  json : Members

def pageRequest (config : Config) (workspace : String) (body : Members) (token : String)
    (continuationToken : Json) : Request where
  method := "POST"
  url := url config workspace
  headers := [("Authorization", "Bearer " ++ token), ("Content-Type", "application/json")]
  json := body ++ ([("continuationToken", continuationToken)] : Members)

/-! ## The loop over the pages -/

structure Round where
  token : Except String String
  request : Nat → RequestWithRetry.Outcome
  jitter : Nat → Jitter
  clock : Nat → Monotonic

inductive Event (DateTime Number : Type) where
  | requested (request : Request)
  | yielded (job : AmlJob DateTime Number)

inductive Ending where
  | stops
  | raises (exc : Raised)
  | awaits

structure Run (DateTime Number : Type) where
  events : List (Event DateTime Number)
  ending : Ending

def hasValue : Json → Except Raised Bool
  | .obj members => .ok (getItem members "value").isSome
  | .arr items => .ok <| items.any fun
    | .str s => s = "value"
    | _ => false
  | .str s => .ok (Str.contains "value" s)
  | _ => .error .typeError

/-- A loop over the value: a dictionary yields its keys, and a text its letters. -/
def iterate : Json → Except Raised (List Json)
  | .arr items => .ok items
  | .obj members => .ok (members.map fun m => .str m.1)
  | .str s => .ok (s.points.map fun p => .str ⟨[p]⟩)
  | _ => .error .typeError

def readPage (config : Config) (ending : RequestWithRetry.Ending) : Except Raised (Json × List Json) := do
  let failed := "Failed to fetch jobs under experiment " ++ config.experimentName ++ ": "
  let response ← match ending with
    | .returned response => pure response
    | .raised exc | .unreachable exc => .error (.request exc)
  if response.statusCode ≠ 200 then .error (.runtimeError (failed ++ response.text)) else
    let data ← match loads response.text with
      | some data => pure data
      | none => .error .valueError
    if ← hasValue data then
      let raws ← iterate (← subscript data "value")
      pure (data, raws)
    else .error (.runtimeErrorWith failed data)

variable (readers : Readers DateTime Number) (config : Config) (workspace : String)
  (maxJobs : Option Int)

def yieldJobs (total : Nat) : List Json → List (AmlJob DateTime Number) × Except Ending Nat
  | [] => ([], .ok total)
  | raw :: rest =>
    match buildJob readers config workspace raw with
    | .error exc => ([], .error (.raises exc))
    | .ok job =>
      if maxJobs.any fun limit => limit ≤ ((total + 1 : Nat) : Int) then ([job], .error .stops)
      else
        let (jobs, after) := yieldJobs (total + 1) rest
        (job :: jobs, after)

def nextPage (data : Json) (after : Except Ending Nat) : Except Ending (Json × Nat) := do
  let total ← after
  match get data "continuationToken" with
  | .error exc => .error (.raises exc)
  | .ok .null => .error .stops
  | .ok continuationToken => pure (continuationToken, total)

def fetchPages (body : Members) (continuationToken : Json) (total : Nat) :
    List Round → Run DateTime Number
  | [] => ⟨[], .awaits⟩
  | round :: rest =>
    match round.token with
    | .error message => ⟨[], .raises (.credentialError message)⟩
    | .ok token =>
      let requested := .requested (pageRequest config workspace body token continuationToken)
      let call := requestWithRetry none round.request round.jitter round.clock
      match readPage config call.ending with
      | .error exc => ⟨[requested], .raises exc⟩
      | .ok (data, raws) =>
        let (jobs, after) := yieldJobs readers config workspace maxJobs total raws
        let events := requested :: jobs.map .yielded
        match nextPage data after with
        | .error ending => ⟨events, ending⟩
        | .ok (continuationToken, total) =>
          let run := fetchPages body continuationToken total rest
          ⟨events ++ run.events, run.ending⟩

def listJobs (withStatus : Option (List Status)) (ordering : Ordering) (maxJobs : Option Int)
    (extraFilters : Option (List Json)) (rounds : List Round) : Run DateTime Number :=
  let extraFilters := extend (extraFilters.getD []) withStatus
  match config.workspaceName with
  | none => ⟨[], .raises (.runtimeError "Workspace name is not set in the AzureML client.")⟩
  | some workspace =>
    fetchPages readers config workspace maxJobs (payload config ordering extraFilters) .null 0 rounds

end

end JobQ.ListJobs
