import JobQ.Library.Text

/-!
# The address of a queue

`BackendSpecParam` and `QueueConfig.get` in `ai4s/jobq/cli.py`, what `amlt_worker` there exports, and
`JobQ.from_environment` in `ai4s/jobq/jobq.py` with the entry of both backends. What Azure answers is
an input. A connection string is left out, as it names a queue service of its own; so are `exist_ok`,
which all of them pass on, and the window of the duplicate detection.
-/

namespace JobQ.BackendSpec

inductive Spec where
  | serviceBus (name ns : List Char)
  | storageQueue (name storageAccount : List Char)
deriving DecidableEq

def scheme : List Char := "sb://".toList

namespace Spec

def name : Spec → List Char
  | serviceBus name _ => name
  | storageQueue name _ => name

def str : Spec → List Char
  | serviceBus _ ns => scheme ++ ns
  | storageQueue _ storageAccount => storageAccount

end Spec

/-! ## The parameter of the command line -/

structure UsageError where
  expected : String
  got : List Char
deriving DecidableEq

def convert (value : List Char) : Except UsageError (Option Spec) :=
  if value = "__none__".toList then .ok none
  else
    match Text.rsplit '/' value with
    | none => .error ⟨"<storage-account>/<queue-name>", value⟩
    | some (location, name) =>
      if scheme <+: location then .ok (some (.serviceBus name (location.drop scheme.length)))
      else .ok (some (.storageQueue name location))

/-! ## Opening the queue -/

inductive Credential where
  | key (text : List Char)
  | token
deriving DecidableEq

def Credential.truthy : Credential → Bool
  | key text => !text.isEmpty
  | token => true

inductive Exc where
  | valueError (message : String)
  | runtimeError (message : String)
  | usageError (message : String)
  | azure
deriving DecidableEq

inductive Address where
  | serviceBus (fqns queueName : List Char)
  | storageQueue (accountUrl queueName : List Char)
deriving DecidableEq

/-- `get_token_credential()`, and the creation of a queue with a credential. -/
structure Azure where
  tokenCredential : Option Credential
  create : Address → Credential → Except Exc Unit

variable (azure : Azure)

def fromServiceBus (name fqns : List Char) (credential : Option Credential) : Except Exc Address :=
  match credential with
  | none => .error (.runtimeError "No credential provided.")
  | some credential => do
    azure.create (.serviceBus fqns name) credential
    return .serviceBus fqns name

def fromStorageQueue (name storageAccount : List Char) (credential : Option Credential) :
    Except Exc Address :=
  if name = "my-unique-queue".toList then
    .error (.valueError "Don't be lazy and change the queue name to something unique.")
  else
    let address := .storageQueue
      ("https://".toList ++ storageAccount ++ ".queue.core.windows.net".toList) name
    match credential.filter Credential.truthy with
    | none => .error (.valueError "Either connection_string or credential must be provided.")
    | some credential => do
      azure.create address credential
      return address

def hostSuffix : List Char := ".servicebus.windows.net".toList

def queueConfigGet (credential : Option Credential) : Spec → Except Exc Address
  | .storageQueue name storageAccount =>
    match (credential.filter Credential.truthy).or (azure.tokenCredential.filter Credential.truthy) with
    | none => .error (.usageError ("Could not authenticate. Make sure you're logged in via az CLI " ++
        "or run as a managed identity."))
    | some credential => fromStorageQueue azure name storageAccount (some credential)
  | .serviceBus name ns =>
    match (credential.filter Credential.truthy).or azure.tokenCredential with
    | none => .error .azure
    | some credential => fromServiceBus azure name (ns ++ hostSuffix) (some credential)

structure Environment where
  jobqStorage : Option (List Char)
  jobqQueue : Option (List Char)

/-- What `amlt_worker` exports. -/
def exported (spec : Spec) : Environment := ⟨some spec.str, some spec.name⟩

def fromEnvironment (environ : Environment) : Except Exc Address :=
  match environ.jobqStorage.filter (! ·.isEmpty), environ.jobqQueue.filter (! ·.isEmpty) with
  | none, _ => .error (.valueError "JOBQ_STORAGE environment variable not set.")
  | _, none => .error (.valueError "JOBQ_QUEUE environment variable not set.")
  | some storage, some queue =>
    if scheme <+: storage then
      fromServiceBus azure queue (storage.drop scheme.length ++ hostSuffix) none
    else fromStorageQueue azure queue storage none

end JobQ.BackendSpec
