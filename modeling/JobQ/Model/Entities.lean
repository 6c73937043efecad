import JobQ.Library.Dict
import JobQ.Library.Md5

/-!
# Tasks, responses and exceptions

`ai4s/jobq/entities.py`, with the default JSON encoder and decoder.
-/

namespace JobQ
open JsonText

inductive DecodeError where
  | valueError
  | keyError (key : String)
  | unsupportedVersion (version : Json)
  | typeError
  /-- A field is not of its declared type. The source goes on with such a task, the model does not. -/
  | undeclared

/-- The exceptions that reach the code modelled here. Only `cancelledError` is not an `Exception`
in Python's hierarchy. -/
inductive Exc where
  | cancelledError
  | workerCanceled
  | lockLostError (taskId : Option String)
  | notImplementedError (text : String)
  | unboundLocalError (name : String)
  | brokerError (text : String)
  | other (text : String)
  /-- Its `__str__` raises another exception, with this text. -/
  | unprintable (text : String)

/-- `str`, or the text of what it raises. -/
def Exc.str : Exc → Except String String
  | .cancelledError | .workerCanceled => .ok ""
  | .lockLostError taskId => .ok ("Lock lost for task " ++ taskId.getD "None")
  | .unboundLocalError name =>
      .ok ("cannot access local variable '" ++ name ++ "' where it is not associated with a value")
  | .notImplementedError text | .brokerError text | .other text => .ok text
  | .unprintable text => .error text

structure Response where
  isSuccess : Bool
  body : Json

/-! ## Tasks -/

def digest (text : String) : String := Md5.hexdigest text.toUTF8.toList

/-- A `Task` as it may be: nothing checks that its fields have the declared types. -/
structure AnyTask where
  kwargs : Json
  numRetries : Json
  error : Option String := none
  replyRequested : Json := .bool false
  id : Json := .null

namespace AnyTask

def dictWithoutId (t : AnyTask) : Option Members := do
  let kwargs ← dumps t.kwargs
  return [("version", .int 1), ("reply_requested", t.replyRequested), ("kwargs", .str kwargs),
    ("num_retries", t.numRetries)]

def hashed (t : AnyTask) : Option String := do dumps (.obj (← t.dictWithoutId))

/-- A `ValueError`, if an integer is too long to be written. -/
def _id (t : AnyTask) : Option Json :=
  if t.id.truthy then some t.id
  else t.hashed.map fun text => .str (digest text)

def serialize (t : AnyTask) : Option String := do
  let res ← t.dictWithoutId
  dumps (.obj (JsonText.setItem res "id" (← t._id)))

def subscript (data : Json) (key : String) : Except DecodeError Json :=
  match data with
  | .obj members =>
    match getItem members key with
    | some v => .ok v
    | none => .error (.keyError key)
  | _ => .error .typeError

def jsonLoads : Json → Except DecodeError Json
  | .str text =>
    match JsonText.loads text with
    | some v => .ok v
    | none => .error .valueError
  | _ => .error .typeError

def deserialize (string : Str) : Except DecodeError AnyTask := do
  let data ← jsonLoads (.str string)
  let version ← subscript data "version"
  if version.equalsInt 1 then
    let id ← subscript data "id"
    let kwargs ← jsonLoads (← subscript data "kwargs")
    let numRetries ← subscript data "num_retries"
    let replyRequested ← subscript data "reply_requested"
    return { id, kwargs, numRetries, replyRequested }
  else if version.equalsInt 0 then
    let id ← subscript data "id"
    let kwargs ← jsonLoads (← subscript data "kwargs")
    let numRetries ← subscript data "num_retries"
    return { id, kwargs, numRetries, replyRequested := .bool false }
  else .error (.unsupportedVersion version)

end AnyTask

def WireInt : Type := { n : Int // Fits n }

def WireInt.pred (n : WireInt) (positive : 0 < n.val) : WireInt :=
  ⟨n.val - 1, fits_mono n.property (by omega)⟩

/-- A task whose fields have the declared types, and which the wire leaves as it is. -/
structure Task where
  kwargs : Dict
  retries : WireInt
  error : Option String := none
  replyRequested : Bool := false
  id : Option String := none

namespace Task

def numRetries (t : Task) : Int := t.retries.val

theorem left (t : Task) (final : ¬ t.numRetries ≤ 0) : 0 < t.retries.val := Int.not_le.mp final

def toAny (t : Task) : AnyTask where
  kwargs := .obj t.kwargs.members
  numRetries := .int t.numRetries
  error := t.error
  replyRequested := .bool t.replyRequested
  id := t.id.elim .null fun id => .str id

def ofAny (t : AnyTask) : Option Task := do
  let id ← match t.id with
    | .null => some none
    | .str id => id.toString?.map some
    | _ => none
  match t.kwargs, t.numRetries, t.replyRequested with
  | .obj members, .int n, .bool replyRequested =>
    if h : WellFormed (.obj members) ∧ Fits n then
      return { id, kwargs := ⟨members, h.1⟩, retries := ⟨n, h.2⟩, error := t.error, replyRequested }
    else none
  | _, _, _ => none

def dictWithoutId (t : Task) : Members :=
  [("version", .int 1), ("reply_requested", .bool t.replyRequested),
    ("kwargs", .str (text (.obj t.kwargs.members))), ("num_retries", .int t.numRetries)]

def hashed (t : Task) : String := text (.obj t.dictWithoutId)

def _id (t : Task) : String :=
  match t.id with
  | some id => if id ≠ "" then id else digest t.hashed
  | none => digest t.hashed

def serialize (t : Task) : String :=
  text (.obj (JsonText.setItem t.dictWithoutId "id" (.str t._id)))

def deserialize (string : String) : Except DecodeError Task := do
  match ofAny (← AnyTask.deserialize string) with
  | some t => return t
  | none => .error .undeclared

/-! ## Delivered tasks -/

def delivered (t : Task) : Task := { t with id := some t._id, error := none }

theorem _id_ne_empty (t : Task) : t._id ≠ "" := by
  unfold _id
  cases t.id with
  | none => exact Md5.hexdigest_ne_empty _
  | some id =>
      simp only
      split
      · assumption
      · exact Md5.hexdigest_ne_empty _

theorem _id_of_id {t : Task} {id : String} (given : t.id = some id) (nonempty : id ≠ "") :
    t._id = id := by
  simp [_id, given, nonempty]

@[simp]
theorem delivered_id (t : Task) : t.delivered._id = t._id :=
  _id_of_id rfl t._id_ne_empty

theorem ofAny_toAny (t : Task) : ofAny t.toAny = some t := by
  have wellFormed : WellFormed (.obj t.kwargs.members) ∧ Fits t.numRetries :=
    ⟨t.kwargs.wellFormed, t.retries.property⟩
  cases t with
  | mk kwargs retries error replyRequested id =>
      cases id <;> simp [toAny, ofAny, dif_pos wellFormed] <;> rfl

end Task

def helloTask : Task where
  kwargs := ⟨[("cmd", .str "echo hello")], by decide⟩
  retries := ⟨5, fits_of_lt (by decide)⟩
  id := some "hello"

end JobQ
