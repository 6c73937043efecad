import Mathlib.Data.List.Infix
import JobQ.Library.Sweep
import JobQ.Model.Workforce

/-!
# Hiring in one region

`hire`, `parallel_hire` and `parallel_hire_in_batches` in `ai4s/jobq/orchestration/workforce.py`. The
workers that a workforce builds are numbered. What the service does with the submission of each of
them is an input. The waits between submissions are left out, and so are logging and progress bars.
-/

namespace JobQ.Workforce

/-- What a call raises. A `KeyboardInterrupt` or a `SystemExit` is no `Exception`. -/
inductive Raised where
  | httpResponseError (message : String) (code : Option String)
  | runtimeError (message : String)
  | valueError (message : String)
  | otherException
  | baseException
deriving DecidableEq

def Raised.isException : Raised → Bool
  | .baseException => false
  | _ => true

def contains (part text : String) : Bool := part.toList <:+: text.toList

def isDuplicateJobNameError (message : String) (code : Option String) : Bool :=
  contains "JobPropertyImmutable" message || code == some "JobPropertyImmutable"

/-- The threads of the pool are joined when it is left. -/
def runParallel {Item : Type*} (fn : Item → Option Raised) (items : List Item) :
    Sweep Item Raised :=
  Sweep.pooled Raised.isException fn items

variable (createOrUpdate : Nat → Option Raised)

def submitJob (job : Nat) : Option Raised :=
  match createOrUpdate job with
  | some (.httpResponseError message code) =>
    if isDuplicateJobNameError message code then none
    else some (.httpResponseError message code)
  | outcome => outcome

/-- The first worker that is built has the number `built`. -/
def hire (built : Nat) (n : Int) : Sweep Nat Raised :=
  Sweep.sequential (submitJob createOrUpdate) (List.range' built n.toNat)

def parallelHire (built : Nat) (n : Int) : Sweep Nat Raised :=
  if n ≤ 0 then {}
  else
    let remaining := n - 1
    (hire createOrUpdate built 1).andThen <|
      if remaining = 0 then {}
      else runParallel (submitJob createOrUpdate) (List.range' (built + 1) remaining.toNat)

def hireBatches (n batchSize : Int) : Nat → Nat → Sweep (List Nat) Raised
  | 0, _ => {}
  | batches + 1, hired =>
    let thisBatch := min batchSize (n - hired)
    let batch := parallelHire createOrUpdate hired thisBatch
    Sweep.andThen ⟨[batch.attempts], batch.raised⟩
      (hireBatches n batchSize batches (hired + thisBatch.toNat))

def parallelHireInBatches (n batchSize : Int) : Sweep (List Nat) Raised :=
  if n ≤ 0 then {}
  else if batchSize ≤ 0 then
    ⟨[], some (.valueError ("batch_size must be positive, got " ++ toString batchSize))⟩
  else
    let numBatches := (n + batchSize - 1).fdiv batchSize
    hireBatches createOrUpdate n batchSize numBatches.toNat 0

end JobQ.Workforce
