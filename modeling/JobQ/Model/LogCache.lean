import Mathlib.Data.List.DropRight
import Mathlib.Data.Rat.Cast.Order
import JobQ.Library.TtlCache

/-!
# The last lines of a task's log

`CachingLogHandler` in `ai4s/jobq/logging_utils.py`. The handler is given the records of all loggers.
A call reads the clock once, in seconds. What it is asked for is the deque itself, as it is then.
-/

namespace JobQ.LogCache

open TtlCache

structure LogRecord (Object : Type) where
  name : String
  msg : Object
  args : List Object := []
deriving DecidableEq

/-- `getMessage`, by what `str` and `%` make of objects. -/
def LogRecord.getMessage {Object : Type} (str : Object → Object)
    (percent : Object → List Object → Object) (record : LogRecord Object) : Object :=
  if record.args.isEmpty then str record.msg else percent (str record.msg) record.args

def maxsize : Nat := 100
def ttl : Rat := 60
def maxlen : Nat := 100

section

variable {Object : Type}

abbrev Caches (Object : Type) : Type := Cache String (List Object) Rat

def append (buffer : List Object) (msg : Object) : List Object := (buffer ++ [msg]).rtake maxlen

def emit (caches : Caches Object) (now : Rat) (record : LogRecord Object) : Caches Object :=
  if "task.".toList <+: record.name.toList then
    let caches :=
      if contains caches record.name now then caches
      else setItem maxsize caches record.name [] now (now + ttl)
    touch caches record.name fun buffer => append buffer record.msg
  else caches

def getLogCache (caches : Caches Object) (now : Rat) (taskId : String) :
    List Object × Caches Object :=
  let loggerName := "task." ++ taskId
  if contains caches loggerName now then
    (((caches.lookup loggerName).map Prod.fst).getD [], touch caches loggerName id)
  else ([], caches)

inductive Call (Object : Type) where
  | emit (now : Rat) (record : LogRecord Object)
  | getLogCache (now : Rat) (taskId : String)
deriving DecidableEq

def Call.now : Call Object → Rat
  | .emit now _ | .getLogCache now _ => now

def step (caches : Caches Object) : Call Object → Caches Object
  | .emit now record => emit caches now record
  | .getLogCache now taskId => (getLogCache caches now taskId).2

def cachesAfter (calls : List (Call Object)) : Caches Object := calls.foldl step ∅

end

end JobQ.LogCache
