import JobQ.Library.FloatLiteral
import Mathlib.Algebra.Group.Nat.Defs

/-!
# Requests with retries

`_request_with_retry` and `_resume_retry_delay` in `ai4s/jobq/orchestration/workforce.py`. What comes
of the requests of a call, what `random.uniform` draws after each, and what the clock then shows are
inputs. Logging is left out.
-/

namespace JobQ.RequestWithRetry

structure Headers where
  xMsRetryAfterMs : Option String := none
  retryAfter : Option String := none
deriving DecidableEq

structure Response where
  statusCode : Int
  headers : Headers := {}
  text : String := ""
deriving DecidableEq

structure RequestException where
  name : String
  message : String
deriving DecidableEq

inductive Outcome where
  | response (response : Response)
  | exception (exc : RequestException)
deriving DecidableEq

inductive Raised where
  | requestException (exc : RequestException)
  | overflowError
  | valueError
  | osError
  | assertionError
deriving DecidableEq

/-! ## The waits -/

def Jitter : Type := { x : Float // 0 ≤ x ∧ x ≤ 1 }

instance : Inhabited Jitter := ⟨0, by decide, by decide⟩

def maxZero (x : Float) : Float := if 0.0 < x then x else 0.0

def powTwo (attempt : Nat) : Except Raised Float :=
  if attempt < 1024 then .ok (Float.ofNat (1 <<< attempt)) else .error .overflowError

def backoff (attempt : Nat) (jitter : Jitter) : Except Raised Float := do
  let pow ← powTwo attempt
  pure ((if 30.0 < pow then 30.0 else pow) + jitter.val)

def askedDelay (headers : Headers) : Option Float :=
  let ms := headers.xMsRetryAfterMs.bind fun text => FloatLiteral.float text.toList
  let ra := headers.retryAfter.bind fun text => FloatLiteral.float text.toList
  (ms.map fun ms => maxZero (ms / 1000.0)).or (ra.map maxZero)

def resumeRetryDelay (response : Response) (attempt : Nat) (jitter : Jitter) : Except Raised Float :=
  match askedDelay response.headers with
  | some delay => .ok delay
  | none => backoff attempt jitter

/-- Nanoseconds since the machine was started, which is less than 146 years ago. -/
def Monotonic : Type := { ns : Nat // ns < 2 ^ 62 }

instance : Inhabited Monotonic := ⟨0, by decide⟩

def roundUp (x : Float) : Nat :=
  let whole := x.toUInt64
  if whole.toFloat < x then whole.toNat + 1 else whole.toNat

/-- `time.sleep`, on Linux. Both the time and the deadline, to which `clock_nanosleep` is told to
sleep, are kept in nanoseconds, in 64 bits. -/
def sleep (now : Monotonic) (seconds : Float) : Except Raised Unit :=
  let nanoseconds := seconds * 1000000000.0
  if seconds.isNaN then .error .valueError
  else if ¬(-9223372036854775808.0 ≤ nanoseconds ∧ nanoseconds < 9223372036854775808.0) then
    .error .overflowError
  else if nanoseconds < 0.0 then .error .valueError
  -- the sum wraps round, and a deadline before the start is no valid argument
  else if 2 ^ 63 ≤ now.val + roundUp nanoseconds then .error .osError
  else .ok ()

/-! ## The loop -/

inductive Ending where
  | returned (response : Response)
  | raised (exc : Raised)
  /-- The code after the loop raises. -/
  | unreachable (exc : Raised)
deriving DecidableEq

structure Call where
  sent : Nat
  ending : Ending
deriving DecidableEq

def Response.isFinal (response : Response) : Bool :=
  response.statusCode < 500 && response.statusCode != 429

section

variable (retries : Int) (request : Nat → Outcome) (jitter : Nat → Jitter) (clock : Nat → Monotonic)

def loop (lastExc : Option RequestException) (attempt : Nat) : Nat → Call
  | 0 =>
    ⟨attempt, .unreachable <|
      match lastExc with
      | none => .assertionError
      | some exc => .requestException exc⟩
  | left + 1 =>
    match request attempt with
    | .exception exc =>
      if attempt = retries then ⟨attempt + 1, .raised (.requestException exc)⟩
      else
        match backoff attempt (jitter attempt) >>= sleep (clock attempt) with
        | .error raised => ⟨attempt + 1, .raised raised⟩
        | .ok () => loop (some exc) (attempt + 1) left
    | .response response =>
      if response.isFinal then ⟨attempt + 1, .returned response⟩
      else if attempt = retries then ⟨attempt + 1, .returned response⟩
      else
        match resumeRetryDelay response attempt (jitter attempt) >>= sleep (clock attempt) with
        | .error raised => ⟨attempt + 1, .raised raised⟩
        | .ok () => loop lastExc (attempt + 1) left

end

def listJobsMaxRetries : Int := 3

def requestWithRetry (maxRetries : Option Int) (request : Nat → Outcome) (jitter : Nat → Jitter)
    (clock : Nat → Monotonic) : Call :=
  let retries := maxRetries.getD listJobsMaxRetries
  loop retries request jitter clock none 0 (retries + 1).toNat

end JobQ.RequestWithRetry
