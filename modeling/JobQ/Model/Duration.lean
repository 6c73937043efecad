import JobQ.Library.IntLiteral

/-!
# Durations on the command line

`DurationParam` in `ai4s/jobq/cli.py`, for a text, and the text that `amlt_worker` there writes to
`JOBQ_TIME_LIMIT`. All units are whole seconds, so that a `timedelta` is a number of them.
-/

namespace JobQ.Duration

inductive Exc where
  | indexError
  | valueError
  | overflowError
  | usageError (expected : String) (got : List Char)
deriving DecidableEq

def secondsPerDay : Int := 86400

def maxDays : Int := 999999999

/-- The days of a normalised `timedelta` have at most nine digits. -/
structure Timedelta where
  totalSeconds : Int
  least : -maxDays * secondsPerDay ≤ totalSeconds
  greatest : totalSeconds < (maxDays + 1) * secondsPerDay
deriving DecidableEq

def timedelta (totalSeconds : Int) : Except Exc Timedelta :=
  if range : -maxDays * secondsPerDay ≤ totalSeconds ∧
      totalSeconds < (maxDays + 1) * secondsPerDay then
    .ok ⟨totalSeconds, range.1, range.2⟩
  else .error .overflowError

def unit : Char → Option Nat
  | 's' => some 1
  | 'm' => some 60
  | 'h' => some 3600
  | 'd' => some 86400
  | 'w' => some 604800
  | _ => none

def convert (value : List Char) : Except Exc Timedelta :=
  match value.getLast? with
  | none => .error .indexError
  | some last =>
    match unit last with
    | none => .error (.usageError "<number>[smhdw]" value)
    | some seconds =>
      match IntLiteral.int value.dropLast with
      | none => .error .valueError
      | some number => timedelta (number * seconds)

def exported (timeLimit : Timedelta) : List Char := IntLiteral.str timeLimit.totalSeconds ++ ['s']

end JobQ.Duration
