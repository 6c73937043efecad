import Mathlib.Data.List.Basic

/-!
# Entering and leaving a stack of context managers

`StackManager` in `ai4s/jobq/work.py`, on the `AsyncExitStack` of the standard library. A registered
manager is a leaf, of which nothing is known but how its two methods end, or a `StackManager`. Its
`__aexit__` is given the exception in flight; an exception on the way in leaves the exit stack as it
is.
-/

namespace JobQ.StackManager

variable {ε : Type*}

inductive Reaction (ε : Type*) where
  | passes
  | suppresses
  | raises (exc : ε)

inductive Managers (ε : Type*) where
  | nil
  | leaf (name : String) (enters : Option ε) (exits : Option ε → Reaction ε) (rest : Managers ε)
  | nested (name : String) (inside rest : Managers ε)

inductive Event where
  | entered (name : String)
  | exits (name : String)
deriving DecidableEq

structure Entry (ε : Type*) where
  log : List Event
  stack : Managers ε
  exc : Option ε

def aenter : Managers ε → Entry ε
  | .nil => ⟨[], .nil, none⟩
  | .leaf name enters exits rest =>
    match enters with
    | some exc => ⟨[], .nil, some exc⟩
    | none =>
      let after := aenter rest
      ⟨.entered name :: after.log, .leaf name enters exits after.stack, after.exc⟩
  | .nested name inside rest =>
    let first := aenter inside
    match first.exc with
    | some exc => ⟨first.log, .nil, some exc⟩
    | none =>
      let after := aenter rest
      ⟨first.log ++ .entered name :: after.log, .nested name first.stack after.stack, after.exc⟩

structure Unwinding (ε : Type*) where
  log : List Event
  exc : Option ε
  pendingRaise : Bool

namespace Unwinding

def raised (u : Unwinding ε) : Option ε := if u.pendingRaise then u.exc else none

def calls (u : Unwinding ε) (name : String) : Unwinding ε := { u with log := u.log ++ [.exits name] }

def react (u : Unwinding ε) : Reaction ε → Unwinding ε
  | .passes => u
  | .suppresses => { u with exc := none, pendingRaise := false }
  | .raises exc => { u with exc := some exc, pendingRaise := true }

end Unwinding

/-- The loop of `AsyncExitStack.__aexit__`, from the last manager to the first. The `__aexit__` of a
`StackManager` drops what its stack returns, and so suppresses nothing. -/
def unwind : Managers ε → Unwinding ε → Unwinding ε
  | .nil, u => u
  | .leaf name _ exits rest, u =>
    let u := unwind rest u
    (u.calls name).react (exits u.exc)
  | .nested name inside rest, u =>
    let u := unwind rest u
    let inner := unwind inside { u.calls name with pendingRaise := false }
    match inner.raised with
    | some exc => { u with log := inner.log }.react (.raises exc)
    | none => { u with log := inner.log }.react .passes

def aexit (stack : Managers ε) (exc : Option ε) : Unwinding ε := unwind stack ⟨[], exc, false⟩

end JobQ.StackManager
