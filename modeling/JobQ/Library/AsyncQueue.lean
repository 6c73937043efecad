import Mathlib.Data.List.Basic

/-!
# Bounded queues with a count of unfinished items

`asyncio.Queue`: `put` waits while the queue is full, and `get` while it is empty. An item counts as
unfinished from its `put` until its `task_done`, and `join` returns when none is.
-/

namespace Asyncio

structure Queue (α : Type*) where
  maxsize : Nat
  items : List α := []
  unfinished : Nat := 0

namespace Queue

variable {α : Type*}

def full (q : Queue α) : Bool := 0 < q.maxsize ∧ q.maxsize ≤ q.items.length

def put (q : Queue α) (item : α) : Option (Queue α) :=
  if q.full then none
  else some { q with items := q.items ++ [item], unfinished := q.unfinished + 1 }

def get (q : Queue α) : Option (α × Queue α) :=
  match q.items with
  | [] => none
  | item :: rest => some (item, { q with items := rest })

def taskDone (q : Queue α) : Queue α := { q with unfinished := q.unfinished - 1 }

def joined (q : Queue α) : Bool := q.unfinished = 0

theorem put_cases {q r : Queue α} {item : α} (put : q.put item = some r) :
    q.full = false ∧ r = { q with items := q.items ++ [item], unfinished := q.unfinished + 1 } := by
  unfold Queue.put at put
  split at put <;> cases put
  rename_i room
  exact ⟨by simpa using room, rfl⟩

theorem get_cases {q r : Queue α} {item : α} (get : q.get = some (item, r)) :
    ∃ rest, q.items = item :: rest ∧ r = { q with items := rest } := by
  unfold Queue.get at get
  split at get <;> cases get
  exact ⟨_, ‹_›, rfl⟩

theorem get_none {q : Queue α} (waits : q.get = none) : q.items = [] := by
  unfold Queue.get at waits
  split at waits
  · assumption
  · contradiction

theorem put_none {q : Queue α} {item : α} (waits : q.put item = none) : q.items ≠ [] := by
  unfold Queue.put at waits
  split at waits
  · rename_i full
    intro empty
    simp [Queue.full, empty] at full
    omega
  · contradiction

end Queue

end Asyncio
