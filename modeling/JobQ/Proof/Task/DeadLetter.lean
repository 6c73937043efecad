import JobQ.Proof.Delivery.Requests
import JobQ.Proof.Task.Wire

/-!
# The copy on the dead-letter queue

Giving up a task writes the reason into a copy of it, and sends the copy as `serialize` writes it.
`serialize` does not write the reason, so no copy carries one.
-/

namespace JobQ

/-- What a reader of the dead-letter queue should find. -/
structure Explains (task : Task) (error : String) (copy : Task) : Prop where
  id : copy.id = some task._id
  kwargs : copy.kwargs = task.kwargs
  numRetries : copy.numRetries = task.numRetries
  replyRequested : copy.replyRequested = task.replyRequested
  error : copy.error = some error

namespace Task

theorem serialize_error (t : Task) (error : Option String) :
    serialize { t with error } = t.serialize :=
  rfl

theorem deadLetter_copy (t : Task) (error : Option String) :
    deserialize (serialize { t with error }) = .ok { t with id := some t._id, error := none } := by
  rw [serialize_error]
  exact deserialize_serialize t

end Task

theorem deadLetter_unexplained (task : Task) (popReceipt : Receipt) (error : String) :
    ∃ content copy,
      Delivery.firstRequest .storageQueue task popReceipt (.deadLetter error) =
        some (.sendDeadLetter content) ∧
      Task.deserialize content = .ok copy ∧ ¬ Explains task error copy := by
  refine ⟨_, _, rfl, Task.deadLetter_copy task (some error), ?_⟩
  intro explains
  cases explains.error

theorem helloTask_unexplained :
    ¬ ∃ content copy,
      Delivery.firstRequest .storageQueue helloTask 0 (.deadLetter "boom") =
        some (.sendDeadLetter content) ∧
      Task.deserialize content = .ok copy ∧ Explains helloTask "boom" copy := by
  rintro ⟨_, copy, asked, read, explains⟩
  cases asked
  rw [Task.deadLetter_copy] at read
  cases read
  cases explains.error

end JobQ
