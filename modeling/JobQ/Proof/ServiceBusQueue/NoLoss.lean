import JobQ.Proof.ServiceBusQueue.Sound

/-!
# Tasks on a Service Bus queue

A task that the broker has taken is found again with all that was pushed, until a callback has
returned for it. Its retries are never spent, and pushing it again makes no second message while
its id is remembered.
-/

namespace JobQ.ServiceBusQueue
open Delivery PeekLock
open QueueSystem (AttemptId)

namespace System

variable {sys : System} {log : List Event} {G : System → Act → Prop} {n : Nat}
  {id content : String}

/-- A task that was pushed and accepted as message `n`. -/
structure Accepted (sys : System) (log : List Event) (n : Nat) (task : Task) : Prop where
  posted : ∃ (i : Nat) (request : ServiceBus.HttpRequest), sys.posted[i]? = some (task, request)
  accepted : .accepted n task._id task.serialize ∈ log

theorem run_accepted (run : Mealy.Run machine G ({}, []) log sys)
    (accepted : .accepted n id content ∈ log) :
    ∃ task, Accepted sys log n task ∧ id = task._id ∧ content = task.serialize := by
  obtain ⟨i, ⟨task, request⟩, posted, rfl, rfl⟩ := (run_sound run).accepted accepted
  exact ⟨task, ⟨⟨i, request, posted⟩, accepted⟩, rfl, rfl⟩

theorem Accepted.only {task : Task} (origin : Accepted sys log n task)
    (run : Mealy.Run machine G ({}, []) log sys) (accepted : .accepted n id content ∈ log) :
    content = task.serialize :=
  ((run_lives (run_broker run) n).accepted_once origin.accepted accepted).2

theorem Accepted.received {task : Task} {d : AttemptId} {a : Attempt}
    (origin : Accepted sys log a.number task) (run : Mealy.Run machine G ({}, []) log sys)
    (attempt : sys.attempts[d]? = some a) : a.task = task.delivered := by
  have grounded := (run_sound run).attempts attempt
  obtain ⟨id, accepted⟩ := grounded.accepted
  have read := grounded.read
  rw [origin.only run accepted, Task.deserialize_serialize] at read
  exact (Except.ok.inj read).symm

/-- Where a task that was accepted is found: queued or buried with the text that was pushed, or
executed as it was pushed. -/
inductive Kept (sys : System) (n : Nat) (task : Task) : Prop
  | queued {message : Message String String} (stored : sys.broker.queue n = some message)
      (text : message.content = task.serialize)
  | buried {message : Message String String} (buried : (n, message) ∈ sys.broker.deadLetter)
      (text : message.content = task.serialize)
  | executed {d : AttemptId} {a : Attempt} {ret : JsonText.Json}
      (attempt : sys.attempts[d]? = some a) (number : a.number = n)
      (received : a.task = task.delivered) (returned : .callbackEnded (.returned ret) ∈ a.log)

theorem Accepted.kept {task : Task} (origin : Accepted sys log n task)
    (run : Mealy.Run machine G ({}, []) log sys) : Kept sys n task := by
  have lives := run_lives (run_broker run) n
  cases queued : sys.broker.queue n with
  | some message =>
      rcases lives.origin with unborn | ⟨id, content, first⟩
      · rw [status_queued queued] at unborn
        cases unborn
      · obtain ⟨-, same⟩ := first.kept message (status_queued queued)
        exact .queued queued (same.trans (origin.only run first.accepted))
  | none =>
      have gone : sys.broker.status n = .gone := by
        unfold Broker.status
        rw [queued]
        by_cases known : n < sys.broker.nextNumber
        · simp [known]
        · have unborn : sys.broker.status n = .unborn := by simp [Broker.status, queued, known]
          have absent := lives.unborn unborn _ origin.accepted
          simp [Event.about] at absent
      obtain ⟨how, removed⟩ := lives.gone gone
      have buries := run_buries (run_broker run)
      have buried (why : ∀ token, how ≠ .completed token) : Kept sys n task := by
        obtain ⟨message, buried⟩ := buries.buried removed why
        exact .buried buried (origin.only run (buries.removed buried).1)
      rcases (run_sound run).removed removed with rfl | ⟨d, a, attempt, rfl, asks⟩
      · exact buried (by simp)
      · cases asks with
        | completes asked =>
            obtain ⟨ret, returned⟩ := ((run_sound run).attempts attempt).accounted.completes asked
            exact .executed attempt rfl (origin.received run attempt) returned
        | givesUp => exact buried (by simp)

/-- Of every post that the broker took, the message or an earlier one with its id is kept. -/
theorem no_message_lost {i : Nat} {task : Task} {request : ServiceBus.HttpRequest}
    (run : Mealy.Run machine Mealy.always ({}, []) log sys)
    (posted : sys.posted[i]? = some (task, request)) (taken : i ∈ sys.taken) :
    ∃ n first, Accepted sys log n first ∧ first._id = task._id ∧ Kept sys n first := by
  obtain ⟨x, n, content, found, accepted⟩ := (run_sound run).taken taken
  rw [posted] at found
  cases found
  obtain ⟨first, origin, same, -⟩ := run_accepted run accepted
  exact ⟨n, first, origin, same.symm, origin.kept run⟩

theorem no_message_lost_hello : ∃ sys log n first, Accepted sys log n first ∧
    first._id = helloTask._id ∧ Kept sys n first := by
  obtain ⟨n, first, kept⟩ := no_message_lost (hello_received.mono fun _ _ _ => trivial)
    (i := 0) rfl (List.mem_singleton.mpr rfl)
  exact ⟨_, _, n, first, kept⟩

/-- Every delivery gets the task that was pushed, with all its retries, and a dead letter that has
retries left has been delivered as often as the broker allows. -/
theorem retries_never_spent (run : Mealy.Run machine Mealy.always ({}, []) log sys) :
    (∀ (d : AttemptId) (a : Attempt), sys.attempts[d]? = some a →
      ∃ task, Accepted sys log a.number task ∧ a.task = task.delivered) ∧
    ∀ n message, (n, message) ∈ sys.broker.deadLetter → ∃ task, Accepted sys log n task ∧
      message.content = task.serialize ∧
        (0 < task.numRetries → maxDeliveryCount ≤ deliveries n log) := by
  refine ⟨fun d a attempt => ?_, fun n message buried => ?_⟩
  · obtain ⟨id, accepted⟩ := ((run_sound run).attempts attempt).accepted
    obtain ⟨task, origin, -⟩ := run_accepted run accepted
    exact ⟨task, origin, origin.received run attempt⟩
  · obtain ⟨accepted, how, removed, open_⟩ := (run_buries (run_broker run)).removed buried
    obtain ⟨task, origin, -, text⟩ := run_accepted run accepted
    refine ⟨task, origin, text, fun left => ?_⟩
    rcases (run_sound run).removed removed with rfl | ⟨d, a, attempt, rfl, asks⟩
    · obtain ⟨before, after, split⟩ := List.append_of_mem removed
      have often := (run_lives (run_broker run) n).exceeded split
      rw [split, deliveries_append]
      exact often.trans (Nat.le_add_right _ _)
    · cases asks with
      | completes => exact absurd rfl (open_ _)
      | givesUp asked =>
          have final := (((run_sound run).attempts attempt).accounted.givesUp asked).1
          rw [origin.received run attempt] at final
          exact absurd left (Int.not_lt.mpr final)

theorem retries_never_spent_hello : ∃ (log : List Event) (a : Attempt), a.content = helloTask.serialize ∧
    ∃ task, Accepted (helloSystem (some helloLocked) helloWaiting [] []) log a.number task ∧
      a.task = task.delivered :=
  have spent := retries_never_spent (hello_received.mono fun _ _ _ => trivial)
  ⟨_, _, rfl, spent.1 0 _ rfl⟩

/-! ## Duplicates -/

theorem Steps.forgot {act : Act} {next : System} {events : List Event}
    (stepped : Steps sys act next events) (forgot : .forgot id ∈ events) : act = .forget id := by
  have forgets {op : Op String String} {broker : Broker String String}
      (performs : sys.Performs op broker events) : op = .forget id := performs.cases.forgot forgot
  cases stepped with
  | take _ _ sent => cases forgets sent
  | unreadable _ _ locks => cases forgets locks
  | receive _ _ _ locks => cases forgets locks
  | @serve _ _ call _ _ _ _ _ named performs =>
      cases forgets performs
      unfold operation at named
      split at named <;> cases named
  | @own act _ _ _ own performs =>
      cases forgets performs
      cases act <;> cases own
      rfl
  | _ => cases forgot

/-- However often tasks with this id are pushed, and their requests taken, while it is remembered
there is one message for them. -/
theorem pushed_once {i : Nat} {task : Task} {request : ServiceBus.HttpRequest}
    (run : Mealy.Run machine (fun _ act => act ≠ .forget task._id) ({}, []) log sys)
    (posted : sys.posted[i]? = some (task, request)) (taken : i ∈ sys.taken) :
    ∃! n, ∃ content, .accepted n task._id content ∈ log := by
  have remembered : Event.forgot task._id ∉ log := by
    refine run.invariant (P := fun log _ => Event.forgot task._id ∉ log) (by simp) ?_
    intro log s act t new before meets action member
    rcases List.mem_append.mp member with old | now
    · exact before old
    · exact meets ((step_cases action).forgot now)
  obtain ⟨x, n, content, found, accepted⟩ := (run_sound run).taken taken
  rw [posted] at found
  cases found
  refine ⟨n, ⟨content, accepted⟩, ?_⟩
  rintro m ⟨text, again⟩
  exact accepted_twice (run_broker run) again accepted remembered

/-- The task is pushed again while its message is locked. -/
theorem hello_pushed_again : ∃ sys, Mealy.Run machine Remembers ({}, [])
    [.accepted 0 helloTask._id helloTask.serialize, .locked 0 0, .dropped helloTask._id] sys ∧
    sys.posted = [(helloTask, helloRequest), (helloTask, helloRequest)] ∧ sys.taken = [1, 0] := by
  let posted : System := { helloSystem (some helloLocked) helloWaiting [] [] with
    posted := [(helloTask, helloRequest), (helloTask, helloRequest)] }
  have pushed : machine.step (helloSystem (some helloLocked) helloWaiting [] [])
      (.push ⟨"ns.servicebus.windows.net", "jobs", 4⟩ createdEndpoint {} helloTask) =
      some (posted, []) := rfl
  have reads : message helloRequest = some (helloTask._id, helloTask.serialize) :=
    message_bearing _ _ _ _
  have takes : machine.step posted (.take 1) =
      some ({ posted with taken := [1, 0] }, [.dropped helloTask._id]) := by
    simp [posted, helloSystem, machine, step, take, reads, perform, Broker.step]
  have run := (hello_received.next (by simp [Remembers]) pushed).next (by simp [Remembers]) takes
  exact ⟨_, run, rfl, rfl⟩

theorem pushed_once_again : ∃ log : List Event, Event.dropped helloTask._id ∈ log ∧
    ∃! n, ∃ content, Event.accepted n helloTask._id content ∈ log := by
  obtain ⟨sys, run, posted, taken⟩ := hello_pushed_again
  have second : sys.posted[1]? = some (helloTask, helloRequest) := by simp [posted]
  exact ⟨_, by simp, pushed_once (run.mono fun _ _ remembers => remembers _) second (by simp [taken])⟩

end System

end JobQ.ServiceBusQueue
