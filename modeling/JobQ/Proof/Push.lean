import JobQ.Proof.Request

/-!
# When a push that returns was accepted

`push` returns after the first response that is not a 401, whatever its status says. It keeps its
contract exactly on the endpoints whose first such response is a success.
-/

namespace JobQ.ServiceBus

def isSuccess (status : Nat) : Bool := 200 ≤ status ∧ status ≤ 299

section

variable (client : Client) (env : Endpoint)

def lastOutcome (s : Session) : HttpOutcome := env.outcome (s.sent.length - 1)

/-- Of a push that leads from session `s` to session `t`. -/
structure PushContract (task : Task) (s : Session) (result : Except HttpExc String) (t : Session) :
    Prop where
  accepted : ∀ id, result = .ok id → ∃ status, lastOutcome env t = .response status ∧
    isSuccess status = true
  sameMessage : ∀ q ∈ t.sent.drop s.sent.length, q.data = some task.serialize ∧
    ("BrokerProperties", brokerProperties task._id) ∈ q.headers
  refused : ∀ status, lastOutcome env t = .response status → isSuccess status = false →
    ∃ exc, result = .error exc

/-- Every response that ends the retries is a success: the first answer that is not retried, among
the attempts allowed, is not a response with another status. -/
def EndsInSuccess (s : Session) : Prop :=
  ∀ k < attempts client.maxRetries,
    (∀ j < k, retried (env.outcome (s.sent.length + j)) = true) →
    ∀ status, env.outcome (s.sent.length + k) = .response status → status ≠ 401 →
      isSuccess status = true

end

theorem push_decisive (client : Client) (env : Endpoint) (task : Task) (s : Session) :
    ∃ k < attempts client.maxRetries, (∀ j < k, retried (env.outcome (s.sent.length + j)) = true) ∧
      (k + 1 = attempts client.maxRetries ∨ retried (env.outcome (s.sent.length + k)) = false) ∧
      (∃ made, (push client env task s).2.sent = s.sent ++ made ∧ made.length = k + 1 ∧
        ∀ q ∈ made, q.data = some task.serialize ∧ ∀ h ∈ sendHeaders task._id, h ∈ q.headers) ∧
      (push client env task s).1 =
        (answer (env.outcome (s.sent.length + k))).map fun _ => task._id := by
  let url := "https://" ++ client.fqns ++ "/" ++ client.queueName ++ "/messages"
  obtain ⟨k, bound, earlier, stop, made, result⟩ :=
    request_decisive env "POST" url (sendHeaders task._id) (some task.serialize) s client none
  have final : (push client env task s).2 = (requestUpTo client env none "POST" url
        (sendHeaders task._id) (some task.serialize) s).2 ∧
      (push client env task s).1 = (requestUpTo client env none "POST" url
        (sendHeaders task._id) (some task.serialize) s).1.map fun _ => task._id := by
    unfold push sendMessage
    simp only
    rw [request_default]
    cases requestUpTo client env none "POST" url (sendHeaders task._id) (some task.serialize) s with
    | mk outcome t => cases outcome <;> exact ⟨rfl, rfl⟩
  refine ⟨k, bound, earlier, stop, ?_, ?_⟩
  · rw [final.1]
    exact made
  · rw [final.2, result]

/-! ## The contract -/

theorem push_contract_iff (client : Client) (env : Endpoint) (task : Task) (s : Session) :
    PushContract env task s (push client env task s).1 (push client env task s).2 ↔
      EndsInSuccess client env s := by
  obtain ⟨k, bound, earlier, stop, ⟨made, sent, count, messages⟩, result⟩ :=
    push_decisive client env task s
  have last : lastOutcome env (push client env task s).2 = env.outcome (s.sent.length + k) := by
    rw [lastOutcome, sent, List.length_append, count]
    rfl
  constructor
  · intro contract i below retries status response authorized
    have final : retried (env.outcome (s.sent.length + i)) = false := by
      simp [response, retried, authorized]
    have same := decisive_unique (fun j => env.outcome (s.sent.length + j)) below final retries
      earlier stop
    subst same
    have returned := ((answer_final final).1 status).mpr response
    rw [returned] at result
    obtain ⟨status', accepted, success⟩ := contract.accepted _ result
    rw [last, response] at accepted
    cases accepted
    exact success
  · intro ends
    refine ⟨?_, ?_, ?_⟩
    · intro id returned
      cases outcome : env.outcome (s.sent.length + k) with
      | raises exc => simp [result, outcome, answer, Except.map] at returned
      | response status =>
          by_cases unauthorized : status = 401
          · simp [result, outcome, answer, Except.map, unauthorized] at returned
          · exact ⟨status, last.trans outcome, ends k bound earlier status outcome unauthorized⟩
    · intro q member
      rw [sent, List.drop_left] at member
      exact ⟨(messages q member).1, (messages q member).2 _ (by simp [sendHeaders])⟩
    · intro status outcome failure
      rw [last] at outcome
      by_cases unauthorized : status = 401
      · refine ⟨.clientResponseError 401, ?_⟩
        simp [result, outcome, answer, Except.map, unauthorized]
      · simp [ends k bound earlier status outcome unauthorized] at failure

def failingEndpoint : Endpoint where
  outcome _ := .response 500
  token _ := ⟨"token", 3600⟩
  time _ := 0

/-- A push to it returns, as if the broker had accepted the task. -/
theorem push_contract_fails :
    ¬ PushContract failingEndpoint helloTask {} (push ⟨"ns.servicebus.windows.net", "jobs", 4⟩
        failingEndpoint helloTask {}).1
      (push ⟨"ns.servicebus.windows.net", "jobs", 4⟩ failingEndpoint helloTask {}).2 := by
  intro contract
  obtain ⟨status, outcome, success⟩ := contract.accepted "hello" (by
    simp [push, sendMessage, request, attempts, Retry.retrying, doRequest, getToken,
      failingEndpoint, helloTask, Task._id])
  cases outcome
  contradiction

end JobQ.ServiceBus
