import JobQ.Model.ServiceBusClient

/-!
# When a request is attempted again

`_request` retries on exceptions, and of the answers only a 401 becomes one: every other transient
status is returned at once. The retries keep the promise of the class docstring exactly where no
such answer comes while attempts are left.
-/

namespace JobQ.ServiceBus

def retried : HttpOutcome → Bool
  | .response status => status = 401
  | .raises exc => isRetryable exc

def isTransient : HttpOutcome → Bool
  | .response status => status ∈ retryableStatusCodes
  | .raises exc => isRetryable exc

def answer : HttpOutcome → Except HttpExc Nat
  | .raises exc => .error exc
  | .response status => if status = 401 then .error (.clientResponseError 401) else .ok status

theorem retried_isTransient {outcome : HttpOutcome} (again : retried outcome = true) :
    isTransient outcome = true := by
  cases outcome with
  | raises exc => exact again
  | response status =>
      simp only [retried, decide_eq_true_eq] at again
      subst again
      decide

theorem answer_final {outcome : HttpOutcome} (final : retried outcome = false) :
    (∀ status, answer outcome = .ok status ↔ outcome = .response status) ∧
      ∀ exc, answer outcome = .error exc ↔ outcome = .raises exc := by
  cases outcome with
  | raises exc => simp [answer]
  | response status =>
      have authorized : status ≠ 401 := by simpa [retried] using final
      simp [answer, authorized]

/-! ## One attempt -/

section

variable (env : Endpoint) (method url : String) (headers : List (String × String))
  (data : Option String) (s : Session)

theorem getToken_sent : (getToken env s).2.sent = s.sent := by
  unfold getToken
  cases s.token with
  | none => rfl
  | some cached =>
      simp only
      split <;> rfl

theorem doRequest_spec :
    (∃ q : HttpRequest, (doRequest env method url headers data s).2.sent = s.sent ++ [q] ∧
      q.data = data ∧ ∀ h ∈ headers, h ∈ q.headers) ∧
    (doRequest env method url headers data s).1 = answer (env.outcome s.sent.length) := by
  have sent := getToken_sent env s
  unfold doRequest
  cases token : getToken env s with
  | mk bearer t =>
      rw [token] at sent
      simp only at sent ⊢
      rw [sent]
      cases env.outcome s.sent.length with
      | raises exc => exact ⟨⟨_, rfl, rfl, fun h member => List.mem_cons_of_mem _ member⟩, rfl⟩
      | response status =>
          simp only [answer]
          split
          · exact ⟨⟨_, rfl, rfl, fun h member => List.mem_cons_of_mem _ member⟩, rfl⟩
          · exact ⟨⟨_, rfl, rfl, fun h member => List.mem_cons_of_mem _ member⟩, rfl⟩

/-! ## All attempts -/

theorem before_sent (k : Nat) :
    ∃ made, (Retry.before (doRequest env method url headers data) s k).sent = s.sent ++ made ∧
      made.length = k ∧ ∀ q ∈ made, q.data = data ∧ ∀ h ∈ headers, h ∈ q.headers := by
  induction k with
  | zero => exact ⟨[], by simp [Retry.before]⟩
  | succ k ih =>
      obtain ⟨made, earlier, count, each⟩ := ih
      obtain ⟨⟨q, sent, body, header⟩, -⟩ := doRequest_spec env method url headers data
        (Retry.before (doRequest env method url headers data) s k)
      refine ⟨made ++ [q], ?_, by simp [count], ?_⟩
      · rw [Retry.before, sent, earlier, List.append_assoc]
      · intro r member
        rcases List.mem_append.mp member with old | last
        · exact each r old
        · rw [List.mem_singleton.mp last]
          exact ⟨body, header⟩

theorem attempt_result (k : Nat) :
    (doRequest env method url headers data
      (Retry.before (doRequest env method url headers data) s k)).1 =
      answer (env.outcome (s.sent.length + k)) := by
  obtain ⟨made, earlier, count, -⟩ := before_sent env method url headers data s k
  rw [(doRequest_spec env method url headers data _).2, earlier, List.length_append, count]

theorem retried_iff (k : Nat) :
    Retry.Retried isRetryable (doRequest env method url headers data) s k ↔
      retried (env.outcome (s.sent.length + k)) = true := by
  rw [Retry.Retried, attempt_result]
  cases env.outcome (s.sent.length + k) with
  | raises exc => simp [answer, retried]
  | response status =>
      by_cases unauthorized : status = 401
      · simp [answer, retried, unauthorized, isRetryable, retryableStatusCodes]
      · simp [answer, retried, unauthorized]

/-- The attempts up to the first outcome that is not retried, or all that are allowed; the last one
decides the result. -/
theorem request_decisive (client : Client) (maxRetries : Option Int) :
    ∃ k < attempts (effectiveRetries client maxRetries),
      (∀ j < k, retried (env.outcome (s.sent.length + j)) = true) ∧
      (k + 1 = attempts (effectiveRetries client maxRetries) ∨
        retried (env.outcome (s.sent.length + k)) = false) ∧
      (∃ made, (requestUpTo client env maxRetries method url headers data s).2.sent =
        s.sent ++ made ∧ made.length = k + 1 ∧
        ∀ q ∈ made, q.data = data ∧ ∀ h ∈ headers, h ∈ q.headers) ∧
      (requestUpTo client env maxRetries method url headers data s).1 =
        answer (env.outcome (s.sent.length + k)) := by
  let attempt := doRequest env method url headers data
  obtain ⟨k, bound, earlier, result, stop⟩ := @Retry.retrying_decisive _ _ _ isRetryable attempt
    (effectiveRetries client maxRetries - 1).toNat s
  have requested : requestUpTo client env maxRetries method url headers data s =
      attempt (Retry.before attempt s k) := result
  refine ⟨k, Nat.lt_succ_of_le bound, fun j below => ?_, ?_, ?_, ?_⟩
  · exact (retried_iff env method url headers data s j).mp (earlier j below)
  · rcases stop with last | final
    · exact .inl (by rw [last, attempts])
    · rw [retried_iff] at final
      exact .inr (by simpa using final)
  · rw [requested]
    exact before_sent env method url headers data s (k + 1)
  · rw [requested]
    exact attempt_result env method url headers data s k

end

theorem request_default (client : Client) (env : Endpoint) (method url : String)
    (headers : List (String × String)) (data : Option String) (s : Session) :
    request client env method url headers data s =
      requestUpTo client env none method url headers data s :=
  rfl

/-! ## The contract -/

/-- Of a request that leads from session `s` to session `t` and may be attempted `allowed` times:
it gives up on a transient answer only when the attempts are used up, repeats no other one, and
returns the first response that is not transient. -/
structure RetryContract (env : Endpoint) (allowed : Nat) (s : Session)
    (result : Except HttpExc Nat) (t : Session) : Prop where
  returns : ∀ status, result = .ok status → status ∈ retryableStatusCodes →
    t.sent.length = s.sent.length + allowed
  raises : ∀ exc, result = .error exc → isRetryable exc = true →
    t.sent.length = s.sent.length + allowed
  repeats : ∀ k, s.sent.length + k + 1 < t.sent.length →
    isTransient (env.outcome (s.sent.length + k)) = true
  first : ∀ k < allowed, (∀ j < k, isTransient (env.outcome (s.sent.length + j)) = true) →
    ∀ status, env.outcome (s.sent.length + k) = .response status →
      status ∉ retryableStatusCodes → result = .ok status

/-- While attempts are left, the only transient status that comes is 401. -/
def OnlyUnauthorized (env : Endpoint) (allowed : Nat) (s : Session) : Prop :=
  ∀ k, k + 1 < allowed → (∀ j < k, retried (env.outcome (s.sent.length + j)) = true) →
    ∀ status, env.outcome (s.sent.length + k) = .response status →
      status ∈ retryableStatusCodes → status = 401

theorem OnlyUnauthorized.retries {env : Endpoint} {allowed : Nat} {s : Session}
    (only : OnlyUnauthorized env allowed s) {k : Nat} (below : k < allowed)
    (transient : ∀ j < k, isTransient (env.outcome (s.sent.length + j)) = true) :
    ∀ j < k, retried (env.outcome (s.sent.length + j)) = true := by
  intro j
  induction j using Nat.strongRecOn with
  | ind j ih =>
      intro before
      have earlier : ∀ i < j, retried (env.outcome (s.sent.length + i)) = true := by
        intro i less
        exact ih i less (by omega)
      have again := transient j before
      cases outcome : env.outcome (s.sent.length + j) with
      | raises exc =>
          rw [outcome] at again
          exact again
      | response status =>
          simp only [outcome, isTransient, decide_eq_true_eq] at again
          have unauthorized := only j (by omega) earlier status outcome again
          simp [retried, unauthorized]

/-- The first outcome that is not retried is the one a request ends with. -/
theorem decisive_unique (outcome : Nat → HttpOutcome) {i k allowed : Nat} (below : i < allowed)
    (final : retried (outcome i) = false) (before : ∀ j < i, retried (outcome j) = true)
    (earlier : ∀ j < k, retried (outcome j) = true)
    (stop : k + 1 = allowed ∨ retried (outcome k) = false) : i = k := by
  rcases Nat.lt_trichotomy i k with less | same | more
  · simp [earlier i less] at final
  · exact same
  · rcases stop with full | stop
    · omega
    · simp [before k more] at stop

theorem request_contract_iff (client : Client) (env : Endpoint) (maxRetries : Option Int)
    (method url : String) (headers : List (String × String)) (data : Option String) (s : Session) :
    RetryContract env (attempts (effectiveRetries client maxRetries)) s
        (requestUpTo client env maxRetries method url headers data s).1
        (requestUpTo client env maxRetries method url headers data s).2 ↔
      OnlyUnauthorized env (attempts (effectiveRetries client maxRetries)) s := by
  obtain ⟨k, bound, earlier, stop, ⟨made, sent, count, -⟩, result⟩ :=
    request_decisive env method url headers data s client maxRetries
  have last : (requestUpTo client env maxRetries method url headers data s).2.sent.length =
      s.sent.length + (k + 1) := by rw [sent, List.length_append, count]
  constructor
  · intro contract i left retries status response transient
    by_contra authorized
    have final : retried (env.outcome (s.sent.length + i)) = false := by
      simp [response, retried, authorized]
    have same : i = k := decisive_unique (fun j => env.outcome (s.sent.length + j))
      (by omega) final retries earlier stop
    subst same
    have returned := ((answer_final final).1 status).mpr response
    have used := contract.returns status (result.trans returned) transient
    omega
  · intro only
    -- a transient outcome that is not retried ends the request only when no attempt is left
    have exhausted (transient : isTransient (env.outcome (s.sent.length + k)) = true) :
        k + 1 = attempts (effectiveRetries client maxRetries) := by
      by_contra left
      have final := stop.resolve_left left
      have all : ∀ j < k + 1, isTransient (env.outcome (s.sent.length + j)) = true := by
        intro j below
        rcases Nat.lt_succ_iff_lt_or_eq.mp below with before | rfl
        · exact retried_isTransient (earlier j before)
        · exact transient
      have again := only.retries (by omega : k + 1 < _) all k (by omega)
      simp [again] at final
    refine ⟨?_, ?_, ?_, ?_⟩
    · intro status returned transient
      rw [last, exhausted]
      cases outcome : env.outcome (s.sent.length + k) with
      | raises exc => simp [result, outcome, answer] at returned
      | response code =>
          by_cases unauthorized : code = 401
          · simp [result, outcome, answer, unauthorized] at returned
          · simp only [result, outcome, answer, unauthorized, ↓reduceIte, Except.ok.injEq] at returned
            subst returned
            simp [isTransient, transient]
    · intro exc failed transient
      rw [last, exhausted]
      cases outcome : env.outcome (s.sent.length + k) with
      | raises raised =>
          simp only [result, outcome, answer, Except.error.injEq] at failed
          subst failed
          exact transient
      | response code =>
          by_cases unauthorized : code = 401
          · subst unauthorized
            decide
          · simp [result, outcome, answer, unauthorized] at failed
    · intro j more
      rw [last] at more
      exact retried_isTransient (earlier j (by omega))
    · intro i below before status response definite
      have retries := only.retries below before
      have authorized : status ≠ 401 := by
        rintro rfl
        exact definite (by decide)
      have final : retried (env.outcome (s.sent.length + i)) = false := by
        simp [response, retried, authorized]
      have same : i = k := decisive_unique (fun j => env.outcome (s.sent.length + j))
        below final retries earlier stop
      subst same
      rw [result]
      exact ((answer_final final).1 status).mpr response

def throttledEndpoint : Endpoint where
  outcome i := if i = 0 then .response 503 else .response 200
  token _ := ⟨"token", 3600⟩
  time _ := 0

/-- The first answer is a 503, and it is returned although three attempts are left. -/
theorem request_contract_fails :
    ¬ RetryContract throttledEndpoint 4 {}
      (requestUpTo ⟨"ns.servicebus.windows.net", "jobs", 4⟩ throttledEndpoint none "DELETE"
        "https://ns.servicebus.windows.net/jobs/messages/1/lock" [] none {}).1
      (requestUpTo ⟨"ns.servicebus.windows.net", "jobs", 4⟩ throttledEndpoint none "DELETE"
        "https://ns.servicebus.windows.net/jobs/messages/1/lock" [] none {}).2 := by
  intro contract
  have used := contract.returns 503 (by rfl) (by decide)
  contradiction

end JobQ.ServiceBus
