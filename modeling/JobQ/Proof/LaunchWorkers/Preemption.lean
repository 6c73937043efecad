import JobQ.Proof.LaunchWorkers.Steps

/-!
# The preemption handler

What the poll of Azure's scheduled events does to `shutdown_event`, against the signals, the time
limit and the workers that resume.
-/

namespace JobQ.LaunchWorkers

variable {c : Config} {s t : State} {log new : List Event}

inductive Polls (c : Config) (s : State) (answer : Option (List ScheduledEvent)) :
    State → List Event → Prop
  | announced (enabled : c.disabled = false)
      (listed : isPreempted (getScheduledEvents answer) = true) :
      Polls c s answer
        { s with
          signals := { s.signals with shutdownEvent := true, scheduledEventInitiatedByUs := true }
          workers := s.workers.map Worker.wake }
        [.announced (getScheduledEvents answer)]
  | withdrawn (enabled : c.disabled = false)
      (unlisted : isPreempted (getScheduledEvents answer) = false)
      (set : s.signals.shutdownEvent = true) (ours : s.signals.scheduledEventInitiatedByUs = true) :
      Polls c s answer
        { s with
          signals := { s.signals with shutdownEvent := false, scheduledEventInitiatedByUs := false } }
        [.withdrawn]
  | idle (idle : c.disabled = true ∨ isPreempted (getScheduledEvents answer) = false ∧
        (s.signals.shutdownEvent = false ∨ s.signals.scheduledEventInitiatedByUs = false)) :
      Polls c s answer s []

theorem polled_cases {answer : Option (List ScheduledEvent)}
    (action : step c s (.polled answer) = some (t, new)) : Polls c s answer t new := by
  simp only [step] at action
  split at action
  · contradiction
  · simp only [stepPolled] at action
    split at action
    · cases action
      exact .idle (.inl ‹_›)
    · have enabled : c.disabled = false := by simpa using ‹¬c.disabled = true›
      split at action
      · cases action
        exact .announced enabled ‹_›
      · have unlisted : isPreempted (getScheduledEvents answer) = false := by
          simpa using ‹¬isPreempted (getScheduledEvents answer) = true›
        split at action <;> cases action
        · rename_i both
          exact .withdrawn enabled unlisted both.1 both.2
        · rename_i notBoth
          apply Polls.idle
          right
          refine ⟨unlisted, ?_⟩
          simpa [Classical.or_iff_not_imp_left] using notBoth

/-! ## Whose shutdown it is -/

def Event.clears : Event → Bool
  | .withdrawn | .worker _ .cleared => true
  | _ => false

/-- Nobody has requested a shutdown since the event was last clear. -/
def Unrequested (log : List Event) : Prop :=
  ∀ before after r, log = before ++ .requested r :: after → ∃ e ∈ after, e.clears = true

/-- The handler takes no shutdown back that somebody else has requested. -/
def OnlyOwn (log : List Event) : Prop :=
  ∀ before after, log = before ++ .withdrawn :: after → Unrequested before

/-- No request comes while the handler takes the shutdown for its own, and no preemption is announced
while one is requested. -/
def keepsApart (c : Config) (s : State) : Action → Bool
  | .request _ => !s.signals.scheduledEventInitiatedByUs
  | .polled answer =>
    c.disabled || !isPreempted (getScheduledEvents answer) || !s.signals.shutdownEvent ||
      s.signals.scheduledEventInitiatedByUs
  | _ => true

theorem Unrequested.append (clear : Unrequested log) (none : ∀ r, .requested r ∉ new) :
    Unrequested (log ++ new) := by
  intro before after r split
  rcases Mealy.split_append split with ⟨rest, earlier, rfl⟩ | ⟨between, -, now⟩
  · obtain ⟨e, member, clears⟩ := clear before rest r earlier
    exact ⟨e, by simp [member], clears⟩
  · exact absurd (by simp [now]) (none r)

theorem Unrequested.of_clear {e : Event} (clears : e.clears = true) (only : new = [e]) :
    Unrequested (log ++ new) := by
  subst only
  intro before after r split
  rcases Mealy.split_append split with ⟨rest, -, rfl⟩ | ⟨between, -, now⟩
  · exact ⟨e, by simp, clears⟩
  · obtain ⟨-, -, rfl⟩ : between = [] ∧ after = [] ∧ e = .requested r := by
      cases between <;> simp_all
    cases clears

theorem OnlyOwn.append (own : OnlyOwn log) (fresh : .withdrawn ∈ new → new = [.withdrawn] ∧
    Unrequested log) : OnlyOwn (log ++ new) := by
  intro before after split
  rcases Mealy.split_append split with ⟨rest, earlier, -⟩ | ⟨between, rfl, now⟩
  · exact own before rest earlier
  · obtain ⟨only, clear⟩ := fresh (by simp [now])
    obtain ⟨rfl, -⟩ : between = [] ∧ after = [] := by
      simpa [only, List.singleton_eq_append_iff] using now
    simpa using clear

structure Owned (log : List Event) (signals : Signals) : Prop where
  clear : signals.shutdownEvent = false → Unrequested log
  ours : signals.scheduledEventInitiatedByUs = true → Unrequested log
  own : OnlyOwn log

theorem Worker.Moves.changes {maxFailures : Int} {signals signals' : Signals} {w v : Worker}
    {a : WorkerAction} {events : List WorkerEvent}
    (moves : w.Moves maxFailures signals a signals' v events) :
    signals' = signals ∧ .cleared ∉ events ∨
      signals' = { signals with shutdownEvent := false } ∧ events = [.cleared] := by
  cases moves with
  | clears => exact .inr ⟨rfl, rfl⟩
  | _ => exact .inl ⟨rfl, by simp⟩

@[simp]
theorem shutdownHandler_shutdown (signals : Signals) (r : Request) :
    (shutdownHandler signals r).shutdownEvent = true := rfl

@[simp]
theorem shutdownHandler_ours (signals : Signals) (r : Request) :
    (shutdownHandler signals r).scheduledEventInitiatedByUs = signals.scheduledEventInitiatedByUs := by
  unfold shutdownHandler
  grind

theorem Owned.worker {signals : Signals} {i : Nat} {events : List WorkerEvent}
    (owned : Owned log s.signals) (clears : signals = s.signals ∧ .cleared ∉ events ∨
      signals = { s.signals with shutdownEvent := false } ∧ events = [.cleared]) :
    Owned (log ++ events.map (.worker i)) signals := by
  have own : OnlyOwn (log ++ events.map (.worker i)) := owned.own.append (by simp)
  rcases clears with ⟨rfl, -⟩ | ⟨rfl, rfl⟩
  · exact ⟨fun clear => (owned.clear clear).append (by simp),
      fun ours => (owned.ours ours).append (by simp), own⟩
  · have clear : Unrequested (log ++ [.worker i .cleared]) := .of_clear rfl rfl
    exact ⟨fun _ => clear, fun _ => clear, own⟩

theorem Owned.request {r : Request} (owned : Owned log s.signals)
    (meets : keepsApart c s (.request r) = true) :
    Owned (log ++ [.requested r]) (shutdownHandler s.signals r) := by
  have others : s.signals.scheduledEventInitiatedByUs = false := by simpa [keepsApart] using meets
  refine ⟨fun clear => ?_, fun ours => ?_, owned.own.append (by simp)⟩
  · simp at clear
  · simp [others] at ours

theorem Owned.polled {answer : Option (List ScheduledEvent)} (owned : Owned log s.signals)
    (polls : Polls c s answer t new) (meets : keepsApart c s (.polled answer) = true) :
    Owned (log ++ new) t.signals := by
  cases polls with
  | announced enabled listed =>
      have unrequested : Unrequested log := by
        cases set : s.signals.shutdownEvent with
        | false => exact owned.clear set
        | true =>
            apply owned.ours
            simpa [keepsApart, enabled, listed, set] using meets
      exact ⟨fun _ => unrequested.append (by simp), fun _ => unrequested.append (by simp),
        owned.own.append (by simp)⟩
  | withdrawn enabled unlisted set ours =>
      have clear : Unrequested (log ++ [.withdrawn]) := .of_clear rfl rfl
      exact ⟨fun _ => clear, fun _ => clear, owned.own.append fun _ => ⟨rfl, owned.ours ours⟩⟩
  | idle => simpa using owned

/-- The handler clears nobody else's shutdown in any run in which requests and announced preemptions
keep apart. -/
theorem only_own_withdrawn {numWorkers : Nat}
    (run : Mealy.Run (machine c) (fun s a => keepsApart c s a = true) (initial numWorkers, []) log s) :
    OnlyOwn log := by
  have owned : Owned log s.signals := by
    apply run.invariant (P := fun log s => Owned log s.signals)
    · have unrequested : Unrequested [] := fun before after r split => by simp at split
      have own : OnlyOwn [] := fun before after split => by simp at split
      exact ⟨fun _ => unrequested, fun _ => unrequested, own⟩
    · intro log s a t new owned meets action
      cases a with
      | polled answer => exact owned.polled (polled_cases action) meets
      | request r =>
          cases action
          exact owned.request meets
      | worker i a =>
          have stepped : Steps c s (.worker i a) t new := step_cases action
          cases stepped with
          | worker worker moves => exact owned.worker moves.changes
      | main a =>
          have stepped : Steps c s (.main a) t new := step_cases action
          cases stepped with
          | main stepped => cases stepped <;> simpa using owned
  exact owned.own

def preempt (eventId : String) : ScheduledEvent := ⟨eventId, "Preempt"⟩

theorem only_own_hello : ∃ log, OnlyOwn log ∧ .requested .sigterm ∈ log ∧ .withdrawn ∈ log := by
  have steps : Mealy.execIf (machine ⟨10, false⟩) (keepsApart ⟨10, false⟩) (initial 1, [])
      (starts 0 ++ [.request .sigterm] ++ braces 0 ++ gathers 0 ++ resumes 0 ++
        [.polled (some [preempt "1"]), .polled (some [])]) = some (_, _) := rfl
  refine ⟨_, only_own_withdrawn (.of_execIf steps), ?_, ?_⟩
  · exact List.mem_of_getElem? (i := 1) rfl
  · exact List.mem_of_getElem? (i := 7) rfl

/-- The user asks for a shutdown while a preemption is announced, and the announcement is revoked. -/
theorem requested_shutdown_withdrawn : ¬ ∀ s log,
    Mealy.Run (machine ⟨10, false⟩) Mealy.always (initial 1, []) log s → OnlyOwn log := by
  intro obeyed
  have steps : Mealy.exec (machine ⟨10, false⟩) (initial 1, [])
      [.polled (some [preempt "1"]), .request .sigusr2, .polled (some [])] =
      some (_, [.announced [preempt "1"], .requested .sigusr2] ++ .withdrawn :: []) := rfl
  obtain ⟨e, member, -⟩ := obeyed _ _ (.of_exec (by simp) steps) _ _ rfl [_] [] _ rfl
  cases member

/-! ## Failed requests -/

/-- The event is cleared only on a list without a `Preempt` event, and left alone if the request
fails. -/
def Heeds (s : State) (answer : Option (List ScheduledEvent)) (t : State) : Prop :=
  (s.signals.shutdownEvent = true → t.signals.shutdownEvent = false →
      ∃ events, answer = some events ∧ isPreempted events = false) ∧
    (answer = none → t.signals.shutdownEvent = s.signals.shutdownEvent)

def takesBack (c : Config) (s : State) : Prop :=
  c.disabled = false ∧ s.signals.shutdownEvent = true ∧
    s.signals.scheduledEventInitiatedByUs = true

theorem heeds_iff {answer : Option (List ScheduledEvent)} (polls : Polls c s answer t new) :
    Heeds s answer t ↔ answer = none → ¬takesBack c s := by
  cases polls with
  | announced enabled listed =>
      constructor
      · intro _ failed
        subst failed
        cases listed
      · intro _
        refine ⟨fun _ clear => ?_, fun failed => ?_⟩
        · cases clear
        · subst failed
          cases listed
  | withdrawn enabled unlisted set ours =>
      constructor
      · intro heeds failed
        have changed := heeds.2 failed
        rw [set] at changed
        contradiction
      · intro fetched
        cases answer with
        | none => exact absurd ⟨enabled, set, ours⟩ (fetched rfl)
        | some events => exact ⟨fun _ _ => ⟨events, rfl, unlisted⟩, fun failed => by cases failed⟩
  | idle reason =>
      constructor
      · intro _ _ back
        obtain ⟨enabled, set, ours⟩ := back
        simp [enabled, set, ours] at reason
      · intro _
        exact ⟨fun set clear => by simp [set] at clear, fun _ => rfl⟩

/-- A failed request is an all-clear exactly while the handler has set the event itself. -/
theorem failed_request_iff {numWorkers : Nat} {last : State × List (State × Action × State)}
    (run : Mealy.Run (machine c).withTransitions Mealy.always ((initial numWorkers, []), []) log last) :
    (∀ s answer t, (s, .polled answer, t) ∈ last.2 → Heeds s answer t) ↔
      ∀ s t, (s, .polled none, t) ∈ last.2 → ¬takesBack c s := by
  have each {s answer t} (made : (s, .polled answer, t) ∈ last.2) :
      Heeds s answer t ↔ answer = none → ¬takesBack c s := by
    obtain ⟨new, action⟩ := run.transitions made
    exact heeds_iff (polled_cases action)
  constructor
  · intro heeds s t made
    exact (each made).mp (heeds s none t made) rfl
  · intro never s answer t made
    apply (each made).mpr
    intro failed
    subst failed
    exact never s t made

def requested : State := (stepRequest (initial 1) .sigterm).1

theorem failed_request_hello : Heeds requested none requested ∧
    requested.signals.shutdownEvent = true := by
  have steps : Mealy.exec (machine ⟨10, false⟩).withTransitions ((initial 1, []), [])
      [.request .sigterm, .polled none] = some ((requested,
        [(initial 1, .request .sigterm, requested), (requested, .polled none, requested)]), _) := rfl
  refine ⟨(failed_request_iff (.of_exec (by simp) steps)).mpr ?_ _ none _ (by simp), rfl⟩
  intro s t made
  obtain ⟨rfl, -⟩ : s = requested ∧ t = requested := by simpa using made
  intro back
  exact absurd back.2.2 Bool.false_ne_true

/-- The request fails while the preemption is still announced. -/
theorem failed_request_all_clear : ¬ ∀ last log,
    Mealy.Run (machine ⟨10, false⟩).withTransitions Mealy.always ((initial 1, []), []) log last →
    ∀ s answer t, (s, .polled answer, t) ∈ last.2 → Heeds s answer t := by
  intro obeyed
  have steps : Mealy.exec (machine ⟨10, false⟩).withTransitions ((initial 1, []), [])
      [.polled (some [preempt "1"]), .polled none] = some ((_, _), _) := rfl
  have heeds := obeyed _ _ (.of_exec (by simp) steps) _ none _ (List.mem_of_getElem? (i := 1) rfl)
  have changed := heeds.2 rfl
  cases changed

/-! ## Events that stay listed -/

def preemptions (answer : Option (List ScheduledEvent)) : List String :=
  ((getScheduledEvents answer).filter fun event => event.eventType = "Preempt").map (·.eventId)

def known (steps : List (State × Action × State)) : List String :=
  steps.flatMap fun step =>
    match step with
    | (_, .polled answer, _) => preemptions answer
    | _ => []

/-- A worker clears the event while it is still set, and later it is clear when a poll answers. -/
structure PolledAfterResume (steps : List (State × Action × State)) (j k : Nat) (u : State)
    (answer : Option (List ScheduledEvent)) (v : State) : Prop where
  resumed : ∃ s i a t, steps[j]? = some (s, .worker i a, t) ∧
    s.signals.shutdownEvent = true ∧ t.signals.shutdownEvent = false
  later : j < k
  polled : steps[k]? = some (u, .polled answer, v)
  clear : u.signals.shutdownEvent = false

/-- A preemption that was known before a resume shuts nobody down after it. -/
def ResumeSticks (steps : List (State × Action × State)) : Prop :=
  ∀ j k u answer v, PolledAfterResume steps j k u answer v → v.signals.shutdownEvent = true →
    ∃ eventId ∈ preemptions answer, eventId ∉ known (steps.take j)

/-- After a resume the handler is shown no preemption without a new one. -/
def ListsNew (c : Config) (steps : List (State × Action × State)) : Prop :=
  ∀ j k u answer v, PolledAfterResume steps j k u answer v → preemptions answer ≠ [] →
    c.disabled = true ∨ ∃ eventId ∈ preemptions answer, eventId ∉ known (steps.take j)

theorem isPreempted_iff {answer : Option (List ScheduledEvent)} :
    isPreempted (getScheduledEvents answer) = true ↔ preemptions answer ≠ [] := by
  simp [isPreempted, preemptions]

theorem resume_sticks_iff {numWorkers : Nat} {last : State × List (State × Action × State)}
    (run : Mealy.Run (machine c).withTransitions Mealy.always ((initial numWorkers, []), []) log last) :
    ResumeSticks last.2 ↔ ListsNew c last.2 := by
  constructor
  · intro sticks j k u answer v polled listed
    obtain ⟨new, action⟩ := run.transitions (List.mem_of_getElem? polled.polled)
    cases polled_cases action with
    | announced => exact .inr (sticks j k u answer _ polled rfl)
    | withdrawn enabled unlisted => simp [isPreempted_iff.mpr listed] at unlisted
    | idle reason =>
        left
        simpa [isPreempted_iff.mpr listed] using reason
  · intro news j k u answer v polled set
    obtain ⟨new, action⟩ := run.transitions (List.mem_of_getElem? polled.polled)
    cases polled_cases action with
    | announced enabled listed =>
        simpa [enabled] using news j k u answer _ polled (isPreempted_iff.mp listed)
    | withdrawn => cases set
    | idle =>
        rw [polled.clear] at set
        contradiction

/-- Each poll lists a preemption that was not listed before. -/
def newEach (steps : List (State × Action × State)) : Bool :=
  (List.range steps.length).all fun k => (List.range k).all fun j =>
    match steps[k]? with
    | some (_, .polled answer, _) =>
      (preemptions answer).any fun eventId => eventId ∉ known (steps.take j)
    | _ => true

theorem listsNew_of_newEach {steps : List (State × Action × State)} (new : newEach steps = true) :
    ListsNew c steps := by
  intro j k u answer v polled _
  right
  obtain ⟨bound, -⟩ := List.getElem?_eq_some_iff.mp polled.polled
  have later := List.all_eq_true.mp new k (List.mem_range.mpr bound)
  have each := List.all_eq_true.mp later j (List.mem_range.mpr polled.later)
  simpa [polled.polled] using each

theorem resume_sticks_hello : ∃ steps, ResumeSticks steps ∧
    ∃ u v, PolledAfterResume steps 11 13 u (some [preempt "2"]) v := by
  have steps : Mealy.exec (machine ⟨10, false⟩).withTransitions ((initial 1, []), [])
      (starts 0 ++ [.polled (some [preempt "1"])] ++ braces 0 ++ gathers 0 ++ resumes 0 ++
        [.polled (some [preempt "2"])]) = some ((_, _), _) := rfl
  have sticks := (resume_sticks_iff (.of_exec (by simp) steps)).mpr (listsNew_of_newEach rfl)
  refine ⟨_, sticks, _, _, ⟨_, _, _, _, rfl, ?_, ?_⟩, by decide, rfl, ?_⟩
  all_goals rfl

/-- Azure lists one preemption all along. The worker has waited for it, and resumed. -/
theorem resume_undone : ¬ ∀ (last : State × List (State × Action × State)) log,
    Mealy.Run (machine ⟨10, false⟩).withTransitions Mealy.always ((initial 1, []), []) log last →
    ResumeSticks last.2 := by
  intro obeyed
  have steps : Mealy.exec (machine ⟨10, false⟩).withTransitions ((initial 1, []), [])
      (starts 0 ++ [.polled (some [preempt "1"])] ++ braces 0 ++ gathers 0 ++ resumes 0 ++
        [.polled (some [preempt "1"])]) = some ((_, _), _) := rfl
  have sticks := obeyed _ _ (.of_exec (by simp) steps)
  refine absurd (sticks 11 13 _ (some [preempt "1"]) _
    ⟨⟨_, _, _, _, rfl, ?_, ?_⟩, by decide, rfl, ?_⟩ ?_) ?_
  · rfl
  · rfl
  · rfl
  · rfl
  · intro fresh
    obtain ⟨eventId, listed, new⟩ := fresh
    exact new listed

end JobQ.LaunchWorkers
