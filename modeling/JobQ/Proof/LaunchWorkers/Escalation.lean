import JobQ.Proof.LaunchWorkers.Steps

/-!
# How shutdown requests escalate

A first request is soft, a second one stops hard, and one after that stops the event loop.
`shutdown_handler` sets the hard stop of a hard request before it looks whether the hard stop is set,
so that a hard request which comes second stops the loop as well.
-/

namespace JobQ.LaunchWorkers

variable {c : Config} {s t : State} {a : Action} {new log : List Event}

def Signals.stoppedBy (signals : Signals) (r : Request) : Bool :=
  (shutdownHandler { signals with loopStopped := false } r).loopStopped

/-- The request asks for the hard stop, or causes it as the second one. -/
def Signals.forcedBy (signals : Signals) (r : Request) : Bool := r.hard || signals.shutdownEvent

/-- A hard request that finds the shutdown under way, and is the first to ask for the hard stop. -/
def Signals.skippedBy (signals : Signals) (r : Request) : Bool :=
  r.hard && signals.shutdownEvent && !signals.hardStopEvent

abbrev Steppings := List (State × Action × State)

/-- The hard stop is in force: a request has asked for it or caused it. -/
def Forced (made : Steppings) : Prop :=
  ∃ s r t, (s, .request r, t) ∈ made ∧ s.signals.forcedBy r = true

structure StepwiseEscalation (made : Steppings) : Prop where
  forcedBefore : ∀ k s r t, made[k]? = some (s, .request r, t) → s.signals.stoppedBy r = true →
    Forced (made.take k)
  firstSpares : ∀ k s r t, made[k]? = some (s, .request r, t) → ¬ Forced (made.take k) →
    Forced (made.take (k + 1)) → s.signals.stoppedBy r = false

/-! ## One request -/

theorem stoppedBy_eq (signals : Signals) (r : Request) :
    signals.stoppedBy r = (signals.shutdownEvent && (signals.hardStopEvent || r.hard)) := by
  cases r <;> cases set : signals.shutdownEvent <;> cases hard : signals.hardStopEvent <;>
    simp [Signals.stoppedBy, shutdownHandler, Request.hard, set, hard]

theorem handler_hardStop (signals : Signals) (r : Request) :
    (shutdownHandler signals r).hardStopEvent =
      (signals.hardStopEvent || signals.forcedBy r) := by
  cases r <;> cases set : signals.shutdownEvent <;> cases hard : signals.hardStopEvent <;>
    simp [Signals.forcedBy, shutdownHandler, Request.hard, set, hard]

theorem stops_forced_iff (signals : Signals) (r : Request) :
    (signals.stoppedBy r = true → signals.hardStopEvent = true) ↔ signals.skippedBy r = false := by
  rw [stoppedBy_eq, Signals.skippedBy]
  cases signals.shutdownEvent <;> cases signals.hardStopEvent <;> cases r.hard <;> simp

/-! ## Runs -/

theorem forced_append {made more : Steppings} : Forced (made ++ more) ↔ Forced made ∨ Forced more := by
  constructor
  · rintro ⟨s, r, t, member, forced⟩
    rcases List.mem_append.mp member with old | new
    · exact .inl ⟨s, r, t, old, forced⟩
    · exact .inr ⟨s, r, t, new, forced⟩
  · rintro (⟨s, r, t, old, forced⟩ | ⟨s, r, t, new, forced⟩)
    · exact ⟨s, r, t, List.mem_append_left _ old, forced⟩
    · exact ⟨s, r, t, List.mem_append_right _ new, forced⟩

theorem forced_request {r : Request} : Forced [(s, .request r, t)] ↔ s.signals.forcedBy r = true := by
  constructor
  · rintro ⟨u, q, v, member, forced⟩
    cases List.mem_singleton.mp member
    exact forced
  · exact fun forced => ⟨s, r, t, by simp, forced⟩

theorem Worker.Moves.hardStop {maxFailures : Int} {signals signals' : Signals} {w v : Worker}
    {events : List WorkerEvent} {b : WorkerAction}
    (moves : w.Moves maxFailures signals b signals' v events) :
    signals'.hardStopEvent = signals.hardStopEvent := by
  cases moves <;> rfl

theorem Steps.hardStop (stepped : Steps c s a t new) :
    t.signals.hardStopEvent = true ↔ s.signals.hardStopEvent = true ∨ Forced [(s, a, t)] := by
  have quiet (other : ∀ r, a ≠ .request r) : ¬ Forced [(s, a, t)] := by
    rintro ⟨u, r, v, member, -⟩
    cases List.mem_singleton.mp member
    exact other r rfl
  cases stepped with
  | request r =>
      rw [forced_request]
      simp [handler_hardStop]
  | announced => simp [quiet]
  | withdrawn => simp [quiet]
  | nothingNew => simp [quiet]
  | worker _ moves => simp [quiet, moves.hardStop]
  | main stepped => cases stepped <;> simp [quiet]

/-- The hard-stop event tells whether the hard stop is in force, now and at every earlier step. -/
structure Recorded (last : State × Steppings) : Prop where
  now : last.1.signals.hardStopEvent = true ↔ Forced last.2
  earlier : ∀ k s a t, last.2[k]? = some (s, a, t) →
    (s.signals.hardStopEvent = true ↔ Forced (last.2.take k))

theorem Recorded.step {made : Steppings} (recorded : Recorded (s, made))
    (stepped : Steps c s a t new) : Recorded (t, made ++ [(s, a, t)]) where
  now := by
    rw [stepped.hardStop, forced_append]
    exact or_congr recorded.now Iff.rfl
  earlier k u b v found := by
    rcases Nat.lt_trichotomy k made.length with old | last | beyond
    · rw [List.getElem?_append_left old] at found
      rw [List.take_append_of_le_length (Nat.le_of_lt old)]
      exact recorded.earlier k u b v found
    · subst last
      obtain ⟨rfl, rfl, rfl⟩ : s = u ∧ a = b ∧ t = v := by simpa using found
      rw [List.take_left]
      exact recorded.now
    · rw [List.getElem?_eq_none (by simp; omega)] at found
      contradiction

theorem run_recorded {numWorkers : Nat} {last : State × Steppings}
    (run : Mealy.Run (machine c).withTransitions Mealy.always ((initial numWorkers, []), []) log last) :
    Recorded last := by
  apply run.state_invariant (P := Recorded)
  · exact ⟨by simp [initial, Forced], by simp⟩
  · rintro ⟨s, made⟩ a ⟨t, later⟩ new recorded - action
    simp only [Mealy.Machine.withTransitions, Option.map_eq_some_iff, Prod.mk.injEq] at action
    obtain ⟨⟨u, events⟩, stepped, ⟨rfl, rfl⟩, rfl⟩ := action
    exact recorded.step (step_cases stepped)

/-- Requests escalate one step at a time exactly if no hard request comes second. -/
theorem escalates_iff {numWorkers : Nat} {last : State × Steppings}
    (run : Mealy.Run (machine c).withTransitions Mealy.always ((initial numWorkers, []), []) log last) :
    StepwiseEscalation last.2 ↔
      ∀ s r t, (s, .request r, t) ∈ last.2 → s.signals.skippedBy r = false := by
  have recorded := run_recorded run
  constructor
  · intro stepwise s r t made
    obtain ⟨k, found⟩ := List.mem_iff_getElem?.mp made
    rw [← stops_forced_iff, recorded.earlier k s _ t found]
    exact stepwise.forcedBefore k s r t found
  · intro unskipped
    have forcedBefore : ∀ k s r t, last.2[k]? = some (s, .request r, t) →
        s.signals.stoppedBy r = true → Forced (last.2.take k) := by
      intro k s r t found
      rw [← recorded.earlier k s _ t found, stops_forced_iff]
      exact unskipped s r t (List.mem_of_getElem? found)
    refine ⟨forcedBefore, fun k s r t found unforced _ => ?_⟩
    by_contra stopped
    exact unforced (forcedBefore k s r t found (by simpa using stopped))

def unskipped (made : Steppings) : Bool :=
  made.all fun x => match x with
    | (s, .request r, _) => !s.signals.skippedBy r
    | _ => true

theorem unskipped_spec {made : Steppings} (all : unskipped made = true) (s : State) (r : Request)
    (t : State) (member : (s, .request r, t) ∈ made) : s.signals.skippedBy r = false := by
  simpa using List.all_eq_true.mp all _ member

/-- Two soft requests and a third one, which stops the loop. -/
theorem escalates_hello : ∃ last : State × Steppings, StepwiseEscalation last.2 ∧
    last.2.length = 5 ∧ last.1.signals.loopStopped = true := by
  have steps : Mealy.exec (machine ⟨10, false⟩).withTransitions ((initial 1, []), [])
      (starts 0 ++ [.request .sigusr1, .request .sigterm, .request .sigint]) =
        some ((_, _), _) := rfl
  exact ⟨_, (escalates_iff (.of_exec (by simp) steps)).mpr (unskipped_spec rfl), rfl, rfl⟩

/-- `SIGTERM`, and then the first Ctrl-C. -/
theorem escalation_skipped : ¬ ∀ (last : State × Steppings) log,
    Mealy.Run (machine ⟨10, false⟩).withTransitions Mealy.always ((initial 1, []), []) log last →
    StepwiseEscalation last.2 := by
  intro claim
  have steps : Mealy.exec (machine ⟨10, false⟩).withTransitions ((initial 1, []), [])
      [.request .sigterm, .request .sigint] = some ((_, _), _) := rfl
  have stepwise := claim _ _ (.of_exec (by simp) steps)
  obtain ⟨s, r, t, member, forced⟩ := stepwise.forcedBefore 1 _ .sigint _ rfl rfl
  cases List.mem_singleton.mp member
  contradiction

end JobQ.LaunchWorkers
