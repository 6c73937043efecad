import JobQ.Model.RunCmd

/-!
# How a shell command ends

The result is that of the process unless SIGUSR1 has arrived, the process group is killed only when
its time is up, and the coroutine ends in bounded time after the process.
-/

namespace JobQ.RunCmd

variable {c : Config} {s t : State} {log new : List Event}

/-! ## Steps -/

/-- What the coroutine does when it is resumed. -/
inductive Resumes (c : Config) (s : State) : State → List Event → Prop
  | leaves {wakesAt : Nat} {ret : Int} (pc : s.pc = .polling wakesAt) (awake : wakesAt ≤ s.now)
      (exited : s.returncode = some ret) (done : s.readTaskDone = true) :
      Resumes c s { s with pc := .leaving (some ret) } []
  | waited (pc : s.pc = .waiting) (passed : s.waited = true) :
      Resumes c s { s with pc := .leaving s.returncode } []
  | drains {wakesAt : Nat} {ret : Int} (pc : s.pc = .polling wakesAt) (awake : wakesAt ≤ s.now)
      (exited : s.returncode = some ret) (reading : s.readTaskDone = false) :
      Resumes c s { s with pc := .draining ret (s.now + drainTimeout) } []
  | waits {wakesAt : Nat} (pc : s.pc = .polling wakesAt) (awake : wakesAt ≤ s.now)
      (running : s.returncode = none) (done : s.readTaskDone = true) :
      Resumes c s { s with pc := .waiting } []
  | decides {wakesAt : Nat} (pc : s.pc = .polling wakesAt) (awake : wakesAt ≤ s.now)
      (running : s.returncode = none) (reading : s.readTaskDone = false)
      (due : s.killDue c = true) : Resumes c s { s with pc := .escalating } []
  | escalates {events : List Event} (pc : s.pc = .escalating)
      (sends : events = [.sigkill .escalation s.now] ∨ events = []) :
      Resumes c s { s with pc := .escalated } events
  | fails (pc : s.pc = .escalating) : Resumes c s { s with pc := .cancelling none } []
  | sleeps {wakesAt : Nat} (pc : s.pc = .polling wakesAt) (awake : wakesAt ≤ s.now)
      (running : s.returncode = none) (reading : s.readTaskDone = false)
      (early : s.killDue c = false) : Resumes c s { s with pc := .polling (s.now + pollInterval) } []
  | resets (pc : s.pc = .escalated) :
      Resumes c s { s with terminatedAt := none, pc := .polling (s.now + pollInterval) } []
  | drained {ret : Int} {deadline : Nat} (pc : s.pc = .draining ret deadline)
      (done : s.readTaskDone = true) : Resumes c s { s with pc := .leaving (some ret) } []
  | cancelled {ret : Option Int} {events : List Event} (pc : s.pc = .cancelling ret)
      (sends : events = [.sigkill .error s.now] ∨ events = []) :
      Resumes c s { s with pc := .leaving ret } events
  | ends {ret : Option Int} (pc : s.pc = .leaving ret) :
      Resumes c s { s with pc := .ended (s.leave ret) } [.ended (s.leave ret)]

theorem resume_cases {killpg : Killpg} (action : s.resume c killpg = some (t, new)) :
    Resumes c s t new := by
  unfold State.resume at action
  cases pc : s.pc with
  | polling wakesAt =>
      simp only [pc] at action
      split at action
      · rename_i awake
        cases action
        unfold State.poll
        split
        · rename_i exited
          split
          · exact .leaves pc awake exited ‹_›
          · exact .drains pc awake exited (Bool.eq_false_iff.mpr ‹_›)
        · rename_i running
          split
          · exact .waits pc awake running ‹_›
          · rename_i reading
            split
            · exact .decides pc awake running (Bool.eq_false_iff.mpr reading) ‹_›
            · exact .sleeps pc awake running (Bool.eq_false_iff.mpr reading)
                (Bool.eq_false_iff.mpr ‹_›)
      · contradiction
  | escalating =>
      simp only [pc] at action
      cases killpg with
      | sent =>
          cases action
          exact .escalates pc (.inl rfl)
      | processLookupError =>
          cases action
          exact .escalates pc (.inr rfl)
      | permissionError =>
          cases action
          exact .fails pc
  | escalated =>
      simp only [pc] at action
      cases action
      exact .resets pc
  | waiting =>
      simp only [pc] at action
      split at action <;> cases action
      exact .waited pc ‹_›
  | draining ret deadline =>
      simp only [pc] at action
      split at action <;> cases action
      exact .drained pc ‹_›
  | cancelling ret =>
      cases ret with
      | some ret =>
          simp only [pc] at action
          cases action
          exact .cancelled pc (.inr rfl)
      | none =>
          simp only [pc] at action
          cases action
          refine .cancelled pc ?_
          unfold State.killProcess
          cases killpg <;> cases s.returncode <;> simp
  | leaving ret =>
      simp only [pc] at action
      cases action
      exact .ends pc
  | ended result =>
      simp only [pc] at action
      contradiction

inductive Steps (c : Config) (s : State) : Action → State → List Event → Prop
  | ticks : Steps c s .tick { s with now := s.now + 1 } []
  | signalled : Steps c s .signal { s with terminated := true, terminatedAt := some s.now }
      (.sigusr1 s.now :: if s.returncode.isNone then [.sigterm] else [])
  | exits {ret : Int} (idle : s.pc.isBusy = false) (running : s.returncode = none) :
      Steps c s (.exits ret) { s with returncode := some ret } [.exited ret s.now]
  | reads {stream : Stream} (idle : s.pc.isBusy = false) :
      Steps c s (.readerEnds stream) (s.endReader stream) [.readerEnded stream]
  | waitEnds (pc : s.pc = .waiting) (exited : s.returncode.isSome = true) (waits : s.waited = false) :
      Steps c s .waitEnds { s with waited := true } [.waited s.now]
  | resumes {killpg : Killpg} {t : State} {new : List Event} (resumed : Resumes c s t new) :
      Steps c s (.resume killpg) t new
  | timesOut {killpg : Killpg} {ret : Int} {deadline : Nat} {events : List Event}
      (pc : s.pc = .draining ret deadline) (due : deadline ≤ s.now)
      (sends : events = [.sigkill .orphans s.now] ∨ events = []) :
      Steps c s (.timesOut killpg) { s with pc := .cancelling (some ret) } events

theorem step_cases {a : Action} (action : (machine c).step s a = some (t, new)) :
    Steps c s a t new := by
  cases a with
  | tick =>
      cases action
      exact .ticks
  | signal =>
      cases action
      exact .signalled
  | exits ret =>
      simp only [machine, State.step] at action
      split at action <;> cases action
      rename_i allowed
      exact .exits allowed.1 (Option.isNone_iff_eq_none.mp allowed.2)
  | readerEnds stream =>
      simp only [machine, State.step] at action
      split at action <;> cases action
      exact .reads (Bool.eq_false_iff.mpr ‹_›)
  | waitEnds =>
      simp only [machine, State.step] at action
      split at action <;> cases action
      rename_i allowed
      exact .waitEnds allowed.1 allowed.2.1 allowed.2.2
  | resume killpg => exact .resumes (resume_cases action)
  | timesOut killpg =>
      simp only [machine, State.step, State.timesOut] at action
      split at action
      · split at action <;> cases action
        rename_i pc due
        refine .timesOut pc due ?_
        cases killpg <;> simp
      · contradiction

/-! ## What the log says of the state -/

/-- A signal that arrives, or a kill that answers it, ends the wait that an earlier one began. -/
def Event.restarts : Event → Bool
  | .sigusr1 _ | .sigkill .escalation _ => true
  | _ => false

/-- What the coroutine knows where it is. -/
def State.Knows (s : State) : Pc → Prop
  | .polling _ | .ended _ => True
  | .escalating | .escalated =>
    s.terminated = true ∧ s.returncode = none ∧ s.readTaskDone = false
  | .waiting => s.readTaskDone = true
  | .draining ret _ => s.returncode = some ret
  | .cancelling (some ret) | .leaving (some ret) => s.returncode = some ret
  | .cancelling none | .leaving none => s.terminated = true

/-- Both readers had ended when the process exited. -/
def ReadersFirst (log : List Event) (ret : Int) (time : Nat) : Prop :=
  ∃ before after, log = before ++ .exited ret time :: after ∧
    ∀ stream, .readerEnded stream ∈ before

theorem ReadersFirst.append {ret : Int} {time : Nat} (first : ReadersFirst log ret time) :
    ReadersFirst (log ++ new) ret time := by
  obtain ⟨before, after, rfl, ended⟩ := first
  exact ⟨before, after ++ new, List.append_assoc .., ended⟩

structure Told (log : List Event) (s : State) : Prop where
  signalled : s.terminated = true ↔ ∃ time, .sigusr1 time ∈ log
  exited : ∀ ret, s.returncode = some ret ↔ ∃ time, .exited ret time ∈ log
  stdout : s.stdoutDone = true ↔ .readerEnded .stdout ∈ log
  stderr : s.stderrDone = true ↔ .readerEnded .stderr ∈ log
  waited : s.waited = true ↔ ∃ time, .waited time ∈ log
  passed : s.waited = true → s.returncode.isSome = true
  readersFirst : s.pc = .waiting ∨ s.waited = true → ∀ ret time, .exited ret time ∈ log →
    ReadersFirst log ret time
  waits : s.pc ≠ .escalated → ∀ time, s.terminatedAt = some time →
    Mealy.Latest Event.restarts log (.sigusr1 time)
  knows : s.Knows s.pc

theorem Told.not_exited (told : Told log s) (running : s.returncode = none) (ret : Int) (time : Nat) :
    .exited ret time ∉ log := by
  intro member
  rw [(told.exited ret).mpr ⟨time, member⟩] at running
  cases running

theorem Told.running_waits (told : Told log s) (running : s.returncode = none) :
    s.waited = false := by
  refine Bool.eq_false_iff.mpr fun passed => ?_
  have exited := told.passed passed
  rw [running] at exited
  cases exited

/-- What the coroutine itself brings about says nothing of the process. -/
theorem Told.moved (told : Told log s) {pc : Pc} {terminatedAt : Option Nat}
    (silent : ∀ e ∈ new, (∃ why time, e = .sigkill why time) ∨ ∃ result, e = .ended result)
    (first : pc = .waiting → ∀ ret time, .exited ret time ∉ log)
    (waits : pc ≠ .escalated → ∀ time, terminatedAt = some time →
      Mealy.Latest Event.restarts (log ++ new) (.sigusr1 time))
    (knows : s.Knows pc) : Told (log ++ new) { s with pc := pc, terminatedAt := terminatedAt } := by
  have old {e : Event} (kill : ∀ why time, e ≠ .sigkill why time) (ended : ∀ result, e ≠ .ended result) :
      e ∈ log ++ new ↔ e ∈ log := by
    refine ⟨fun member => ?_, List.mem_append_left _⟩
    rcases List.mem_append.mp member with before | now
    · exact before
    · rcases silent e now with ⟨why, time, same⟩ | ⟨result, same⟩
      · exact absurd same (kill why time)
      · exact absurd same (ended result)
  refine ⟨?_, fun ret => ?_, ?_, ?_, ?_, told.passed, fun waiting ret time member => ?_, waits, ?_⟩
  · simpa [old] using told.signalled
  · simpa [old] using told.exited ret
  · simpa [old] using told.stdout
  · simpa [old] using told.stderr
  · simpa [old] using told.waited
  · have before : .exited ret time ∈ log := (old (by simp) (by simp)).mp member
    rcases waiting with waiting | passed
    · exact absurd before (first waiting ret time)
    · exact (told.readersFirst (.inr passed) ret time before).append
  · unfold State.Knows at knows ⊢
    exact knows

theorem Told.quiet (told : Told log s) (pc : s.pc ≠ .escalated)
    (silent : ∀ e ∈ new, e.restarts = false) (time : Nat) (due : s.terminatedAt = some time) :
    Mealy.Latest Event.restarts (log ++ new) (.sigusr1 time) :=
  (told.waits pc time due).append silent

theorem killDue_spec (due : s.killDue c = true) : ∃ time, s.terminatedAt = some time ∧
    0 < c.killTimeout ∧ time + c.killTimeout * 1000 ≤ s.now := by
  unfold State.killDue at due
  split at due
  · rename_i time same
    obtain ⟨positive, passed⟩ := of_decide_eq_true due
    exact ⟨time, same, positive, by omega⟩
  · cases due

theorem Told.due (told : Told log s) (pc : s.pc ≠ .escalated) (due : s.killDue c = true) :
    s.terminated = true := by
  obtain ⟨time, same, -⟩ := killDue_spec due
  exact told.signalled.mpr ⟨time, (told.waits pc time same).mem⟩

theorem Told.resumes (told : Told log s) (resumed : Resumes c s t new) : Told (log ++ new) t := by
  have knows := told.knows
  cases resumed with
  | leaves pc _ exited =>
      exact told.moved (by simp) (by simp) (fun _ => told.quiet (by simp [pc]) (by simp)) exited
  | drains pc _ exited =>
      exact told.moved (by simp) (by simp) (fun _ => told.quiet (by simp [pc]) (by simp)) exited
  | waits pc _ running done =>
      exact told.moved (by simp) (fun _ => told.not_exited running)
        (fun _ => told.quiet (by simp [pc]) (by simp)) done
  | waited pc passed =>
      obtain ⟨ret, exited⟩ := Option.isSome_iff_exists.mp (told.passed passed)
      refine told.moved (by simp) (by simp) (fun _ => told.quiet (by simp [pc]) (by simp)) ?_
      rw [exited]
      exact exited
  | decides pc _ running reading due =>
      exact told.moved (by simp) (by simp) (fun _ => told.quiet (by simp [pc]) (by simp))
        ⟨told.due (by simp [pc]) due, running, reading⟩
  | escalates pc sends =>
      rw [pc] at knows
      refine told.moved ?_ (by simp) (by simp) knows
      rcases sends with rfl | rfl <;> simp
  | fails pc =>
      rw [pc] at knows
      exact told.moved (by simp) (by simp) (fun _ => told.quiet (by simp [pc]) (by simp)) knows.1
  | sleeps pc =>
      exact told.moved (by simp) (by simp) (fun _ => told.quiet (by simp [pc]) (by simp)) trivial
  | resets pc => exact told.moved (by simp) (by simp) (by simp) trivial
  | drained pc =>
      rw [pc] at knows
      exact told.moved (by simp) (by simp) (fun _ => told.quiet (by simp [pc]) (by simp)) knows
  | @cancelled ret _ pc sends =>
      rw [pc] at knows
      refine told.moved ?_ (by simp) (fun _ => told.quiet (by simp [pc]) ?_) ?_
      · rcases sends with rfl | rfl <;> simp
      · rcases sends with rfl | rfl <;> simp [Event.restarts]
      · cases ret <;> exact knows
  | ends pc =>
      exact told.moved (by simp) (by simp)
        (fun _ => told.quiet (by simp [pc]) (by simp [Event.restarts])) trivial

theorem Told.signals (told : Told log s) (sends : new = [.sigusr1 s.now, .sigterm] ∨
    new = [.sigusr1 s.now]) :
    Told (log ++ new) { s with terminated := true, terminatedAt := some s.now } := by
  have old {e : Event} (usr1 : e ≠ .sigusr1 s.now) (term : e ≠ .sigterm) :
      e ∈ log ++ new ↔ e ∈ log := by
    rcases sends with rfl | rfl <;> simp [usr1, term]
  have arrived : .sigusr1 s.now ∈ new := by rcases sends with rfl | rfl <;> simp
  refine ⟨by simpa using ⟨_, .inr arrived⟩, fun ret => ?_, ?_, ?_, ?_, told.passed,
    fun waiting ret time member => ?_, ?_, ?_⟩
  · simpa [old] using told.exited ret
  · simpa [old] using told.stdout
  · simpa [old] using told.stderr
  · simpa [old] using told.waited
  · exact (told.readersFirst waiting ret time ((old (by simp) (by simp)).mp member)).append
  · rintro - _ ⟨⟩
    rcases sends with rfl | rfl
    · exact ⟨log, _, rfl, by simp [Event.restarts]⟩
    · exact ⟨log, _, rfl, by simp⟩
  · have knows := told.knows
    unfold State.Knows at knows ⊢
    split <;> simp_all [State.readTaskDone]

theorem Told.exits (told : Told log s) {ret : Int} (idle : s.pc.isBusy = false)
    (running : s.returncode = none) :
    Told (log ++ [.exited ret s.now]) { s with returncode := some ret } := by
  have none := told.not_exited running
  refine ⟨by simpa using told.signalled, fun other => ?_, by simpa using told.stdout,
    by simpa using told.stderr, by simpa using told.waited, fun _ => rfl,
    fun waiting other time member => ?_, fun pc => told.quiet pc (by simp [Event.restarts]), ?_⟩
  · simp [none, eq_comm]
  · obtain ⟨rfl, rfl⟩ : other = ret ∧ time = s.now := by simpa [none] using member
    refine ⟨log, [], rfl, fun stream => ?_⟩
    have done : s.readTaskDone = true := by
      rcases waiting with waiting | passed
      · have knows := told.knows
        rw [show s.pc = .waiting from waiting] at knows
        exact knows
      · rw [told.running_waits running] at passed
        cases passed
    obtain ⟨stdout, stderr⟩ := Bool.and_eq_true_iff.mp done
    cases stream with
    | stdout => exact told.stdout.mp stdout
    | stderr => exact told.stderr.mp stderr
  · have knows := told.knows
    cases pc : s.pc with
    | cancelling ret =>
        rw [pc] at knows
        cases ret with
        | none => exact knows
        | some ret => exact absurd (running.symm.trans knows) (by simp)
    | draining ret =>
        rw [pc] at knows
        exact absurd (running.symm.trans knows) (by simp)
    | waiting =>
        rw [pc] at knows
        exact knows
    | polling => trivial
    | ended => trivial
    | _ => simp [pc, Pc.isBusy] at idle

theorem Told.reads (told : Told log s) {stream : Stream} (idle : s.pc.isBusy = false) :
    Told (log ++ [.readerEnded stream]) (s.endReader stream) := by
  have still : (s.endReader stream).pc = s.pc ∧ (s.endReader stream).waited = s.waited ∧
      (s.endReader stream).returncode = s.returncode ∧
      (s.endReader stream).terminated = s.terminated ∧
      (s.endReader stream).terminatedAt = s.terminatedAt := by cases stream <;> simp [State.endReader]
  obtain ⟨pc, waited, returncode, terminated, terminatedAt⟩ := still
  refine ⟨by simpa [terminated] using told.signalled, by simpa [returncode] using told.exited, ?_, ?_,
    by simpa [waited] using told.waited, by simpa [waited, returncode] using told.passed,
    fun waiting ret time member => ?_, ?_, ?_⟩
  · cases stream <;> simp [State.endReader, told.stdout]
  · cases stream <;> simp [State.endReader, told.stderr]
  · rw [pc, waited] at waiting
    exact (told.readersFirst waiting ret time (by simpa using member)).append
  · rw [pc, terminatedAt]
    exact fun other => told.quiet other (by simp [Event.restarts])
  · have knows := told.knows
    rw [pc]
    cases at_ : s.pc with
    | waiting =>
        rw [at_] at knows
        obtain ⟨stdout, stderr⟩ := Bool.and_eq_true_iff.mp knows
        cases stream <;> simp [State.Knows, State.readTaskDone, State.endReader, stdout, stderr]
    | polling => trivial
    | ended => trivial
    | draining ret deadline =>
        rw [at_] at knows
        exact returncode.trans knows
    | cancelling ret =>
        rw [at_] at knows
        cases ret with
        | none => exact terminated.trans knows
        | some ret => exact returncode.trans knows
    | _ => simp [at_, Pc.isBusy] at idle

theorem Told.step {a : Action} (told : Told log s) (stepped : Steps c s a t new) :
    Told (log ++ new) t := by
  cases stepped with
  | ticks =>
      rw [List.append_nil]
      exact ⟨told.signalled, told.exited, told.stdout, told.stderr, told.waited, told.passed,
        told.readersFirst, told.waits, told.knows⟩
  | signalled => exact told.signals (by cases s.returncode <;> simp)
  | exits idle running => exact told.exits idle running
  | reads idle => exact told.reads idle
  | waitEnds pc exited =>
      refine ⟨by simpa using told.signalled, by simpa using told.exited, by simpa using told.stdout,
        by simpa using told.stderr, by simp, fun _ => exited, fun _ ret time member => ?_,
        fun other => told.quiet other (by simp [Event.restarts]), told.knows⟩
      exact (told.readersFirst (.inl pc) ret time (by simpa using member)).append
  | resumes resumed => exact told.resumes resumed
  | @timesOut _ ret deadline _ pc due sends =>
      have knows := told.knows
      rw [pc] at knows
      refine told.moved ?_ (by simp) (fun _ => told.quiet (by simp [pc]) ?_) knows
      · rcases sends with rfl | rfl <;> simp
      · rcases sends with rfl | rfl <;> simp [Event.restarts]

theorem run_told {G : State → Action → Prop} (run : Mealy.Run (machine c) G ({}, []) log s) :
    Told log s := by
  refine run.invariant (P := Told) ?_ fun _ _ _ _ _ told _ action => told.step (step_cases action)
  exact ⟨by simp, by simp, by simp, by simp, by simp, by simp, by simp, by simp, trivial⟩

/-! ## The result -/

/-- The result that the log calls for: `WorkerCanceled` exactly if SIGUSR1 has arrived, and else
the return code of the process, which has exited. -/
def Truthful (log : List Event) : Result → Prop
  | .returned ret => (∃ time, .exited ret time ∈ log) ∧ ∀ time, .sigusr1 time ∉ log
  | .workerCanceled => ∃ time, .sigusr1 time ∈ log
  | .unboundLocalError => False

theorem Told.truthful (told : Told log s) {ret : Option Int} (pc : s.pc = .leaving ret) :
    Truthful log (s.leave ret) := by
  unfold State.leave
  cases terminated : s.terminated with
  | true => exact told.signalled.mp terminated
  | false =>
      have none (time : Nat) : .sigusr1 time ∉ log := fun member => by
        rw [told.signalled.mpr ⟨time, member⟩] at terminated
        cases terminated
      have knows := told.knows
      rw [pc] at knows
      cases ret with
      | some ret => exact ⟨(told.exited ret).mp knows, none⟩
      | none => exact absurd (terminated.symm.trans knows) (by simp)

theorem Resumes.ended (resumed : Resumes c s t new) {result : Result} (member : .ended result ∈ new) :
    ∃ ret, s.pc = .leaving ret ∧ result = s.leave ret ∧ new = [.ended result] ∧
      t.pc = .ended result := by
  cases resumed with
  | ends pc =>
      cases List.mem_singleton.mp member
      exact ⟨_, pc, rfl, rfl, rfl⟩
  | escalates _ sends => rcases sends with rfl | rfl <;> simp at member
  | cancelled _ sends => rcases sends with rfl | rfl <;> simp at member
  | _ => cases member

theorem Steps.ended {a : Action} (stepped : Steps c s a t new) {result : Result}
    (member : .ended result ∈ new) : ∃ ret, s.pc = .leaving ret ∧ result = s.leave ret ∧
      new = [.ended result] ∧ t.pc = .ended result := by
  cases stepped with
  | signalled => cases returncode : s.returncode <;> simp [returncode] at member
  | resumes resumed => exact resumed.ended member
  | timesOut _ _ sends => rcases sends with rfl | rfl <;> simp at member
  | _ => simp at member

theorem Steps.stays {a : Action} (stepped : Steps c s a t new) {result : Result}
    (pc : s.pc = .ended result) : t.pc = .ended result := by
  cases stepped with
  | resumes resumed =>
      cases resumed <;> simp_all
  | timesOut other => simp [pc] at other
  | @reads stream => cases stream <;> exact pc
  | _ => exact pc

theorem single_split {before after : List Event} {e f : Event} (same : before ++ e :: after = [f]) :
    before = [] ∧ e = f ∧ after = [] := by
  cases before with
  | nil =>
      cases same
      exact ⟨rfl, rfl, rfl⟩
  | cons g before => simp at same

theorem ended_once {before after : List Event} {result : Result}
    (run : Mealy.Run (machine c) Mealy.always ({}, []) log s)
    (split : log = before ++ .ended result :: after) (other : Result) : .ended other ∉ after := by
  have silent := run.never_after (P := fun s => ∃ result, s.pc = .ended result)
    (fun e => ∃ result, e = .ended result) (fun e => ∃ result, e = .ended result) ?_ ?_ split ⟨_, rfl⟩
  · exact fun member => silent.2 _ member ⟨other, rfl⟩
  · rintro s a t new before _ after - action same ⟨result, rfl⟩
    have member : .ended result ∈ new := by simp [same]
    obtain ⟨ret, -, -, only, ended⟩ := (step_cases action).ended member
    rw [(single_split (same.symm.trans only)).2.2]
    exact ⟨⟨result, ended⟩, by simp⟩
  · rintro s a t new ⟨result, pc⟩ - action
    refine ⟨⟨result, (step_cases action).stays pc⟩, ?_⟩
    rintro _ member ⟨other, rfl⟩
    obtain ⟨ret, leaving, -⟩ := (step_cases action).ended member
    rw [pc] at leaving
    cases leaving

/-- Whatever happens to the process and when: there is one result, and it tells the truth. -/
theorem result_truthful {before after : List Event} {result : Result}
    (run : Mealy.Run (machine c) Mealy.always ({}, []) log s)
    (split : log = before ++ .ended result :: after) :
    Truthful before result ∧ ∀ other, .ended other ∉ after := by
  refine ⟨?_, ended_once run split⟩
  obtain ⟨earlier, u, a, v, first, second, later, prefix_, -, action, rfl, rfl, -⟩ :=
    run.at_event rfl split
  have member : Event.ended result ∈ first ++ .ended result :: second := by simp
  obtain ⟨ret, pc, same, only, -⟩ := (step_cases action).ended member
  rw [(single_split only).1, List.append_nil, same]
  exact (run_told prefix_).truthful pc

theorem result_truthful_hello :
    Truthful [.exited 0 0, .readerEnded .stdout, .readerEnded .stderr] (.returned 0) := by
  have run : Mealy.exec (machine ⟨600⟩) ({}, [])
      [.exits 0, .readerEnds .stdout, .readerEnds .stderr, .resume .sent, .resume .sent] =
      some (_, [.exited 0 0, .readerEnded .stdout, .readerEnded .stderr] ++ [.ended (.returned 0)]) :=
    rfl
  exact (result_truthful (.of_exec (by simp) run) rfl).1

/-! ## When the process group is killed -/

/-- A SIGUSR1 that no SIGKILL has answered is `killTimeout` old, and it was when any later one
came. -/
def Overdue (c : Config) (log : List Event) (now : Nat) : Prop :=
  ∃ (earlier : List Event) (signalled : Nat) (later : List Event),
    log = earlier ++ .sigusr1 signalled :: later ∧ (∀ time, .sigkill .escalation time ∉ later) ∧
      signalled + c.killTimeout * 1000 ≤ now ∧
      ∀ time : Nat, .sigusr1 time ∈ later → signalled + c.killTimeout * 1000 ≤ time

/-- What has happened before SIGKILL is sent at this time because the process outlives SIGTERM: a
SIGUSR1 is overdue, the process is not known to have exited, and one of its streams is still
read. -/
structure Outlived (c : Config) (before : List Event) (time : Nat) : Prop where
  enabled : 0 < c.killTimeout
  waited : Overdue c before time
  running : ∀ ret at_, .exited ret at_ ∉ before
  reading : ∃ stream, .readerEnded stream ∉ before

theorem Overdue.append {now later : Nat} (overdue : Overdue c log now) (passed : now ≤ later)
    (answers : ∀ time, .sigkill .escalation time ∉ new)
    (signals : ∀ time : Nat, .sigusr1 time ∈ new → now ≤ time) : Overdue c (log ++ new) later := by
  obtain ⟨earlier, signalled, since, rfl, unanswered, due, others⟩ := overdue
  refine ⟨earlier, signalled, since ++ new, List.append_assoc .., fun time member => ?_, by omega,
    fun time member => ?_⟩
  · rcases List.mem_append.mp member with old | fresh
    · exact unanswered time old
    · exact answers time fresh
  · rcases List.mem_append.mp member with old | fresh
    · exact others time old
    · have bound := signals time fresh
      omega

theorem Told.overdue (told : Told log s) (pc : s.pc ≠ .escalated) (due : s.killDue c = true) :
    0 < c.killTimeout ∧ Overdue c log s.now := by
  obtain ⟨time, same, positive, passed⟩ := killDue_spec due
  obtain ⟨before, after, rfl, silent⟩ := told.waits pc time same
  refine ⟨positive, before, time, after, rfl, fun other member => ?_, passed, fun other member => ?_⟩
  · have restarts := silent _ member
    cases restarts
  · have restarts := silent _ member
    cases restarts

/-- Between the decision to kill and the kill only the signal handler runs. -/
theorem Steps.still_due {a : Action} (stepped : Steps c s a t new) (told : Told log s)
    (at_ : t.pc = .escalating)
    (before : s.pc = .escalating → 0 < c.killTimeout ∧ Overdue c log s.now) :
    0 < c.killTimeout ∧ Overdue c (log ++ new) t.now := by
  cases stepped with
  | ticks =>
      obtain ⟨enabled, overdue⟩ := before at_
      exact ⟨enabled, overdue.append (Nat.le_succ _) (by simp) (by simp)⟩
  | signalled =>
      obtain ⟨enabled, overdue⟩ := before at_
      refine ⟨enabled, overdue.append (Nat.le_refl _) ?_ ?_⟩
      · cases s.returncode <;> simp
      · cases s.returncode <;> simp
  | exits idle => simp [show s.pc = .escalating from at_, Pc.isBusy] at idle
  | @reads stream idle =>
      have pc : s.pc = .escalating := by cases stream <;> exact at_
      simp [pc, Pc.isBusy] at idle
  | waitEnds pc => simp [show s.pc = .escalating from at_] at pc
  | resumes resumed =>
      cases resumed with
      | decides pc _ _ _ due =>
          rw [List.append_nil]
          exact told.overdue (by simp [pc]) due
      | _ => simp at at_
  | timesOut => simp at at_

theorem run_due {G : State → Action → Prop} (run : Mealy.Run (machine c) G ({}, []) log s) :
    s.pc = .escalating → 0 < c.killTimeout ∧ Overdue c log s.now := by
  induction run with
  | refl => simp
  | next previous _ action ih =>
      exact fun at_ => (step_cases action).still_due (run_told previous) at_ ih

theorem Steps.escalates {a : Action} (stepped : Steps c s a t new) {time : Nat}
    (member : .sigkill .escalation time ∈ new) :
    new = [.sigkill .escalation s.now] ∧ s.pc = .escalating := by
  cases stepped with
  | signalled => cases returncode : s.returncode <;> simp [returncode] at member
  | resumes resumed =>
      cases resumed with
      | escalates pc sends =>
          rcases sends with rfl | rfl
          · exact ⟨rfl, pc⟩
          · cases member
      | cancelled _ sends => rcases sends with rfl | rfl <;> simp at member
      | ends => simp at member
      | _ => cases member
  | timesOut _ _ sends => rcases sends with rfl | rfl <;> simp at member
  | _ => simp at member

theorem Told.reading (told : Told log s) (reading : s.readTaskDone = false) :
    ∃ stream, .readerEnded stream ∉ log := by
  by_cases stdout : Event.readerEnded .stdout ∈ log
  · refine ⟨.stderr, fun stderr => ?_⟩
    simp [State.readTaskDone, told.stdout.mpr stdout, told.stderr.mpr stderr] at reading
  · exact ⟨.stdout, stdout⟩

/-- SIGKILL follows each SIGUSR1 at most once, not before its time, never after the process has
exited, and never once both its streams have ended. -/
theorem escalation_justified {before after : List Event} {time : Nat}
    (run : Mealy.Run (machine c) Mealy.always ({}, []) log s)
    (split : log = before ++ .sigkill .escalation time :: after) : Outlived c before time := by
  obtain ⟨earlier, u, a, v, first, second, later, prefix_, -, action, rfl, rfl, -⟩ :=
    run.at_event rfl split
  have member : Event.sigkill .escalation time ∈ first ++ .sigkill .escalation time :: second := by
    simp
  obtain ⟨only, pc⟩ := (step_cases action).escalates member
  obtain ⟨rfl, same, -⟩ := single_split only
  cases same
  rw [List.append_nil]
  have told := run_told prefix_
  have knows := told.knows
  rw [pc] at knows
  obtain ⟨enabled, overdue⟩ := run_due prefix_ pc
  exact ⟨enabled, overdue, told.not_exited knows.2.1, told.reading knows.2.2⟩

theorem ticks_run (n : Nat) : Mealy.Run (machine c) Mealy.always (s, log) log
    { s with now := s.now + n } := by
  induction n with
  | zero => exact .refl
  | succ n ih =>
      have ticked := ih.next (a := .tick) trivial rfl
      rwa [List.append_nil] at ticked

theorem escalation_justified_hello :
    Outlived ⟨1⟩ [.sigusr1 0, .sigterm, .sigusr1 1000, .sigterm] 1000 := by
  have waited : Mealy.Run (machine ⟨1⟩) Mealy.always ({}, []) [.sigusr1 0, .sigterm]
      { now := 1000, terminated := true, terminatedAt := some 0 } := by
    have signalled : Mealy.Run (machine ⟨1⟩) Mealy.always ({}, []) [.sigusr1 0, .sigterm]
        { terminated := true, terminatedAt := some 0 } := Mealy.Run.refl.next (a := .signal) trivial rfl
    simpa using signalled.trans (ticks_run 1000)
  have decided := waited.next (a := .resume .sent) trivial rfl
  have again := decided.next (a := .signal) trivial rfl
  exact escalation_justified (again.next (a := .resume .sent) trivial rfl) rfl

end JobQ.RunCmd
