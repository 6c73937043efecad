import JobQ.Proof.BackgroundDirSync.Steps

/-!
# Shutting down

Two races at the end: `shutdown` sets its two events between the two tests of the loop, and the
listener asks for a flush when nobody is left to serve it.
-/

namespace JobQ.BackgroundDirSync

variable {Content : Type*} {c : Syncer.Config} {s t : State Content} {a : Action Content}
  {log new : List Event} {between : Bool}

/-! ## The last pass -/

/-- A whole pass after `shutdown` was called. -/
def SyncedSince (log : List Event) : Prop :=
  ∃ before middle after, log =
    before ++ .shutdownCalled :: middle ++ .pass .began :: .pass .ended :: after

def LastSync (log : List Event) : Prop :=
  ∀ before after, log = before ++ .left :: after → SyncedSince before

/-- Whether `shutdown` has set `flush_event` between the two tests of the loop, and the second one is
still to come. -/
def recordBetween (between : Bool) (s : State Content) (a : Action Content) (_ : List Event) : Bool :=
  match a with
  | .main => if s.main = .settingFlush then s.process = .testingShutdown else between
  | .process => false
  | _ => between

def shutdownMachine (Content : Type*) (c : Syncer.Config) :
    Mealy.Machine (State Content × Bool) (Action Content) Event :=
  (machine Content c).withHistory recordBetween

/-- `shutdown` does not set both events between the two tests, and no pass fails once it has set
`flush_event`, unless that is set again. -/
def hearsShutdown : State Content × Bool → Action Content → Bool
  | (s, between), .main => s.main ≠ .settingShutdown || !between
  | (s, _), .syncer .raises => s.main = .running || s.main = .settingFlush || s.flushEvent
  | _, _ => true

def MainPc.flushed : MainPc → Bool
  | .running | .settingFlush => false
  | _ => true

def MainPc.stopped : MainPc → Bool
  | .running | .settingFlush | .settingShutdown => false
  | _ => true

def Fresh (log : List Event) : Prop :=
  ∃ before middle, log = before ++ .shutdownCalled :: middle ++ [.pass .began]

structure Answering (log : List Event) (s : State Content) (between : Bool) : Prop where
  called : s.main ≠ .running → .shutdownCalled ∈ log
  stopped : s.shutdownEvent = true → s.main.stopped = true
  late : between = true → s.process = .testingShutdown ∧ s.shutdownEvent = false
  pending : s.main.flushed = true → s.flushEvent = true ∨ s.process = .starting ∨
    s.process = .syncing ∧ Fresh log ∨ SyncedSince log
  testing : s.main.flushed = true → s.process = .testingShutdown → SyncedSince log ∨ between = true
  kept : LastSync log

theorem MainPc.flushed_of_stopped {pc : MainPc} (stopped : pc.stopped = true) : pc.flushed = true := by
  cases pc <;> simp_all [MainPc.stopped, MainPc.flushed]

theorem SyncedSince.append (synced : SyncedSince log) (new : List Event) : SyncedSince (log ++ new) := by
  obtain ⟨before, middle, after, rfl⟩ := synced
  exact ⟨before, middle, after ++ new, by simp⟩

theorem Fresh.ended (fresh : Fresh log) : SyncedSince (log ++ [.pass .ended]) := by
  obtain ⟨before, middle, rfl⟩ := fresh
  exact ⟨before, middle, [], by simp⟩

theorem LastSync.append (kept : LastSync log) (leaves : .left ∈ new → new = [.left] ∧ SyncedSince log) :
    LastSync (log ++ new) := by
  intro before after split
  rcases Mealy.split_append split with ⟨rest, earlier, -⟩ | ⟨middle, rfl, now⟩
  · exact kept before rest earlier
  · obtain ⟨only, synced⟩ := leaves (by simp [now])
    obtain ⟨rfl, -⟩ : middle = [] ∧ after = [] := by
      simpa [only, List.singleton_eq_append_iff] using now
    simpa using synced

section

variable (answering : Answering log s between)
include answering

theorem Answering.aside (process : t.process = s.process) (main : t.main = s.main)
    (shutdown : t.shutdownEvent = s.shutdownEvent)
    (flush : s.flushEvent = true → t.flushEvent = true) : Answering log t between := by
  obtain ⟨called, stopped, late, pending, testing, kept⟩ := answering
  rw [← process, ← main] at *
  rw [← shutdown] at *
  exact ⟨called, stopped, late, fun asked => (pending asked).imp_left flush, testing, kept⟩

theorem Answering.settled (idle : s.process ≠ .starting ∧ s.process ≠ .syncing)
    (asked : s.main.flushed = true) : s.flushEvent = true ∨ SyncedSince log := by
  rcases answering.pending asked with set | starting | ⟨syncing, -⟩ | synced
  · exact .inl set
  · exact absurd starting idle.1
  · exact absurd syncing idle.2
  · exact .inr synced

theorem Answering.moves (main : t.main = s.main) (shutdown : t.shutdownEvent = s.shutdownEvent)
    (pending : s.main.flushed = true → t.flushEvent = true ∨ t.process = .starting ∨ SyncedSince log)
    (testing : s.main.flushed = true → t.process = .testingShutdown → SyncedSince log) :
    Answering log t false where
  called := main ▸ answering.called
  stopped := main ▸ shutdown ▸ answering.stopped
  late := by simp
  pending asked := (pending (main ▸ asked)).imp_right (.imp_right .inr)
  testing asked pc := .inl (testing (main ▸ asked) pc)
  kept := answering.kept

theorem Answering.process (stepped : ProcessSteps s t new) : Answering (log ++ new) t false := by
  cases stepped with
  | hears pc set =>
      rw [List.append_nil]
      exact answering.moves rfl rfl (fun _ => .inl set) (by simp)
  | timesOut | clears =>
      rw [List.append_nil]
      exact answering.moves rfl rfl (fun _ => .inr (.inl rfl)) (by simp)
  | signals pc =>
      rw [List.append_nil]
      exact answering.moves rfl rfl
        (fun asked => (answering.settled (by simp [pc]) asked).imp_right .inr) (by simp)
  | flushAgain pc set =>
      rw [List.append_nil]
      exact answering.moves rfl rfl (fun _ => .inl set) (by simp)
  | noFlush pc clear =>
      have synced (asked : s.main.flushed = true) : SyncedSince log := by
        simpa [clear] using answering.settled (by simp [pc]) asked
      rw [List.append_nil]
      exact answering.moves rfl rfl (fun asked => .inr (.inr (synced asked)))
        fun asked _ => synced asked
  | goesOn pc clear =>
      rw [List.append_nil]
      exact answering.moves rfl rfl
        (fun asked => (answering.settled (by simp [pc]) asked).imp_right .inr) (by simp)
  | leaves pc set =>
      have asked := MainPc.flushed_of_stopped (answering.stopped set)
      have synced : SyncedSince log := by
        rcases answering.testing asked pc with synced | between
        · exact synced
        · have clear := (answering.late between).2
          rw [set] at clear
          contradiction
      refine ⟨fun asked => ?_, answering.stopped, by simp,
        fun _ => .inr (.inr (.inr (synced.append _))), by simp,
        answering.kept.append fun _ => ⟨rfl, synced⟩⟩
      simp [answering.called asked]

theorem Answering.joins {pc : MainPc} {logShutdownEvent : Bool} (before : s.main.stopped = true)
    (after : pc.stopped = true) : Answering log { s with main := pc, logShutdownEvent } between := by
  have asked := MainPc.flushed_of_stopped before
  refine ⟨fun _ => answering.called ?_, fun _ => after, answering.late,
    fun _ => answering.pending asked, fun _ => answering.testing asked, answering.kept⟩
  intro running
  simp [running, MainPc.stopped] at before

theorem Answering.main (stepped : MainSteps s t new)
    (meets : hearsShutdown (s, between) (.main : Action Content) = true) :
    Answering (log ++ new) t (recordBetween between s (.main : Action Content) new) := by
  have unstopped (early : s.main.stopped = false) : s.shutdownEvent = false := by
    rw [Bool.eq_false_iff]
    intro set
    rw [answering.stopped set] at early
    contradiction
  cases stepped with
  | called pc =>
      have clear := unstopped (by simp [pc, MainPc.stopped])
      refine ⟨by simp, fun set => ?_, ?_, by simp [MainPc.flushed], by simp [MainPc.flushed],
        answering.kept.append (by simp)⟩
      · rw [clear] at set
        contradiction
      · simpa [recordBetween, pc] using answering.late
  | setsFlush pc =>
      have clear := unstopped (by simp [pc, MainPc.stopped])
      rw [List.append_nil]
      refine ⟨fun _ => answering.called (by simp [pc]), fun set => ?_, fun late => ?_,
        fun _ => .inl rfl, fun _ testing => ?_, answering.kept⟩
      · rw [clear] at set
        contradiction
      · exact ⟨by simpa [recordBetween, pc] using late, clear⟩
      · exact .inr (by simpa [recordBetween, pc] using testing)
  | setsShutdown pc =>
      have early : between = false := by simpa [hearsShutdown, pc] using meets
      have asked : s.main.flushed = true := by simp [pc, MainPc.flushed]
      rw [List.append_nil]
      refine ⟨fun _ => answering.called (by simp [pc]), fun _ => rfl, fun late => ?_,
        fun _ => answering.pending asked, fun _ testing => ?_, answering.kept⟩
      · simp [recordBetween, pc, early] at late
      · exact .inl (by simpa [early] using answering.testing asked testing)
  | joinsProcess pc | setsLogShutdown pc | joinsLogging pc | joinsListener pc =>
      rw [List.append_nil, show recordBetween between s (.main : Action Content) [] = between by
        simp [recordBetween, pc]]
      apply answering.joins (by simp [pc, MainPc.stopped])
      rfl

theorem Answering.pass {syncer : Syncer.State Content} {pc : ProcessPc} {e : Syncer.Event}
    (outside : s.process ≠ .testingShutdown ∧ pc ≠ .testingShutdown)
    (pending : s.main.flushed = true → s.flushEvent = true ∨
      pc = .syncing ∧ Fresh (log ++ [.pass e]) ∨ SyncedSince (log ++ [.pass e])) :
    Answering (log ++ [.pass e]) { s with syncer, process := pc } between where
  called asked := List.mem_append_left _ (answering.called asked)
  stopped := answering.stopped
  late late := absurd (answering.late late).1 outside.1
  pending asked := (pending asked).imp_right .inr
  testing _ testing := absurd testing outside.2
  kept := answering.kept.append (by simp)

theorem Answering.step (stepped : Steps c s a t new) (meets : hearsShutdown (s, between) a = true) :
    Answering (log ++ new) t (recordBetween between s a new) := by
  cases stepped with
  | begins pc =>
      apply answering.pass (by simp [pc])
      intro asked
      obtain ⟨before, middle, rfl⟩ := List.append_of_mem (answering.called (by
        intro running
        simp [running, MainPc.flushed] at asked))
      exact .inr (.inl ⟨rfl, before, middle, by simp⟩)
  | ends pc =>
      apply answering.pass (by simp [pc])
      intro asked
      rcases answering.pending asked with set | starting | ⟨-, fresh⟩ | synced
      · exact .inl set
      · simp [pc] at starting
      · exact .inr (.inr fresh.ended)
      · exact .inr (.inr (synced.append _))
  | raises pc =>
      apply answering.pass (by simp [pc])
      intro asked
      cases main : s.main <;> simp_all [hearsShutdown, MainPc.flushed]
  | process stepped => exact answering.process stepped
  | main stepped => exact answering.main stepped meets
  | listener stepped =>
      rw [List.append_nil]
      cases stepped <;> exact answering.aside rfl rfl rfl (by simp)
  | caller stepped =>
      rw [List.append_nil]
      cases stepped <;> exact answering.aside rfl rfl rfl (by simp)
  | _ =>
      rw [List.append_nil]
      exact answering.aside rfl rfl rfl (by simp)

end

/-- The process leaves its loop only after a whole pass since the call of `shutdown`. -/
theorem last_sync_executed {syncer : Syncer.State Content} {callers : Nat}
    (run : Mealy.Run (shutdownMachine Content c) (fun x a => hearsShutdown x a = true)
      ((initial syncer callers, false), []) log (s, between)) : LastSync log := by
  have answering : Answering log s between := by
    apply run.invariant (P := fun log x => Answering log x.1 x.2)
    · have kept : LastSync [] := fun before after split => by simp at split
      exact ⟨by simp [initial], by simp [initial], by simp, by simp [initial, MainPc.flushed],
        by simp [initial, MainPc.flushed], kept⟩
    · intro log x a y new answering meets action
      obtain ⟨s, between⟩ := x
      obtain ⟨t, _⟩ := y
      obtain ⟨stepped, rfl⟩ := Mealy.withHistory_step action
      exact answering.step (step_cases stepped) meets
  exact answering.kept

def loops : List (Action String) :=
  [.process, .syncer .begins, .syncer .ends, .process, .process]

def noFiles : Syncer.State String := Syncer.initial 0 []

def copiesAll : Syncer.Config := ⟨fun _ => false, false⟩

theorem last_sync_hello : ∃ log, LastSync log ∧ .left ∈ log := by
  have steps : Mealy.execIf (shutdownMachine String copiesAll) hearsShutdown
      ((initial noFiles 0, false), []) ([.main, .main, .main, .process] ++ loops ++ [.process]) =
      some ((_, _), _) := rfl
  refine ⟨_, last_sync_executed (.of_execIf steps), ?_⟩
  exact List.mem_of_getElem? (i := 3) rfl

/-- `shutdown` is called between the two tests. -/
theorem last_sync_skipped : ¬ ∀ s log,
    Mealy.Run (machine String copiesAll) Mealy.always (initial noFiles 0, []) log s →
    LastSync log := by
  intro claim
  have steps : Mealy.exec (machine String copiesAll) (initial noFiles 0, [])
      (loops ++ [.main, .main, .main, .process]) =
      some (_, [.pass .began, .pass .ended, .shutdownCalled] ++ .left :: []) := rfl
  obtain ⟨before, middle, after, split⟩ := claim _ _ (.of_exec (by simp) steps) _ _ rfl
  cases before with
  | nil => simp at split
  | cons e before =>
      have length := congrArg List.length split
      simp only [List.length_append, List.length_cons, List.length_nil] at length
      omega

/-! ## The listener -/

/-- `shutdown` waits for the listener, and that waits for a flush that nobody will serve. -/
def Deadlocked (s : State Content) : Prop :=
  s.main = .joiningListener ∧ s.process = .exited ∧
    (s.listener = .blocked ∨ s.listener = .entering ∧ s.doneEvent = false)

/-- The listener has asked for a flush and cannot go on before it is served. -/
def asksFlush (s : State Content) : Bool :=
  match s.listener with
  | .setting | .entering => !s.doneEvent
  | .blocked => true
  | _ => false

/-- The process does not leave its loop while the listener asks for a flush, and the listener asks
for none later, nor does a `flush` take its answer away. -/
def servesFlush (s : State Content) : Action Content → Bool
  | .process => !(s.process = .testingShutdown && s.shutdownEvent && asksFlush s)
  | .listener => !(s.process = .exited && s.listener = .clearing)
  | .calls _ _ => !(s.process = .exited && (s.listener = .setting || s.listener = .entering))
  | _ => true

theorem ListenerSteps.asks (stepped : ListenerSteps s t) (exited : s.process = .exited)
    (served : asksFlush s = false) (meets : servesFlush s .listener = true) :
    asksFlush t = false := by
  cases stepped with
  | clears pc => simp [servesFlush, exited, pc] at meets
  | sets pc => simpa [asksFlush, pc] using served
  | blocks pc clear => simp [asksFlush, pc, clear] at served
  | _ => rfl

theorem served_step (stepped : Steps c s a t new) (meets : servesFlush s a = true)
    (served : s.process = .exited → asksFlush s = false) :
    t.process = .exited → asksFlush t = false := by
  intro exited
  cases stepped with
  | aside => exact served exited
  | begins | ends | raises => cases exited
  | process stepped =>
      cases stepped with
      | leaves pc set =>
          have quiet : asksFlush s = false := by simpa [servesFlush, pc, set] using meets
          exact quiet
      | _ => cases exited
  | triggers => exact served exited
  | listener stepped =>
      have before : s.process = .exited := by cases stepped <;> exact exited
      exact stepped.asks before (served before) meets
  | logging => exact served exited
  | callsLate => exact served exited
  | calls =>
      have quiet := served exited
      have before : s.process = .exited := exited
      cases listener : s.listener <;> simp_all [servesFlush, asksFlush]
  | caller stepped =>
      cases stepped <;> exact served exited
  | main stepped =>
      cases stepped <;> exact served exited

theorem shutdown_never_deadlocks {syncer : Syncer.State Content} {callers : Nat}
    (run : Mealy.Run (machine Content c) (fun s a => servesFlush s a = true)
      (initial syncer callers, []) log s) : ¬Deadlocked s := by
  have served : s.process = .exited → asksFlush s = false := by
    apply run.state_invariant (P := fun s => s.process = .exited → asksFlush s = false)
    · intro exited
      cases exited
    · intro s a t new served meets action
      exact served_step (step_cases action) meets served
  intro deadlocked
  obtain ⟨-, exited, waits⟩ := deadlocked
  have quiet := served exited
  rcases waits with blocked | ⟨entering, clear⟩
  · simp [asksFlush, blocked] at quiet
  · simp [asksFlush, entering, clear] at quiet

/-- The listener is about to ask when the process leaves. -/
def asksLate : List (Action String) :=
  [.triggers, .listener, .listener, .main, .main, .main, .process, .process] ++ loops.tail ++
    [.process, .listener, .listener, .listener, .main, .main, .logging, .main]

/-- The listener asks, and the process leaves after it has served the flush. -/
def asksInTime : List (Action String) :=
  [.triggers, .listener, .listener, .listener, .listener, .listener, .main, .main, .main, .process,
    .process] ++ loops.tail ++ [.process, .listener, .main, .main, .logging, .main]

theorem shutdown_deadlock_hello : ∃ s : State String, ¬Deadlocked s ∧ s.main = .joiningListener ∧
    s.listener = .waiting ∧ s.watchFile = false := by
  have steps : Mealy.execIf (machine String copiesAll) servesFlush (initial noFiles 0, [])
      asksInTime = some (_, _) := rfl
  exact ⟨_, shutdown_never_deadlocks (.of_execIf steps), rfl, rfl, rfl⟩

theorem shutdown_deadlocks : ¬ ∀ s log,
    Mealy.Run (machine String copiesAll) Mealy.always (initial noFiles 0, []) log s →
    ¬Deadlocked s := by
  intro claim
  have steps : Mealy.exec (machine String copiesAll) (initial noFiles 0, []) asksLate =
      some (_, _) := rfl
  exact claim _ _ (.of_exec (by simp) steps) ⟨rfl, rfl, .inl rfl⟩

end JobQ.BackgroundDirSync
