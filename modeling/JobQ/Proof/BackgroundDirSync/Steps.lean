import JobQ.Model.BackgroundDirSync

/-!
# What one step of `BackgroundDirSync` can do

One inversion lemma for each party.
-/

namespace JobQ.BackgroundDirSync

variable {Content : Type*} {c : Syncer.Config} {s t : State Content} {new : List Event}

inductive ProcessSteps (s : State Content) : State Content → List Event → Prop
  | hears (pc : s.process = .waiting) (set : s.flushEvent = true) :
      ProcessSteps s { s with process := .clearing } []
  | timesOut (pc : s.process = .waiting) (clear : s.flushEvent = false) :
      ProcessSteps s { s with process := .starting } []
  | clears (pc : s.process = .clearing) :
      ProcessSteps s { s with flushEvent := false, process := .starting } []
  | signals (pc : s.process = .signalling) :
      ProcessSteps s { setDone s with process := .testingFlush } []
  | flushAgain (pc : s.process = .testingFlush) (set : s.flushEvent = true) :
      ProcessSteps s { s with process := .waiting } []
  | noFlush (pc : s.process = .testingFlush) (clear : s.flushEvent = false) :
      ProcessSteps s { s with process := .testingShutdown } []
  | goesOn (pc : s.process = .testingShutdown) (clear : s.shutdownEvent = false) :
      ProcessSteps s { s with process := .waiting } []
  | leaves (pc : s.process = .testingShutdown) (set : s.shutdownEvent = true) :
      ProcessSteps s { s with process := .exited } [.left]

inductive ListenerSteps (s : State Content) : State Content → Prop
  | ends (pc : s.listener = .waiting) (set : s.logShutdownEvent = true) :
      ListenerSteps s { s with listener := .ended }
  | checks (pc : s.listener = .waiting) : ListenerSteps s { s with listener := .checking }
  | finds (pc : s.listener = .checking) (found : s.watchFile = true) :
      ListenerSteps s { s with listener := .clearing }
  | findsNone (pc : s.listener = .checking) : ListenerSteps s { s with listener := .waiting }
  | clears (pc : s.listener = .clearing) :
      ListenerSteps s { s with doneEvent := false, listener := .setting }
  | sets (pc : s.listener = .setting) :
      ListenerSteps s { s with flushEvent := true, listener := .entering }
  | goesOn (pc : s.listener = .entering) (set : s.doneEvent = true) :
      ListenerSteps s { s with listener := .unlinking }
  | blocks (pc : s.listener = .entering) (clear : s.doneEvent = false) :
      ListenerSteps s { s with listener := .blocked }
  | unlinks (pc : s.listener = .unlinking) :
      ListenerSteps s { s with watchFile := false, listener := .waiting }
  | unlinkRaises (pc : s.listener = .unlinking) :
      ListenerSteps s { s with watchFile := false, listener := .ended }

inductive CallerSteps (s : State Content) (i : Nat) : State Content → Prop
  | sets {wait : Bool} (pc : s.callers[i]? = some (.setting wait)) :
      CallerSteps s i { s with
        flushEvent := true, callers := s.callers.set i (if wait then .entering else .idle) }
  | goesOn (pc : s.callers[i]? = some .entering) (set : s.doneEvent = true) :
      CallerSteps s i { s with callers := s.callers.set i .returned }
  | blocks (pc : s.callers[i]? = some .entering) (clear : s.doneEvent = false) :
      CallerSteps s i { s with callers := s.callers.set i .blocked }
  | wakes (pc : s.callers[i]? = some .woken) :
      CallerSteps s i { s with callers := s.callers.set i .returned }
  | leaves (pc : s.callers[i]? = some .returned) :
      CallerSteps s i { s with callers := s.callers.set i .idle }

inductive MainSteps (s : State Content) : State Content → List Event → Prop
  | called (pc : s.main = .running) :
      MainSteps s { s with main := .settingFlush } [.shutdownCalled]
  | setsFlush (pc : s.main = .settingFlush) :
      MainSteps s { s with flushEvent := true, main := .settingShutdown } []
  | setsShutdown (pc : s.main = .settingShutdown) :
      MainSteps s { s with shutdownEvent := true, main := .joiningProcess } []
  | joinsProcess (pc : s.main = .joiningProcess) (exited : s.process = .exited) :
      MainSteps s { s with main := .settingLogShutdown } []
  | setsLogShutdown (pc : s.main = .settingLogShutdown) :
      MainSteps s { s with logShutdownEvent := true, main := .joiningLogging } []
  | joinsLogging (pc : s.main = .joiningLogging) : MainSteps s { s with main := .joiningListener } []
  | joinsListener (pc : s.main = .joiningListener) : MainSteps s { s with main := .done } []

inductive Steps (c : Syncer.Config) (s : State Content) : Action Content → State Content →
    List Event → Prop
  | aside {a : Syncer.Action Content} {syncer : Syncer.State Content}
      (stepped : Syncer.step c s.syncer a = some (syncer, [])) :
      Steps c s (.syncer a) { s with syncer } []
  | begins {syncer : Syncer.State Content} (pc : s.process = .starting)
      (stepped : Syncer.step c s.syncer .begins = some (syncer, [.began])) :
      Steps c s (.syncer .begins) { s with syncer, process := .syncing } [.pass .began]
  | ends {syncer : Syncer.State Content} (pc : s.process = .syncing)
      (stepped : Syncer.step c s.syncer .ends = some (syncer, [.ended])) :
      Steps c s (.syncer .ends) { s with syncer, process := .signalling } [.pass .ended]
  | raises {syncer : Syncer.State Content} (pc : s.process = .syncing)
      (stepped : Syncer.step c s.syncer .raises = some (syncer, [.raised])) :
      Steps c s (.syncer .raises) { s with syncer, process := .signalling } [.pass .raised]
  | process {t : State Content} {new : List Event} (stepped : ProcessSteps s t new) :
      Steps c s .process t new
  | triggers : Steps c s .triggers { s with watchFile := true } []
  | listener {t : State Content} (stepped : ListenerSteps s t) : Steps c s .listener t []
  | logging (set : s.logShutdownEvent = true) : Steps c s .logging { s with logging := false } []
  | callsLate {i : Nat} {wait : Bool} (pc : s.callers[i]? = some .idle) (late : s.main = .done) :
      Steps c s (.calls i wait)
        { s with callers := s.callers.set i (if wait then .returned else .idle) } []
  | calls {i : Nat} {wait : Bool} (pc : s.callers[i]? = some .idle) (early : s.main ≠ .done) :
      Steps c s (.calls i wait)
        { s with doneEvent := false, callers := s.callers.set i (.setting wait) } []
  | caller {i : Nat} {t : State Content} (stepped : CallerSteps s i t) : Steps c s (.caller i) t []
  | main {t : State Content} {new : List Event} (stepped : MainSteps s t new) : Steps c s .main t new

theorem stepProcess_cases (action : stepProcess s = some (t, new)) : ProcessSteps s t new := by
  unfold stepProcess at action
  split at action
  · rename_i pc
    cases action
    split
    · exact .hears pc ‹_›
    · exact .timesOut pc (by simpa using ‹¬s.flushEvent = true›)
  · cases action
    exact .clears ‹_›
  · cases action
    exact .signals ‹_›
  · rename_i pc
    cases action
    split
    · exact .flushAgain pc ‹_›
    · exact .noFlush pc (by simpa using ‹¬s.flushEvent = true›)
  · split at action <;> cases action
    · exact .leaves ‹_› ‹_›
    · exact .goesOn ‹_› (by simpa using ‹¬s.shutdownEvent = true›)
  · contradiction
  · contradiction
  · contradiction

theorem stepListener_cases (action : stepListener s = some t) : ListenerSteps s t := by
  unfold stepListener at action
  split at action
  · rename_i pc
    cases action
    split
    · exact .ends pc ‹_›
    · exact .checks pc
  · rename_i pc
    cases action
    split
    · exact .finds pc ‹_›
    · exact .findsNone pc
  · cases action
    exact .clears ‹_›
  · cases action
    exact .sets ‹_›
  · rename_i pc
    cases action
    split
    · exact .goesOn pc ‹_›
    · exact .blocks pc (by simpa using ‹¬s.doneEvent = true›)
  · rename_i pc
    cases action
    split
    · exact .unlinks pc
    · exact .unlinkRaises pc
  · contradiction
  · contradiction

theorem stepCaller_cases {i : Nat} (action : stepCaller s i = some t) : CallerSteps s i t := by
  unfold stepCaller at action
  split at action
  · cases action
    exact .sets ‹_›
  · rename_i pc
    cases action
    split
    · exact .goesOn pc ‹_›
    · exact .blocks pc (by simpa using ‹¬s.doneEvent = true›)
  · cases action
    exact .wakes ‹_›
  · cases action
    exact .leaves ‹_›
  · contradiction

theorem stepMain_cases (action : stepMain s = some (t, new)) : MainSteps s t new := by
  unfold stepMain at action
  split at action
  · cases action
    exact .called ‹_›
  · cases action
    exact .setsFlush ‹_›
  · cases action
    exact .setsShutdown ‹_›
  · split at action <;> cases action
    exact .joinsProcess ‹_› ‹_›
  · cases action
    exact .setsLogShutdown ‹_›
  · split at action <;> cases action
    exact .joinsLogging ‹_›
  · split at action <;> cases action
    exact .joinsListener ‹_›
  · contradiction

def events : Syncer.Action Content → List Syncer.Event
  | .begins => [.began]
  | .ends => [.ended]
  | .raises => [.raised]
  | _ => []

theorem syncer_events {s t : Syncer.State Content} {a : Syncer.Action Content}
    {new : List Syncer.Event} (stepped : Syncer.step c s a = some (t, new)) : new = events a := by
  cases a with
  | ticks n =>
      cases stepped
      rfl
  | handles i b =>
      simp only [Syncer.step] at stepped
      split at stepped
      · split at stepped <;> cases stepped
        rfl
      · contradiction
  | writes | begins | ends | raises =>
      simp only [Syncer.step] at stepped
      split at stepped <;> cases stepped
      rfl

theorem stepSyncer_cases {a : Syncer.Action Content} (action : stepSyncer c s a = some (t, new)) :
    Steps c s (.syncer a) t new := by
  unfold stepSyncer at action
  split at action
  · rename_i process syncer events pc stepped
    cases action
    obtain rfl := syncer_events stepped
    unfold duringPass at pc
    cases a with
    | begins =>
        dsimp only at pc
        split at pc <;> cases pc
        exact .begins ‹_› stepped
    | ends =>
        dsimp only at pc
        split at pc <;> cases pc
        exact .ends ‹_› stepped
    | raises =>
        dsimp only at pc
        split at pc <;> cases pc
        exact .raises ‹_› stepped
    | _ =>
        cases pc
        exact .aside stepped
  · contradiction

theorem step_cases {a : Action Content} (action : step c s a = some (t, new)) :
    Steps c s a t new := by
  cases a with
  | syncer a => exact stepSyncer_cases action
  | process => exact .process (stepProcess_cases action)
  | triggers =>
      cases action
      exact .triggers
  | listener =>
      obtain ⟨stepped, rfl⟩ := Mealy.silent_step action
      exact .listener (stepListener_cases stepped)
  | logging =>
      simp only [step] at action
      split at action <;> cases action
      rename_i both
      exact .logging both.2
  | calls i wait =>
      obtain ⟨stepped, rfl⟩ := Mealy.silent_step action
      unfold stepCalls at stepped
      split at stepped
      · split at stepped <;> cases stepped
        · exact .callsLate ‹_› ‹_›
        · exact .calls ‹_› ‹_›
      · contradiction
  | caller i =>
      obtain ⟨stepped, rfl⟩ := Mealy.silent_step action
      exact .caller (stepCaller_cases stepped)
  | main => exact .main (stepMain_cases action)

end JobQ.BackgroundDirSync
