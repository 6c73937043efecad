import JobQ.Library.Pool
import JobQ.Model.WorkforceMonitor

/-!
# What one step of the monitors can do
-/

namespace JobQ.WorkforceMonitor

variable {s t : State} {a : Action} {m : Nat} {mon : Monitor} {p : Process} {move : Move}
  {new : List Event}

abbrev Broker := PeekLock.Broker Nat String

/-- What a move of monitor `m` makes of its position and of the broker, and what it emits. -/
inductive Moves (s : State) (m : Nat) (mon : Monitor) (p : Process) :
    Move → Pc → Broker → List Event → Prop
  | waits {move : Move} : Moves s m mon p move .receiving s.broker []
  | stops {move : Move} : Moves s m mon p move .ended s.broker [.ended m]
  | ignores {n : Nat} {message : PeekLock.Message Nat String} {broker : Broker}
      {es : List (PeekLock.Event Nat String)} (idle : mon.pc = .receiving)
      (locked : s.broker.step maxDeliveryCount (.lock n) = some (broker, es))
      (queued : s.broker.queue n = some message) (other : requested message.content = none) :
      Moves s m mon p (.receives n) .receiving broker [.delivered m n message.content]
  | accepts {n : Nat} {message : PeekLock.Message Nat String} {broker : Broker}
      {es : List (PeekLock.Event Nat String)} {signal : Signal} (idle : mon.pc = .receiving)
      (locked : s.broker.step maxDeliveryCount (.lock n) = some (broker, es))
      (queued : s.broker.queue n = some message) (asked : requested message.content = some signal) :
      Moves s m mon p (.receives n) (.globbing ⟨n, s.broker.nextToken, signal⟩) broker
        [.delivered m n message.content]
  | globs {job : Job} {paths : List String} (pc : mon.pc = .globbing job)
      (listed : paths.Perm (s.paths p.node)) :
      Moves s m mon p (.globs paths) (nextFile job paths) s.broker []
  | reads {job : Job} {path text : String} {rest : List String} {file : File} {pid : Int}
      (pc : mon.pc = .opening job path rest) (found : s.file p.node path = some file)
      (content : file.content = some text) (named : IntLiteral.int text.toList = some pid) :
      Moves s m mon p .goesOn (.probing job pid rest) s.broker [.read m path text]
  | skips {job : Job} {path text : String} {rest : List String} {file : File}
      (pc : mon.pc = .opening job path rest) (found : s.file p.node path = some file)
      (content : file.content = some text) (unnamed : IntLiteral.int text.toList = none) :
      Moves s m mon p .goesOn (nextFile job rest) s.broker [.read m path text]
  | probes {job : Job} {pid : Int} {rest : List String} {reached : List Nat}
      (pc : mon.pc = .probing job pid rest) (killed : kill s p pid = .ok reached) :
      Moves s m mon p .goesOn (.sending job pid rest) s.broker []
  | refuses {job : Job} {pid : Int} {rest : List String} {error : KillError}
      (pc : mon.pc = .probing job pid rest ∨ mon.pc = .sending job pid rest)
      (killed : kill s p pid = .error error) :
      Moves s m mon p .goesOn (nextFile job rest) s.broker []
  | sends {job : Job} {pid : Int} {rest : List String} {reached : List Nat}
      (pc : mon.pc = .sending job pid rest) (killed : kill s p pid = .ok reached) :
      Moves s m mon p .goesOn (nextFile job rest) s.broker
        (reached.map fun i => .signalled m i job.signal)
  | completes {job : Job} {broker : Broker} {es : List (PeekLock.Event Nat String)}
      {answered : Bool} (pc : mon.pc = .completing job)
      (taken : s.broker.step maxDeliveryCount (.complete job.number job.lockToken) =
        some (broker, es)) :
      Moves s m mon p (.completes answered) (if answered then .ended else .receiving) broker
        (.completed m job.number :: if answered then [.ended m] else [])

def Event.monitor : Event → Nat
  | .delivered m .. | .read m .. | .signalled m .. | .completed m _ | .ended m => m

theorem Moves.monitor {pc : Pc} {broker : Broker} (moved : Moves s m mon p move pc broker new) :
    ∀ e ∈ new, e.monitor = m := by
  intro e member
  cases moved with
  | waits | globs | probes | refuses => cases member
  | sends =>
      obtain ⟨i, -, rfl⟩ := List.mem_map.mp member
      rfl
  | @completes _ _ _ answered =>
      cases answered <;> simp at member
      · rw [member]
        rfl
      · rcases member with rfl | rfl <;> rfl
  | _ =>
      obtain rfl := List.mem_singleton.mp member
      rfl

def Moved (s : State) (m : Nat) (mon : Monitor) (p : Process) (move : Move) (t : State)
    (new : List Event) : Prop :=
  ∃ pc broker, t = { s with broker }.put m mon pc ∧ Moves s m mon p move pc broker new

theorem stepReceives_cases {n : Nat} (idle : mon.pc = .receiving)
    (action : stepReceives s m mon n = some (t, new)) : Moved s m mon p (.receives n) t new := by
  simp only [stepReceives] at action
  split at action
  · rename_i broker es message locked queued
    cases asked : requested message.content with
    | none =>
        simp only [asked] at action
        cases action
        exact ⟨_, _, rfl, .ignores idle locked queued asked⟩
    | some signal =>
        simp only [asked] at action
        cases action
        exact ⟨_, _, rfl, .accepts idle locked queued asked⟩
  · contradiction

theorem stepGoesOn_cases (action : stepGoesOn s m mon p = some (t, new)) :
    Moved s m mon p .goesOn t new := by
  simp only [stepGoesOn] at action
  split at action
  · rename_i job path rest pc
    split at action
    · cases action
      exact ⟨_, _, rfl, .waits⟩
    · rename_i file found
      split at action
      · cases action
        exact ⟨_, _, rfl, .waits⟩
      · rename_i text content
        split at action <;> cases action
        · exact ⟨_, _, rfl, .reads pc found content ‹_›⟩
        · exact ⟨_, _, rfl, .skips pc found content ‹_›⟩
  · rename_i job pid rest pc
    split at action <;> cases action
    · exact ⟨_, _, rfl, .probes pc ‹_›⟩
    · exact ⟨_, _, rfl, .waits⟩
    · exact ⟨_, _, rfl, .refuses (.inl pc) ‹_›⟩
  · rename_i job pid rest pc
    split at action <;> cases action
    · exact ⟨_, _, rfl, .sends pc ‹_›⟩
    · exact ⟨_, _, rfl, .waits⟩
    · exact ⟨_, _, rfl, .refuses (.inr pc) ‹_›⟩
  · contradiction

theorem stepCompletes_cases {answered : Bool}
    (action : stepCompletes s m mon answered = some (t, new)) :
    Moved s m mon p (.completes answered) t new := by
  simp only [stepCompletes] at action
  split at action
  · rename_i job pc
    split at action
    · rename_i broker es taken
      cases answered <;> cases action <;> exact ⟨_, _, rfl, .completes pc taken⟩
    · contradiction
  · contradiction

theorem stepMonitor_cases (action : stepMonitor s m mon p move = some (t, new)) :
    Moved s m mon p move t new := by
  cases move with
  | connects =>
      simp only [stepMonitor] at action
      split at action <;> cases action
      exact ⟨_, _, rfl, .waits⟩
  | receives n =>
      simp only [stepMonitor] at action
      split at action
      · exact stepReceives_cases ‹_› action
      · contradiction
  | globs paths =>
      simp only [stepMonitor] at action
      split at action
      · split at action <;> cases action
        exact ⟨_, _, rfl, .globs ‹_› ‹_›⟩
      · contradiction
  | goesOn => exact stepGoesOn_cases action
  | completes answered => exact stepCompletes_cases action
  | fails =>
      simp only [stepMonitor] at action
      split at action <;> cases action
      · exact ⟨_, _, rfl, .stops⟩
      all_goals exact ⟨_, _, rfl, .waits⟩
  | cancelled =>
      simp only [stepMonitor] at action
      split at action <;> cases action
      all_goals exact ⟨_, _, rfl, .stops⟩

inductive Steps (s : State) : Action → State → List Event → Prop
  | starts {p : Process} :
      Steps s (.starts p) { s with processes := s.processes ++ [{ p with alive := true }] } []
  | dies {i : Nat} {p : Process} (stored : s.processes[i]? = some p) :
      Steps s (.dies i) { s with processes := s.processes.set i { p with alive := false } } []
  | writes {file : File} :
      Steps s (.writes file)
        { s with files := (s.without file.node file.path).files ++ [file] } []
  | removes {node : Nat} {path : String} : Steps s (.removes node path) (s.without node path) []
  | broker {a : Action} {op : PeekLock.Op Nat String} {broker : Broker}
      {es : List (PeekLock.Event Nat String)}
      (stepped : s.broker.step maxDeliveryCount op = some (broker, es)) :
      Steps s a { s with broker } []
  | monitors {i : Nat} {p : Process} (stored : s.processes[i]? = some p) :
      Steps s (.monitors i) { s with monitors := s.monitors ++ [{ process := i }] } []
  | moves {m : Nat} {move : Move} {mon : Monitor} {p : Process} {pc : Pc} {broker : Broker}
      {new : List Event} (stored : s.monitors[m]? = some mon)
      (process : s.processes[mon.process]? = some p) (alive : p.alive = true)
      (moved : Moves s m mon p move pc broker new) :
      Steps s (.monitor m move) ({ s with broker }.put m mon pc) new

theorem perform_cases {op : PeekLock.Op Nat String} (action : perform s op = some (t, new)) :
    Steps s a t new := by
  obtain ⟨⟨broker, es⟩, stepped, same⟩ := Option.map_eq_some_iff.mp action
  cases same
  exact .broker stepped

theorem step_cases (action : step s a = some (t, new)) : Steps s a t new := by
  cases a with
  | starts p =>
      simp only [step] at action
      split at action <;> cases action
      exact .starts
  | dies i =>
      simp only [step] at action
      split at action <;> cases action
      exact .dies ‹_›
  | writes file =>
      cases action
      exact .writes
  | removes node path =>
      cases action
      exact .removes
  | posts id text => exact perform_cases action
  | expires n => exact perform_cases action
  | exceeds n => exact perform_cases action
  | monitors i =>
      simp only [step] at action
      split at action <;> cases action
      exact .monitors ‹_›
  | monitor m move =>
      simp only [step] at action
      split at action
      · rename_i mon stored
        split at action
        · rename_i p process
          split at action
          · rename_i alive
            obtain ⟨pc, broker, rfl, moved⟩ := stepMonitor_cases action
            exact .moves stored process alive moved
          · contradiction
        · contradiction
      · contradiction

theorem receives_step (s : State) (m : Nat) (mon : Monitor) (p : Process) (n : Nat)
    (message : PeekLock.Message Nat String) (broker : Broker)
    (es : List (PeekLock.Event Nat String)) (signal : Signal) (stored : s.monitors[m]? = some mon)
    (process : s.processes[mon.process]? = some p) (alive : p.alive = true)
    (idle : mon.pc = .receiving)
    (locked : s.broker.step maxDeliveryCount (.lock n) = some (broker, es))
    (queued : s.broker.queue n = some message) (asked : requested message.content = some signal) :
    machine.step s (.monitor m (.receives n)) =
      some ({ s with broker }.put m mon (.globbing ⟨n, s.broker.nextToken, signal⟩),
        [.delivered m n message.content]) := by
  simp [machine, step, stored, process, alive, stepMonitor, idle, stepReceives, locked, queued,
    asked]

/-! ## What a step leaves as it is -/

theorem put_monitor {k : Nat} {other : Monitor} {pc : Pc}
    (found : (s.put m mon pc).monitors[k]? = some other) :
    k = m ∧ other = { mon with pc } ∨ k ≠ m ∧ s.monitors[k]? = some other :=
  Pool.set_cases found

/-- Neither the node of a process nor its ids ever change. -/
theorem Steps.process (stepped : Steps s a t new) {i : Nat} (stored : s.processes[i]? = some p) :
    ∃ alive, t.processes[i]? = some { p with alive } ∧ (a ≠ .dies i → alive = p.alive) := by
  cases stepped with
  | starts =>
      refine ⟨p.alive, ?_, fun _ => rfl⟩
      simp [List.getElem?_append_left (List.getElem?_eq_some_iff.mp stored).1, stored]
  | @dies j q there =>
      by_cases same : j = i
      · subst same
        obtain rfl := Option.some.inj (there.symm.trans stored)
        refine ⟨false, ?_, fun other => absurd rfl other⟩
        simp [(List.getElem?_eq_some_iff.mp stored).1]
      · refine ⟨p.alive, ?_, fun _ => rfl⟩
        simp [List.getElem?_set_ne same, stored]
  | _ => exact ⟨p.alive, stored, fun _ => rfl⟩

end JobQ.WorkforceMonitor
