import JobQ.Proof.WorkforceMonitor.Signalled

/-!
# One signal for each message

A second signal makes a worker stop at once. The scan for one message opens every pid file once, so
it is only a message that comes again that brings a worker another signal.
-/

namespace JobQ.WorkforceMonitor

variable {s t : State} {a : Action} {m i node pid : Nat} {mon : Monitor} {p : Process} {move : Move}
  {log new : List Event} {path : String}

def Event.signals (m i : Nat) : Event → Bool
  | .signalled n j _ => n = m ∧ j = i
  | _ => false

def Event.delivers (m : Nat) : Event → Bool
  | .delivered n .. => n = m
  | _ => false

/-- No file names the pid, or stands for a group or for everybody, except the one at the path. -/
def Alone (node pid : Nat) (path : String) (file : File) : Prop :=
  file.node = node → ∀ text number, file.content = some text →
    IntLiteral.int text.toList = some number → Names number pid → file.path = path

/-- What is written to the pid files keeps to that. -/
def Sole (node pid : Nat) (path : String) (_ : State) : Action → Prop
  | .writes file => Alone node pid path file
  | _ => True

structure Orderly (node pid : Nat) (path : String) (s : State) : Prop where
  files : ∀ file ∈ s.files, Alone node pid path file
  once : ∀ node, (s.paths node).Nodup
  monitors : ∀ mon ∈ s.monitors, mon.process < s.processes.length

theorem paths_without {other : Nat} {name : String} :
    (s.without other name).paths node = if node = other then (s.paths node).filter (· ≠ name)
      else s.paths node := by
  simp only [State.paths, State.without, List.filter_filter]
  split
  · rename_i same
    subst same
    rw [List.filter_map, List.filter_filter]
    congr 1
    apply List.filter_congr
    intro f _
    by_cases here : f.node = node <;> simp [here]
  · rename_i apart
    congr 1
    apply List.filter_congr
    intro f _
    by_cases here : f.node = node <;> simp [here, apart]

theorem Orderly.once_without (orderly : Orderly node pid path s) (other : Nat) (name : String)
    (n : Nat) : ((s.without other name).paths n).Nodup := by
  rw [paths_without]
  split
  · exact (orderly.once n).filter _
  · exact orderly.once n

theorem Orderly.step (orderly : Orderly node pid path s) (sole : Sole node pid path s a)
    (stepped : Steps s a t new) : Orderly node pid path t := by
  cases stepped with
  | starts =>
      refine ⟨orderly.files, orderly.once, fun mon member => ?_⟩
      have := orderly.monitors mon member
      simp only [List.length_append, List.length_singleton]
      omega
  | dies =>
      refine ⟨orderly.files, orderly.once, fun mon member => ?_⟩
      simpa using orderly.monitors mon member
  | @writes file =>
      refine ⟨fun other member => ?_, fun n => ?_, orderly.monitors⟩
      · rcases List.mem_append.mp member with old | new
        · exact orderly.files other (List.mem_filter.mp old).1
        · obtain rfl := List.mem_singleton.mp new
          exact sole
      · have kept := orderly.once_without file.node file.path n
        simp only [State.paths, List.filter_append, List.map_append] at kept ⊢
        refine List.nodup_append.mpr ⟨kept, ?_, ?_⟩
        · by_cases here : file.node = n <;> simp [here]
        · rintro name old other new rfl
          obtain ⟨f, found, rfl⟩ := List.mem_map.mp old
          obtain ⟨g, written, same⟩ := List.mem_map.mp new
          obtain ⟨listed, home⟩ := List.mem_filter.mp found
          obtain ⟨only, here⟩ := List.mem_filter.mp written
          obtain rfl := List.mem_singleton.mp only
          have other := (List.mem_filter.mp listed).2
          simp_all
  | removes =>
      exact ⟨fun other member => orderly.files other (List.mem_filter.mp member).1,
        orderly.once_without _ _, orderly.monitors⟩
  | broker => exact ⟨orderly.files, orderly.once, orderly.monitors⟩
  | monitors stored =>
      refine ⟨orderly.files, orderly.once, fun mon member => ?_⟩
      rcases List.mem_append.mp member with old | new
      · exact orderly.monitors mon old
      · obtain rfl := List.mem_singleton.mp new
        exact (List.getElem?_eq_some_iff.mp stored).1
  | @moves _ _ mon _ _ _ _ stored =>
      refine ⟨orderly.files, orderly.once, fun mon member => ?_⟩
      rcases List.mem_or_eq_of_mem_set member with old | rfl
      · exact orderly.monitors mon old
      · exact orderly.monitors mon (List.mem_of_getElem? stored)

/-! ## What a scan may still send -/

/-- How many signals the scan may still send to the process with this pid. -/
def Pc.credit (path : String) (pid : Nat) : Pc → Nat
  | .globbing _ => 1
  | .opening _ first rest => (first :: rest).count path
  | .probing _ number rest | .sending _ number rest =>
    (if Names number pid then 1 else 0) + rest.count path
  | _ => 0

@[simp]
theorem credit_nextFile {job : Job} {paths : List String} :
    (nextFile job paths).credit path pid = paths.count path := by
  cases paths <;> rfl

/-- The process `i`, once there is one, has the pid and runs on the node. -/
def Known (node pid i : Nat) (s : State) : Prop :=
  ∀ q, s.processes[i]? = some q → q.node = node ∧ q.pid = pid

theorem countP_signals {reached : List Nat} {signal : Signal} :
    (reached.map fun j => Event.signalled m j signal).countP (Event.signals m i) =
      reached.count i := by
  rw [List.countP_map, List.count]
  congr 1
  funext j
  simp [Event.signals, beq_eq_decide]

section

variable (known : Known node pid i s)
include known

theorem count_reached {reached : List Nat} {number : Int}
    (killed : kill s p number = .ok reached) :
    reached.count i ≤ if Names number pid then 1 else 0 := by
  by_cases member : i ∈ reached
  · obtain ⟨q, stored, target⟩ := kill_addressed killed member
    obtain ⟨-, rfl⟩ := known q stored
    rw [if_pos (addressed_names target).2]
    exact List.nodup_iff_count_le_one.mp (kill_nodup killed) i
  · rw [List.count_eq_zero_of_not_mem member]
    exact Nat.zero_le _

theorem Moves.elsewhere {pc : Pc} {broker : Broker} (away : p.node ≠ node)
    (moved : Moves s m mon p move pc broker new) : new.countP (Event.signals m i) = 0 := by
  rw [List.countP_eq_zero]
  intro e member signals
  cases e with
  | signalled n j signal =>
      obtain ⟨rfl, rfl⟩ : n = m ∧ j = i := by simpa [Event.signals] using signals
      obtain ⟨_, _, _, _, -, killed, reached, -⟩ := moved.signalled member
      obtain ⟨q, stored, target⟩ := kill_addressed killed reached
      exact away ((addressed_names target).1.symm.trans (known q stored).1)
  | _ => cases signals

theorem Moves.spends {pc : Pc} {broker : Broker} (orderly : Orderly node pid path s)
    (home : p.node = node) (moved : Moves s m mon p move pc broker new) :
    new.countP (Event.signals m i) + pc.credit path pid ≤
      mon.pc.credit path pid + new.countP (Event.delivers m) := by
  cases moved with
  | waits | stops | ignores => simp [Event.signals, Pc.credit]
  | accepts idle => simp [Event.signals, Event.delivers, Pc.credit, idle]
  | globs pc listed =>
      have once := List.nodup_iff_count_le_one.mp (listed.nodup_iff.mpr (orderly.once p.node)) path
      rw [credit_nextFile]
      simpa [pc, Pc.credit] using once
  | @reads _ name _ rest file number pc found content means =>
      have stored := List.mem_of_find?_eq_some found
      have here : file.node = p.node ∧ file.path = name := by
        simpa using List.find?_some found
      have counts : (if Names number pid then 1 else 0) + rest.count path ≤
          (name :: rest).count path := by
        by_cases names : Names number pid
        · have same := orderly.files file stored (here.1.trans home) _ _ content means names
          obtain rfl := here.2.symm.trans same
          rw [if_pos names, List.count_cons_self]
          omega
        · rw [if_neg names, Nat.zero_add]
          exact List.count_le_count_cons
      simpa [pc, Pc.credit, Event.signals, Event.delivers] using counts
  | @skips _ name _ rest _ pc =>
      have fewer : rest.count path ≤ (name :: rest).count path := List.count_le_count_cons
      rw [credit_nextFile]
      simpa [pc, Pc.credit, Event.signals, Event.delivers] using fewer
  | probes pc => simp [pc, Pc.credit]
  | refuses pc =>
      rw [credit_nextFile]
      rcases pc with pc | pc <;> simp [pc, Pc.credit]
  | sends pc killed =>
      have few := count_reached known killed
      rw [countP_signals, credit_nextFile]
      simp only [pc, Pc.credit]
      omega
  | @completes _ _ _ answered => cases answered <;> simp [Event.signals, Pc.credit]

end

def State.credit (s : State) (node : Nat) (path : String) (pid m : Nat) : Nat :=
  match s.monitors[m]? with
  | some mon =>
    if (s.processes[mon.process]?).any (·.node = node) then mon.pc.credit path pid else 0
  | none => 0

theorem Steps.known (stepped : Steps s a t new) (known : Known node pid i t) :
    Known node pid i s := by
  intro q stored
  obtain ⟨r, later, sameNode, samePid⟩ := stepped.processes stored
  obtain ⟨home, named⟩ := known r later
  exact ⟨sameNode.symm.trans home, samePid.symm.trans named⟩

theorem credit_put {pc : Pc} {broker : Broker} (stored : s.monitors[m]? = some mon)
    (process : s.processes[mon.process]? = some p) :
    State.credit ({ s with broker }.put m mon pc) node path pid m =
      if p.node = node then pc.credit path pid else 0 := by
  simp [State.credit, State.put, (List.getElem?_eq_some_iff.mp stored).1, process]

theorem credit_stored (stored : s.monitors[m]? = some mon)
    (process : s.processes[mon.process]? = some p) :
    s.credit node path pid m = if p.node = node then mon.pc.credit path pid else 0 := by
  simp [State.credit, stored, process]

theorem credit_other {k : Nat} {pc : Pc} {broker : Broker} (other : k ≠ m) :
    State.credit ({ s with broker }.put k mon pc) node path pid m = s.credit node path pid m := by
  simp only [State.credit, State.put, List.getElem?_set_ne other]
  rfl

theorem credit_kept (orderly : Orderly node pid path s) (stepped : Steps s a t new)
    (same : t.monitors = s.monitors) : t.credit node path pid m = s.credit node path pid m := by
  simp only [State.credit, same]
  cases found : s.monitors[m]? with
  | none => rfl
  | some mon =>
      have bound := orderly.monitors mon (List.mem_of_getElem? found)
      obtain ⟨q, later, home, -⟩ := stepped.processes (List.getElem?_eq_getElem bound)
      simp only [later, List.getElem?_eq_getElem bound, Option.any_some, home]

theorem Steps.spends (orderly : Orderly node pid path s) (known : Known node pid i s)
    (stepped : Steps s a t new) :
    new.countP (Event.signals m i) + t.credit node path pid m ≤
      s.credit node path pid m + new.countP (Event.delivers m) := by
  have kept := credit_kept (m := m) orderly stepped
  cases stepped with
  | @monitors k =>
      by_cases last : m = s.monitors.length
      · subst last
        simp [State.credit, Pc.credit]
      · have same : (s.monitors ++ [⟨k, .connecting⟩])[m]? = s.monitors[m]? := by
          rcases Nat.lt_or_gt_of_ne last with before | beyond
          · exact List.getElem?_append_left before
          · rw [List.getElem?_eq_none (by simp; omega), List.getElem?_eq_none (by omega)]
        simp [State.credit, same]
  | @moves k _ mon p pc _ new stored process _ moved =>
      by_cases same : k = m
      · subst same
        rw [credit_put stored process, credit_stored stored process]
        by_cases home : p.node = node
        · rw [if_pos home, if_pos home]
          exact moved.spends known orderly home
        · rw [if_neg home, if_neg home, moved.elsewhere known home]
          exact Nat.zero_le _
      · have silent : new.countP (Event.signals m i) = 0 := by
          refine List.countP_eq_zero.mpr fun e member signals => same ?_
          have about := moved.monitor e member
          cases e <;> simp_all [Event.signals, Event.monitor]
        rw [credit_other same, silent]
        omega
  | _ =>
      rw [kept rfl]
      simp

/-- As long as every file that may bring a process a signal is at one path, no monitor signals the
process more often than it gets a message, whatever becomes of the scans. -/
theorem signalled_at_most (run : Mealy.Run machine (Sole node pid path) ({}, []) log t)
    (known : Known node pid i t) (m : Nat) :
    log.countP (Event.signals m i) ≤ log.countP (Event.delivers m) := by
  have orderly {log : List Event} {s : State}
      (run : Mealy.Run machine (Sole node pid path) ({}, []) log s) : Orderly node pid path s :=
    run.state_invariant ⟨by simp, by simp [State.paths], by simp⟩
      fun s a t new orderly sole action => orderly.step sole (step_cases action)
  have spent : log.countP (Event.signals m i) + t.credit node path pid m ≤
      log.countP (Event.delivers m) := by
    induction run with
    | refl => simp [State.credit]
    | next previous _ action ih =>
        have stepped := step_cases action
        have before := stepped.known known
        have spends := stepped.spends (m := m) (orderly previous) before
        have earlier := ih before
        simp only [List.countP_append]
        omega
  omega

theorem signalled_at_most_hello :
    helloLog.countP (Event.signals 0 0) ≤ helloLog.countP (Event.delivers 0) := by
  have scanned : Mealy.Run machine (Sole 0 42 "worker.pid") (helloState .receiving helloPosted, [])
      helloLog (helloState .ended (helloLocked.put 0 none)) :=
    hello_run.mono fun s a ⟨move, same⟩ => same ▸ trivial
  have started : Mealy.Run machine (Sole 0 42 "worker.pid") ({}, []) []
      (helloState .receiving helloPosted) := by
    apply hello_started
    intro s a known
    simp only [List.mem_cons, List.not_mem_nil, or_false] at known
    rcases known with rfl | rfl | rfl | rfl | rfl <;> simp [Sole, Alone]
  have known : Known 0 42 0 (helloState .ended (helloLocked.put 0 none)) := by
    rintro _ ⟨⟩
    exact ⟨rfl, rfl⟩
  exact signalled_at_most (Mealy.Run.trans started scanned) known 0

end JobQ.WorkforceMonitor
