import JobQ.Proof.WorkforceMonitor.Reached

/-!
# What every signal was sent for
-/

namespace JobQ.WorkforceMonitor

variable {s t : State} {a : Action} {m i node : Nat} {mon : Monitor} {p q : Process} {move : Move}
  {log new : List Event} {path : String} {pid : Int}

theorem kill_addressed {reached : List Nat} (killed : kill s p pid = .ok reached)
    (member : i ∈ reached) : ∃ q, s.processes[i]? = some q ∧ addressed p pid q = true := by
  simp only [kill] at killed
  split at killed
  · contradiction
  · split at killed
    · contradiction
    · split at killed <;> cases killed
      obtain ⟨⟨q, j⟩, found, rfl⟩ := List.mem_map.mp member
      have target := List.mem_filter.mp (List.mem_filter.mp found).1
      exact ⟨q, List.mem_zipIdx_iff_getElem?.mp target.1, target.2⟩

theorem kill_nodup {reached : List Nat} (killed : kill s p pid = .ok reached) : reached.Nodup := by
  simp only [kill] at killed
  split at killed
  · contradiction
  · split at killed
    · contradiction
    · split at killed <;> cases killed
      have whole : (s.processes.zipIdx.map Prod.snd).Nodup := by
        rw [List.zipIdx_map_snd]
        exact List.nodup_range'
      exact whole.sublist ((List.filter_sublist.trans List.filter_sublist).map _)

/-- The number stands for the process, or for a group or for everybody. -/
abbrev Names (number : Int) (pid : Nat) : Prop := (pid : Int) = number ∨ number ≤ 0

theorem addressed_names (target : addressed p pid q = true) : q.node = p.node ∧ Names pid q.pid := by
  simp only [addressed, Bool.and_eq_true, decide_eq_true_eq] at target
  obtain ⟨⟨-, home⟩, named⟩ := target
  refine ⟨home, ?_⟩
  by_cases positive : 0 < pid
  · rw [if_pos positive] at named
    exact .inl (by simpa using named)
  · exact .inr (by omega)

/-! ## The message and the file behind a signal -/

/-- The monitor reads pid files and sends signals. -/
def Event.scans : Event → Bool
  | .read .. | .signalled .. => true
  | _ => false

def Pc.probed : Pc → Option Int
  | .probing _ pid _ | .sending _ pid _ => some pid
  | _ => none

/-- What monitor `m` works on is the last message that it got, and the pid that it probes stands in
a file that it has read since. -/
def Works (m : Nat) (pc : Pc) (log : List Event) : Prop :=
  ∀ job, pc.job = some job → ∃ first text second,
    log = first ++ .delivered m job.number text :: second ∧ requested text = some job.signal ∧
      (∀ e ∈ second, e.monitor = m → e.scans = true) ∧
        ∀ pid, pc.probed = some pid → ∃ path name, .read m path name ∈ second ∧
          IntLiteral.int name.toList = some pid

theorem Works.idle {pc : Pc} (idle : pc.job = none) : Works m pc log := by
  intro job works
  rw [idle] at works
  cases works

theorem Works.continues {pc next : Pc} {job : Job} (works : Works m pc log)
    (has : pc.job = some job) (goes : next.job = some job)
    (scans : ∀ e ∈ new, e.monitor = m → e.scans = true)
    (names : ∀ pid, next.probed = some pid → pc.probed = some pid ∨ ∃ path name,
      .read m path name ∈ new ∧ IntLiteral.int name.toList = some pid) :
    Works m next (log ++ new) := by
  intro other same
  obtain rfl := Option.some.inj (goes.symm.trans same)
  obtain ⟨first, text, second, rfl, asked, scanned, named⟩ := works job has
  refine ⟨first, text, second ++ new, by simp, asked, fun e member => ?_, fun pid probes => ?_⟩
  · exact (List.mem_append.mp member).elim (scanned e) (scans e)
  · rcases names pid probes with before | ⟨path, name, read, means⟩
    · obtain ⟨path, name, read, means⟩ := named pid before
      exact ⟨path, name, List.mem_append_left _ read, means⟩
    · exact ⟨path, name, List.mem_append_right _ read, means⟩

@[simp]
theorem probed_nextFile {job : Job} {paths : List String} : (nextFile job paths).probed = none := by
  cases paths <;> rfl

theorem Works.moves {pc : Pc} {broker : Broker} (works : Works m mon.pc log)
    (moved : Moves s m mon p move pc broker new) : Works m pc (log ++ new) := by
  cases moved with
  | waits | stops | ignores => exact .idle rfl
  | accepts _ _ _ asked =>
      rintro _ ⟨⟩
      exact ⟨log, _, [], rfl, asked, by simp, by simp [Pc.probed]⟩
  | globs pc =>
      exact works.continues (by rw [pc]; rfl) job_nextFile (by simp) (by simp)
  | reads pc _ _ means =>
      refine works.continues (by rw [pc]; rfl) rfl (by simp [Event.scans]) ?_
      rintro _ ⟨⟩
      exact .inr ⟨_, _, List.mem_singleton_self _, means⟩
  | skips pc =>
      exact works.continues (by rw [pc]; rfl) job_nextFile (by simp [Event.scans]) (by simp)
  | probes pc =>
      refine works.continues (by rw [pc]; rfl) rfl (by simp) ?_
      rintro _ ⟨⟩
      exact .inl (by rw [pc]; rfl)
  | @refuses job _ _ _ pc =>
      have has : mon.pc.job = some job := by rcases pc with pc | pc <;> exact congrArg Pc.job pc
      exact works.continues has job_nextFile (by simp) (by simp)
  | sends pc =>
      refine works.continues (by rw [pc]; rfl) job_nextFile (fun e member _ => ?_) (by simp)
      obtain ⟨i, -, rfl⟩ := List.mem_map.mp member
      rfl
  | @completes _ _ _ answered => cases answered <;> exact .idle rfl

/-- All monitors at once. -/
theorem run_works (run : Mealy.Run machine Mealy.always ({}, []) log t) :
    ∀ m mon, t.monitors[m]? = some mon → Works m mon.pc log := by
  refine run.invariant (P := fun log s => ∀ m mon, s.monitors[m]? = some mon → Works m mon.pc log)
    (by simp) ?_
  intro log s a t new works _ action m mon there
  have silent (other : Monitor) (before : s.monitors[m]? = some other)
      (quiet : ∀ e ∈ new, e.monitor ≠ m) : Works m other.pc (log ++ new) := by
    cases has : other.pc.job with
    | none => exact .idle has
    | some job =>
        exact (works m other before).continues has has
          (fun e member same => absurd same (quiet e member)) fun _ => .inl
  cases step_cases action with
  | monitors =>
      rcases Pool.append_cases there with before | ⟨-, rfl⟩
      · exact silent mon before (by simp)
      · exact .idle rfl
  | moves stored _ _ moved =>
      rcases put_monitor there with ⟨rfl, rfl⟩ | ⟨other, before⟩
      · exact (works _ _ stored).moves moved
      · exact silent mon before fun e member same => other (same.symm.trans (moved.monitor e member))
  | _ => exact silent mon there (by simp)

theorem Steps.processes (stepped : Steps s a t new) (stored : s.processes[i]? = some p) :
    ∃ q, t.processes[i]? = some q ∧ q.node = p.node ∧ q.pid = p.pid := by
  obtain ⟨alive, later, -⟩ := stepped.process stored
  exact ⟨_, later, rfl, rfl⟩

theorem run_processes {G : State → Action → Prop} {start : State × List Event}
    (run : Mealy.Run machine G start log t) (stored : start.1.processes[i]? = some p) :
    ∃ q, t.processes[i]? = some q ∧ q.node = p.node ∧ q.pid = p.pid := by
  refine run.state_invariant (P := fun s => ∃ q, s.processes[i]? = some q ∧ q.node = p.node ∧
    q.pid = p.pid) ⟨p, stored, rfl, rfl⟩ ?_
  rintro s a t new ⟨q, there, node, pid⟩ - action
  obtain ⟨r, later, sameNode, samePid⟩ := (step_cases action).processes there
  exact ⟨r, later, sameNode.trans node, samePid.trans pid⟩

theorem Moves.signalled {pc : Pc} {broker : Broker} {signal : Signal}
    (moved : Moves s m mon p move pc broker new) (signals : .signalled m i signal ∈ new) :
    ∃ job pid rest reached, mon.pc = .sending job pid rest ∧ kill s p pid = .ok reached ∧
      i ∈ reached ∧ job.signal = signal ∧
        new = reached.map fun i => .signalled m i job.signal := by
  cases moved with
  | sends pc killed =>
      obtain ⟨j, member, same⟩ := List.mem_map.mp signals
      cases same
      exact ⟨_, _, _, _, pc, killed, member, rfl, rfl⟩
  | @completes _ _ _ answered => cases answered <;> simp at signals
  | _ => simp at signals

theorem map_split {reached : List Nat} {f : Nat → Event} {front back : List Event} {e : Event}
    (scans : ∀ i, (f i).scans = true) (split : reached.map f = front ++ e :: back) :
    ∀ x ∈ front, x.scans = true := by
  intro x member
  have inside : x ∈ reached.map f := by
    rw [split]
    exact List.mem_append_left _ member
  obtain ⟨i, -, rfl⟩ := List.mem_map.mp inside
  exact scans i

/-- A monitor signals a process only for the last message that it got, with the signal that this
asks for, and after it has read the pid of the process, or a number that stands for a group or for
everybody, in a pid file. -/
theorem signalled_as_requested (run : Mealy.Run machine Mealy.always ({}, []) log t)
    {signal : Signal} {before after : List Event}
    (split : log = before ++ .signalled m i signal :: after) :
    ∃ first n text second path name pid q,
      before = first ++ .delivered m n text :: second ∧ requested text = some signal ∧
        (∀ e ∈ second, e.monitor = m → e.scans = true) ∧ .read m path name ∈ second ∧
          IntLiteral.int name.toList = some pid ∧ t.processes[i]? = some q ∧ Names pid q.pid := by
  obtain ⟨log', u, a, v, front, back, later, reaches, -, action, rfl, -, rest⟩ :=
    run.at_event rfl split
  generalize whole : front ++ .signalled m i signal :: back = new at action
  have signals : .signalled m i signal ∈ new := by simp [← whole]
  cases step_cases action with
  | @moves other move mon r next broker _ stored process alive moved =>
      obtain rfl : m = other := moved.monitor _ signals
      obtain ⟨job, pid, paths, reached, pc, killed, member, rfl, events⟩ := moved.signalled signals
      obtain ⟨first, text, second, rfl, asked, scanned, named⟩ :=
        run_works reaches m mon stored job (by rw [pc]; rfl)
      obtain ⟨path, name, read, means⟩ := named pid (by rw [pc]; rfl)
      obtain ⟨old, known, target⟩ := kill_addressed killed member
      obtain ⟨q, there, -, samePid⟩ :=
        (Steps.moves stored process alive moved).processes known
      obtain ⟨q', final, -, same⟩ := run_processes rest there
      refine ⟨first, job.number, text, second ++ front, path, name, pid, q', by simp, asked, ?_,
        List.mem_append_left _ read, means, final, ?_⟩
      · intro e belongs about
        rcases List.mem_append.mp belongs with old | new
        · exact scanned e old about
        · exact map_split (fun _ => rfl) (events.symm.trans whole.symm) e new
      · rw [same, samePid]
        exact (addressed_names target).2
  | _ => simp at signals

/-- Everything that comes before the scan, which anybody may do. -/
theorem hello_started {G : State → Action → Prop}
    (may : ∀ s a, a ∈ [.starts helloProcess, .writes ⟨0, "worker.pid", some "42"⟩,
      .posts 0 helloRequest, .monitors 0, .monitor 0 .connects] → G s a) :
    Mealy.Run machine G ({}, []) [] (helloState .receiving helloPosted) := by
  have started : machine.step {} (.starts helloProcess) =
      some ({ processes := [helloProcess] }, []) := rfl
  have written : machine.step { processes := [helloProcess] }
      (.writes ⟨0, "worker.pid", some "42"⟩) =
        some ({ helloState .connecting {} with monitors := [] }, []) := rfl
  have posted : machine.step { helloState .connecting {} with monitors := [] }
      (.posts 0 helloRequest) =
        some ({ helloState .connecting helloPosted with monitors := [] }, []) := rfl
  have watched : machine.step { helloState .connecting helloPosted with monitors := [] }
      (.monitors 0) = some (helloState .connecting helloPosted, []) := rfl
  have connected : machine.step (helloState .connecting helloPosted) (.monitor 0 .connects) =
      some (helloState .receiving helloPosted, []) := rfl
  exact .head (may _ _ (by simp)) started (.head (may _ _ (by simp)) written
    (.head (may _ _ (by simp)) posted (.head (may _ _ (by simp)) watched
      (.head (may _ _ (by simp)) connected .refl))))

theorem signalled_as_requested_hello : ∃ first n text second path name pid q,
    [.delivered 0 0 helloRequest, .read 0 "worker.pid" "42"] =
        first ++ Event.delivered 0 n text :: second ∧ requested text = some .sigusr2 ∧
      (∀ e ∈ second, e.monitor = 0 → e.scans = true) ∧ .read 0 path name ∈ second ∧
        IntLiteral.int name.toList = some pid ∧
          (helloState .ended (helloLocked.put 0 none)).processes[0]? = some q ∧
            Names pid q.pid := by
  have scanned := hello_run.mono fun s a _ => (trivial : Mealy.always s a)
  have run := Mealy.Run.trans (hello_started fun _ _ _ => trivial) scanned
  have split : helloLog = [.delivered 0 0 helloRequest, .read 0 "worker.pid" "42"] ++
      .signalled 0 0 .sigusr2 :: [.completed 0 0, .ended 0] := rfl
  exact signalled_as_requested run split

end JobQ.WorkforceMonitor
