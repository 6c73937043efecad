import JobQ.Library.JsonRoundTrip
import JobQ.Proof.WorkforceMonitor.Steps

/-!
# A completed message has reached the processes of the node

While a process lives and its pid file stays as it is, every scan for a message opens that file,
finds the process and signals it, or ends early and leaves the message to the broker.
-/

namespace JobQ.WorkforceMonitor

variable {s t : State} {a : Action} {m i node : Nat} {mon : Monitor} {p q : Process} {move : Move}
  {log new : List Event} {path text : String}

/-- Process `i` is alive on the node, and the file at the path names it. -/
structure Named (node : Nat) (path : String) (i : Nat) (q : Process) (s : State) : Prop where
  stored : s.processes[i]? = some q
  alive : q.alive = true
  home : q.node = node
  positive : 0 < q.pid
  bounded : q.pid < 2 ^ 31
  listed : ∃ text, s.file node path = some ⟨node, path, some text⟩ ∧
    IntLiteral.int text.toList = some (q.pid : Int)

/-- The process does not die, and nobody touches the file. -/
def Steady (node : Nat) (path : String) (i : Nat) (_ : State) : Action → Prop
  | .dies j => j ≠ i
  | .writes file => ¬(file.node = node ∧ file.path = path)
  | .removes other name => ¬(other = node ∧ name = path)
  | _ => True

theorem file_without {other : Nat} {name : String} (apart : ¬(other = node ∧ name = path)) :
    (s.without other name).file node path = s.file node path := by
  simp only [State.file, State.without, List.find?_filter]
  congr 1
  funext f
  by_cases same : f.node = node ∧ f.path = path
  · obtain ⟨rfl, rfl⟩ := same
    have kept : ¬(f.node = other ∧ f.path = name) := fun both => apart ⟨both.1.symm, both.2.symm⟩
    simp [kept]
  · simp [same]

theorem file_written {file : File} (apart : ¬(file.node = node ∧ file.path = path)) :
    State.file { s with files := (s.without file.node file.path).files ++ [file] } node path =
      s.file node path := by
  have other : [file].find? (fun f => f.node = node ∧ f.path = path) = none := by
    simpa using apart
  rw [← file_without (s := s) apart]
  simp only [State.file, List.find?_append, other, Option.or_none]

theorem Named.step (named : Named node path i q s) (steady : Steady node path i s a)
    (stepped : Steps s a t new) : Named node path i q t := by
  obtain ⟨alive, stored, same⟩ := stepped.process named.stored
  have lives : a ≠ .dies i := by
    rintro rfl
    exact steady rfl
  obtain rfl := same lives
  refine ⟨stored, named.alive, named.home, named.positive, named.bounded, ?_⟩
  obtain ⟨text, found, means⟩ := named.listed
  refine ⟨text, ?_, means⟩
  cases stepped with
  | writes => exact (file_written steady).trans found
  | removes => exact (file_without steady).trans found
  | _ => exact found

theorem Named.in_paths (named : Named node path i q s) : path ∈ s.paths node := by
  obtain ⟨text, found, -⟩ := named.listed
  refine List.mem_map.mpr ⟨_, List.mem_filter.mpr ⟨List.mem_of_find?_eq_some found, ?_⟩, rfl⟩
  simp

theorem Named.killed (named : Named node path i q s) (home : p.node = node)
    (may : permitted p q = true) : ∃ reached, kill s p q.pid = .ok reached ∧ i ∈ reached := by
  have fits : ¬((q.pid : Int) < -2 ^ 31 ∨ 2 ^ 31 ≤ (q.pid : Int)) := by
    have := named.bounded
    omega
  have member : (q, i) ∈ s.processes.zipIdx :=
    List.mem_zipIdx_iff_getElem?.mpr named.stored
  have target : addressed p q.pid q = true := by
    simp [addressed, named.alive, named.home, home, named.positive]
  have found : (q, i) ∈ s.processes.zipIdx.filter fun x => addressed p q.pid x.1 :=
    List.mem_filter.mpr ⟨member, target⟩
  have reached : (q, i) ∈ (s.processes.zipIdx.filter fun x => addressed p q.pid x.1).filter
      fun x => permitted p x.1 := List.mem_filter.mpr ⟨found, may⟩
  simp only [kill, if_neg fits, if_neg (List.ne_nil_of_mem found),
    if_neg (List.ne_nil_of_mem reached)]
  exact ⟨_, rfl, List.mem_map.mpr ⟨(q, i), reached, rfl⟩⟩

/-! ## One scan -/

def Pc.job : Pc → Option Job
  | .globbing job | .opening job _ _ | .probing job _ _ | .sending job _ _ | .completing job =>
    some job
  | _ => none

/-- The scan has the file, or the pid that stands in it, still before it. -/
def Pc.Due (path : String) (pid : Int) : Pc → Prop
  | .globbing _ => True
  | .opening _ first rest => path ∈ first :: rest
  | .probing _ other rest | .sending _ other rest => other = pid ∨ path ∈ rest
  | _ => False

theorem due_nextFile {job : Job} {paths : List String} {pid : Int} (member : path ∈ paths) :
    (nextFile job paths).Due path pid := by
  cases paths with
  | nil => cases member
  | cons first rest => exact member

@[simp]
theorem job_nextFile {job : Job} {paths : List String} : (nextFile job paths).job = some job := by
  cases paths <;> rfl

/-- What monitor `m` has done for process `i` since it got the message that it works on. -/
def Serves (path : String) (i : Nat) (pid : Int) (m : Nat) (pc : Pc) (log : List Event) : Prop :=
  ∀ job, pc.job = some job → ∃ first text second,
    log = first ++ .delivered m job.number text :: second ∧ requested text = some job.signal ∧
      (pc.Due path pid ∨ .signalled m i job.signal ∈ second)

theorem Serves.extends {pid : Int} {pc : Pc} (serves : Serves path i pid m pc log)
    (new : List Event) : Serves path i pid m pc (log ++ new) := by
  intro job works
  obtain ⟨first, text, second, rfl, asked, reached⟩ := serves job works
  exact ⟨first, text, second ++ new, by simp, asked, reached.imp id (List.mem_append_left _)⟩

theorem Serves.idle {pid : Int} {pc : Pc} (idle : pc.job = none) : Serves path i pid m pc log := by
  intro job works
  rw [idle] at works
  cases works

theorem Serves.continues {pid : Int} {pc next : Pc} {job : Job} {new : List Event}
    (serves : Serves path i pid m pc log) (works : pc.job = some job)
    (goes : next.job = some job)
    (keeps : pc.Due path pid → next.Due path pid ∨ .signalled m i job.signal ∈ new) :
    Serves path i pid m next (log ++ new) := by
  intro other same
  obtain rfl := Option.some.inj (goes.symm.trans same)
  obtain ⟨first, text, second, rfl, asked, reached⟩ := serves job works
  refine ⟨first, text, second ++ new, by simp, asked, ?_⟩
  rcases reached with due | done
  · exact (keeps due).imp id (List.mem_append_right _)
  · exact .inr (List.mem_append_left _ done)

section

variable (named : Named node path i q s) (home : p.node = node) (may : permitted p q = true)
include named home may

theorem Serves.moves {pc : Pc} {broker : Broker} (serves : Serves path i q.pid m mon.pc log)
    (moved : Moves s m mon p move pc broker new) : Serves path i q.pid m pc (log ++ new) := by
  obtain ⟨reached, kills, member⟩ := named.killed home may
  cases moved with
  | waits | stops | ignores => exact .idle rfl
  | accepts _ _ _ asked =>
      rintro _ ⟨⟩
      exact ⟨log, _, [], rfl, asked, .inl trivial⟩
  | globs pc listed =>
      refine serves.continues (by rw [pc]; rfl) job_nextFile fun _ => .inl (due_nextFile ?_)
      exact listed.mem_iff.mpr (home ▸ named.in_paths)
  | reads pc found content means =>
      refine serves.continues (by rw [pc]; rfl) rfl fun due => .inl ?_
      rw [pc] at due
      rcases List.mem_cons.mp due with rfl | later
      · obtain ⟨text, there, names⟩ := named.listed
        rw [home, there] at found
        cases found
        cases content
        exact .inl (Option.some.inj (means.symm.trans names))
      · exact .inr later
  | skips pc found content means =>
      refine serves.continues (by rw [pc]; rfl) job_nextFile fun due => .inl ?_
      rw [pc] at due
      rcases List.mem_cons.mp due with rfl | later
      · obtain ⟨text, there, names⟩ := named.listed
        rw [home, there] at found
        cases found
        cases content
        cases means.symm.trans names
      · exact due_nextFile later
  | probes pc =>
      refine serves.continues (by rw [pc]; rfl) rfl fun due => .inl ?_
      rwa [pc] at due
  | @refuses job pid rest _ pc killed =>
      have works : mon.pc.job = some job ∧ (mon.pc.Due path q.pid → pid = q.pid ∨ path ∈ rest) := by
        rcases pc with pc | pc <;> exact ⟨by rw [pc]; rfl, fun due => by rwa [pc] at due⟩
      refine serves.continues works.1 job_nextFile fun due => .inl ?_
      rcases works.2 due with rfl | later
      · cases kills.symm.trans killed
      · exact due_nextFile later
  | sends pc killed =>
      refine serves.continues (by rw [pc]; rfl) job_nextFile fun due => ?_
      rw [pc] at due
      rcases due with rfl | later
      · obtain rfl := Except.ok.inj (kills.symm.trans killed)
        exact .inr (List.mem_map_of_mem member)
      · exact .inl (due_nextFile later)
  | @completes _ _ _ answered => cases answered <;> exact .idle rfl

end

/-! ## A whole run -/

/-- Monitor `m` runs on the node, in a process that may signal process `i`. -/
structure Watched (path : String) (i m k : Nat) (p q : Process) (log : List Event) (s : State) :
    Prop where
  named : Named p.node path i q s
  process : ∃ alive, s.processes[k]? = some { p with alive }
  monitor : ∃ pc, s.monitors[m]? = some ⟨k, pc⟩ ∧ Serves path i q.pid m pc log

variable {k : Nat}

theorem Watched.step (watched : Watched path i m k p q log s) (may : permitted p q = true)
    (steady : Steady p.node path i s a) (stepped : Steps s a t new) :
    Watched path i m k p q (log ++ new) t := by
  obtain ⟨named, ⟨alive, process⟩, pc, monitor, serves⟩ := watched
  have later : ∃ alive, t.processes[k]? = some { p with alive } := by
    obtain ⟨still, there, -⟩ := stepped.process process
    exact ⟨still, there⟩
  refine ⟨named.step steady stepped, later, ?_⟩
  cases stepped with
  | monitors =>
      refine ⟨pc, ?_, serves.extends _⟩
      rw [List.getElem?_append_left (List.getElem?_eq_some_iff.mp monitor).1]
      exact monitor
  | @moves n move mon r next broker _ stored runs _ moved =>
      by_cases same : n = m
      · subst same
        obtain rfl := Option.some.inj (stored.symm.trans monitor)
        obtain rfl := Option.some.inj (runs.symm.trans process)
        refine ⟨next, ?_, serves.moves (p := { p with alive }) named rfl may moved⟩
        simp [State.put, (List.getElem?_eq_some_iff.mp stored).1]
      · refine ⟨pc, ?_, serves.extends _⟩
        simpa [State.put, List.getElem?_set_ne same] using monitor
  | _ => exact ⟨pc, monitor, serves.extends _⟩

theorem Moves.completed {pc : Pc} {broker : Broker} {first second : List Event} {n : Nat}
    (moved : Moves s m mon p move pc broker (first ++ .completed m n :: second)) :
    first = [] ∧ ∃ job, mon.pc = .completing job ∧ job.number = n := by
  generalize same : first ++ .completed m n :: second = new at moved
  have member : .completed m n ∈ new := by
    rw [← same]
    simp
  cases moved with
  | completes pc =>
      cases first with
      | nil =>
          injection same with head
          injection head with _ number
          exact ⟨rfl, _, pc, number.symm⟩
      | cons e first =>
          injection same with _ rest
          split at rest <;> simp [List.append_eq_cons_iff] at rest
  | _ => simp at member

/-- From when the monitor is idle on: a message that it completes has brought the signal that it
asks for to every process that was alive, with its pid file in place, from before the message came
until it was completed. -/
theorem completed_reached (run : Mealy.Run machine (Steady p.node path i) (s, []) log t)
    (named : Named p.node path i q s) (may : permitted p q = true)
    (process : s.processes[k]? = some p) {pc : Pc} (monitor : s.monitors[m]? = some ⟨k, pc⟩)
    (idle : pc.job = none) {n : Nat} {before after : List Event}
    (split : log = before ++ .completed m n :: after) :
    ∃ first text second signal, before = first ++ .delivered m n text :: second ∧
      requested text = some signal ∧ .signalled m i signal ∈ second := by
  have start : Watched path i m k p q [] s := ⟨named, ⟨p.alive, process⟩, pc, monitor, .idle idle⟩
  obtain ⟨log', u, a, v, front, back, later, reaches, -, action, rfl, -, -⟩ :=
    run.at_event rfl split
  have watched : Watched path i m k p q log' u := reaches.invariant start
    fun es u a v new watched steady action => watched.step may steady (step_cases action)
  generalize whole : front ++ .completed m n :: back = new at action
  have stepped := step_cases action
  cases stepped with
  | @moves other move mon r next broker _ stored _ _ moved =>
      obtain rfl : m = other := moved.monitor (.completed m n) (by simp [← whole])
      rw [← whole] at moved
      obtain ⟨rfl, job, completing, rfl⟩ := moved.completed
      obtain ⟨pc, there, serves⟩ := watched.monitor
      obtain rfl := Option.some.inj (stored.symm.trans there)
      cases completing
      obtain ⟨first, text, second, rfl, asked, due | done⟩ := serves job rfl
      · exact absurd due id
      · exact ⟨first, text, second, job.signal, by simp, asked, done⟩
  | _ => simp at whole

/-! ### One worker, and one message to it -/

section
open JsonText

def helloMessage : Json := .obj [("operation", .str "graceful-downscale")]
def helloRequest : String := JsonText.text helloMessage

theorem requested_hello : requested helloRequest = some .sigusr2 := by
  have read : loads helloRequest = some helloMessage :=
    loads_text (by simp [helloMessage, WellFormed, MembersWellFormed])
  simp [requested, read, helloMessage, getItem, signalOf]

end

def helloProcess : Process := ⟨0, 42, 42, 1000, true⟩
def helloJob : Job := ⟨0, 0, .sigusr2⟩
def helloQueued : PeekLock.Message Nat String := ⟨0, helloRequest, none, 0⟩

def helloPosted : Broker :=
  { PeekLock.Broker.put {} 0 (some helloQueued) with history := [0], nextNumber := 1 }

def helloLocked : Broker :=
  { helloPosted.put 0 (some { helloQueued with lock := some 0, deliveries := 1 }) with nextToken := 1 }

def helloState (pc : Pc) (broker : Broker) : State where
  processes := [helloProcess]
  files := [⟨0, "worker.pid", some "42"⟩]
  broker := broker
  monitors := [⟨0, pc⟩]

def helloLog : List Event :=
  [.delivered 0 0 helloRequest, .read 0 "worker.pid" "42", .signalled 0 0 .sigusr2, .completed 0 0,
    .ended 0]

theorem hello_run : Mealy.Run machine (fun _ a => ∃ move, a = .monitor 0 move)
    (helloState .receiving helloPosted, []) helloLog
    (helloState .ended (helloLocked.put 0 none)) := by
  have received : machine.step (helloState .receiving helloPosted) (.monitor 0 (.receives 0)) =
      some (helloState (.globbing helloJob) helloLocked, [.delivered 0 0 helloRequest]) :=
    receives_step (helloState .receiving helloPosted) 0 ⟨0, .receiving⟩ helloProcess 0 helloQueued
      helloLocked [.locked 0 0] .sigusr2 rfl rfl rfl rfl rfl rfl requested_hello
  have listed : machine.step (helloState (.globbing helloJob) helloLocked)
      (.monitor 0 (.globs ["worker.pid"])) =
        some (helloState (.opening helloJob "worker.pid" []) helloLocked, []) := rfl
  have opened : machine.step (helloState (.opening helloJob "worker.pid" []) helloLocked)
      (.monitor 0 .goesOn) =
        some (helloState (.probing helloJob 42 []) helloLocked, [.read 0 "worker.pid" "42"]) := rfl
  have probed : machine.step (helloState (.probing helloJob 42 []) helloLocked)
      (.monitor 0 .goesOn) = some (helloState (.sending helloJob 42 []) helloLocked, []) := rfl
  have sent : machine.step (helloState (.sending helloJob 42 []) helloLocked)
      (.monitor 0 .goesOn) =
        some (helloState (.completing helloJob) helloLocked, [.signalled 0 0 .sigusr2]) := rfl
  have completed : machine.step (helloState (.completing helloJob) helloLocked)
      (.monitor 0 (.completes true)) =
        some (helloState .ended (helloLocked.put 0 none), [.completed 0 0, .ended 0]) := rfl
  exact .head ⟨_, rfl⟩ received (.head ⟨_, rfl⟩ listed (.head ⟨_, rfl⟩ opened
    (.head ⟨_, rfl⟩ probed (.head ⟨_, rfl⟩ sent (.head ⟨_, rfl⟩ completed .refl)))))

theorem completed_reached_hello : ∃ first text second signal,
    [.delivered 0 0 helloRequest, .read 0 "worker.pid" "42", .signalled 0 0 .sigusr2] =
        first ++ Event.delivered 0 0 text :: second ∧
      requested text = some signal ∧ .signalled 0 0 signal ∈ second := by
  have steady : Mealy.Run machine (Steady helloProcess.node "worker.pid" 0)
      (helloState .receiving helloPosted, []) helloLog (helloState .ended (helloLocked.put 0 none)) :=
    hello_run.mono fun s a ⟨move, same⟩ => same ▸ trivial
  have named : Named helloProcess.node "worker.pid" 0 helloProcess
      (helloState .receiving helloPosted) :=
    ⟨rfl, rfl, rfl, by decide, by decide, "42", rfl, rfl⟩
  exact completed_reached steady named rfl rfl rfl rfl rfl

end JobQ.WorkforceMonitor
