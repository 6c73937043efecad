import JobQ.Model.PidFile
import JobQ.Library.Pool

/-!
# One process in the lock

The pid file keeps others out as long as they judge it rightly: nobody reads it before the pid is
there, no probe of a live process is refused, and the file that is removed as stale is the one that
was checked.
-/

namespace JobQ.PidFile

variable {s t : State} {a : Action} {i j : Nat} {p q r : Process} {log new : List Event}

def Exclusive (s : State) : Prop :=
  ∀ (i j : Nat) (p q : Process), s.processes[i]? = some p → s.processes[j]? = some q →
    p.pc = .inside → q.pc = .inside → i = j

/-- The creator of the file is alive and has not written to it yet. -/
def unwritten (s : State) (file : Nat) : Bool :=
  s.processes.any fun q => q.pc = .writing && q.pidfd.any (·.file = file)

def judgesRightly (s : State) (p : Process) : Bool :=
  match p.pc with
  | .reading file => !unwritten s file
  | .probing _ pid => kill s p.uid pid ≠ .error .eperm
  | .removing file => s.path.all (· = file)
  | _ => true

def guarded (s : State) : Action → Bool
  | .process i .goesOn => s.processes[i]?.all (judgesRightly s)
  | _ => true

/-! ## What a step does -/

/-- Neither in the lock nor about to remove it. -/
def Pc.plain : Pc → Bool
  | .probing .. | .removing _ | .writing | .closing | .inside | .leaving => false
  | _ => true

inductive Moves (s : State) (i : Nat) (p : Process) : Move → State → Prop
  | rests {m : Move} {r : Process} (plain : r.pc.plain = true) : Moves s i p m (s.put i r)
  | creates {fd : Nat} (free : s.path = none) : Moves s i p (.creates fd) (create s i p fd)
  | reads {file pid : Nat} (pc : p.pc = .reading file) (content : s.files[file]? = some (some pid)) :
      Moves s i p .goesOn (s.put i { p with pc := .probing file pid })
  | readsNothing {file : Nat} (pc : p.pc = .reading file) (content : s.files[file]? = some none) :
      Moves s i p .goesOn (s.put i { p with pc := .removing file })
  | probes {file pid : Nat} {errno : Errno} (pc : p.pc = .probing file pid)
      (killed : kill s p.uid pid = .error errno) :
      Moves s i p .goesOn (s.put i { p with pc := .removing file })
  | removes {file : Nat} (pc : p.pc = .removing file) {other : Nat} (there : s.path = some other) :
      Moves s i p .goesOn ({ s with path := none }.put i { p with pc := .recreating })
  | writes {pidfd : Pidfd} (pc : p.pc = .writing) (opened : p.pidfd = some pidfd) :
      Moves s i p .goesOn
        ({ s with files := s.files.set pidfd.file (some p.pid) }.put i { p with pc := .closing })
  | closes (pc : p.pc = .closing) : Moves s i p .goesOn (s.put i { p with pc := .inside })
  | leaves {exc : Option ExceptionType} (pc : p.pc = .inside) :
      Moves s i p (.exits exc) (s.put i { p with pc := .leaving })
  | unlocks (pc : p.pc = .leaving) :
      Moves s i p .goesOn ({ s with path := none }.put i { p with pc := .outside })

theorem stepCreates_cases {fd : Nat} (action : stepCreates s i p fd = some (t, new)) :
    Moves s i p (.creates fd) t := by
  unfold stepCreates at action
  split at action
  · cases action
    exact .creates ‹_›
  · cases action
    exact .creates ‹_›
  · cases action
    exact .rests rfl
  · cases action
    exact .rests rfl
  · contradiction

theorem stepGoesOn_cases (action : stepGoesOn s i p = some (t, new)) : Moves s i p .goesOn t := by
  unfold stepGoesOn at action
  split at action
  · cases action
    exact .rests rfl
  · split at action <;> cases action <;> exact .rests rfl
  · split at action
    · cases action
      exact .reads ‹_› ‹_›
    · cases action
      exact .readsNothing ‹_› ‹_›
    · contradiction
  · split at action
    · cases action
      exact .rests rfl
    · cases action
      exact .probes ‹_› ‹_›
  · split at action
    · cases action
      exact .removes ‹_› ‹_›
    · cases action
      exact .rests rfl
  · split at action
    · cases action
      exact .writes ‹_› ‹_›
    · contradiction
  · cases action
    exact .closes ‹_›
  · split at action
    · cases action
      exact .unlocks ‹_›
    · cases action
      exact .rests rfl
  all_goals contradiction

theorem stepFails_cases (action : stepFails s i p = some (t, new)) : Moves s i p .fails t := by
  unfold stepFails at action
  split at action
  · contradiction
  · contradiction
  · contradiction
  · contradiction
  · cases action
    exact .rests rfl

theorem stepExits_cases {exc : Option ExceptionType} (action : stepExits s i p exc = some (t, new)) :
    Moves s i p (.exits exc) t := by
  unfold stepExits at action
  split at action
  · cases action
    exact .leaves ‹_›
  · cases action
    exact .rests rfl
  · split at action
    · cases action
      exact .leaves ‹_›
    · cases action
      exact .rests rfl
  · contradiction

theorem stepProcess_cases {m : Move} (action : stepProcess s i p m = some (t, new)) :
    Moves s i p m t := by
  cases m with
  | enters | dies =>
      simp only [stepProcess] at action
      split at action <;> cases action
      exact .rests rfl
  | creates fd => exact stepCreates_cases action
  | goesOn => exact stepGoesOn_cases action
  | fails => exact stepFails_cases action
  | exits exc => exact stepExits_cases action

inductive Steps (s : State) : Action → State → Prop
  | starts {pid uid : Nat} :
      Steps s (.starts pid uid) { s with processes := s.processes ++ [{ pid, uid }] }
  | moves {i : Nat} {m : Move} {p : Process} {t : State} (stored : s.processes[i]? = some p)
      (moved : Moves s i p m t) : Steps s (.process i m) t

theorem step_cases (action : step s a = some (t, new)) : Steps s a t := by
  cases a with
  | starts pid uid =>
      simp only [step] at action
      split at action <;> cases action
      exact .starts
  | process i m =>
      simp only [step] at action
      split at action
      · exact .moves ‹_› (stepProcess_cases action)
      · contradiction

/-! ## The invariant -/

/-- From the creation of the file to its removal. -/
def Pc.holds : Pc → Bool
  | .writing | .closing | .inside | .leaving => true
  | _ => false

def Process.Holds (p : Process) (file : Nat) : Prop :=
  p.pc.holds = true ∧ p.pidfd.map Pidfd.file = some file

/-- The file that the process has read, and the pid that it still takes to be alive. -/
def Pc.checked : Pc → Option (Nat × Option Nat)
  | .probing file pid => some (file, some pid)
  | .removing file => some (file, none)
  | _ => none

structure Locked (s : State) : Prop where
  one : ∀ (i j : Nat) (p q : Process), s.processes[i]? = some p →
    s.processes[j]? = some q → p.pc.holds = true → q.pc.holds = true → i = j
  held : ∀ p ∈ s.processes, p.pc.holds = true → ∃ file, s.path = some file ∧ p.Holds file ∧
    file < s.files.length ∧ (s.files[file]? = some (some p.pid) ∨ p.pc = .writing)
  checked : ∀ p ∈ s.processes, ∀ file pid, p.pc.checked = some (file, pid) →
    file < s.files.length ∧ ∀ q ∈ s.processes, q.Holds file → pid = some q.pid

theorem Pc.plain_holds {pc : Pc} (plain : pc.plain = true) : pc.holds = false := by
  cases pc <;> simp_all [Pc.plain, Pc.holds]

theorem Pc.plain_checked {pc : Pc} (plain : pc.plain = true) : pc.checked = none := by
  cases pc <;> simp_all [Pc.plain, Pc.checked]

theorem kill_found {uid : Nat} {errno : Errno} (member : q ∈ s.processes)
    (holds : q.pc.holds = true) (killed : kill s uid q.pid = .error errno) : errno ≠ .esrch := by
  have alive : q.alive = true := by
    cases pc : q.pc <;> simp_all [Process.alive, Pc.holds]
  unfold kill at killed
  split at killed
  · rename_i none
    have absent := List.find?_eq_none.mp none q member
    simp [alive] at absent
  · split at killed <;> cases killed
    simp

theorem Locked.unheld (nobody : ∀ q ∈ t.processes, q.pc.holds = false)
    (bounded : ∀ q ∈ t.processes, ∀ file pid, q.pc.checked = some (file, pid) →
      file < t.files.length) : Locked t where
  one i j p q found _ holds _ := by
    have none := nobody p (List.mem_of_getElem? found)
    rw [none] at holds
    contradiction
  held p member holds := by
    rw [nobody p member] at holds
    contradiction
  checked p member file pid checks := by
    refine ⟨bounded p member file pid checks, fun q other holds => ?_⟩
    have none := nobody q other
    rw [holds.1] at none
    contradiction

theorem holder_before (stored : s.processes[i]? = some p)
    (holds : r.pc.holds = true → p.pc.holds = true ∧ r.pidfd = p.pidfd ∧ r.pid = p.pid)
    (found : (s.processes.set i r)[j]? = some q) (holder : q.pc.holds = true) :
    ∃ old, s.processes[j]? = some old ∧ old.pc.holds = true ∧ q.pidfd = old.pidfd ∧
      q.pid = old.pid := by
  rcases Pool.set_cases found with ⟨rfl, rfl⟩ | ⟨-, before⟩
  · exact ⟨p, stored, holds holder⟩
  · exact ⟨q, before, holder, rfl, rfl⟩

section

variable (locked : Locked s)
include locked

theorem Locked.exclusive : Exclusive s := by
  intro i j p q first second inside alsoInside
  apply locked.one i j p q first second
  · simp [inside, Pc.holds]
  · simp [alsoInside, Pc.holds]

theorem Locked.bounded (plain : r.pc.checked = none) :
    ∀ q ∈ s.processes.set i r, ∀ file pid, q.pc.checked = some (file, pid) → file < s.files.length := by
  apply Pool.forall_set
  · exact fun q member file pid checks => (locked.checked q member file pid checks).1
  · intro file pid checks
    rw [plain] at checks
    contradiction

theorem Locked.free (free : s.path = none) (member : q ∈ s.processes) : q.pc.holds = false := by
  by_contra holds
  obtain ⟨file, there, -⟩ := locked.held q member (by simpa using holds)
  rw [free] at there
  contradiction

theorem Locked.creates {fd : Nat} (free : s.path = none) : Locked (create s i p fd) := by
  have nobody {q : Process} {j : Nat} (other : j ≠ i)
      (found : (create s i p fd).processes[j]? = some q) : q.pc.holds = false := by
    simp only [create] at found
    rw [List.getElem?_set_ne (Ne.symm other)] at found
    exact locked.free free (List.mem_of_getElem? found)
  refine ⟨fun j k q q' first second holdsFirst holdsSecond => ?_, fun q member holder => ?_,
    fun q member file pid judged => ?_⟩
  · have here {j : Nat} {q : Process} (found : (create s i p fd).processes[j]? = some q)
        (holder : q.pc.holds = true) : j = i := by
      by_contra other
      simp [nobody other found] at holder
    rw [here first holdsFirst, here second holdsSecond]
  · rcases Pool.getElem?_of_mem_set member with rfl | ⟨j, other, found⟩
    · refine ⟨s.files.length, rfl, ⟨holder, rfl⟩, ?_, .inr rfl⟩
      simp [create]
    · have free := locked.free free (List.mem_of_getElem? found)
      rw [free] at holder
      contradiction
  · rcases Pool.getElem?_of_mem_set member with rfl | ⟨j, -, found⟩
    · cases judged
    · obtain ⟨bound, -⟩ := locked.checked q (List.mem_of_getElem? found) file pid judged
      refine ⟨by simp only [create, List.length_append]; omega, fun other member' has => ?_⟩
      obtain ⟨holder, opened⟩ := has
      rcases Pool.getElem?_of_mem_set member' with rfl | ⟨k, -, found'⟩
      · -- the file is a new one
        cases opened
        exact absurd bound (Nat.lt_irrefl _)
      · rw [locked.free free (List.mem_of_getElem? found')] at holder
        contradiction

theorem Locked.starts {pid uid : Nat} :
    Locked { s with processes := s.processes ++ [{ pid, uid }] } := by
  have old {j : Nat} {q : Process} (found : (s.processes ++ [⟨pid, uid, none, .outside⟩])[j]? = some q)
      (holder : q.pc.holds = true) : s.processes[j]? = some q := by
    rw [List.getElem?_append] at found
    split at found
    · exact found
    · obtain rfl := List.mem_singleton.mp (List.mem_of_getElem? found)
      contradiction
  refine ⟨fun j k q q' first second holdsFirst holdsSecond => ?_, fun q member holder => ?_,
    fun q member file pid judged => ?_⟩
  · exact locked.one j k q q' (old first holdsFirst) (old second holdsSecond) holdsFirst holdsSecond
  · obtain ⟨j, found⟩ := List.mem_iff_getElem?.mp member
    exact locked.held q (List.mem_of_getElem? (old found holder)) holder
  · rcases List.mem_append.mp member with before | last
    · obtain ⟨bound, right⟩ := locked.checked q before file pid judged
      refine ⟨bound, fun other member' has => ?_⟩
      obtain ⟨j, found⟩ := List.mem_iff_getElem?.mp member'
      exact right other (List.mem_of_getElem? (old found has.1)) has
    · obtain rfl := List.mem_singleton.mp last
      contradiction

theorem Locked.read {file : Nat} (pc : p.pc = .reading file) (meets : judgesRightly s p = true)
    (member : q ∈ s.processes) (has : q.Holds file) : s.files[file]? = some (some q.pid) := by
  obtain ⟨other, -, also, -, content⟩ := locked.held q member has.1
  obtain rfl : other = file := by simpa [also.2] using has.2
  rcases content with written | writing
  · exact written
  · have early : unwritten s other = true := by
      obtain ⟨pidfd, opened, rfl⟩ := Option.map_eq_some_iff.mp has.2
      simp only [unwritten, List.any_eq_true]
      exact ⟨q, member, by simp [writing, opened]⟩
    simp [judgesRightly, pc, early] at meets

variable (stored : s.processes[i]? = some p)
include stored

theorem Locked.alone (holds : p.pc.holds = true) (member : q ∈ s.processes.set i r)
    (also : q.pc.holds = true) : q = r := by
  rcases Pool.getElem?_of_mem_set member with same | ⟨j, other, found⟩
  · exact same
  · exact absurd (locked.one j i q p found stored also holds) other

theorem Locked.put
    (holds : r.pc.holds = true → p.pc.holds = true ∧ r.pidfd = p.pidfd ∧ r.pid = p.pid)
    (written : r.pc.holds = true → ∀ file, p.Holds file → s.files[file]? = some (some p.pid))
    (checks : ∀ file pid, r.pc.checked = some (file, pid) → file < s.files.length ∧
      ∀ q ∈ s.processes, q.Holds file → pid = some q.pid) : Locked (s.put i r) where
  one j k q q' first second holdsFirst holdsSecond := by
    obtain ⟨old, foundOld, holdsOld, -⟩ := holder_before stored holds first holdsFirst
    obtain ⟨old', foundOld', holdsOld', -⟩ := holder_before stored holds second holdsSecond
    exact locked.one j k old old' foundOld foundOld' holdsOld holdsOld'
  held q member holder := by
    rcases Pool.getElem?_of_mem_set member with rfl | ⟨j, -, found⟩
    · obtain ⟨held, pidfd, pid⟩ := holds holder
      obtain ⟨file, there, has, bound, -⟩ := locked.held p (List.mem_of_getElem? stored) held
      exact ⟨file, there, ⟨holder, pidfd ▸ has.2⟩, bound, .inl (pid ▸ written holder file has)⟩
    · exact locked.held q (List.mem_of_getElem? found) holder
  checked q member file pid judged := by
    have before : file < s.files.length ∧ ∀ q ∈ s.processes, q.Holds file → pid = some q.pid := by
      rcases Pool.getElem?_of_mem_set member with rfl | ⟨j, -, found⟩
      · exact checks file pid judged
      · exact locked.checked q (List.mem_of_getElem? found) file pid judged
    refine ⟨before.1, fun other member' has => ?_⟩
    obtain ⟨holder, opened⟩ := has
    obtain ⟨j, found⟩ := List.mem_iff_getElem?.mp member'
    obtain ⟨old, foundOld, holdsOld, pidfd, pid⟩ := holder_before stored holds found holder
    rw [pid]
    exact before.2 old (List.mem_of_getElem? foundOld) ⟨holdsOld, pidfd ▸ opened⟩

theorem Locked.rests (plain : r.pc.plain = true) : Locked (s.put i r) := by
  apply locked.put stored
  · simp [Pc.plain_holds plain]
  · simp [Pc.plain_holds plain]
  · simp [Pc.plain_checked plain]

theorem Locked.unlocks (holds : p.pc.holds = true) (plain : r.pc.plain = true) :
    Locked ({ s with path := none }.put i r) := by
  apply Locked.unheld
  · intro q member
    by_contra holder
    have same : q = r := locked.alone stored holds member (by simpa using holder)
    rw [same, Pc.plain_holds plain] at holder
    contradiction
  · exact locked.bounded (Pc.plain_checked plain)

theorem Locked.removes {file other : Nat} (pc : p.pc = .removing file) (there : s.path = some other)
    (meets : judgesRightly s p = true) :
    Locked ({ s with path := none }.put i { p with pc := .recreating }) := by
  have same : other = file := by simpa [judgesRightly, pc, there] using meets
  have nobody : ∀ q ∈ s.processes, q.pc.holds = false := by
    intro q member
    by_contra holder
    obtain ⟨held, there', has, -⟩ := locked.held q member (by simpa using holder)
    obtain rfl : held = other := by simpa [there'] using there
    have checked := locked.checked p (List.mem_of_getElem? stored) file none (by simp [pc, Pc.checked])
    have pid := checked.2 q member (same ▸ has)
    contradiction
  apply Locked.unheld
  · exact Pool.forall_set nobody rfl
  · exact locked.bounded rfl

theorem Locked.writes {pidfd : Pidfd} (pc : p.pc = .writing) (opened : p.pidfd = some pidfd) :
    Locked ({ s with files := s.files.set pidfd.file (some p.pid) }.put i { p with pc := .closing }) := by
  have holds : p.pc.holds = true := by simp [pc, Pc.holds]
  obtain ⟨file, there, ⟨-, same⟩, bound, -⟩ := locked.held p (List.mem_of_getElem? stored) holds
  obtain rfl : pidfd.file = file := by simpa [opened] using same
  have content : (s.files.set pidfd.file (some p.pid))[pidfd.file]? = some (some p.pid) :=
    List.getElem?_set_self bound
  have noted : Locked { s with files := s.files.set pidfd.file (some p.pid) } := by
    refine ⟨locked.one, fun q member holder => ?_, by simpa using locked.checked⟩
    obtain ⟨j, found⟩ := List.mem_iff_getElem?.mp member
    obtain rfl := locked.one j i q p found stored holder holds
    obtain rfl : q = p := by simpa [stored] using found.symm
    exact ⟨_, there, ⟨holds, same⟩, by simpa using bound, .inl content⟩
  apply noted.put stored
  · exact fun _ => ⟨holds, rfl, rfl⟩
  · intro _ file has
    obtain rfl : pidfd.file = file := by simpa [opened] using has.2
    exact content
  · simp [Pc.checked]

theorem Locked.goesIn (holds : p.pc.holds = true) (written : p.pc ≠ .writing) {pc : Pc}
    (checked : pc.checked = none) : Locked (s.put i { p with pc }) := by
  apply locked.put stored
  · exact fun _ => ⟨holds, rfl, rfl⟩
  · intro _ file has
    obtain ⟨other, -, also, -, content⟩ := locked.held p (List.mem_of_getElem? stored) holds
    obtain rfl : other = file := by simpa [also.2] using has.2
    simpa [written] using content
  · simp [checked]

theorem Locked.judges {pc : Pc} {file : Nat} {pid : Option Nat} (holds : pc.holds = false)
    (checks : pc.checked = some (file, pid)) (bound : file < s.files.length)
    (right : ∀ q ∈ s.processes, q.Holds file → pid = some q.pid) :
    Locked (s.put i { p with pc }) := by
  apply locked.put stored
  · simp [holds]
  · simp [holds]
  · intro file pid judged
    rw [checks] at judged
    cases judged
    exact ⟨bound, right⟩

theorem Locked.step {m : Move} (moved : Moves s i p m t)
    (meets : guarded s (.process i m) = true) : Locked t := by
  have judges (goes : m = .goesOn) : judgesRightly s p = true := by
    subst goes
    simpa [guarded, stored] using meets
  cases moved with
  | rests plain => exact locked.rests stored plain
  | creates free => exact locked.creates free
  | @reads file pid pc content =>
      obtain ⟨bound, -⟩ := List.getElem?_eq_some_iff.mp content
      apply locked.judges stored rfl rfl bound
      intro q member has
      have wrote := locked.read pc (judges rfl) member has
      simpa [content] using wrote
  | @readsNothing file pc content =>
      obtain ⟨bound, -⟩ := List.getElem?_eq_some_iff.mp content
      apply locked.judges stored rfl rfl bound
      intro q member has
      have wrote := locked.read pc (judges rfl) member has
      simp [content] at wrote
  | @probes file pid errno pc killed =>
      obtain ⟨bound, alive⟩ :=
        locked.checked p (List.mem_of_getElem? stored) file (some pid) (by simp [pc, Pc.checked])
      apply locked.judges stored rfl rfl bound
      intro q member has
      obtain rfl : pid = q.pid := by simpa using alive q member has
      have refused : errno ≠ .eperm := by simpa [judgesRightly, pc, killed] using judges rfl
      have gone : errno ≠ .esrch := kill_found member has.1 killed
      cases errno <;> contradiction
  | removes pc there => exact locked.removes stored pc there (judges rfl)
  | writes pc opened => exact locked.writes stored pc opened
  | closes pc => exact locked.goesIn stored (by simp [pc, Pc.holds]) (by simp [pc]) rfl
  | leaves pc => exact locked.goesIn stored (by simp [pc, Pc.holds]) (by simp [pc]) rfl
  | unlocks pc => exact locked.unlocks stored (by simp [pc, Pc.holds]) rfl

end

theorem one_process_inside
    (run : Mealy.Run machine (fun s a => guarded s a = true) ({}, []) log s) : Exclusive s := by
  have locked : Locked s := by
    apply run.state_invariant (P := Locked)
    · exact .unheld (by simp) (by simp)
    · intro s a t new locked meets action
      cases step_cases action with
      | starts => exact locked.starts
      | moves stored moved => exact locked.step stored moved meets
  exact locked.exclusive

/-! ## Runs -/

/-- A process gets past `__enter__` where the path is free. -/
def locks (i : Nat) : List Action :=
  [.process i .enters, .process i .goesOn, .process i (.creates 3), .process i .goesOn,
    .process i .goesOn]

/-- A process finds the file, and takes it to be stale. -/
def takesOver (i probes : Nat) : List Action :=
  [.process i .enters, .process i .goesOn, .process i (.creates 3), .process i .goesOn] ++
    List.replicate probes (.process i .goesOn) ++
    [.process i .goesOn, .process i .goesOn, .process i (.creates 3), .process i .goesOn,
      .process i .goesOn]

theorem one_process_hello : ∃ s, Exclusive s ∧
    s.processes.map Process.pc = [.dead, .inside] ∧ s.files = [some 41, some 42] := by
  have steps : Mealy.execIf machine guarded ({}, [])
      ([.starts 41 1000, .starts 42 1000] ++ locks 0 ++ [.process 0 .dies] ++ takesOver 1 1) =
      some (_, _) := rfl
  exact ⟨_, one_process_inside (.of_execIf steps), rfl, rfl⟩

/-- The second process reads the file before the first has written to it. -/
theorem both_inside : ¬ ∀ s log, Mealy.Run machine Mealy.always ({}, []) log s → Exclusive s := by
  intro claim
  have steps : Mealy.exec machine ({}, [])
      ([.starts 41 1000, .starts 42 1000] ++ (locks 0).take 3 ++ takesOver 1 0 ++
        (locks 0).drop 3) = some (_, _) := rfl
  have same : 0 = 1 := claim _ _ (.of_exec (by simp) steps) 0 1 _ _ rfl rfl rfl rfl
  exact Nat.zero_ne_one same

end JobQ.PidFile
