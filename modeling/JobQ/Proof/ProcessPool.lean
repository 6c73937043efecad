import JobQ.Model.ProcessPool
import JobQ.Library.Pool

/-!
# Every running function can be signalled

`_pool` refers to the executor of every function that runs, as long as nobody replaces an executor
other than the one it has shut down itself.
-/

namespace JobQ.ProcessPool

variable {Result : Type*} {s t : State Result} {a : Action Result} {i j k e : Nat}
  {log new : List (Event Result)}

def State.Down (s : State Result) (e : Nat) : Prop :=
  ∃ x, s.executors[e]? = some x ∧ x.stage = .down

structure Signallable (s : State Result) : Prop where
  running : ∀ job ∈ s.jobs, job.running = true → job.executor = s.pool
  dropped : ∀ e < s.executors.length, e ≠ s.pool → s.Down e

/-- The executor that is replaced is still the one that this call has shut down. -/
def replacesOwn (s : State Result) : Action Result → Bool
  | .assigns i =>
    match s.coroutines[i]? with
    | some (.killing k) => s.threads[k]?.any (·.executor = s.pool)
    | _ => true
  | _ => true

/-! ## What a step does -/

inductive Steps (s : State Result) : Action Result → State Result → Prop
  | rests {a : Action Result} {inShutdown : Bool} {coroutines : List Pc} :
      Steps s a { s with inShutdown, coroutines }
  | submits {i : Nat} {bgDirsync enterRaises exitRaises : Bool} {x : Executor} {coroutines : List Pc}
      (stored : s.executors[s.pool]? = some x) (accepts : x.refuses = none) :
      Steps s (.submits i bgDirsync enterRaises exitRaises) { s with jobs := s.jobs ++ [⟨s.pool, false, none⟩], coroutines }
  | kills {i : Nat} {x : Executor} {coroutines : List Pc} (stored : s.executors[s.pool]? = some x) :
      Steps s (.kills i)
        { s with inShutdown := true, threads := s.threads ++ [⟨s.pool, .queued⟩], coroutines }
  | assigns {i k : Nat} {thread : Thread} {coroutines : List Pc}
      (waits : s.coroutines[i]? = some (.killing k)) (stored : s.threads[k]? = some thread)
      (finished : thread.stage = .finished) :
      Steps s (.assigns i)
        { s with executors := s.executors ++ [{}], pool := s.executors.length, coroutines }
  | cancelsSubmit {i j : Nat} {exitRaises : Bool} {coroutines : List Pc} :
      Steps s (.cancels i exitRaises) { s with jobs := s.jobs.modify j Job.cancel, coroutines }
  | cancelsKill {i k : Nat} {exitRaises : Bool} {coroutines : List Pc} :
      Steps s (.cancels i exitRaises) { s with threads := s.threads.modify k Thread.cancel, coroutines }
  | begins {j : Nat} {old job : Job Result} (stored : s.jobs[j]? = some old)
      (begun : old.begin = some job) : Steps s (.begins j) { s with jobs := s.jobs.set j job }
  | ends {j : Nat} {outcome : Outcome Result} {old job : Job Result} (stored : s.jobs[j]? = some old)
      (ended : old.finish outcome = some job) :
      Steps s (.ends j outcome) { s with jobs := s.jobs.set j job }
  | breaks {e : Nat} {x : Executor} (stored : s.executors[e]? = some x) :
      Steps s (.breaks e) { s with
        executors := s.executors.set e { x with broken := true }, jobs := s.jobs.map (·.break e) }
  | shutsDown {k e : Nat} (stored : s.threads[k]? = some ⟨e, .queued⟩) :
      Steps s (.shutsDown k) { s with
        executors := s.executors.modify e fun x =>
          if x.stage = .accepting then { x with stage := .shuttingDown } else x
        threads := s.threads.set k ⟨e, .joining⟩ }
  | joins {k e : Nat} (stored : s.threads[k]? = some ⟨e, .joining⟩)
      (drained : ∀ job ∈ s.jobs, job.executor = e → job.over = true) :
      Steps s (.joins k) { s with
        executors := s.executors.modify e fun x => { x with stage := .down }
        threads := s.threads.set k ⟨e, .finished⟩ }

section

variable {bgDirsync enterRaises exitRaises : Bool}

theorem stepSubmits_cases (action : stepSubmits s i bgDirsync enterRaises exitRaises = some (t, new)) :
    Steps s (.submits i bgDirsync enterRaises exitRaises) t := by
  unfold stepSubmits at action
  split at action
  · split at action
    · cases action
      exact .rests
    · split at action <;> cases action
      · exact .rests
      · exact .submits ‹_› ‹_›
  · contradiction

theorem stepReturns_cases (action : stepReturns s i exitRaises = some (t, new)) :
    Steps s (.returns i exitRaises) t := by
  unfold stepReturns at action
  split at action
  · split at action
    · cases action
      exact .rests
    · cases action
      exact .rests
    · contradiction
  · contradiction

theorem stepKills_cases (action : stepKills s i = some (t, new)) : Steps s (.kills i) t := by
  unfold stepKills at action
  split at action
  · split at action <;> cases action
    · exact .rests
    · exact .kills ‹_›
  · contradiction

theorem stepAssigns_cases (action : stepAssigns s i = some t) : Steps s (.assigns i) t := by
  unfold stepAssigns at action
  split at action
  · rename_i k waits
    split at action
    · rename_i finished
      cases action
      cases stored : s.threads[k]? with
      | none => simp [stored] at finished
      | some thread => exact .assigns waits stored (by simpa [stored] using finished)
    · contradiction
  · contradiction

theorem stepWakes_cases (action : stepWakes s i = some (t, new)) : Steps s (.wakes i) t := by
  unfold stepWakes at action
  split at action <;> cases action
  exact .rests

theorem stepCancels_cases (action : stepCancels s i exitRaises = some (t, new)) :
    Steps s (.cancels i exitRaises) t := by
  unfold stepCancels at action
  split at action
  · cases action
    exact .cancelsSubmit
  · cases action
    exact .cancelsKill
  · cases action
    exact .rests
  · contradiction

end

theorem stepBreaks_cases (action : stepBreaks s e = some t) : Steps s (.breaks e) t := by
  unfold stepBreaks at action
  split at action
  · split at action <;> cases action
    exact .breaks ‹_›
  · contradiction

theorem stepShutsDown_cases (action : stepShutsDown s k = some t) : Steps s (.shutsDown k) t := by
  unfold stepShutsDown at action
  split at action <;> cases action
  exact .shutsDown ‹_›

theorem stepJoins_cases (action : stepJoins s k = some t) : Steps s (.joins k) t := by
  unfold stepJoins at action
  split at action
  · split at action <;> cases action
    rename_i stored all
    apply Steps.joins stored
    intro job member same
    simpa [same] using List.all_eq_true.mp all job member
  · contradiction

theorem step_cases (action : step s a = some (t, new)) : Steps s a t := by
  cases a with
  | submits => exact stepSubmits_cases action
  | returns => exact stepReturns_cases action
  | kills i => exact stepKills_cases action
  | wakes i => exact stepWakes_cases action
  | cancels => exact stepCancels_cases action
  | resumes =>
      cases action
      exact .rests
  | begins j =>
      obtain ⟨stepped, rfl⟩ := Mealy.silent_step action
      obtain ⟨job, found, rfl⟩ := Option.map_eq_some_iff.mp stepped
      obtain ⟨old, stored, begun⟩ := Option.bind_eq_some_iff.mp found
      exact .begins stored begun
  | ends j outcome =>
      obtain ⟨stepped, rfl⟩ := Mealy.silent_step action
      obtain ⟨job, found, rfl⟩ := Option.map_eq_some_iff.mp stepped
      obtain ⟨old, stored, ended⟩ := Option.bind_eq_some_iff.mp found
      exact .ends stored ended
  | assigns i => exact stepAssigns_cases (Mealy.silent_step action).1
  | breaks e => exact stepBreaks_cases (Mealy.silent_step action).1
  | shutsDown k => exact stepShutsDown_cases (Mealy.silent_step action).1
  | joins k => exact stepJoins_cases (Mealy.silent_step action).1

/-! ## The invariant -/

structure Kept (s : State Result) : Prop where
  pool : s.pool < s.executors.length
  dropped : ∀ e < s.executors.length, e ≠ s.pool → s.Down e
  jobs : ∀ job ∈ s.jobs, job.executor < s.executors.length ∧
    (s.Down job.executor → job.over = true)
  threads : ∀ thread ∈ s.threads, thread.executor < s.executors.length ∧
    (thread.stage = .finished → s.Down thread.executor)

theorem down_modify {f : Executor → Executor} {d : Nat}
    (same : ∀ x, (f x).stage = .down ↔ x.stage = .down) :
    (∃ x, (s.executors.modify e f)[d]? = some x ∧ x.stage = .down) ↔ s.Down d := by
  rw [List.getElem?_modify]
  by_cases here : e = d
  · simp [here, State.Down, same]
  · simp [here, State.Down]

theorem down_set {x y : Executor} {d : Nat} (stored : s.executors[e]? = some x)
    (same : y.stage = x.stage) :
    (∃ z, (s.executors.set e y)[d]? = some z ∧ z.stage = .down) ↔ s.Down d := by
  by_cases here : d = e
  · subst here
    obtain ⟨bound, rfl⟩ := List.getElem?_eq_some_iff.mp stored
    simp [State.Down, bound, same]
  · rw [List.getElem?_set_ne (Ne.symm here)]
    rfl

theorem down_append {d : Nat} :
    (∃ x, (s.executors ++ [⟨.accepting, false⟩])[d]? = some x ∧ x.stage = .down) ↔ s.Down d := by
  unfold State.Down
  rw [List.getElem?_append]
  split
  · rfl
  · rename_i late
    have beyond : s.executors[d]? = none := List.getElem?_eq_none (by omega)
    simp only [beyond, reduceCtorEq, false_and, exists_false, iff_false, not_exists, not_and]
    intro x found
    obtain rfl := List.mem_singleton.mp (List.mem_of_getElem? found)
    simp

theorem down_joined {d : Nat} (bound : e < s.executors.length) :
    (∃ x, (s.executors.modify e fun x => { x with stage := .down })[d]? = some x ∧
      x.stage = .down) ↔ d = e ∨ s.Down d := by
  rw [List.getElem?_modify]
  by_cases here : d = e
  · subst here
    simp [bound]
  · simp [here, Ne.symm here, State.Down]

/-- What has become of a job in one step. -/
def Job.Follows (job old : Job Result) : Prop :=
  job.executor = old.executor ∧ (old.over = true → job.over = true)

theorem follows_begin {job old : Job Result} (begun : old.begin = some job) : job.Follows old := by
  unfold Job.begin at begun
  split at begun <;> cases begun
  rename_i fresh
  refine ⟨rfl, fun ended => ?_⟩
  simp_all [Job.over]

theorem follows_finish {outcome : Outcome Result} {job old : Job Result}
    (ended : old.finish outcome = some job) : job.Follows old := by
  unfold Job.finish at ended
  split at ended <;> cases ended
  refine ⟨rfl, fun ended => ?_⟩
  simp_all [Job.over]

theorem follows_break (old : Job Result) (e : Nat) : (old.break e).Follows old := by
  unfold Job.break
  split
  · refine ⟨rfl, fun ended => ?_⟩
    simp_all [Job.over]
  · exact ⟨rfl, id⟩

theorem follows_cancel (old : Job Result) : old.cancel.Follows old := by
  unfold Job.cancel
  split
  · exact ⟨rfl, id⟩
  · refine ⟨rfl, fun ended => ?_⟩
    simp_all [Job.over]

section

variable (kept : Kept s)
include kept

theorem Kept.signallable : Signallable s where
  running job member running := by
    obtain ⟨bound, ended⟩ := kept.jobs job member
    by_contra other
    have ended := ended (kept.dropped job.executor bound other)
    simp [Job.over, running] at ended
  dropped := kept.dropped

theorem Kept.change (pool : t.pool = s.pool) (length : t.executors.length = s.executors.length)
    (down : ∀ e, t.Down e ↔ s.Down e)
    (jobs : ∀ job ∈ t.jobs, ∃ old ∈ s.jobs, job.Follows old)
    (threads : ∀ thread ∈ t.threads, ∃ old ∈ s.threads, thread.executor = old.executor ∧
      (thread.stage = .finished → old.stage = .finished)) : Kept t where
  pool := by
    rw [pool, length]
    exact kept.pool
  dropped e bound other := by
    rw [length] at bound
    rw [pool] at other
    exact (down e).mpr (kept.dropped e bound other)
  jobs job member := by
    obtain ⟨old, before, same, ended⟩ := jobs job member
    rw [length, same, down]
    exact (kept.jobs old before).imp_right fun settled isDown => ended (settled isDown)
  threads thread member := by
    obtain ⟨old, before, same, finished⟩ := threads thread member
    rw [length, same, down]
    exact (kept.threads old before).imp_right fun settled now => settled (finished now)

theorem Kept.job {job old : Job Result} (stored : s.jobs[j]? = some old) (follows : job.Follows old) :
    Kept { s with jobs := s.jobs.set j job } := by
  refine kept.change rfl rfl (fun _ => Iff.rfl) ?_ ?_
  · intro other member
    rcases List.mem_or_eq_of_mem_set member with before | rfl
    · exact ⟨other, before, rfl, id⟩
    · exact ⟨old, List.mem_of_getElem? stored, follows⟩
  · exact fun thread member => ⟨thread, member, rfl, id⟩

theorem Kept.submits {x : Executor} {coroutines : List Pc} (stored : s.executors[s.pool]? = some x)
    (accepts : x.refuses = none) :
    Kept { s with jobs := s.jobs ++ [⟨s.pool, false, none⟩], coroutines } where
  pool := kept.pool
  dropped := kept.dropped
  jobs job member := by
    rcases List.mem_append.mp member with before | last
    · exact kept.jobs job before
    · obtain rfl := List.mem_singleton.mp last
      refine ⟨kept.pool, fun down => ?_⟩
      obtain ⟨y, found, down⟩ := down
      obtain rfl : x = y := by simpa [stored] using found
      simp only [Executor.refuses, down] at accepts
      split at accepts <;> contradiction
  threads := kept.threads

theorem Kept.kills {coroutines : List Pc} :
    Kept { s with
      inShutdown := true, threads := s.threads ++ [⟨s.pool, .queued⟩], coroutines } where
  pool := kept.pool
  dropped := kept.dropped
  jobs := kept.jobs
  threads thread member := by
    rcases List.mem_append.mp member with before | last
    · exact kept.threads thread before
    · obtain rfl := List.mem_singleton.mp last
      exact ⟨kept.pool, by simp⟩

theorem Kept.assigns {thread : Thread} {coroutines : List Pc} (stored : s.threads[k]? = some thread)
    (finished : thread.stage = .finished) (own : thread.executor = s.pool) :
    Kept { s with executors := s.executors ++ [{}], pool := s.executors.length, coroutines } where
  pool := by simp
  dropped e bound other := by
    apply down_append.mpr
    by_cases current : e = s.pool
    · rw [current, ← own]
      exact (kept.threads thread (List.mem_of_getElem? stored)).2 finished
    · have old : e ≠ s.executors.length := other
      apply kept.dropped e _ current
      simp only [List.length_append, List.length_singleton] at bound
      omega
  jobs job member := by
    obtain ⟨bound, ended⟩ := kept.jobs job member
    refine ⟨?_, fun down => ended (down_append.mp down)⟩
    simp only [List.length_append]
    omega
  threads thread member := by
    obtain ⟨bound, settled⟩ := kept.threads thread member
    refine ⟨?_, fun now => down_append.mpr (settled now)⟩
    simp only [List.length_append]
    omega

theorem Kept.joins (stored : s.threads[k]? = some ⟨e, .joining⟩)
    (drained : ∀ job ∈ s.jobs, job.executor = e → job.over = true) :
    Kept { s with
      executors := s.executors.modify e fun x => { x with stage := .down }
      threads := s.threads.set k ⟨e, .finished⟩ } := by
  have bound := (kept.threads _ (List.mem_of_getElem? stored)).1
  refine ⟨?_, fun d within other => ?_, fun job member => ?_, fun thread member => ?_⟩
  · simpa using kept.pool
  · rw [List.length_modify] at within
    exact (down_joined bound).mpr (.inr (kept.dropped d within other))
  · obtain ⟨within, ended⟩ := kept.jobs job member
    refine ⟨by simpa using within, fun down => ?_⟩
    rcases (down_joined bound).mp down with same | before
    · exact drained job member same
    · exact ended before
  · rcases List.mem_or_eq_of_mem_set member with before | rfl
    · obtain ⟨within, settled⟩ := kept.threads thread before
      exact ⟨by simpa using within, fun now => (down_joined bound).mpr (.inr (settled now))⟩
    · exact ⟨by simpa using bound, fun _ => (down_joined bound).mpr (.inl rfl)⟩

theorem Kept.step (action : Steps s a t) (meets : replacesOwn s a = true) : Kept t := by
  cases action with
  | rests =>
      exact kept.change rfl rfl (fun _ => Iff.rfl) (fun job member => ⟨job, member, rfl, id⟩)
        fun thread member => ⟨thread, member, rfl, id⟩
  | submits stored accepts => exact kept.submits stored accepts
  | kills => exact kept.kills
  | assigns waits stored finished =>
      apply kept.assigns stored finished
      simpa [replacesOwn, waits, stored] using meets
  | cancelsSubmit =>
      refine kept.change rfl rfl (fun _ => Iff.rfl) ?_ ?_
      · intro job member
        obtain ⟨old, before, rfl | rfl⟩ := Pool.mem_modify member
        · exact ⟨job, before, rfl, id⟩
        · exact ⟨old, before, follows_cancel old⟩
      · exact fun thread member => ⟨thread, member, rfl, id⟩
  | cancelsKill =>
      refine kept.change rfl rfl (fun _ => Iff.rfl) ?_ ?_
      · exact fun job member => ⟨job, member, rfl, id⟩
      · intro thread member
        obtain ⟨old, before, rfl | rfl⟩ := Pool.mem_modify member
        · exact ⟨thread, before, rfl, id⟩
        · refine ⟨old, before, ?_, ?_⟩
          · unfold Thread.cancel
            split <;> rfl
          · unfold Thread.cancel
            split
            · simp
            · exact id
  | begins stored begun => exact kept.job stored (follows_begin begun)
  | ends stored ended => exact kept.job stored (follows_finish ended)
  | breaks stored =>
      refine kept.change rfl (by simp) (fun d => down_set stored rfl) ?_ ?_
      · intro job member
        obtain ⟨old, before, rfl⟩ := List.mem_map.mp member
        exact ⟨old, before, follows_break old _⟩
      · exact fun thread member => ⟨thread, member, rfl, id⟩
  | shutsDown stored =>
      refine kept.change rfl (by simp) (fun d => down_modify ?_) ?_ ?_
      · intro x
        split
        · simp_all
        · rfl
      · exact fun job member => ⟨job, member, rfl, id⟩
      · intro thread member
        rcases List.mem_or_eq_of_mem_set member with before | rfl
        · exact ⟨thread, before, rfl, id⟩
        · exact ⟨_, List.mem_of_getElem? stored, rfl, by simp⟩
  | joins stored drained => exact kept.joins stored drained

end

theorem Kept.initial {coroutines : Nat} : Kept (initial coroutines : State Result) where
  pool := Nat.one_pos
  dropped e bound other := absurd (Nat.lt_one_iff.mp bound) other
  jobs := by simp [ProcessPool.initial]
  threads := by simp [ProcessPool.initial]

theorem running_signallable {coroutines : Nat}
    (run : Mealy.Run (machine Result) (fun s a => replacesOwn s a = true)
      (initial coroutines, []) log s) : Signallable s := by
  have kept : Kept s := by
    apply run.state_invariant (P := Kept)
    · exact .initial
    · intro s a t new kept meets action
      exact kept.step (step_cases action) meets
  exact kept.signallable

/-! ## Runs -/

theorem running_signallable_hello : ∃ s : State Nat, Signallable s ∧
    s.pool = 1 ∧ s.jobs[1]?.map Job.running = some true := by
  have steps : Mealy.execIf (machine Nat) replacesOwn (initial 2, [])
      ([.submits 1 false false false, .begins 0, .kills 0, .shutsDown 0, .ends 0 (.returned 7), .joins 0, .assigns 0,
        .returns 1 false, .wakes 0, .resumes, .submits 1 false false false, .begins 1]) = some (_, _) := rfl
  exact ⟨_, running_signallable (.of_execIf steps), rfl, rfl⟩

/-- Two workers shut one executor down. When the second one replaces it, the function of a third
coroutine runs in what the first one has put there. -/
theorem running_dropped : ¬ ∀ (s : State Nat) log,
    Mealy.Run (machine Nat) Mealy.always (initial 3, []) log s → Signallable s := by
  intro claim
  have steps : Mealy.exec (machine Nat) (initial 3, [])
      [.kills 0, .kills 1, .shutsDown 0, .joins 0, .shutsDown 1, .joins 1, .assigns 0,
        .submits 2 false false false, .begins 0, .assigns 1] = some (_, _) := rfl
  have signallable := claim _ _ (.of_exec (by simp) steps)
  have same := signallable.running _ (List.mem_singleton.mpr rfl) rfl
  contradiction

end JobQ.ProcessPool
