import JobQ.Proof.Autoscaler.Reads

/-!
# The fleet stays within its limit

Jobs go on while a tick reads the regions one after the other, and the running workers are counted
in another fetch than the pending ones. No worker of a region is missed all the same, as long as
none starts to run between the two reads, and a tick that counts all of them never hires beyond
`max_num_workers`.
-/

namespace JobQ.Autoscaler
open Workforce MultiRegionWorkforce

variable {s t : State} {a : Action} {i j k : Nat} {m : Manager} {new : List Event} {limit : Int}
  {fetched : List (List (Option WorkforceState))} {current : List (Option (Option WorkforceState))}

/-- Between the reads that count the running and the pending workers of the region. -/
def State.between (s : State) (i : Nat) : Prop :=
  answers s.phase 0 i ≠ none ∧ answers s.phase (pendingFetch s.manager) i = none

/-- The states are read without an error. A job that is not active does not become so: a hired one is
active from its creation, and one that has ended does not come back. None starts to run between the
two reads that count the workers of its region. -/
def Counted (s : State) : Action → Prop
  | .changes i j status => ∀ job, (s.region i)[j]? = some job →
      (isActive { job with status } = true → isActive job = true) ∧
        (s.between i → runs { job with status } = true → runs job = true)
  | .reads _ answered => answered = true
  | _ => True

def Phase.allowance : Phase → Nat
  | .writing calls => Autoscaler.allowance calls
  | _ => 0

structure Fits (limit : Int) (s : State) : Prop where
  regions : s.manager.workforces = s.jobs.length
  capped : s.manager.maxNumWorkers ≤ limit
  within : ((active s + s.phase.allowance : Nat) : Int) ≤ limit
  complete : ∀ fetched current, s.phase = .reading fetched current →
    Complete s.manager.workforces fetched current
  running : ∀ i first, answers s.phase 0 i = some first →
    answers s.phase (pendingFetch s.manager) i = none →
      (runningIn (s.region i) : Int) ≤ first.numRunning
  known : ∀ i first second, answers s.phase 0 i = some first →
    answers s.phase (pendingFetch s.manager) i = some second →
      (activeIn (s.region i) : Int) ≤ first.numRunning + second.numPending

/-- While no tick reads, only the sizes count. -/
theorem fits_idle (idle : ∀ fetched current, s.phase ≠ .reading fetched current)
    (regions : s.manager.workforces = s.jobs.length) (capped : s.manager.maxNumWorkers ≤ limit)
    (within : ((active s + s.phase.allowance : Nat) : Int) ≤ limit) : Fits limit s := by
  have unanswered (k i : Nat) : answers s.phase k i = none := by
    cases phase : s.phase with
    | reading fetched current => exact absurd phase (idle fetched current)
    | _ => rfl
  refine ⟨regions, capped, within, fun _ _ phase => absurd phase (idle _ _), ?_, ?_⟩
  · intro i first found
    rw [unanswered] at found
    cases found
  · intro i first second found
    rw [unanswered] at found
    cases found

theorem active_region (s : State) :
    active s = ((List.range s.jobs.length).map fun i => activeIn (s.region i)).sum := by
  have split : s.jobs.map activeIn =
      (List.range s.jobs.length).map fun i => activeIn (s.region i) := by
    apply List.ext_getElem
    · simp
    · intro i _ bound
      simp [State.region, List.getD_eq_getElem?_getD, (by simpa using bound : i < s.jobs.length)]
  rw [active, split]

theorem Phase.Follows.allowance_le {calls : List Write} {phase : Phase}
    (follows : phase.Follows calls) : phase.allowance ≤ Autoscaler.allowance calls := by
  rcases follows with rfl | rfl
  · exact le_rfl
  · exact Nat.zero_le _

theorem Phase.Follows.idle {calls : List Write} {phase : Phase} (follows : phase.Follows calls)
    (fetched : List (List (Option WorkforceState))) (current : List (Option (Option WorkforceState))) :
    phase ≠ .reading fetched current := by
  rcases follows with rfl | rfl <;> exact Phase.noConfusion

/-! ## A region changes -/

theorem activeIn_changed {jobs : List AmlJob} {job : AmlJob} {status : Status}
    (stored : jobs[j]? = some job)
    (stays : isActive { job with status } = true → isActive job = true) :
    activeIn (jobs.set j { job with status }) ≤ activeIn jobs :=
  Pool.countP_set_le stored stays

theorem Fits.changes {status : Status} {job : AmlJob} (fits : Fits limit s)
    (counted : Counted s (.changes i j status)) (stored : (s.region i)[j]? = some job) :
    Fits limit { s with jobs := s.jobs.modify i fun jobs => jobs.set j { job with status } } := by
  obtain ⟨stays, starts⟩ := counted job stored
  have fewer := activeIn_changed stored stays
  have region := @region_modify s i fun jobs => jobs.set j { job with status }
  have activeLe (k : Nat) : activeIn (State.region
      { s with jobs := s.jobs.modify i fun jobs => jobs.set j { job with status } } k) ≤
        activeIn (s.region k) := by
    rw [region]
    split
    · rename_i here
      exact here.1 ▸ fewer
    · exact le_rfl
  refine ⟨by simpa using fits.regions, fits.capped, ?_, fits.complete, ?_, ?_⟩
  · have total : active { s with jobs := s.jobs.modify i fun jobs => jobs.set j { job with status } } ≤
        active s := sum_modify_at fewer
    have before := fits.within
    exact le_trans (by exact_mod_cast Nat.add_le_add_right total _) before
  · intro k first found open'
    have before := fits.running k first found open'
    rw [region]
    split
    · rename_i here
      obtain ⟨rfl, -⟩ := here
      have between : s.between i := ⟨by simp [found], open'⟩
      have fewer : runningIn ((s.region i).set j { job with status }) ≤ runningIn (s.region i) :=
        Pool.countP_set_le stored (starts between)
      omega
    · exact before
  · intro k first second found next
    have before := fits.known k first second found next
    have fewer := activeLe k
    omega

/-! ## A tick reads -/

theorem Fits.reads (fits : Fits limit s) (phase : s.phase = .reading fetched current)
    (due : current[i]? = some none) :
    Fits limit { s with phase := .reading fetched (current.set i (some (read s i true))) } := by
  have before (k : Nat) : answers (.reading fetched current) k = answers s.phase k := by rw [phase]
  have now (k j : Nat) : answers (.reading fetched (current.set i (some (read s i true)))) k j =
      if k = fetched.length ∧ j = i then some (counts (s.region i)) else answers s.phase k j := by
    rw [answers_read due, read_eq, before]
  have within : ((active s + 0 : Nat) : Int) ≤ limit := by simpa [phase, Phase.allowance] using fits.within
  refine ⟨fits.regions, fits.capped, within, ?_, ?_, ?_⟩
  · rintro _ _ ⟨⟩
    rw [read_eq]
    exact (fits.complete _ _ phase).reads i
  · intro j first found open'
    simp only [now] at found open'
    split at found
    · rename_i here
      obtain ⟨-, rfl⟩ := here
      cases found
      exact le_rfl
    · split at open'
      · cases open'
      · exact fits.running j first found open'
  · intro j first second found next
    change (activeIn (s.region j) : Int) ≤ _
    simp only [now] at found next
    split at next
    · rename_i here
      obtain ⟨fetch, rfl⟩ := here
      cases next
      have split := activeIn_eq (s.region j)
      have pending : (counts (s.region j)).numPending = pendingIn (s.region j) := rfl
      split at found
      · cases found
        have running : (counts (s.region j)).numRunning = runningIn (s.region j) := rfl
        omega
      · have open' : answers s.phase (pendingFetch s.manager) j = none := by
          rw [fetch, phase, answers_now, due]
          rfl
        have running := fits.running j first found open'
        omega
    · split at found
      · rename_i other here
        obtain ⟨first', rfl⟩ := here
        have later : answers s.phase (pendingFetch s.manager) j = none := by
          by_cases same : pendingFetch s.manager = fetched.length
          · exact absurd ⟨same, rfl⟩ other
          · rw [phase]
            exact answers_later (by omega)
        rw [later] at next
        cases next
      · exact fits.known j first second found next

theorem Fits.fetches (fits : Fits limit s) (phase : s.phase = .reading fetched current)
    (whole : current.all Option.isSome = true) :
    Fits limit { s with phase := .reading (fetched ++ [current.reduceOption]) (unread s.manager) } := by
  have same : answers (.reading (fetched ++ [current.reduceOption]) (unread s.manager)) =
      answers s.phase := by
    rw [phase]
    exact answers_fetched whole
  have within : ((active s + 0 : Nat) : Int) ≤ limit := by simpa [phase, Phase.allowance] using fits.within
  refine ⟨fits.regions, fits.capped, within, ?_, ?_, ?_⟩
  · rintro _ _ ⟨⟩
    exact (fits.complete _ _ phase).fetches whole
  · rw [same]
    exact fits.running
  · rw [same]
    exact fits.known

/-! ## A tick decides -/

theorem pendingFetch_lt (m : Manager) : pendingFetch m < Autoscaler.fetches m := by
  unfold pendingFetch Autoscaler.fetches
  split <;> omega

theorem Complete.known {n : Nat} (complete : Complete n fetched current) (bound : k < fetched.length)
    (i : Nat) (region : i < n) :
    answer fetched k i = some ((answer fetched k i).getD ⟨0, 0⟩) := by
  obtain ⟨state, found⟩ := complete.whole k bound i region
  simp [found]

/-- A tick that decides has counted every worker. -/
theorem Fits.counted (fits : Fits limit s) (phase : s.phase = .reading fetched current)
    (whole : fetched.length = Autoscaler.fetches s.manager) (queueSize : Option Nat)
    (available : Nat → WorkforceState → Option Int) (paused : Nat → Option Int) :
    (active s : Int) ≤ currentlyRunning (found s.manager fetched queueSize available paused) s.manager +
      currentlyPending (found s.manager fetched queueSize available paused) s.manager := by
  have complete := fits.complete _ _ phase
  have later : pendingFetch s.manager < fetched.length := whole ▸ pendingFetch_lt s.manager
  have first := complete.known (show 0 < fetched.length by omega)
  have second := complete.known later
  rw [counted_running first, counted_pending first second, ← List.sum_map_add, active_region,
    ← fits.regions, Nat.cast_list_sum, List.map_map]
  refine List.sum_le_sum fun i member => ?_
  have region := List.mem_range.mp member
  have read (k : Nat) (earlier : k < fetched.length) : answers s.phase k i = answer fetched k i := by
    rw [phase, answers_earlier earlier]
  exact fits.known i _ _ ((read 0 (by omega)).trans (first i region))
    ((read _ later).trans (second i region))

theorem Fits.decides {queueSize : Option Nat} {available : Nat → WorkforceState → Option Int}
    {paused : Nat → Option Int} {success : Bool} {calls : List Write} {next : Manager}
    (fits : Fits limit s) (phase : s.phase = .reading fetched current)
    (whole : fetched.length = Autoscaler.fetches s.manager)
    (ran : run (found s.manager fetched queueSize available paused) s.manager false none =
      .ok (success, calls, next)) :
    Fits limit { s with manager := next, phase := .writing calls } := by
  have alike := alike_run ran
  have counted := fits.counted phase whole queueSize available paused
  have before := fits.within
  have capped := fits.capped
  refine fits_idle (fun _ _ => Phase.noConfusion) (alike.workforces.trans fits.regions)
    (alike.maxNumWorkers ▸ capped) ?_
  change ((active s + Autoscaler.allowance calls : Nat) : Int) ≤ limit
  rcases run_allowance ran (by omega) with none | fills <;> omega

/-! ## A tick calls -/

theorem Fits.hires {n : Int} {inBatches : Bool} {calls : List Write} {next : Phase}
    {created : List AmlJob} (fits : Fits limit s)
    (writes : s.phase = .writing (.hire i n inBatches :: calls)) (few : created.length ≤ n.toNat)
    (follows : next.Follows calls) :
    Fits limit { s with jobs := s.jobs.modify i (· ++ created), phase := next } := by
  have grows : active { s with jobs := s.jobs.modify i (· ++ created), phase := next } ≤
      active s + created.length := sum_modify (fun jobs => by
    have bound := List.countP_le_length (p := isActive) (l := created)
    simp only [activeIn, List.countP_append]
    omega) i
  have remaining := follows.allowance_le
  have before := fits.within
  rw [writes, Phase.allowance, allowance_cons, places] at before
  refine fits_idle follows.idle (by simpa using fits.regions) fits.capped ?_
  change ((active _ + next.allowance : Nat) : Int) ≤ limit
  omega

theorem Fits.cancels {workers : List AmlJob} {call : Write} {calls : List Write} {next : Phase}
    (fits : Fits limit s) (writes : s.phase = .writing (call :: calls))
    (follows : next.Follows calls) :
    Fits limit { s with jobs := s.jobs.modify i (List.map (cancel workers)), phase := next } := by
  have shrinks : active { s with jobs := s.jobs.modify i (List.map (cancel workers)), phase := next } ≤
      active s + 0 := sum_modify (fun _ => countP_cancel cancel_inactive) i
  have remaining := follows.allowance_le
  have before := fits.within
  rw [writes, Phase.allowance, allowance_cons] at before
  refine fits_idle follows.idle (by simpa using fits.regions) fits.capped ?_
  change ((active _ + next.allowance : Nat) : Int) ≤ limit
  omega

/-! ## Any number of ticks -/

theorem Fits.step (fits : Fits limit s) (counted : Counted s a) (stepped : Steps s a t new) :
    Fits limit t := by
  have within : (active s : Int) ≤ limit := by
    have before := fits.within
    omega
  cases stepped with
  | changes stored => exact fits.changes counted stored
  | ticks phase =>
      have unanswered (k i : Nat) : answers (.reading [] (unread s.manager)) k i = none :=
        answers_unread (Nat.zero_le k)
      refine ⟨fits.regions, fits.capped, within, ?_, ?_, ?_⟩
      · rintro _ _ ⟨⟩
        exact complete_unread
      · intro i first found
        cases (unanswered _ _).symm.trans found
      · intro i first second found
        cases (unanswered _ _).symm.trans found
  | reads phase due =>
      obtain rfl : _ = true := counted
      exact fits.reads phase due
  | fetched phase whole more => exact fits.fetches phase whole
  | fails => exact fits_idle (fun _ _ => Phase.noConfusion) fits.regions fits.capped within
  | decides phase whole ran => exact fits.decides phase whole ran
  | hires writes few follows => exact fits.hires writes few follows
  | cancels writes about picks follows => exact fits.cancels writes follows
  | sleeps phase => exact fits_idle (fun _ _ => Phase.noConfusion) fits.regions fits.capped within

theorem fits_initial (jobs : List (List AmlJob)) (m : Manager) :
    Fits (max (active (initial jobs m) : Int) m.maxNumWorkers) (initial jobs m) :=
  fits_idle (fun _ _ => Phase.noConfusion) rfl (le_max_right _ _) (le_max_left _ _)

/-- However the jobs go on while the regions are read, the autoscaler never has more workers than
`max_num_workers`, or than there were when it started. -/
theorem fleet_bounded {jobs : List (List AmlJob)} {m : Manager} {t : State} {es : List Event}
    (run : Mealy.Run machine Counted (initial jobs m, []) es t) :
    (active t : Int) ≤ max (active (initial jobs m) : Int) m.maxNumWorkers := by
  have fits := run.state_invariant (P := Fits (max (active (initial jobs m) : Int) m.maxNumWorkers))
    (fits_initial jobs m) fun _ _ _ _ fits counted action => fits.step counted (step_cases action)
  have within := fits.within
  omega

/-! ## One tick -/

def helloManager : Manager where
  workforces := 1
  numWorkers := 1
  maxNumWorkers := 4
  useLazyStates := false
  batchedDelayInHiring := true

def helloJobs : List (List AmlJob) := [[⟨"first", .running⟩, ⟨"second", .queued⟩]]

/-- The first worker completes after it has been counted. -/
def helloReads : List Action :=
  let fetch : List Action := [.reads 0 true, .fetched]
  [.ticks] ++ fetch ++ [.changes 0 0 .completed] ++ fetch ++ fetch ++ fetch

def helloChanged : List (List AmlJob) := [[⟨"first", .completed⟩, ⟨"second", .queued⟩]]

def helloFetched : List (List (Option WorkforceState)) :=
  [[some ⟨1, 1⟩], [some ⟨1, 0⟩], [some ⟨1, 0⟩], [some ⟨1, 0⟩]]

def helloHired : List AmlJob := [⟨"third", .queued⟩, ⟨"fourth", .preparing⟩]

def completes : Action → Bool
  | .changes _ _ status => status = .completed
  | .reads _ answered => answered
  | _ => true

theorem completes_counted (s : State) (a : Action) (completed : completes a = true) : Counted s a := by
  cases a with
  | changes i j status =>
      obtain rfl : status = .completed := by simpa [completes] using completed
      intro job stored
      simp [isActive, runs, isRunning, activeStatuses]
  | reads i answered => exact completed
  | _ => trivial

theorem hello_read : Mealy.execIf machine (fun _ => completes) (initial helloJobs helloManager, [])
    helloReads = some (⟨helloChanged, helloManager, .reading helloFetched [none]⟩, []) := rfl

def helloFound : MultiRegionWorkforce.Azure :=
  found helloManager helloFetched (some 30) (fun _ _ => some 10) fun _ => some 0

def helloDetermined : Manager := (states helloFound (afterPending helloFound helloManager)).2

theorem hello_decides : ∃ next,
    run helloFound helloManager false none = .ok (true, [.hire 0 2 true], next) := by
  have available : availableForHire helloFound (states helloFound helloDetermined).1 = [10] := rfl
  have distribution : hiringDistribution [10] 2 = [2] := by
    simp [hiringDistribution, byAvailable, distribute]
  have up : scaleUp helloFound helloDetermined 2 =
      (true, [.hire 0 2 true], (states helloFound helloDetermined).2) := by
    unfold scaleUp
    dsimp only
    rw [available, distribution]
    rfl
  have reads : determineNumberOfWorkers helloFound (afterPending helloFound helloManager) =
      .ok (4, helloDetermined) := rfl
  exact ⟨_, (run_up reads (by decide)).trans (congrArg _ up)⟩

theorem hello_hires (next : Manager) : Mealy.execIf machine (fun _ => completes)
    (⟨helloChanged, next, .writing [.hire 0 2 true]⟩, []) [.executes accepting helloHired, .sleeps] =
      some (⟨[helloChanged.flatten ++ helloHired], next, .sleeping⟩, helloHired.map (.hired 0)) := rfl

theorem hello_run : ∃ next, Mealy.Run machine (fun _ a => completes a = true)
    (initial helloJobs helloManager, []) (helloHired.map (.hired 0))
      ⟨[helloChanged.flatten ++ helloHired], next, .sleeping⟩ := by
  obtain ⟨next, ran⟩ := hello_decides
  have decided : machine.step ⟨helloChanged, helloManager, .reading helloFetched [none]⟩
      (.decides (some 30) (fun _ _ => some 10) fun _ => some 0) =
        some (⟨helloChanged, next, .writing [.hire 0 2 true]⟩, []) := by
    have whole : helloFetched.length = fetches helloManager := rfl
    simp only [machine, step, stepDecides, if_pos whole]
    rw [show found helloManager helloFetched _ _ _ = helloFound from rfl, ran]
    rfl
  have read := Mealy.Run.of_execIf hello_read
  exact ⟨next, (read.next rfl decided).trans (Mealy.Run.of_execIf (hello_hires next))⟩

/-- One worker has completed while the tick ran, and two are hired. -/
theorem fleet_bounded_hello : ∃ t es, Mealy.Run machine Counted (initial helloJobs helloManager, []) es t ∧
    active t = 3 ∧ (active t : Int) ≤ max (active (initial helloJobs helloManager) : Int) 4 := by
  obtain ⟨next, run⟩ := hello_run
  have counted := run.mono completes_counted
  exact ⟨_, _, counted, rfl, fleet_bounded counted⟩

end JobQ.Autoscaler
