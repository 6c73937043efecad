import JobQ.Model.Autoscaler
import JobQ.Proof.MultiRegionWorkforce.RunResult

/-!
# What one step of the autoscaler and its fleet can do
-/

namespace JobQ.Autoscaler
open Workforce MultiRegionWorkforce

variable {s t : State} {a : Action} {i : Nat} {jobs workers : List AmlJob} {new : List Event}

/-- After a call the next one is made, or the tick has ended with an exception. -/
def Phase.Follows (calls : List Write) (phase : Phase) : Prop :=
  phase = .writing calls ∨ phase = .raised

/-- Only for these is a call made to cancel them: the ones that a layoff picks, and paused ones. -/
def Picks (jobs workers : List AmlJob) (call : Write) : Prop :=
  (∃ i n, call = .layOff i n ∧ 0 < n ∧
    workers ⊆ layoffCandidates (listed jobs layoffStatusPriority) n) ∨
      ∀ worker ∈ workers, worker.status = .paused

inductive Steps (s : State) : Action → State → List Event → Prop
  | changes {i j : Nat} {status : Status} {job : AmlJob} (stored : (s.region i)[j]? = some job) :
      Steps s (.changes i j status)
        { s with jobs := s.jobs.modify i fun jobs => jobs.set j { job with status } } []
  | ticks (phase : s.phase = .sleeping) :
      Steps s .ticks { s with phase := .reading [] (unread s.manager) } []
  | reads {i : Nat} {answered : Bool} {fetched : List (List (Option WorkforceState))}
      {current : List (Option (Option WorkforceState))} (phase : s.phase = .reading fetched current)
      (due : current[i]? = some none) :
      Steps s (.reads i answered)
        { s with phase := .reading fetched (current.set i (some (read s i answered))) } []
  | fetched {fetched : List (List (Option WorkforceState))}
      {current : List (Option (Option WorkforceState))} (phase : s.phase = .reading fetched current)
      (whole : current.all Option.isSome = true) (more : fetched.length < fetches s.manager) :
      Steps s .fetched
        { s with phase := .reading (fetched ++ [current.reduceOption]) (unread s.manager) } []
  | fails {a : Action} : Steps s a { s with phase := .raised } []
  | decides {queueSize : Option Nat} {available : Nat → WorkforceState → Option Int}
      {paused : Nat → Option Int} {fetched : List (List (Option WorkforceState))}
      {current : List (Option (Option WorkforceState))} {success : Bool} {calls : List Write}
      {manager : Manager} (phase : s.phase = .reading fetched current)
      (whole : fetched.length = fetches s.manager)
      (ran : run (found s.manager fetched queueSize available paused) s.manager false none =
        .ok (success, calls, manager)) :
      Steps s (.decides queueSize available paused) { s with manager, phase := .writing calls } []
  | hires {azure : Workforce.Azure} {created : List AmlJob} {i : Nat} {n : Int} {inBatches : Bool}
      {calls : List Write} {phase : Phase} (writes : s.phase = .writing (.hire i n inBatches :: calls))
      (few : created.length ≤ n.toNat) (follows : phase.Follows calls) :
      Steps s (.executes azure created)
        { s with jobs := s.jobs.modify i (· ++ created), phase } (created.map (.hired i))
  | cancels {azure : Workforce.Azure} {created workers : List AmlJob} {i : Nat} {call : Write}
      {calls : List Write} {phase : Phase} (writes : s.phase = .writing (call :: calls))
      (about : (∃ n, call = .layOff i n) ∨ ∃ n, call = .resume i n)
      (picks : Picks (s.region i) workers call) (follows : phase.Follows calls) :
      Steps s (.executes azure created)
        { s with jobs := s.jobs.modify i (List.map (cancel workers)), phase }
        (workers.map (.cancelled i))
  | sleeps (phase : s.phase = .writing []) : Steps s .sleeps { s with phase := .sleeping } []

theorem next_follows (raised : Option Raised) (calls : List Write) :
    (next raised calls).Follows calls := by
  unfold next
  split
  · exact .inl rfl
  · exact .inr rfl

theorem answering_listJobs {azure : Workforce.Azure} {statuses : List Status}
    (answer : (answering azure jobs).listJobs statuses = .ok workers) :
    workers = listed jobs statuses := by
  simp only [answering] at answer
  split at answer <;> cases answer
  rfl

theorem onCandidates_attempts {azure : Workforce.Azure} {statuses : List Status}
    {candidates : List AmlJob → List AmlJob} {call : AmlJob → Option Raised} {worker : AmlJob}
    (member : worker ∈ (onCandidates (answering azure jobs) statuses candidates
      (runParallel call)).attempts) :
    worker ∈ candidates (listed jobs statuses) := by
  unfold onCandidates at member
  split at member
  · cases member
  · rename_i workers answer
    exact answering_listJobs answer ▸ member

theorem parallelLayOff_picks {azure : Workforce.Azure} {n : Int} {p : AmlJob → Bool} :
    Picks jobs ((parallelLayOff (answering azure jobs) n).attempts.filter p) (.layOff i n) := by
  unfold parallelLayOff
  split
  · exact .inr (by simp)
  · rename_i positive
    exact .inl ⟨i, n, rfl, by omega, fun worker member =>
      onCandidates_attempts (List.mem_filter.mp member).1⟩

theorem sliceTo_subset {n : Int} {worker : AmlJob} (member : worker ∈ sliceTo jobs n) :
    worker ∈ jobs := by
  unfold sliceTo at member
  split at member <;> exact List.mem_of_mem_take member

theorem pausedCandidates_paused {n : Int} {worker : AmlJob}
    (member : worker ∈ pausedCandidates (listed jobs [.paused]) n) : worker.status = .paused := by
  have listed := sliceTo_subset member
  simpa using (List.mem_filter.mp listed).2

theorem parallelResume_picks {azure : Workforce.Azure} {n : Int} {p : AmlJob → Bool} {call : Write} :
    Picks jobs ((parallelResume (answering azure jobs) n).attempts.filter p) call := by
  refine .inr fun worker member => ?_
  have attempted := (List.mem_filter.mp member).1
  unfold parallelResume at attempted
  split at attempted
  · cases attempted
  · exact pausedCandidates_paused (onCandidates_attempts attempted)

theorem stepExecutes_cases {azure : Workforce.Azure} {created : List AmlJob}
    (action : stepExecutes s azure created = some (t, new)) :
    Steps s (.executes azure created) t new := by
  simp only [stepExecutes] at action
  split at action
  · rename_i i n inBatches calls phase
    split at action <;> cases action
    rename_i fits
    refine .hires phase (fits.1.trans ?_) (next_follows _ calls)
    simpa using (@submissions_starts (fun _ => azure.createOrUpdate) n inBatches i).length_le
  · rename_i i n calls phase
    cases action
    exact .cancels phase (.inl ⟨n, rfl⟩) parallelLayOff_picks (next_follows _ calls)
  · rename_i i n calls phase
    cases action
    exact .cancels phase (.inr ⟨n, rfl⟩) parallelResume_picks (next_follows _ calls)
  · contradiction

theorem step_cases (action : step s a = some (t, new)) : Steps s a t new := by
  cases a with
  | changes i j status =>
      obtain ⟨stepped, rfl⟩ : stepChanges s i j status = some t ∧ new = [] := Mealy.silent_step action
      simp only [stepChanges] at stepped
      split at stepped <;> cases stepped
      exact .changes ‹_›
  | ticks =>
      simp only [step] at action
      split at action <;> cases action
      exact .ticks ‹_›
  | reads i answered =>
      obtain ⟨stepped, rfl⟩ : stepReads s i answered = some t ∧ new = [] := Mealy.silent_step action
      simp only [stepReads] at stepped
      split at stepped
      · split at stepped <;> cases stepped
        exact .reads ‹_› ‹_›
      · contradiction
  | fetched =>
      obtain ⟨stepped, rfl⟩ : stepFetched s = some t ∧ new = [] := Mealy.silent_step action
      simp only [stepFetched] at stepped
      split at stepped
      · split at stepped <;> cases stepped
        rename_i ready
        exact .fetched ‹_› ready.1 ready.2
      · contradiction
  | decides queueSize available paused =>
      obtain ⟨stepped, rfl⟩ : stepDecides s queueSize available paused = some t ∧ new = [] := Mealy.silent_step action
      simp only [stepDecides] at stepped
      split at stepped
      · split at stepped
        · split at stepped <;> cases stepped
          · exact .fails
          · exact .decides ‹_› ‹_› ‹_›
        · contradiction
      · contradiction
  | executes azure created => exact stepExecutes_cases action
  | sleeps =>
      simp only [step] at action
      split at action <;> cases action
      exact .sleeps ‹_›

/-- A service that does whatever it is asked to do. -/
def accepting : Workforce.Azure where
  listJobs _ := .ok []
  createOrUpdate _ := none
  beginCancel _ := none
  workspaceName := none
  getToken _ := none
  post _ _ := .ok ⟨200, ""⟩

end JobQ.Autoscaler
