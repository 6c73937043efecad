import JobQ.Model.QueueWorkers
import JobQ.Proof.LaunchWorkers.Looking
import JobQ.Proof.QueueSystem.Attended

/-!
# What one step of the workers on their queue can do
-/

namespace JobQ.QueueWorkers
open QueueSystem

variable {c : LaunchWorkers.Config} {s t : State} {a : Action} {new : List LaunchWorkers.Event}

/-- The pull of worker `i` is what the answer is on its way to, or executes the delivery. -/
def State.Serves (s : State) (i : Nat) : System.Party → Prop
  | .answer k => s.pulls[i]? = some (.answered k)
  | .delivery d => s.pulls[i]? = some (.executing d)

inductive Steps (c : LaunchWorkers.Config) (s : State) :
    Action → State → List LaunchWorkers.Event → Prop
  | begins {i : Nat} {late : Bool} {launch : LaunchWorkers.State} {events : List LaunchWorkers.Event}
      (stepped : LaunchWorkers.step c s.launch (.worker i (.begins late)) = some (launch, events)) :
      Steps c s (.launch (.worker i (.begins late)))
        { s with launch, pulls := s.pulls.set i .asking } events
  | launch {b : LaunchWorkers.Action} {launch : LaunchWorkers.State}
      {events : List LaunchWorkers.Event} (other : ∀ i late, b ≠ .worker i (.begins late))
      (stepped : LaunchWorkers.step c s.launch b = some (launch, events))
      (may : ∀ i result, b = .worker i (.pullEnds result) → s.mayEnd i result = true) :
      Steps c s (.launch b) { s with launch } events
  | hands {i : Nat} {m : MessageId} {w : LaunchWorkers.Worker} {sys : System}
      (worker : s.launch.workers[i]? = some w) (asking : s.pulls[i]? = some .asking)
      (running : w.pull = .running) (action : s.sys.step (.hand m) = some sys) :
      Steps c s (.hands i m)
        { s with sys, pulls := s.pulls.set i (.answered s.sys.answers.length) } []
  | tellsEmpty {i : Nat} (asking : s.pulls[i]? = some .asking) :
      Steps c s (.tellsEmpty i) { s with pulls := s.pulls.set i .toldEmpty } []
  | receives {i k : Nat} {cfg : Config} {call : CallResult} {w : LaunchWorkers.Worker}
      {sys : System} {progress : Progress} (worker : s.launch.workers[i]? = some w)
      (answered : s.pulls[i]? = some (.answered k)) (running : w.pull = .running)
      (action : s.sys.step (.receive k cfg call) = some sys)
      (linked : s.sys.attempts.length < sys.attempts.length →
        progress = .executing s.sys.attempts.length) (goesOn : progress ≠ .toldEmpty) :
      Steps c s (.receives i cfg call) { s with sys, pulls := s.pulls.set i progress } []
  | queue {b : Act} {sys : System} (other : ∀ k cfg call, b ≠ .receive k cfg call)
      (action : s.sys.step b = some sys) : Steps c s (.queue b) { s with sys } []

theorem isAsking_iff {i : Nat} : s.isAsking i = true ↔
    ∃ w, s.launch.workers[i]? = some w ∧ s.pulls[i]? = some .asking ∧ w.pull = .running := by
  unfold State.isAsking
  split
  · rename_i w worker asking
    simp [worker, asking]
  · rename_i unasked
    simp only [Bool.false_eq_true, false_iff]
    rintro ⟨w, worker, asking, -⟩
    exact unasked w worker asking

theorem step_cases (action : step c s a = some (t, new)) : Steps c s a t new := by
  cases a with
  | launch b =>
      simp only [step, stepLaunch] at action
      split at action
      · contradiction
      · rename_i launch events stepped
        split at action
        · cases action
          exact .begins stepped
        · split at action
          · rename_i may
            cases action
            refine .launch (by simp) stepped ?_
            rintro _ _ ⟨⟩
            exact may
          · contradiction
        · rename_i notBegins notEnds
          cases action
          exact .launch notBegins stepped fun i result same => absurd same (notEnds i result)
  | hands i m =>
      simp only [step] at action
      obtain ⟨stepped, rfl⟩ := Mealy.silent_step action
      simp only [stepHands] at stepped
      split at stepped
      · rename_i asks
        obtain ⟨w, worker, asking, running⟩ := isAsking_iff.mp asks
        split at stepped <;> cases stepped
        exact .hands worker asking running ‹_›
      · contradiction
  | tellsEmpty i =>
      simp only [step] at action
      obtain ⟨stepped, rfl⟩ := Mealy.silent_step action
      simp only [stepTellsEmpty] at stepped
      split at stepped <;> cases stepped
      rename_i asks
      obtain ⟨w, -, asking, -⟩ := isAsking_iff.mp asks
      exact .tellsEmpty asking
  | receives i cfg call =>
      simp only [step] at action
      obtain ⟨stepped, rfl⟩ := Mealy.silent_step action
      simp only [stepReceives] at stepped
      split at stepped
      · rename_i worker answered
        split at stepped
        · rename_i running
          split at stepped <;> cases stepped
          refine .receives worker answered running ‹_› (fun grown => if_pos grown) ?_
          split <;> simp
        · contradiction
      · contradiction
  | queue b =>
      simp only [step] at action
      obtain ⟨stepped, rfl⟩ := Mealy.silent_step action
      unfold stepQueue at stepped
      split at stepped
      · contradiction
      · contradiction
      · rename_i notReceive _
        obtain ⟨sys, served, rfl⟩ := Option.map_eq_some_iff.mp stepped
        exact .queue notReceive served

end JobQ.QueueWorkers
