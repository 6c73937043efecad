import JobQ.Proof.Autoscaler.Tick

/-!
# What a tick has read
-/

namespace JobQ.Autoscaler
open Workforce MultiRegionWorkforce

variable {azure : MultiRegionWorkforce.Azure} {m : Manager} {k i j : Nat}
  {fetched : List (List (Option WorkforceState))} {current : List (Option (Option WorkforceState))}

/-- What fetch `k` has found in region `i`. -/
def answer (fetched : List (List (Option WorkforceState))) (k i : Nat) : Option WorkforceState :=
  ((fetched[k]?).bind fun answers => answers[i]?).join

/-- What the reads of the tick that is going on have found so far. -/
def answers : Phase → Nat → Nat → Option WorkforceState
  | .reading fetched current => answer (fetched ++ [current.map Option.join])
  | _ => fun _ _ => none

theorem answers_earlier (earlier : k < fetched.length) :
    answers (.reading fetched current) k i = answer fetched k i := by
  simp [answers, answer, List.getElem?_append_left earlier]

theorem answers_now :
    answers (.reading fetched current) fetched.length i = (current[i]?.map Option.join).join := by
  simp [answers, answer]

theorem answers_later (later : fetched.length < k) : answers (.reading fetched current) k i = none := by
  have beyond : (fetched ++ [current.map Option.join])[k]? = none :=
    List.getElem?_eq_none (by simp; omega)
  simp [answers, answer, beyond]

theorem answers_unread (next : fetched.length ≤ k) :
    answers (.reading fetched (unread m)) k i = none := by
  rcases Nat.lt_or_eq_of_le next with later | rfl
  · exact answers_later later
  · rw [answers_now, unread, List.getElem?_replicate]
    split <;> rfl

theorem answers_read {state : Option WorkforceState} (due : current[i]? = some none) :
    answers (.reading fetched (current.set i (some state))) k j =
      if k = fetched.length ∧ j = i then state else answers (.reading fetched current) k j := by
  rcases Nat.lt_trichotomy k fetched.length with earlier | rfl | later
  · rw [answers_earlier earlier, answers_earlier earlier, if_neg (by omega)]
  · rw [answers_now, answers_now]
    by_cases same : j = i
    · subst same
      obtain ⟨bound, -⟩ := List.getElem?_eq_some_iff.mp due
      simp [bound]
    · simp [same, List.getElem?_set_ne (Ne.symm same)]
  · rw [answers_later later, answers_later later, if_neg (by omega)]

theorem reduceOption_whole {l : List (Option (Option WorkforceState))}
    (whole : l.all Option.isSome = true) : l.reduceOption = l.map Option.join := by
  induction l with
  | nil => rfl
  | cons x rest ih =>
      simp only [List.all_cons, Bool.and_eq_true] at whole
      obtain ⟨state, rfl⟩ := Option.isSome_iff_exists.mp whole.1
      rw [List.reduceOption_cons_of_some, List.map_cons, ih whole.2]
      rfl

theorem answers_fetched (whole : current.all Option.isSome = true) :
    answers (.reading (fetched ++ [current.reduceOption]) (unread m)) =
      answers (.reading fetched current) := by
  have length : (fetched ++ [current.reduceOption]).length = fetched.length + 1 := by simp
  funext k i
  rcases Nat.lt_or_ge fetched.length k with later | earlier
  · rw [answers_later later, answers_unread (by omega)]
  · rw [answers_earlier (by omega), reduceOption_whole whole]
    rfl

/-- The fetch that the pending workers are counted in. -/
def pendingFetch (m : Manager) : Nat := if m.useLazyStates then 0 else 1

theorem states_read {c : Nat → WorkforceState} (fresh : m.useLazyStates = true → m.cachedStates = none)
    (read : ∀ i < m.workforces, azure.currentState m.fetches i = some (c i)) :
    (states azure m).1 = (List.range m.workforces).map c ∧
      (states azure m).2.cachedStates = some ((List.range m.workforces).map c) ∧
        (states azure m).2.fetches = m.fetches + 1 := by
  rcases states_cases azure m with ⟨cached, lazy, there, -⟩ | ⟨-, reading, known, same⟩
  · cases (fresh lazy).symm.trans there
  · have values : ((List.range m.workforces).map fun i => (reading i).getD ⟨0, 0⟩) =
        (List.range m.workforces).map c :=
      List.map_congr_left fun i member => by
        rw [known i _ (read i (List.mem_range.mp member))]
        rfl
    rw [same]
    exact ⟨values, congrArg some values, rfl⟩

theorem states_cached {cached : List WorkforceState} (lazy : m.useLazyStates = true)
    (there : m.cachedStates = some cached) : states azure m = (cached, m) := by
  unfold states
  rw [lazy, there]

section

variable {queueSize : Option Nat} {available : Nat → WorkforceState → Option Int}
  {paused : Nat → Option Int} {first second : Nat → WorkforceState}

theorem found_read (fetch i : Nat) :
    (found m fetched queueSize available paused).currentState fetch i =
      answer fetched (fetch - m.fetches) i := rfl

theorem counted_running
    (read : ∀ i < m.workforces, answer fetched 0 i = some (first i)) :
    currentlyRunning (found m fetched queueSize available paused) m =
      ((List.range m.workforces).map fun i => (first i).numRunning).sum := by
  obtain ⟨counted, -, -⟩ := @states_read (found m fetched queueSize available paused) (tickStart m)
    first (fun _ => rfl) fun i bound => by
      rw [found_read]
      simpa [tickStart] using read i bound
  rw [currentlyRunning, counted, numRunning, List.map_map]
  rfl

theorem counted_pending
    (readFirst : ∀ i < m.workforces, answer fetched 0 i = some (first i))
    (readSecond : ∀ i < m.workforces, answer fetched (pendingFetch m) i = some (second i)) :
    currentlyPending (found m fetched queueSize available paused) m =
      ((List.range m.workforces).map fun i => (second i).numPending).sum := by
  have counted : (states (found m fetched queueSize available paused)
      (afterRunning (found m fetched queueSize available paused) m)).1 =
        (List.range m.workforces).map second := by
    obtain ⟨-, cached, counter⟩ := @states_read (found m fetched queueSize available paused)
      (tickStart m) first (fun _ => rfl) fun i bound => by
        rw [found_read]
        simpa [tickStart] using readFirst i bound
    have alike := alike_states (found m fetched queueSize available paused) (tickStart m)
    cases lazy : m.useLazyStates with
    | true =>
        have same : (List.range m.workforces).map first = (List.range m.workforces).map second := by
          refine List.map_congr_left fun i member => ?_
          have bound := List.mem_range.mp member
          have again := readSecond i bound
          rw [pendingFetch, lazy, if_pos rfl, readFirst i bound] at again
          exact Option.some.inj again
        rw [afterRunning, states_cached (alike.useLazyStates.trans lazy) cached]
        exact same
    | false =>
        refine (@states_read _ (afterRunning _ m) second (fun other => ?_) fun i bound => ?_).1.trans ?_
        · rw [afterRunning, alike.useLazyStates] at other
          exact absurd (lazy.symm.trans other) (by simp)
        · have counted : (afterRunning (found m fetched queueSize available paused) m).fetches =
              m.fetches + 1 := counter
          have later : m.fetches + 1 - m.fetches = 1 := by omega
          have again := readSecond i (alike.workforces ▸ bound)
          rw [pendingFetch, lazy] at again
          rw [found_read, counted, later]
          exact again
        · rw [afterRunning, alike.workforces]
          rfl
  rw [currentlyPending, counted, numPending, List.map_map]
  rfl

end

/-! ## Reads that are all answered -/

/-- Where all reads are answered, a tick knows of every region what it has fetched. -/
structure Complete (workforces : Nat) (fetched : List (List (Option WorkforceState)))
    (current : List (Option (Option WorkforceState))) : Prop where
  width : current.length = workforces
  answered : some none ∉ current
  whole : ∀ k < fetched.length, ∀ i < workforces, ∃ state, answer fetched k i = some state

theorem complete_unread : Complete m.workforces [] (unread m) where
  width := List.length_replicate
  answered member := by
    have never := List.eq_of_mem_replicate member
    cases never
  whole k bound := by simp at bound

theorem Complete.reads {state : WorkforceState} {n : Nat} (complete : Complete n fetched current)
    (i : Nat) : Complete n fetched (current.set i (some (some state))) where
  width := (List.length_set ..).trans complete.width
  answered member := complete.answered (Pool.mem_of_set member (by simp))
  whole := complete.whole

theorem Complete.fetches (complete : Complete m.workforces fetched current)
    (whole : current.all Option.isSome = true) :
    Complete m.workforces (fetched ++ [current.reduceOption]) (unread m) where
  width := List.length_replicate
  answered := complete_unread.answered
  whole k bound i region := by
    rcases Nat.lt_succ_iff_lt_or_eq.mp (by simpa using bound) with earlier | rfl
    · obtain ⟨state, known⟩ := complete.whole k earlier i region
      exact ⟨state, by simpa [answer, List.getElem?_append_left earlier] using known⟩
    · have there : i < current.length := complete.width ▸ region
      have read := List.all_eq_true.mp whole current[i] (List.getElem_mem there)
      obtain ⟨state, done⟩ := Option.isSome_iff_exists.mp read
      cases state with
      | none => exact absurd (done ▸ List.getElem_mem there) complete.answered
      | some state =>
          refine ⟨state, ?_⟩
          simp [answer, reduceOption_whole whole, there, done]

/-- Every state that `run` reads is known, and one of those that were found. -/
theorem Complete.found_read {queueSize : Option Nat} {available : Nat → WorkforceState → Option Int}
    {paused : Nat → Option Int} (complete : Complete m.workforces fetched current)
    (bound : k < fetched.length) (region : i < m.workforces) :
    ∃ state, (found m fetched queueSize available paused).currentState (m.fetches + k) i = some state ∧
      answers (.reading fetched current) k i = some state := by
  obtain ⟨state, known⟩ := complete.whole k bound i region
  refine ⟨state, ?_, (answers_earlier bound).trans known⟩
  rw [Autoscaler.found_read, Nat.add_sub_cancel_left]
  exact known

end JobQ.Autoscaler
