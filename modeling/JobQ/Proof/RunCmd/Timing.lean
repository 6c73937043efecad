import JobQ.Proof.RunCmd

/-!
# How long a shell command lasts

While the coroutine is never late by more than `δ` milliseconds, a process that outlives SIGTERM is
killed, and the coroutine ends after the process, within a bounded time.
-/

namespace JobQ.RunCmd

def State.isReady (s : State) : Bool :=
  match s.pc with
  | .polling wakesAt => wakesAt ≤ s.now
  | .waiting => s.waited
  | .draining _ deadline => s.readTaskDone || deadline ≤ s.now
  | .escalating | .escalated | .cancelling _ | .leaving _ => true
  | .ended _ => false

def Action.isOwn : Action → Bool
  | .resume _ | .timesOut _ => true
  | _ => false

variable {c : Config} {s t : State} {log new : List Event} {δ : Nat}

theorem Resumes.now (resumed : Resumes c s t new) : t.now = s.now := by
  cases resumed <;> rfl

/-- A step is one of the coroutine's own, or leaves it where it is. -/
theorem Steps.own {a : Action} (stepped : Steps c s a t new) :
    a.isOwn = true ∧ t.now = s.now ∨
      a.isOwn = false ∧ t.pc = s.pc ∧ (t.now = s.now ∨ t.now = s.now + 1) := by
  cases stepped with
  | ticks => exact .inr ⟨rfl, rfl, .inr rfl⟩
  | signalled => exact .inr ⟨rfl, rfl, .inl rfl⟩
  | exits => exact .inr ⟨rfl, rfl, .inl rfl⟩
  | waitEnds => exact .inr ⟨rfl, rfl, .inl rfl⟩
  | @reads stream => cases stream <;> exact .inr ⟨rfl, rfl, .inl rfl⟩
  | resumes resumed => exact .inl ⟨rfl, resumed.now⟩
  | timesOut => exact .inl ⟨rfl, rfl⟩

def clock (c : Config) : Mealy.Clock (machine c) where
  now := State.now
  ready := State.isReady
  own := Action.isOwn
  ticks action := by
    rcases (step_cases action).own with ⟨-, still⟩ | ⟨other, -, still | ticked⟩
    · exact .inl still
    · exact .inl still
    · exact .inr ⟨other, ticked⟩

/-- The time at which the position itself wakes the coroutine. -/
def Pc.wakes? : Pc → Option Nat
  | .polling wakesAt => some wakesAt
  | .draining _ deadline => some deadline
  | _ => none

/-- How long after the exit of the process the coroutine may still become ready there. -/
def Pc.lag (δ : Nat) : Pc → Nat
  | .polling _ => pollInterval + δ
  | .draining _ _ => pollInterval + drainTimeout + 2 * δ
  | .cancelling (some _) => pollInterval + drainTimeout + 3 * δ
  | .leaving _ => pollInterval + drainTimeout + 4 * δ
  | _ => 0

/-- How long after `process.wait()` is over the coroutine may still become ready there. -/
def Pc.waitLag? (δ : Nat) : Pc → Option Nat
  | .waiting => some 0
  | .leaving _ => some δ
  | .ended _ => some (2 * δ)
  | _ => none

structure Timely (c : Config) (δ : Nat) (log : List Event) (s : State × Option Nat) : Prop where
  woken : ∀ wakesAt, s.1.pc.wakes? = some wakesAt → ∀ readySince, s.2 = some readySince →
    readySince ≤ wakesAt
  soon : ∀ wakesAt, s.1.pc = .polling wakesAt → wakesAt ≤ s.1.now + pollInterval
  exited : s.1.pc ≠ .waiting → s.1.waited = false → ∀ ret time, .exited ret time ∈ log →
    (∀ wakesAt, s.1.pc.wakes? = some wakesAt → wakesAt ≤ time + s.1.pc.lag δ) ∧
      ∀ readySince, s.2 = some readySince → readySince ≤ time + s.1.pc.lag δ
  waited : ∀ time, .waited time ∈ log → ∃ lag, s.1.pc.waitLag? δ = some lag ∧
    ∀ readySince, s.2 = some readySince → readySince ≤ time + lag
  kills : ∀ wakesAt time, s.1.pc = .polling wakesAt → s.1.terminatedAt = some time →
    0 < c.killTimeout → wakesAt ≤ time + c.killTimeout * 1000 + pollInterval

/-! ## While the others act -/

variable {x y : State × Option Nat}

theorem not_awake {wakesAt : Nat} (pc : s.pc.wakes? = some wakesAt) (idle : s.isReady = false) :
    s.now < wakesAt := by
  unfold State.isReady at idle
  cases at_ : s.pc with
  | polling =>
      rw [at_] at pc idle
      cases pc
      simpa using idle
  | draining ret deadline =>
      rw [at_] at pc idle
      cases pc
      simp only [Bool.or_eq_false_iff, decide_eq_false_iff_not, Nat.not_le] at idle
      exact idle.2
  | _ => simp [at_, Pc.wakes?] at pc

/-- Where the coroutine is left alone, it becomes ready no later than its position wakes it. -/
theorem readied {before since : Option Nat} {a : Action} (left : a.isOwn = false)
    (now : t.now = s.now ∨ t.now = s.now + 1)
    (inTime : Mealy.Clock.InTime (clock c) δ (s, before)) (same : since = (clock c).since before a t)
    {readySince : Nat} (ready : since = some readySince) :
    before = some readySince ∨
      before = none ∧ readySince = t.now ∧ s.isReady = false ∧ t.isReady = true ∧
        ∀ wakesAt, s.pc.wakes? = some wakesAt → readySince ≤ wakesAt := by
  rw [same, Mealy.Clock.since] at ready
  split at ready
  · rename_i isReady
    have other : (clock c).own a = false := left
    rw [other] at ready
    cases before with
    | some earlier => exact .inl ready
    | none =>
        have idle : s.isReady = false := inTime.ready.symm
        refine .inr ⟨rfl, (Option.some.inj ready).symm, idle, isReady, fun wakesAt waits => ?_⟩
        have early := not_awake waits idle
        have at_ : t.now = readySince := Option.some.inj ready
        omega
  · cases ready

/-- Only the wait for the process becomes ready by itself. -/
theorem idle_waiting (unwoken : s.pc.wakes? = none) (idle : s.isReady = false)
    (pc : t.pc = s.pc) (ready : t.isReady = true) : s.pc = .waiting := by
  unfold State.isReady at idle ready
  rw [pc] at ready
  cases at_ : s.pc with
  | waiting => rfl
  | polling => simp [at_, Pc.wakes?] at unwoken
  | draining => simp [at_, Pc.wakes?] at unwoken
  | ended => simp [at_] at ready
  | _ => simp [at_] at idle

theorem Steps.exits_now {a : Action} (stepped : Steps c s a t new) (left : a.isOwn = false)
    {ret : Int} {time : Nat} (exited : .exited ret time ∈ new) :
    s.returncode = none ∧ time = s.now ∧ t.now = s.now := by
  cases stepped with
  | exits _ running =>
      cases List.mem_singleton.mp exited
      exact ⟨running, rfl, rfl⟩
  | signalled => cases returncode : s.returncode <;> simp [returncode] at exited
  | resumes => cases left
  | timesOut => cases left
  | _ => simp at exited

theorem Steps.terminatedAt {a : Action} (stepped : Steps c s a t new) (left : a.isOwn = false) :
    t.terminatedAt = s.terminatedAt ∨ t.terminatedAt = some s.now := by
  cases stepped with
  | signalled => exact .inr rfl
  | @reads stream => cases stream <;> exact .inl rfl
  | resumes => cases left
  | timesOut => cases left
  | _ => exact .inl rfl

theorem Steps.waits_now {a : Action} (stepped : Steps c s a t new) (left : a.isOwn = false) :
    (t.waited = s.waited ∧ ∀ time, .waited time ∉ new) ∨
      s.pc = .waiting ∧ s.waited = false ∧ new = [.waited s.now] ∧ t.now = s.now := by
  cases stepped with
  | waitEnds pc _ waits => exact .inr ⟨pc, waits, rfl, rfl⟩
  | signalled => exact .inl ⟨rfl, by cases s.returncode <;> simp⟩
  | @reads stream => cases stream <;> exact .inl ⟨rfl, by simp⟩
  | resumes => cases left
  | timesOut => cases left
  | _ => exact .inl ⟨rfl, by simp⟩

/-- Once the wait is over, the coroutine is ready until it ends. -/
theorem waited_ready (passed : s.waited = true) {lag : Nat} (at_ : s.pc.waitLag? δ = some lag)
    (ended : ∀ result, s.pc ≠ .ended result) : s.isReady = true := by
  unfold State.isReady
  cases pc : s.pc with
  | waiting => exact passed
  | leaving => rfl
  | ended result => exact absurd pc (ended result)
  | _ => simp [pc, Pc.waitLag?] at at_

theorem Timely.waits {a : Action} (timely : Timely c δ log x) (told : Told log x.1)
    (inTime : Mealy.Clock.InTime (clock c) δ x) (stepped : Steps c x.1 a y.1 new)
    (left : a.isOwn = false) (pc : y.1.pc = x.1.pc)
    (now : y.1.now = x.1.now ∨ y.1.now = x.1.now + 1) (same : y.2 = (clock c).since x.2 a y.1) :
    Timely c δ (log ++ new) y := by
  have ready {readySince : Nat} (at_ : y.2 = some readySince) := readied left now inTime same at_
  refine ⟨fun wakesAt waits readySince at_ => ?_, fun wakesAt waits => ?_,
    fun moving waiting ret time member => ?_, fun time member => ?_,
    fun wakesAt time waits terminated enabled => ?_⟩
  · rw [pc] at waits
    rcases ready at_ with before | ⟨-, -, -, -, woken⟩
    · exact timely.woken _ waits _ before
    · exact woken _ waits
  · have bound := timely.soon wakesAt (pc ▸ waits)
    omega
  · rw [pc] at moving ⊢
    have waiting : x.1.waited = false := by
      rcases stepped.waits_now left with ⟨still, -⟩ | ⟨-, waiting, -⟩
      · exact still.symm.trans waiting
      · exact waiting
    rcases List.mem_append.mp member with old | new
    · obtain ⟨wakes, since⟩ := timely.exited moving waiting ret time old
      refine ⟨wakes, fun readySince at_ => ?_⟩
      rcases ready at_ with before | ⟨-, -, idle, isReady, woken⟩
      · exact since _ before
      · cases position : x.1.pc.wakes? with
        | some wakesAt => exact Nat.le_trans (woken _ position) (wakes _ position)
        | none => exact absurd (idle_waiting position idle pc isReady) moving
    · obtain ⟨running, rfl, now'⟩ := stepped.exits_now left new
      refine ⟨fun wakesAt waits => ?_, fun readySince at_ => ?_⟩
      · cases at_ : x.1.pc with
        | polling other =>
            rw [at_] at waits
            cases waits
            exact Nat.le_trans (timely.soon _ at_) (by simp only [Pc.lag]; omega)
        | draining ret' deadline =>
            have exited := told.knows
            rw [at_] at exited
            exact absurd (running.symm.trans exited) (by simp)
        | _ => simp [at_, Pc.wakes?] at waits
      · rcases ready at_ with before | ⟨-, rfl, -⟩
        · exact Nat.le_trans (inTime.late _ before).1 (Nat.le_add_right _ _)
        · exact now' ▸ Nat.le_add_right _ _
  · rw [pc]
    rcases stepped.waits_now left with ⟨-, silent⟩ | ⟨waiting, unwaited, rfl, still⟩
    · have old := (List.mem_append.mp member).resolve_right (silent time)
      obtain ⟨lag, at_, since⟩ := timely.waited time old
      refine ⟨lag, at_, fun readySince known => ?_⟩
      rcases ready known with before | ⟨-, -, idle, isReady, -⟩
      · exact since _ before
      · have passed := told.waited.mpr ⟨time, old⟩
        have busy := waited_ready passed at_ fun result ended => by
          simp [State.isReady, pc, ended] at isReady
        exact absurd (busy.symm.trans idle) (by simp)
    · have fresh (other : Nat) : .waited other ∉ log := fun old => by
        rw [told.waited.mpr ⟨other, old⟩] at unwaited
        cases unwaited
      have time_ : time = x.1.now := by simpa [fresh] using member
      refine ⟨0, by simp [waiting, Pc.waitLag?], fun readySince known => ?_⟩
      rcases ready known with before | ⟨-, rfl, -⟩
      · have late : readySince ≤ x.1.now := (inTime.late _ before).1
        omega
      · omega
  · have before := timely.soon wakesAt (pc ▸ waits)
    rcases stepped.terminatedAt left with old | signalled
    · exact timely.kills wakesAt time (pc ▸ waits) (old ▸ terminated) enabled
    · rw [signalled] at terminated
      cases terminated
      omega

/-! ## When the coroutine acts -/

theorem own_ready {a : Action} (stepped : Steps c s a t new) (own : a.isOwn = true) :
    s.isReady = true := by
  unfold State.isReady
  cases stepped with
  | resumes resumed =>
      cases resumed <;> simp_all
  | timesOut pc due => simp [pc, due]
  | _ => cases own

theorem own_silent {a : Action} (stepped : Steps c s a t new) (own : a.isOwn = true) :
    t.waited = s.waited ∧ (∀ ret time, .exited ret time ∉ new) ∧ ∀ time, .waited time ∉ new := by
  cases stepped with
  | resumes resumed =>
      cases resumed with
      | escalates _ sends => rcases sends with rfl | rfl <;> simp
      | cancelled _ sends => rcases sends with rfl | rfl <;> simp
      | _ => simp
  | timesOut _ _ sends => rcases sends with rfl | rfl <;> simp
  | _ => cases own

/-- What is to be shown of the position that the coroutine goes to at time `now`. -/
structure Lands (c : Config) (δ : Nat) (log : List Event) (s : State) : Prop where
  later : ∀ wakesAt, s.pc.wakes? = some wakesAt → s.now ≤ wakesAt
  soon : ∀ wakesAt, s.pc = .polling wakesAt → wakesAt ≤ s.now + pollInterval
  exited : s.pc ≠ .waiting → s.waited = false → ∀ ret time, .exited ret time ∈ log →
    (∀ wakesAt, s.pc.wakes? = some wakesAt → wakesAt ≤ time + s.pc.lag δ) ∧
      (s.now ≤ time + s.pc.lag δ ∨ ∃ result, s.pc = .ended result)
  waited : ∀ time, .waited time ∈ log → ∃ lag, s.pc.waitLag? δ = some lag ∧ s.now ≤ time + lag
  kills : ∀ wakesAt time, s.pc = .polling wakesAt → s.terminatedAt = some time →
    0 < c.killTimeout → wakesAt ≤ time + c.killTimeout * 1000 + pollInterval

/-- Where the position itself does not wake the coroutine, only the exit and the wait count. -/
theorem Lands.awake (sleepless : s.pc.wakes? = none)
    (exited : s.pc ≠ .waiting → s.waited = false → ∀ ret time, .exited ret time ∈ log →
      s.now ≤ time + s.pc.lag δ ∨ ∃ result, s.pc = .ended result)
    (waited : ∀ time, .waited time ∈ log → ∃ lag, s.pc.waitLag? δ = some lag ∧ s.now ≤ time + lag) :
    Lands c δ log s := by
  have asleep {wakesAt : Nat} : s.pc ≠ .polling wakesAt := by
    intro pc
    rw [pc] at sleepless
    cases sleepless
  refine ⟨fun wakesAt waits => ?_, fun _ pc => absurd pc asleep,
    fun moving waiting ret time member => ⟨fun wakesAt waits => ?_, exited moving waiting ret time member⟩,
    waited, fun _ _ pc => absurd pc asleep⟩
  · rw [sleepless] at waits
    cases waits
  · rw [sleepless] at waits
    cases waits

theorem Lands.timely {a : Action} (lands : Lands c δ log y.1) (own : a.isOwn = true)
    (same : y.2 = (clock c).since x.2 a y.1) (silent : ∀ ret time, .exited ret time ∉ new)
    (still : ∀ time, .waited time ∉ new) : Timely c δ (log ++ new) y := by
  have fresh {readySince : Nat} (at_ : y.2 = some readySince) :
      readySince = y.1.now ∧ y.1.isReady = true := by
    have acted : (clock c).own a = true := own
    rw [same, Mealy.Clock.since, acted] at at_
    split at at_
    · exact ⟨(Option.some.inj at_).symm, ‹_›⟩
    · cases at_
  refine ⟨fun wakesAt waits readySince at_ => ?_, lands.soon,
    fun moving waiting ret time member => ?_, fun time member => ?_, lands.kills⟩
  · rw [(fresh at_).1]
    exact lands.later _ waits
  · have old := (List.mem_append.mp member).resolve_right (silent ret time)
    obtain ⟨wakes, bound⟩ := lands.exited moving waiting ret time old
    refine ⟨wakes, fun readySince at_ => ?_⟩
    obtain ⟨rfl, ready⟩ := fresh at_
    rcases bound with bound | ⟨result, pc⟩
    · exact bound
    · simp [State.isReady, pc] at ready
  · have old := (List.mem_append.mp member).resolve_right (still time)
    obtain ⟨lag, at_, bound⟩ := lands.waited time old
    exact ⟨lag, at_, fun readySince known => (fresh known).1 ▸ bound⟩

/-- Where the coroutine is ready, it is no later than what made it ready allows. -/
theorem Timely.late (inTime : Mealy.Clock.InTime (clock c) δ x) (ready : x.1.isReady = true)
    {bound : Nat} (since : ∀ readySince, x.2 = some readySince → readySince ≤ bound) :
    x.1.now ≤ bound + δ := by
  have known : x.2.isSome = true := inTime.ready.trans ready
  obtain ⟨readySince, at_⟩ := Option.isSome_iff_exists.mp known
  have late : x.1.now ≤ readySince + δ := (inTime.late readySince at_).2
  have early := since readySince at_
  omega

/-- Nobody but the wait itself is left once it is over. -/
theorem Timely.lands_waited {a : Action} (timely : Timely c δ log x)
    (inTime : Mealy.Clock.InTime (clock c) δ x) (stepped : Steps c x.1 a y.1 new)
    (own : a.isOwn = true) {time : Nat} (passed : .waited time ∈ log) :
    ∃ lag, y.1.pc.waitLag? δ = some lag ∧ y.1.now ≤ time + lag := by
  obtain ⟨lag, at_, since⟩ := timely.waited time passed
  have bound := Timely.late inTime (own_ready stepped own) since
  obtain ⟨t, since'⟩ := y
  cases stepped with
  | resumes resumed =>
      cases resumed with
      | waited pc =>
          rw [pc] at at_
          cases at_
          exact ⟨δ, rfl, bound⟩
      | ends pc =>
          rw [pc] at at_
          cases at_
          exact ⟨2 * δ, rfl, by simpa only [Nat.two_mul, Nat.add_assoc] using bound⟩
      | _ => simp_all [Pc.waitLag?]
  | timesOut pc => simp [pc, Pc.waitLag?] at at_
  | _ => cases own

theorem Timely.lands {a : Action} (timely : Timely c δ log x) (told : Told log x.1)
    (inTime : Mealy.Clock.InTime (clock c) δ x) (stepped : Steps c x.1 a y.1 new)
    (own : a.isOwn = true) : Lands c δ log y.1 := by
  have bound (moving : x.1.pc ≠ .waiting) (waiting : y.1.waited = false) {ret : Int} {time : Nat}
      (exited : .exited ret time ∈ log) : x.1.now ≤ time + x.1.pc.lag δ + δ :=
    Timely.late inTime (own_ready stepped own)
      (timely.exited moving ((own_silent stepped own).1.symm.trans waiting) ret time exited).2
  have waited (time : Nat) (passed : .waited time ∈ log) := timely.lands_waited inTime stepped own passed
  have knows := told.knows
  obtain ⟨t, since'⟩ := y
  cases stepped with
  | resumes resumed =>
      cases resumed with
      | leaves pc =>
          refine .awake rfl (fun _ waiting ret time member => .inl ?_) waited
          have late := bound (by simp [pc]) waiting member
          simp only [pc, Pc.lag] at late ⊢
          omega
      | waited pc passed =>
          exact .awake rfl (fun _ waiting => absurd (passed.symm.trans waiting) (by simp)) waited
      | drains pc =>
          refine ⟨?_, by simp, fun _ waiting ret time member => ?_, waited, by simp⟩
          · rintro _ ⟨⟩
            exact Nat.le_add_right _ _
          · have late := bound (by simp [pc]) waiting member
            simp only [pc, Pc.lag] at late ⊢
            refine ⟨?_, .inl (by omega)⟩
            rintro _ ⟨⟩
            omega
      | waits => exact .awake rfl (fun moving => absurd rfl moving) waited
      | decides _ _ running =>
          exact .awake rfl (fun _ _ ret time member =>
            absurd member (told.not_exited running ret time)) waited
      | escalates pc =>
          rw [pc] at knows
          exact .awake rfl (fun _ _ ret time member =>
            absurd member (told.not_exited knows.2.1 ret time)) waited
      | fails pc =>
          rw [pc] at knows
          exact .awake rfl (fun _ _ ret time member =>
            absurd member (told.not_exited knows.2.1 ret time)) waited
      | sleeps pc _ running _ early =>
          refine ⟨?_, ?_, fun _ _ ret time member =>
            absurd member (told.not_exited running ret time), waited, ?_⟩
          · rintro _ ⟨⟩
            exact Nat.le_add_right _ _
          · rintro _ ⟨⟩
            exact Nat.le_refl _
          · rintro _ time ⟨⟩ signalled enabled
            have late : ¬c.killTimeout * 1000 ≤ (x.1.now : Int) - time := by
              intro passed
              simp [State.killDue, show x.1.terminatedAt = some time from signalled, enabled, passed]
                at early
            push_cast
            omega
      | resets pc =>
          refine ⟨?_, ?_, fun _ waiting ret time member => ?_, waited, by simp⟩
          · rintro _ ⟨⟩
            exact Nat.le_add_right _ _
          · rintro _ ⟨⟩
            exact Nat.le_refl _
          · have late := bound (by simp [pc]) waiting member
            simp only [pc, Pc.lag] at late ⊢
            refine ⟨?_, .inl (by omega)⟩
            rintro _ ⟨⟩
            omega
      | drained pc =>
          refine .awake rfl (fun _ waiting ret time member => .inl ?_) waited
          have late := bound (by simp [pc]) waiting member
          simp only [pc, Pc.lag] at late ⊢
          omega
      | @cancelled ret' _ pc =>
          refine .awake rfl (fun _ waiting ret time member => .inl ?_) waited
          have late := bound (by simp [pc]) waiting member
          cases ret' with
          | none =>
              simp only [pc, Pc.lag] at late ⊢
              omega
          | some ret' =>
              simp only [pc, Pc.lag] at late ⊢
              omega
      | ends pc => exact .awake rfl (fun _ _ ret time member => .inr ⟨_, rfl⟩) waited
  | timesOut pc =>
      refine .awake rfl (fun _ waiting ret time member => .inl ?_) waited
      have late := bound (by simp [pc]) waiting member
      simp only [pc, Pc.lag] at late ⊢
      omega
  | _ => cases own

/-! ## Runs -/

theorem run_timely (run : Mealy.Run (clock c).timed ((clock c).prompt δ)
    ((clock c).begins {}, []) log x) : Timely c δ log x := by
  induction run with
  | refl => exact ⟨by simp [Mealy.Clock.begins, Pc.wakes?, clock, State.isReady],
      by simp [Mealy.Clock.begins], by simp, by simp, by simp [Mealy.Clock.begins]⟩
  | @next log x y a new previous meets action timely =>
      have told := run_told (Mealy.Clock.untimed previous)
      have inTime := Mealy.Clock.run_inTime previous
      obtain ⟨stepped, same⟩ := Mealy.Clock.timed_step action
      have stepped := step_cases stepped
      rcases stepped.own with ⟨own, -⟩ | ⟨left, pc, now⟩
      · obtain ⟨-, silent, still⟩ := own_silent stepped own
        exact (timely.lands told inTime stepped own).timely own same silent still
      · exact timely.waits told inTime stepped left pc now same

theorem lag_le (pc : Pc) : pc.lag δ ≤ pollInterval + drainTimeout + 4 * δ := by
  unfold Pc.lag
  split <;> omega

theorem Timely.ends (timely : Timely c δ log x) (inTime : Mealy.Clock.InTime (clock c) δ x)
    (moving : x.1.pc ≠ .waiting) (waiting : x.1.waited = false) {ret : Int} {time : Nat}
    (exited : .exited ret time ∈ log) : (∃ result, x.1.pc = .ended result) ∨
      x.1.now ≤ time + pollInterval + drainTimeout + 5 * δ := by
  obtain ⟨wakes, since⟩ := timely.exited moving waiting ret time exited
  have lag : x.1.pc.lag δ ≤ pollInterval + drainTimeout + 4 * δ := lag_le x.1.pc
  cases ready : x.1.isReady with
  | true =>
      have bound := Timely.late inTime ready since
      exact .inr (by omega)
  | false =>
      cases waits : x.1.pc.wakes? with
      | some wakesAt =>
          have early := not_awake waits ready
          have bound := wakes wakesAt waits
          exact .inr (by omega)
      | none =>
          unfold State.isReady at ready
          cases pc : x.1.pc with
          | ended result => exact .inl ⟨result, rfl⟩
          | waiting => exact absurd pc moving
          | polling => simp [pc, Pc.wakes?] at waits
          | draining => simp [pc, Pc.wakes?] at waits
          | _ => simp [pc] at ready

theorem Timely.ends_waited (timely : Timely c δ log x) (told : Told log x.1)
    (inTime : Mealy.Clock.InTime (clock c) δ x) {time : Nat} (passed : .waited time ∈ log) :
    (∃ result, x.1.pc = .ended result) ∨ x.1.now ≤ time + 2 * δ := by
  obtain ⟨lag, at_, since⟩ := timely.waited time passed
  by_cases ended : ∃ result, x.1.pc = .ended result
  · exact .inl ended
  · have ready := waited_ready (told.waited.mpr ⟨time, passed⟩) at_ fun result pc => ended ⟨result, pc⟩
    have bound := Timely.late inTime ready since
    have soon : lag ≤ δ := by
      unfold Pc.waitLag? at at_
      split at at_ <;> cases at_
      · exact Nat.zero_le _
      · exact Nat.le_refl _
      · exact absurd ⟨_, ‹_›⟩ ended
    exact .inr (by omega)

/-- If the coroutine is never late by more than `δ`: the loop waits no longer for a process that
was sent SIGTERM than the timeout allows. Once the process has exited the coroutine ends in 5.1
seconds, unless both readers had ended before: then it ends as soon as `process.wait()` is over. -/
theorem lasts_bounded (run : Mealy.Run (clock c).timed ((clock c).prompt δ)
    ((clock c).begins {}, []) log x) :
    (∀ wakesAt time, x.1.pc = .polling wakesAt → x.1.terminatedAt = some time →
      0 < c.killTimeout → x.1.now ≤ time + c.killTimeout * 1000 + pollInterval + δ) ∧
    (∀ ret time, .exited ret time ∈ log → ((∃ result, x.1.pc = .ended result) ∨
      x.1.now ≤ time + pollInterval + drainTimeout + 5 * δ) ∨
        ReadersFirst log ret time ∧ (x.1.pc = .waiting ∨ ∃ passed, .waited passed ∈ log)) ∧
    ∀ time, .waited time ∈ log → (∃ result, x.1.pc = .ended result) ∨ x.1.now ≤ time + 2 * δ := by
  have timely := run_timely run
  have told := run_told (Mealy.Clock.untimed run)
  have inTime := Mealy.Clock.run_inTime run
  refine ⟨fun wakesAt time pc signalled enabled => ?_, fun ret time exited => ?_,
    fun time => timely.ends_waited told inTime⟩
  · have soon := timely.kills wakesAt time pc signalled enabled
    have waits : x.1.pc.wakes? = some wakesAt := by rw [pc]; rfl
    have late : x.1.now ≤ wakesAt + δ := by
      cases ready : x.1.isReady with
      | false => exact Nat.le_trans (Nat.le_of_lt (not_awake waits ready)) (Nat.le_add_right _ _)
      | true => exact Timely.late inTime ready (timely.woken wakesAt waits)
    omega
  · by_cases waiting : x.1.pc = .waiting
    · exact .inr ⟨told.readersFirst (.inl waiting) ret time exited, .inl waiting⟩
    · cases passed : x.1.waited with
      | true =>
          exact .inr ⟨told.readersFirst (.inr passed) ret time exited, .inr (told.waited.mp passed)⟩
      | false => exact .inl (timely.ends inTime waiting passed exited)

theorem prompt_of_still {a : Action} (other : a ≠ .tick) : (clock c).prompt δ x a := by
  intro t es action ticked
  have action : (machine c).step x.1 a = some (t, es) := action
  have still : t.now = x.1.now := by
    cases step_cases action with
    | ticks => exact absurd rfl other
    | @reads stream => cases stream <;> rfl
    | resumes resumed => exact resumed.now
    | _ => rfl
  exact absurd still ticked

def drainingState : State :=
  { pc := .draining 3 5000, returncode := some 3, terminated := true, terminatedAt := some 0 }

def waitedState : State :=
  { pc := .waiting, returncode := some 0, waited := true, stdoutDone := true, stderrDone := true }

theorem lasts_bounded_hello : (((∃ result, drainingState.pc = .ended result) ∨
    drainingState.now ≤ 0 + pollInterval + drainTimeout + 5 * 10) ∨
      ReadersFirst [.sigusr1 0, .sigterm, .exited 3 0] 3 0 ∧ (drainingState.pc = .waiting ∨
        ∃ passed, .waited passed ∈ [Event.sigusr1 0, .sigterm, .exited 3 0])) ∧
    ((∃ result, waitedState.pc = .ended result) ∨ waitedState.now ≤ 0 + 2 * 10) := by
  have drains : Mealy.exec (clock ⟨600⟩).timed ((clock ⟨600⟩).begins {}, [])
      [.signal, .exits 3, .resume .sent] =
      some ((drainingState, none), [.sigusr1 0, .sigterm, .exited 3 0]) := rfl
  have waits : Mealy.exec (clock ⟨600⟩).timed ((clock ⟨600⟩).begins {}, [])
      [.readerEnds .stdout, .readerEnds .stderr, .resume .sent, .exits 0, .waitEnds] =
      some ((waitedState, some 0),
        [.readerEnded .stdout, .readerEnded .stderr, .exited 0 0, .waited 0]) := rfl
  constructor
  · exact (lasts_bounded (.of_exec
      (fun s a member => prompt_of_still (by rintro rfl; simp at member)) drains)).2.1 3 0 (by simp)
  · exact (lasts_bounded (.of_exec
      (fun s a member => prompt_of_still (by rintro rfl; simp at member)) waits)).2.2 0 (by simp)

end JobQ.RunCmd
