import JobQ.Proof.Delivery.Heartbeat
import JobQ.Proof.Delivery.Contract

/-!
# A lost lock is not settled

The coroutine samples the loss of the lock before `cancel_heartbeat`, which may still wait for a
renewal. An answer that reports the loss during that wait comes too late. Every other one keeps the
delivery from settling.
-/

namespace JobQ.Delivery

def LostAnswered (cfg : Config) (log : List Event) : Prop :=
  ∃ a, .renewal (.answered a) ∈ log ∧ a.meansLost cfg.backend = true

def LostBefore (cfg : Config) (log : List Event) : Prop :=
  ∃ before a after, log = before ++ .renewal (.answered a) :: after ∧
    a.meansLost cfg.backend = true ∧ settlements before = []

structure Abandons (cfg : Config) (log : List Event) (s : State) : Prop where
  unsettled : settlements log = []
  raises : ∀ result, s.pc = .finished result → result = .raised (lockLostError s.task)
  finishes : ∀ outcome, .callbackEnded outcome ∈ log → ∃ events t,
    Mealy.Run (machine cfg) Smooth (s, log) events t ∧ settlements events = [] ∧
      t.pc = .finished (.raised (lockLostError s.task))

def Ordinary (_ : State) : Action → Prop
  | .cancel => False
  | .callbackEnds outcome => outcome.isOrdinary = true
  | _ => True

/-- The loss is reported while `cancel_heartbeat` waits, after the flag was sampled. -/
def LateLoss (cfg : Config) (s : State) : Action → Prop
  | .renewal (.answer a _) => a.meansLost cfg.backend = true ∧
      ∃ after, s.pc = .cancelHeartbeat after ∧ after.lockLost = false
  | _ => False

def InTime (cfg : Config) (s : State) (a : Action) : Prop := Ordinary s a ∧ ¬ LateLoss cfg s a

def Noted (cfg : Config) (log : List Event) (s : State) : Prop :=
  match s.pc with
  | .cancelHeartbeat after => LostAnswered cfg log → after.lockLost = true
  | .settling _ _ => s.renewal.isOver = true ∧ ¬ LostAnswered cfg log
  | .exiting result | .finished result => s.renewal.isOver = true ∧
      (LostAnswered cfg log → settlements log = [] ∧ result = .raised (lockLostError s.task))
  | _ => s.renewal.stop = false ∧ (LostAnswered cfg log → s.renewal.lockLost = true)

structure Watchful (cfg : Config) (log : List Event) (s : State) : Prop where
  calm : s.interrupted = false
  ordinary : ∀ outcome, s.callback = .ended outcome → outcome.isOrdinary = true
  noted : Noted cfg log s

variable {cfg : Config} {log new : List Event} {s t : State}

theorem lostAnswered_append (other : ∀ e ∈ new, e.isRenewal = false) :
    LostAnswered cfg (log ++ new) ↔ LostAnswered cfg log := by
  constructor
  · rintro ⟨a, member, lost⟩
    rcases List.mem_append.mp member with old | new
    · exact ⟨a, old, lost⟩
    · cases other _ new
  · rintro ⟨a, member, lost⟩
    exact ⟨a, List.mem_append_left _ member, lost⟩

theorem settles_isRenewal {e : Event} (settles : e.settles = true) : e.isRenewal = false := by
  cases e <;> first | rfl | contradiction

/-! ## From the flag to the end -/

theorem decision_lost {task : Task} {after : After} (lost : after.lockLost = true) :
    decision cfg task after = .leave (.raised (lockLostError task)) := by
  have decides := decision_cases cfg task after
  generalize decision cfg task after = decided at decides
  cases decides with
  | abandons => rfl
  | _ => contradiction

theorem Leaves.noted {result : Result} (left : Leaves s result t) (ceased : s.renewal.isOver = true)
    (noted : LostAnswered cfg log → settlements log = [] ∧ result = .raised (lockLostError s.task)) :
    Noted cfg log t := by
  obtain ⟨pc, stop, leaving, rfl⟩ := left
  rcases leaving with ⟨rfl, -⟩ | rfl <;> exact ⟨ceased, noted⟩

theorem Proceeds.noted {after : After} {next : Step} (proceeded : Proceeds cfg s after next)
    (ceased : s.renewal.isOver = true) (untouched : Untouched log)
    (flag : LostAnswered cfg log → after.lockLost = true) : Noted cfg (log ++ next.2) next.1 := by
  have kept {settlement : Settlement} (settles : decision cfg s.task after = .settle settlement) :
      ¬ LostAnswered cfg log := by
    intro lost
    rw [decision_lost (flag lost)] at settles
    contradiction
  have same {events : List Event} (settles : ∀ e ∈ events, e.settles = true) :
      LostAnswered cfg (log ++ events) ↔ LostAnswered cfg log :=
    lostAnswered_append fun e member => settles_isRenewal (settles e member)
  have settling := proceeded.keeps.settles
  cases proceeded with
  | settles decided => exact ⟨ceased, fun lost => kept decided ((same settling).mp lost)⟩
  | skips decided _ left =>
      exact left.noted ceased fun lost => absurd ((same settling).mp lost) (kept decided)
  | leaves declined left =>
      rw [List.append_nil]
      apply left.noted ceased
      intro lost
      rw [decision_lost (flag lost)] at declined
      cases declined
      exact ⟨untouched.1, rfl⟩

theorem cancelHeartbeat_noted {after : After} (untouched : Untouched log)
    (flag : LostAnswered cfg log → after.lockLost = true) :
    Noted cfg (log ++ (cancelHeartbeat cfg s after).2) (cancelHeartbeat cfg s after).1 := by
  rcases cancelHeartbeat_cases cfg s after with ⟨ceased, proceeded⟩ | ⟨-, eq⟩
  · exact proceeded.noted ceased untouched flag
  · rw [eq, List.append_nil]
    exact flag

/-! ## Every step keeps the watch -/

theorem Noted.of_deciding (deciding : s.pc.isDeciding = true) (running : s.renewal.stop = false)
    (noted : LostAnswered cfg log → s.renewal.lockLost = true) : Noted cfg log s := by
  unfold Noted
  split
  all_goals first
    | exact ⟨running, noted⟩
    | rename_i pc; simp [pc, Pc.isDeciding] at deciding

theorem Noted.deciding (noted : Noted cfg log s) (deciding : s.pc.isDeciding = true) :
    s.renewal.stop = false ∧ (LostAnswered cfg log → s.renewal.lockLost = true) := by
  unfold Noted at noted
  split at noted
  all_goals first
    | exact noted
    | rename_i pc; simp [pc, Pc.isDeciding] at deciding

theorem Concludes.flag {after : After} (conclusion : Concludes s after)
    (watchful : Watchful cfg log s) (lost : s.renewal.lockLost = true) : after.lockLost = true := by
  cases conclusion with
  | canceled ended => cases watchful.ordinary _ ended
  | raised => exact lost
  | returned => exact lost
  | unbound => exact lost
  | lost => rfl

theorem Watchful.resumes {next : Step} (watchful : Watchful cfg log s)
    (account : Account cfg log s) (resumed : Resumes cfg s next) :
    Noted cfg (log ++ next.2) next.1 := by
  cases resumed with
  | awaits before after =>
      obtain ⟨running, noted⟩ := watchful.noted.deciding before
      rw [List.append_nil]
      exact .of_deciding after running noted
  | concludes deciding conclusion =>
      obtain ⟨-, noted⟩ := watchful.noted.deciding deciding
      exact cancelHeartbeat_noted (account.untouched deciding) fun lost =>
        conclusion.flag watchful (noted lost)
  | letsOut out =>
      cases out with
      | callback _ ended => cases watchful.ordinary _ ended
      | interrupted due => simp [watchful.calm] at due
  | proceeds pc calm ceased =>
      have noted := watchful.noted
      rw [Noted, pc] at noted
      rw [Account, pc] at account
      exact (proceed_cases _ _ _).noted ceased account.1 noted
  | exits pc =>
      have noted := watchful.noted
      rw [Noted, pc] at noted
      rw [List.append_nil]
      exact noted
  | exitInterrupted _ due => simp [watchful.calm] at due

theorem Watchful.renewal {a : RenewalAction} {r : Renewal} {events : List RenewalEvent}
    (watchful : Watchful cfg log s) (inTime : ¬ LateLoss cfg s (.renewal a))
    (action : s.renewal.step cfg.backend cfg.renewal a = some (r, events)) :
    Noted cfg (log ++ events.map .renewal) { s with renewal := r } := by
  have noted := watchful.noted
  have kept := Renewal.step_lockLost action
  have stop := Renewal.step_stop action
  have alive := Renewal.step_alive action
  have grown (lost : LostAnswered cfg (log ++ events.map .renewal)) :
      LostAnswered cfg log ∨ ∃ answer now, a = .answer answer now ∧
        answer.meansLost cfg.backend = true := by
    obtain ⟨answer, member, lost⟩ := lost
    rcases List.mem_append.mp member with old | new
    · exact .inl ⟨answer, old, lost⟩
    · obtain ⟨event, member, same⟩ := List.mem_map.mp new
      cases same
      obtain ⟨now, eq⟩ := Renewal.step_events action member
      exact .inr ⟨answer, now, eq, lost⟩
  unfold Noted at noted ⊢
  split at noted
  · rename_i after pc
    simp only [pc]
    intro lost
    rcases grown lost with old | ⟨answer, now, rfl, loss⟩
    · exact noted old
    · by_contra flag
      exact inTime ⟨loss, after, pc, by simpa using flag⟩
  · simp [noted.1] at alive
  · simp [noted.1] at alive
  · simp [noted.1] at alive
  · refine ⟨stop.trans noted.1, fun lost => ?_⟩
    rcases grown lost with old | ⟨answer, now, rfl, loss⟩
    · exact kept (noted.2 old)
    · exact Renewal.step_lost action loss (.inr noted.1)

theorem Noted.same (noted : Noted cfg log s) (other : ∀ e ∈ new, e.isRenewal = false)
    (pc : t.pc = s.pc) (task : t.task = s.task) (renewal : t.renewal = s.renewal)
    (settling : settlements new = []) : Noted cfg (log ++ new) t := by
  have same : LostAnswered cfg (log ++ new) ↔ LostAnswered cfg log := lostAnswered_append other
  have single : settlements (log ++ new) = settlements log := by
    rw [settlements_append, settling, List.append_nil]
  unfold Noted at noted ⊢
  rw [pc, task, renewal, same, single]
  exact noted

theorem Watchful.step {a : Action} (watchful : Watchful cfg log s) (account : Account cfg log s)
    (inTime : InTime cfg s a) (action : step cfg s a = some (t, new)) :
    Watchful cfg (log ++ new) t := by
  generalize same : (t, new) = next at action
  cases step_cases action with
  | renewal moved =>
      cases same
      exact ⟨watchful.calm, watchful.ordinary, watchful.renewal inTime.2 moved⟩
  | callbackEnds running =>
      cases same
      refine ⟨watchful.calm, ?_, watchful.noted.same (by simp [Event.isRenewal]) rfl rfl rfl rfl⟩
      rintro _ ⟨⟩
      exact inTime.1
  | lockTaskRuns =>
      cases same
      exact ⟨watchful.calm, watchful.ordinary, watchful.noted.same (by simp) rfl rfl rfl rfl⟩
  | throws => exact inTime.1.elim
  | absorbs => exact inTime.1.elim
  | aborts => exact inTime.1.elim
  | resumes resumed =>
      cases same
      have kept := resumed.keeps
      exact ⟨kept.calm watchful.calm, by rw [kept.callback]; exact watchful.ordinary,
        watchful.resumes account resumed⟩
  | @answers settlement request answer next pc _ answered =>
      cases same
      have kept := answered.keeps
      refine ⟨kept.calm watchful.calm, by rw [kept.callback]; exact watchful.ordinary, ?_⟩
      have noted := watchful.noted
      rw [Noted, pc] at noted
      have unlost : ¬ LostAnswered cfg (log ++ .answered request (isOk answer) :: next.2) := by
        rw [lostAnswered_append]
        · exact noted.2
        · intro e member
          rcases List.mem_cons.mp member with rfl | member
          · rfl
          · exact settles_isRenewal (kept.settles e member)
      cases answered with
      | continues => exact ⟨noted.1, unlost⟩
      | leaves _ left => exact left.noted noted.1 fun lost => absurd lost unlost

theorem Watchful.start (cfg : Config) (task : Task) (popReceipt : Receipt) {call : CallResult}
    (ordinary : ∀ outcome, call = .ended outcome → outcome.isOrdinary = true) :
    Watchful cfg (start cfg task popReceipt call).2 (start cfg task popReceipt call).1 := by
  have none : ¬ LostAnswered cfg [] := by
    rintro ⟨a, member, -⟩
    cases member
  have untouched : Untouched [] := ⟨rfl, rfl⟩
  have started := start_cases cfg task popReceipt call
  generalize Delivery.start cfg task popReceipt call = first at started
  cases started with
  | waits => exact ⟨rfl, nofun, rfl, fun lost => absurd lost none⟩
  | called readable resumed =>
      rename_i outcome _ next
      have kept := resumed.keeps
      have ended : Watchful cfg [.callbackEnded outcome]
          { received cfg (prepared cfg task) popReceipt with callback := .ended outcome } := by
        refine ⟨rfl, ?_, rfl, ?_⟩
        · rintro _ ⟨⟩
          exact ordinary outcome rfl
        · rintro ⟨a, member, -⟩
          cases List.mem_singleton.mp member
      refine ⟨kept.calm rfl, by rw [kept.callback]; exact ended.ordinary, ?_⟩
      have account : Account cfg [.callbackEnded outcome]
          { received cfg (prepared cfg task) popReceipt with callback := .ended outcome } := ⟨rfl, rfl⟩
      exact ended.resumes account resumed
  | unreadable =>
      have kept := cancelHeartbeat_keeps cfg (received cfg (prepared cfg task) popReceipt)
      refine ⟨(kept _).calm rfl, by rw [(kept _).callback]; exact nofun, ?_⟩
      exact cancelHeartbeat_noted untouched fun lost => absurd lost none

section

variable {task : Task} {popReceipt : Receipt} {call : CallResult}

theorem run_watchful (ordinary : ∀ outcome, call = .ended outcome → outcome.isOrdinary = true)
    (run : Mealy.Run (machine cfg) (InTime cfg) (start cfg task popReceipt call) log s) :
    Watchful cfg log s := by
  have both : Accounted cfg task log s ∧ Watchful cfg log s := by
    apply run.invariant ⟨.start cfg task popReceipt call, .start cfg task popReceipt ordinary⟩
    intro _ _ _ _ _ inv inTime action
    exact ⟨inv.1.step action, inv.2.step inv.1.account inTime action⟩
  exact both.2

theorem Watchful.unsettled (watchful : Watchful cfg log s) (account : Account cfg log s)
    (lost : LostAnswered cfg log) : settlements log = [] := by
  have noted := watchful.noted
  unfold Account at account
  unfold Noted at noted
  split at account <;> rename_i pc
  · exact account.1.1
  · rw [pc] at noted
    exact absurd lost noted.2
  · rw [pc] at noted
    exact (noted.2 lost).1
  · rw [pc] at noted
    exact (noted.2 lost).1
  · exact account.1

theorem Smooth.inTime {a : Action} (smooth : Smooth s a) : InTime cfg s a := by
  cases a with
  | renewal a =>
      refine ⟨trivial, ?_⟩
      cases a with
      | wake now => exact id
      | answer answer now =>
          cases answer with
          | ok _ => exact fun late => by cases late.1
          | _ => contradiction
  | callbackEnds => contradiction
  | cancel => contradiction
  | _ => exact ⟨trivial, id⟩

/-- In every run of an ordinary delivery in which no loss is reported too late, a lock reported
lost before the settlement keeps the delivery from settling, and it ends in `LockLostError`. -/
theorem lost_lock_abandons
    (ordinary : ∀ outcome, call = .ended outcome → outcome.isOrdinary = true)
    (run : Mealy.Run (machine cfg) (InTime cfg) (start cfg task popReceipt call) log s)
    (lost : LostBefore cfg log) : Abandons cfg log s := by
  have watchful := run_watchful ordinary run
  have answered : LostAnswered cfg log := by
    obtain ⟨before, a, after, rfl, meansLost, -⟩ := lost
    exact ⟨a, by simp, meansLost⟩
  have accounted := run_accounted run
  have raises {log : List Event} {s : State} {result : Result} (watchful : Watchful cfg log s)
      (answered : LostAnswered cfg log) (pc : s.pc = .finished result) :
      result = .raised (lockLostError s.task) := by
    have noted := watchful.noted
    rw [Noted, pc] at noted
    exact (noted.2 answered).2
  refine ⟨watchful.unsettled accounted.account answered, fun result pc => raises watchful answered pc,
    fun outcome ended => ?_⟩
  obtain ⟨events, t, result, later, pc, -⟩ :=
    canFinish (run_drainable run) watchful.calm (accounted.heard outcome ended) log
  have whole := run.trans (later.mono fun _ _ => Smooth.inTime)
  have final := run_watchful ordinary whole
  have still : LostAnswered cfg events := by
    obtain ⟨new, rfl⟩ := later.extends
    obtain ⟨a, member, meansLost⟩ := answered
    exact ⟨a, List.mem_append_left _ member, meansLost⟩
  have same : t.task = s.task := (run_accounted whole).task.trans accounted.task.symm
  refine ⟨events, t, later, final.unsettled (run_accounted whole).account still, ?_⟩
  rw [pc, raises final still pc, same]

end

theorem lost_lock_abandons_hello : ∃ log s, LostBefore (heartbeatConfig .storageQueue) log ∧
    Abandons (heartbeatConfig .storageQueue) log s := by
  let cfg := heartbeatConfig .storageQueue
  let first := start cfg helloTask 0 .coroutine
  have run : ∃ s, Mealy.Run (machine cfg) (InTime cfg) first
      ([.renewal (.sent 0)] ++ [.renewal (.answered (.status 404))]) s := by
    have wakes : InTime cfg first.1 (.renewal (.wake 0)) := ⟨trivial, id⟩
    have answers (s : State) (pc : s.pc = .waiting) :
        InTime cfg s (.renewal (.answer (.status 404) 1)) := by
      refine ⟨trivial, ?_⟩
      rintro ⟨-, after, heartbeat, -⟩
      rw [pc] at heartbeat
      cases heartbeat
    exact ⟨_, .next (.next .refl wakes rfl) (answers _ rfl) rfl⟩
  obtain ⟨s, run⟩ := run
  have lost : LostBefore cfg ([.renewal (.sent 0)] ++ [.renewal (.answered (.status 404))]) :=
    ⟨[.renewal (.sent 0)], .status 404, [], rfl, rfl, rfl⟩
  exact ⟨_, s, lost, lost_lock_abandons (by simp) run lost⟩

/-- The same answer comes after the callback has ended, while `cancel_heartbeat` waits for it: the
message is deleted although another worker may have it. -/
theorem lost_lock_settled : ¬ ∀ cfg task popReceipt log s,
    Mealy.Run (machine cfg) Ordinary (start cfg task popReceipt .coroutine) log s →
    LostBefore cfg log → Abandons cfg log s := by
  intro law
  have run : ∃ s, Mealy.exec (machine (heartbeatConfig .storageQueue))
      (start (heartbeatConfig .storageQueue) helloTask 0 .coroutine)
      [.renewal (.wake 0), .callbackEnds (.returned .null), .resume, .resume,
        .renewal (.answer (.status 404) 1), .resume] =
      some (s, [.renewal (.sent 0), .callbackEnded (.returned .null),
        .renewal (.answered (.status 404)), .settlement .complete, .request (.deleteMessage 0)]) :=
    ⟨_, rfl⟩
  obtain ⟨s, run⟩ := run
  have ordinary : ∀ s : State, ∀ a ∈ [Action.renewal (.wake 0), .callbackEnds (.returned .null),
      .resume, .resume, .renewal (.answer (.status 404) 1), .resume], Ordinary s a := by
    simp [Ordinary, Outcome.isOrdinary]
  have abandons := law _ _ _ _ _ (.of_exec ordinary run)
    ⟨[.renewal (.sent 0), .callbackEnded (.returned .null)], .status 404, _, rfl, rfl, rfl⟩
  cases abandons.unsettled

end JobQ.Delivery
