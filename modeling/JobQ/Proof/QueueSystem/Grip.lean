import JobQ.Proof.Renewal
import JobQ.Proof.QueueSystem.Steps

/-!
# A delivery that has its message in hand

It has not settled the message yet, and knows the receipt of the last renewal or is about to hear of
it. If the service answers truly, the delivery does not end before this changes.
-/

namespace JobQ

/-- `asyncio.CancelledError` leaves the message where it is, and so may an exception without a
text. -/
def Exc.isPlain : Exc → Bool
  | .cancelledError | .unprintable _ => false
  | _ => true

def Outcome.isPlain : Outcome → Bool
  | .returned _ => true
  | .raised exc => exc.isPlain

theorem Exc.printable_of_plain {exc : Exc} (plain : exc.isPlain = true) : exc.isPrintable = true := by
  cases exc <;> first | rfl | contradiction

/-- The lock is kept, and nothing that is left to do raises. -/
def After.isPlain : After → Bool
  | .requeue => true
  | .succeeded _ lost => !lost
  | .failed exc lost => !lost && exc.isPrintable

theorem After.kept_of_plain {after : After} (plain : after.isPlain = true) :
    after.lockLost = false := by
  cases after with
  | requeue => rfl
  | succeeded ret lost => simpa [isPlain, lockLost] using plain
  | failed exc lost => simpa [lockLost] using (Bool.and_eq_true_iff.mp plain).1

namespace Delivery

variable {cfg : Config} {s t : State} {p : Receipt} {last : Option (Call × Receipt)}

/-- The receipt of a delivery against the one of its message, where `last` is what the service did
for the delivery last. -/
inductive InSync (last : Option (Call × Receipt)) (r : Renewal) (p : Receipt) : Prop
  | known (same : r.popReceipt = p) (unrenewed : ∀ q, last ≠ some (.renew p, q))
  | renewed (inFlight : r.isInFlight = true) (other : r.popReceipt ≠ p)
      (performed : last = some (.renew r.popReceipt, p))

/-- A first request that the service has not performed, or the copy before the deletion. -/
inductive Pending (last : Option (Call × Receipt)) (p : Receipt) : Settlement → Request → Prop
  | updates {settlement : Settlement} {text : String}
      (unserved : ∀ q, last ≠ some (.settle (.updateMessage p text), q)) :
      Pending last p settlement (.updateMessage p text)
  | deletes {settlement : Settlement} (unserved : ∀ q, last ≠ some (.settle (.deleteMessage p), q)) :
      Pending last p settlement (.deleteMessage p)
  | copies {error content : String} : Pending last p (.deadLetter error) (.sendDeadLetter content)

inductive InHand (last : Option (Call × Receipt)) (s : State) (p : Receipt) : Prop
  | deciding (pc : s.pc.isDeciding = true) (unnoticed : s.pc ≠ .lostAwaitCallback)
      (due : s.interrupted = true → s.pc = .waiting) (sync : InSync last s.renewal p)
      (unsettled : ∀ request q, last ≠ some (.settle request, q))
  | cancelsHeartbeat {after : After} (pc : s.pc = .cancelHeartbeat after)
      (plain : after.isPlain = true) (idle : isRunning s = false) (calm : s.interrupted = false)
      (sync : InSync last s.renewal p) (unsettled : ∀ request q, last ≠ some (.settle request, q))
  | settles {settlement : Settlement} {request : Request} (pc : s.pc = .settling settlement request)
      (idle : isRunning s = false) (calm : s.interrupted = false) (ceased : s.renewal.isOver = true)
      (same : s.renewal.popReceipt = p) (pending : Pending last p settlement request)

structure Fit (s : State) : Prop where
  kept : s.renewal.lockLost = false
  unnoticed : s.lockTaskDone = false
  plain : ∀ outcome, s.callback = .ended outcome → outcome.isPlain = true
  silent : s.task.replyRequested = false

structure Grip (last : Option (Call × Receipt)) (s : State) (p : Receipt) : Prop where
  inHand : InHand last s p
  fit : Fit s

/-- A renewal is answered with what the service did. -/
def Truthful (last : Option (Call × Receipt)) (refuses : Call → Prop) (r : Renewal) :
    RenewalAction → Prop
  | .wake _ => True
  | .answer (.ok q) _ => last = some (.renew r.popReceipt, q)
  | .answer _ _ => refuses (.renew r.popReceipt) ∧ ∀ q, last ≠ some (.renew r.popReceipt, q)

/-- The service answers every request, with what it did; the delivery is cancelled only while its
callback runs, and the callback does not end with a bare `CancelledError` or an exception without a
text. -/
def Honest (last : Option (Call × Receipt)) (refuses : Call → Prop) (s : State) : Action → Prop
  | .answer (.ok ()) => ∃ settlement request q, s.pc = .settling settlement request ∧
      last = some (.settle request, q)
  | .answer (.error _) => ∃ settlement request, s.pc = .settling settlement request ∧
      refuses (.settle request)
  | .renewal a => Truthful last refuses s.renewal a
  | .cancel => isRunning s = true
  | .callbackEnds outcome => outcome.isPlain = true
  | _ => True

/-! ## What the service has done -/

theorem InSync.ceased {r : Renewal} (sync : InSync last r p) (ceased : r.isOver = true) :
    r.popReceipt = p := by
  cases sync with
  | known same => exact same
  | renewed inFlight => simp [Renewal.isOver_not_inFlight ceased] at inFlight

theorem InSync.stopped {r : Renewal} (sync : InSync last r p) (stop : Bool) :
    InSync last { r with stop := stop } p := by
  cases sync with
  | known same unrenewed => exact .known same unrenewed
  | renewed inFlight other performed => exact .renewed inFlight other performed

theorem isRunning_ended {outcome : Outcome} (ended : s.callback = .ended outcome) :
    isRunning s = false := by simp [isRunning, ended]

/-- What is left to do after the callback, unless the lock was lost. -/
theorem Concludes.ended {after : After} (conclusion : Concludes s after) (fit : Fit s)
    (elsewhere : s.pc ≠ .lostAwaitCallback) : after.isPlain = true ∧ isRunning s = false := by
  cases conclusion with
  | canceled ended => exact ⟨rfl, isRunning_ended ended⟩
  | raised ended =>
      exact ⟨by simp [After.isPlain, fit.kept, Exc.printable_of_plain (fit.plain _ ended)],
        isRunning_ended ended⟩
  | returned ended => exact ⟨by simp [After.isPlain, fit.kept], isRunning_ended ended⟩
  | unbound ended => exact ⟨by simp [After.isPlain, fit.kept, Exc.isPrintable], isRunning_ended ended⟩
  | lost noticed => simp [fit.unnoticed, elsewhere] at noticed

theorem first_pending (unsettled : ∀ request q, last ≠ some (.settle request, q)) (task : Task)
    (settlement : Settlement) : ∃ request,
      firstRequest .storageQueue task p settlement = some request ∧
        Pending last p settlement request := by
  cases settlement with
  | complete => exact ⟨_, rfl, .deletes (unsettled _)⟩
  | requeue => exact ⟨_, rfl, .updates (unsettled _)⟩
  | replace task => exact ⟨_, rfl, .updates (unsettled _)⟩
  | deadLetter error => exact ⟨_, rfl, .copies⟩

theorem decision_settles {task : Task} {after : After} (readable : cfg.log.isReadable = true)
    (plain : after.isPlain = true) (silent : task.replyRequested = false) :
    ∃ settlement, decision cfg task after = .settle settlement := by
  have decides := decision_cases cfg task after
  generalize decision cfg task after = decided at decides
  cases decides with
  | abandons lost => simp [After.kept_of_plain plain] at lost
  | swallows requested => simp [requested] at silent
  | @chokes exc text garbled =>
      have printable : exc.isPrintable = true := by simpa [After.isPlain] using plain
      exact absurd ⟨readable, .inl printable⟩ garbled
  | raises _ _ requested => simp [requested] at silent
  | requeues => exact ⟨_, rfl⟩
  | completes => exact ⟨_, rfl⟩
  | givesUp => exact ⟨_, rfl⟩
  | retries => exact ⟨_, rfl⟩

/-- A message in hand: its receipt is current, so that a request with it is not refused. -/
structure Refusal (p : Receipt) (refuses : Call → Prop) : Prop where
  renew : ¬refuses (.renew p)
  update : ∀ text, ¬refuses (.settle (.updateMessage p text))
  delete : ¬refuses (.settle (.deleteMessage p))
  copy : ∀ text, ¬refuses (.settle (.sendDeadLetter text))

theorem Pending.accepted {refuses : Call → Prop} {settlement : Settlement} {request : Request}
    (pending : Pending last p settlement request) (refusal : Refusal p refuses) :
    ¬refuses (.settle request) := by
  cases pending with
  | updates => exact refusal.update _
  | deletes => exact refusal.delete
  | copies => exact refusal.copy _

theorem InSync.answered {refuses : Call → Prop} {r : Renewal} {answer : RenewalAnswer} {now : Rat}
    (sync : InSync last r p) (refusal : Refusal p refuses)
    (truthful : Truthful last refuses r (.answer answer now)) :
    answer = .ok p ∧ last = some (.renew r.popReceipt, p) ∧ r.popReceipt ≠ p := by
  have renewal {q : Receipt} (performed : last = some (.renew r.popReceipt, q)) :
      q = p ∧ r.popReceipt ≠ p := by
    cases sync with
    | known same unrenewed => exact absurd (same ▸ performed) (unrenewed q)
    | renewed _ other before =>
        rw [before] at performed
        cases performed
        exact ⟨rfl, other⟩
  have refused (refused : refuses (.renew r.popReceipt))
      (unserved : ∀ q, last ≠ some (.renew r.popReceipt, q)) : False := by
    cases sync with
    | known same => exact refusal.renew (same ▸ refused)
    | renewed _ _ before => exact unserved p before
  cases answer with
  | ok q =>
      obtain ⟨rfl, other⟩ := renewal truthful
      exact ⟨rfl, truthful, other⟩
  | status code => exact (refused truthful.1 truthful.2).elim
  | error => exact (refused truthful.1 truthful.2).elim

theorem InSync.renews {refuses : Call → Prop} {r s : Renewal} {a : RenewalAction}
    {events : List RenewalEvent} (sync : InSync last r p) (refusal : Refusal p refuses)
    (truthful : Truthful last refuses r a)
    (stepped : StorageQueue.heartbeat r a = some (s, events)) :
    InSync last s p ∧ s.lockLost = r.lockLost := by
  have waits (idle : r.isInFlight = false) {loop : Loop} : InSync last { r with loop := loop } p := by
    cases sync with
    | known same unrenewed => exact .known same unrenewed
    | renewed inFlight => simp [idle] at inFlight
  cases a with
  | wake now =>
      simp only [StorageQueue.heartbeat] at stepped
      split at stepped
      · rename_i loop
        split at stepped <;> cases stepped <;> exact ⟨waits (by simp [Renewal.isInFlight, loop]), rfl⟩
      · rename_i loop
        split at stepped <;> cases stepped <;> exact ⟨waits (by simp [Renewal.isInFlight, loop]), rfl⟩
      · contradiction
  | answer answer now =>
      obtain ⟨rfl, performed, other⟩ := sync.answered refusal truthful
      simp only [StorageQueue.heartbeat] at stepped
      split at stepped
      · cases stepped
        refine ⟨.known rfl fun q again => ?_, rfl⟩
        rw [performed] at again
        cases again
        exact other rfl
      · contradiction

/-! ## What a performed request changes -/

theorem Grip.holder (grip : Grip last s p) :
    s.renewal.popReceipt = p ∨ ∃ old, last = some (.renew old, p) := by
  cases grip.inHand with
  | deciding _ _ _ sync | cancelsHeartbeat _ _ _ _ sync =>
      cases sync with
      | known same => exact .inl same
      | renewed _ _ performed => exact .inr ⟨_, performed⟩
  | settles _ _ _ _ same => exact .inl same

theorem Grip.renewed {q : Receipt} (grip : Grip last s p) (inFlight : s.renewal.isInFlight = true)
    (same : s.renewal.popReceipt = p) (other : p ≠ q) : Grip (some (.renew p, q)) s q := by
  have sync : InSync (some (.renew p, q)) s.renewal q :=
    .renewed inFlight (same.symm ▸ other) (by rw [same])
  refine ⟨?_, grip.fit⟩
  cases grip.inHand with
  | deciding pc elsewhere due => exact .deciding pc elsewhere due sync (by simp)
  | cancelsHeartbeat pc plain idle calm => exact .cancelsHeartbeat pc plain idle calm sync (by simp)
  | settles _ _ _ ceased => simp [Renewal.isOver_not_inFlight ceased] at inFlight

theorem Grip.copied {settlement : Settlement} {text : String} {now : Option (Call × Receipt)}
    (grip : Grip last s p) (pc : s.pc = .settling settlement (.sendDeadLetter text)) :
    Grip now s p := by
  refine ⟨?_, grip.fit⟩
  cases grip.inHand with
  | deciding deciding => simp [pc, Pc.isDeciding] at deciding
  | cancelsHeartbeat other => simp [pc] at other
  | settles same idle calm ceased known pending =>
      rw [pc] at same
      cases same
      cases pending with
      | copies => exact .settles pc idle calm ceased known .copies

theorem Grip.unfinished (grip : Grip last s p) (result : Result) : s.pc ≠ .finished result := by
  intro finished
  cases grip.inHand with
  | deciding pc => simp [finished, Pc.isDeciding] at pc
  | cancelsHeartbeat pc | settles pc => simp [finished] at pc

theorem finished_stays {a : Action} {next : Step} {result : Result}
    (stepped : Delivery.step cfg s a = some next) (finished : s.pc = .finished result) :
    next.1.pc = .finished result := by
  cases step_cases stepped with
  | renewal | callbackEnds | absorbs | throws | aborts => exact finished
  | lockTaskRuns pc => simp [finished] at pc
  | answers pc => simp [finished] at pc
  | resumes resumed =>
      cases resumed with
      | awaits pc | concludes pc => simp [finished, Pc.isDeciding] at pc
      | proceeds pc | exits pc | exitInterrupted pc => simp [finished] at pc
      | letsOut out =>
          cases out with
          | callback pc => simp [finished, Pc.isDeciding] at pc
          | interrupted _ staying => exact absurd finished (staying result).2

/-! ## Steps that send nothing -/

theorem Grip.cancels {next : Step} (grip : Grip last s p) (running : isRunning s = true)
    (cancelled : cancel cfg s = some next) : Grip last next.1 p := by
  obtain ⟨inHand, fit⟩ := grip
  cases inHand with
  | cancelsHeartbeat _ _ idle => simp [running] at idle
  | settles _ idle => simp [running] at idle
  | deciding pc elsewhere due sync unsettled =>
      cases place : s.pc with
      | waiting =>
          simp only [cancel, place, Option.some.injEq] at cancelled
          subst cancelled
          exact ⟨.deciding rfl (by simp) (fun _ => rfl) sync unsettled, fit.kept, fit.unnoticed,
            fit.plain, fit.silent⟩
      | lostAwaitCallback => exact absurd place elsewhere
      | cancelAwaitLock | doneAwaitLock =>
          simp only [cancel, place, Option.some.injEq] at cancelled
          subst cancelled
          exact ⟨.deciding pc elsewhere due sync unsettled, fit⟩
      | cancelAwaitCallback =>
          simp only [cancel, place, running, ↓reduceIte, Option.some.injEq] at cancelled
          subst cancelled
          exact ⟨.deciding pc elsewhere due sync unsettled, fit⟩
      | _ => simp [place, Pc.isDeciding] at pc

theorem Grip.renews {refuses : Call → Prop} {a : RenewalAction} {r : Renewal}
    {events : List RenewalEvent} (grip : Grip last s p) (refusal : Refusal p refuses)
    (truthful : Truthful last refuses s.renewal a)
    (stepped : StorageQueue.heartbeat s.renewal a = some (r, events)) :
    Grip last { s with renewal := r } p := by
  obtain ⟨inHand, fit⟩ := grip
  have fits (kept : r.lockLost = s.renewal.lockLost) : Fit { s with renewal := r } :=
    ⟨kept.trans fit.kept, fit.unnoticed, fit.plain, fit.silent⟩
  cases inHand with
  | deciding pc elsewhere due sync unsettled =>
      obtain ⟨synced, kept⟩ := sync.renews refusal truthful stepped
      exact ⟨.deciding pc elsewhere due synced unsettled, fits kept⟩
  | cancelsHeartbeat pc plain idle calm sync unsettled =>
      obtain ⟨synced, same⟩ := sync.renews refusal truthful stepped
      exact ⟨.cancelsHeartbeat pc plain idle calm synced unsettled, fits same⟩
  | settles _ _ _ ceased =>
      have alive := (Renewal.heartbeat_cases stepped).alive
      simp [ceased] at alive

theorem Grip.answered {refuses : Call → Prop} {answer : Except String Unit} {next : Step}
    (grip : Grip last s p) (refusal : Refusal p refuses)
    (honest : Honest last refuses s (.answer answer))
    (stepped : Delivery.step cfg s (.answer answer) = some next) : Grip last next.1 p := by
  obtain ⟨inHand, fit⟩ := grip
  cases answer with
  | error text =>
      obtain ⟨settlement, request, pc, refused⟩ := honest
      cases inHand with
      | deciding deciding => simp [pc, Pc.isDeciding] at deciding
      | cancelsHeartbeat other => simp [pc] at other
      | settles same _ _ _ _ pending =>
          rw [pc] at same
          cases same
          exact absurd refused (pending.accepted refusal)
  | ok =>
      obtain ⟨settlement, request, q, pc, performed⟩ := honest
      cases inHand with
      | deciding deciding => simp [pc, Pc.isDeciding] at deciding
      | cancelsHeartbeat other => simp [pc] at other
      | settles same idle calm ceased known pending =>
          rw [pc] at same
          cases same
          cases pending with
          | updates unserved => exact absurd performed (unserved q)
          | deletes unserved => exact absurd performed (unserved q)
          | copies =>
              simp only [Delivery.step, pc, calm, Bool.false_eq_true, ↓reduceIte, settleAnswered,
                Option.some.injEq] at stepped
              subst stepped
              rw [known]
              refine ⟨.settles rfl idle rfl ceased known (.deletes fun q' again => ?_), fit.kept,
                fit.unnoticed, fit.plain, fit.silent⟩
              rw [performed] at again
              cases again

/-! ## To the first request -/

variable (storage : cfg.backend = .storageQueue) (readable : cfg.log.isReadable = true)
include storage readable

/-- With the heartbeat over, the first request carries the receipt of the message. -/
theorem Fit.proceeds {after : After} (fit : Fit s) (plain : after.isPlain = true)
    (ceased : s.renewal.isOver = true) (idle : isRunning s = false) (calm : s.interrupted = false)
    (sync : InSync last s.renewal p) (unsettled : ∀ request q, last ≠ some (.settle request, q)) :
    Grip last (proceed cfg s after).1 p := by
  obtain ⟨settlement, decided⟩ := decision_settles readable plain fit.silent
  have same := sync.ceased ceased
  obtain ⟨request, first, pending⟩ := first_pending (p := p) unsettled s.task settlement
  rw [← same] at first
  simp only [proceed, decided, settle, storage, first]
  exact ⟨.settles rfl idle calm ceased same pending, fit.kept, fit.unnoticed, fit.plain,
    fit.silent⟩

/-- The callback is over, and the heartbeat is told to stop. -/
theorem Fit.concludes {after : After} (fit : Fit s) (plain : after.isPlain = true)
    (idle : isRunning s = false) (calm : s.interrupted = false) (sync : InSync last s.renewal p)
    (unsettled : ∀ request q, last ≠ some (.settle request, q)) :
    Grip last (cancelHeartbeat cfg s after).1 p := by
  have stopped : Fit { s with renewal := { s.renewal with stop := true } } :=
    ⟨fit.kept, fit.unnoticed, fit.plain, fit.silent⟩
  unfold cancelHeartbeat
  dsimp only
  split
  · rename_i ceased
    exact stopped.proceeds storage readable plain ceased idle calm (sync.stopped true) unsettled
  · exact ⟨.cancelsHeartbeat rfl plain idle calm (sync.stopped true) unsettled, stopped.kept,
      stopped.unnoticed, stopped.plain, stopped.silent⟩

theorem Fit.resumes {next : Step} (fit : Fit s) (pc : s.pc.isDeciding = true)
    (elsewhere : s.pc ≠ .lostAwaitCallback) (calm : s.interrupted = false)
    (sync : InSync last s.renewal p) (unsettled : ∀ request q, last ≠ some (.settle request, q))
    (resumed : Resumes cfg s next) : Grip last next.1 p := by
  cases resumed with
  | awaits _ after _ noticed =>
      refine ⟨.deciding after (fun lost => ?_) (by simp) sync unsettled, fit.kept, fit.unnoticed,
        fit.plain, fit.silent⟩
      simp [fit.unnoticed] at noticed
      exact noticed lost
  | concludes _ conclusion =>
      obtain ⟨plain, idle⟩ := conclusion.ended fit elsewhere
      rw [calm_eq calm]
      exact fit.concludes storage readable plain idle calm sync unsettled
  | letsOut out =>
      cases out with
      | callback _ ended =>
          have plain := fit.plain _ ended
          contradiction
      | interrupted due => simp [calm] at due
  | proceeds other => simp [other, Pc.isDeciding] at pc
  | exits other => simp [other, Pc.isDeciding] at pc
  | exitInterrupted other => simp [other, Pc.isDeciding] at pc

/-! ## Every step -/

theorem Grip.resumes {next : Step} (grip : Grip last s p) (resumed : resume cfg s = some next) :
    Grip last next.1 p := by
  obtain ⟨inHand, fit⟩ := grip
  cases inHand with
  | deciding pc elsewhere due sync unsettled =>
      cases interrupted : s.interrupted with
      | true =>
          -- thrown into the wait for the callback, which has not seen the loss of the lock
          simp only [resume, interrupted, ↓reduceIte, interrupt, due interrupted, fit.unnoticed,
            Bool.false_eq_true, Option.some.injEq] at resumed
          subst resumed
          exact ⟨.deciding rfl (by simp) (by simp) sync unsettled, fit.kept, rfl, fit.plain,
            fit.silent⟩
      | false =>
          exact fit.resumes storage readable pc elsewhere interrupted sync unsettled (resume_cases resumed)
  | @cancelsHeartbeat after pc plain idle calm sync unsettled =>
      simp only [resume, calm, Bool.false_eq_true, ↓reduceIte, pc] at resumed
      split at resumed <;> cases resumed
      exact fit.proceeds storage readable plain ‹_› idle calm sync unsettled
  | settles pc _ calm => simp [resume, calm, pc] at resumed

theorem Grip.step {refuses : Call → Prop} {a : Action} {next : Step} (grip : Grip last s p)
    (refusal : Refusal p refuses) (honest : Honest last refuses s a)
    (stepped : Delivery.step cfg s a = some next) : Grip last next.1 p := by
  cases a with
  | renewal a =>
      simp only [Delivery.step, Renewal.step, storage] at stepped
      split at stepped <;> cases stepped
      exact grip.renews refusal honest ‹_›
  | callbackEnds outcome =>
      simp only [Delivery.step] at stepped
      split at stepped <;> cases stepped
      rename_i running
      obtain ⟨inHand, fit⟩ := grip
      cases inHand with
      | cancelsHeartbeat _ _ idle => simp [running] at idle
      | settles _ idle => simp [running] at idle
      | deciding pc elsewhere due sync unsettled =>
          refine ⟨.deciding pc elsewhere due sync unsettled, fit.kept, fit.unnoticed, ?_, fit.silent⟩
          rintro _ ⟨⟩
          exact honest
  | lockTaskRuns =>
      simp only [Delivery.step, grip.fit.kept] at stepped
      split at stepped <;> simp at stepped
  | cancel => exact grip.cancels honest stepped
  | resume => exact grip.resumes storage readable stepped
  | answer result => exact grip.answered refusal honest stepped

/-- A message that was just received is in hand. -/
theorem Grip.start {task : Task} {call : CallResult} (silent : task.replyRequested = false)
    (ended : ∀ outcome, call = .ended outcome → outcome.isPlain = true) :
    Grip none (start cfg task p call).1 p := by
  have starts := start_cases cfg task p call
  have fit : Fit (received cfg (prepared cfg task) p) :=
    ⟨rfl, rfl, by simp [received], (prepared_fields cfg task).2.1.trans silent⟩
  have sync : InSync none (received cfg (prepared cfg task) p).renewal p := .known rfl (by simp)
  generalize Delivery.start cfg task p call = next at starts
  cases starts with
  | waits => exact ⟨.deciding rfl (by simp [received]) (by simp [received]) sync (by simp), fit.kept,
      fit.unnoticed, by simp, fit.silent⟩
  | @called outcome _ next _ resumed =>
      have called : Fit { received cfg (prepared cfg task) p with callback := .ended outcome } := by
        refine ⟨fit.kept, fit.unnoticed, ?_, fit.silent⟩
        rintro _ ⟨⟩
        exact ended outcome rfl
      show Grip none next.1 p
      exact called.resumes storage readable rfl (by simp [received]) rfl sync (by simp) resumed
  | unreadable => exact fit.concludes storage readable rfl rfl rfl sync (by simp)

end Delivery

end JobQ
