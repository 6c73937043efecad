import JobQ.Library.Machine
import Mathlib.Logic.Function.Basic

/-!
# Queues with locks and duplicate detection

A broker numbers the messages that it accepts and hands them out under locks. Only the current lock
of a message renews or settles it, and any lock may end by itself. A message whose id is remembered
is dropped, and one that was handed out too often is moved to the dead letters.
-/

namespace PeekLock

structure Message (Id Content : Type*) where
  id : Id
  content : Content
  lock : Option Nat := none
  deliveries : Nat := 0

structure Broker (Id Content : Type*) where
  queue : Nat → Option (Message Id Content) := fun _ => none
  deadLetter : List (Nat × Message Id Content) := []
  /-- The ids that duplicate detection remembers. -/
  history : List Id := []
  nextNumber : Nat := 0
  nextToken : Nat := 0

inductive Op (Id Content : Type*) where
  | send (id : Id) (content : Content)
  | lock (n : Nat)
  | renew (n token : Nat)
  | abandon (n token : Nat)
  | complete (n token : Nat)
  | deadLetter (n token : Nat)
  | expire (n : Nat)
  | exceed (n : Nat)
  | forget (id : Id)

inductive Removal where
  | completed (token : Nat)
  | deadLettered (token : Nat)
  | exceeded
deriving DecidableEq

inductive Event (Id Content : Type*) where
  | accepted (n : Nat) (id : Id) (content : Content)
  | dropped (id : Id)
  | locked (n token : Nat)
  | renewed (n token : Nat)
  | released (n : Nat)
  | removed (n : Nat) (how : Removal)
  | forgot (id : Id)

variable {Id Content : Type*}

namespace Broker

def put (b : Broker Id Content) (n : Nat) (message : Option (Message Id Content)) :
    Broker Id Content :=
  { b with queue := Function.update b.queue n message }

def held (b : Broker Id Content) (n token : Nat) : Option (Message Id Content) :=
  (b.queue n).filter fun message => message.lock = some token

variable {b c : Broker Id Content} {message : Message Id Content} {n token : Nat}

@[simp]
theorem put_same (message : Option (Message Id Content)) : (b.put n message).queue n = message :=
  Function.update_self ..

@[simp]
theorem put_other {k : Nat} (message : Option (Message Id Content)) (other : k ≠ n) :
    (b.put n message).queue k = b.queue k :=
  Function.update_of_ne other ..

theorem held_cases (held : b.held n token = some message) :
    b.queue n = some message ∧ message.lock = some token := by
  simpa [Broker.held] using held

variable [DecidableEq Id]

def step (limit : Nat) (b : Broker Id Content) :
    Op Id Content → Option (Broker Id Content × List (Event Id Content))
  | .send id content =>
    if id ∈ b.history then some (b, [.dropped id])
    else
      some ({ b.put b.nextNumber (some { id, content }) with
        history := id :: b.history, nextNumber := b.nextNumber + 1 },
        [.accepted b.nextNumber id content])
  | .lock n =>
    match b.queue n with
    | some message =>
      if message.lock = none then
        some ({ b.put n (some { message with
            lock := some b.nextToken, deliveries := message.deliveries + 1 }) with
          nextToken := b.nextToken + 1 }, [.locked n b.nextToken])
      else none
    | none => none
  | .renew n token => (b.held n token).map fun _ => (b, [.renewed n token])
  | .abandon n token =>
    (b.held n token).map fun message =>
      (b.put n (some { message with lock := none }), [.released n])
  | .complete n token =>
    (b.held n token).map fun _ => (b.put n none, [.removed n (.completed token)])
  | .deadLetter n token =>
    (b.held n token).map fun message =>
      ({ b.put n none with deadLetter := b.deadLetter ++ [(n, message)] },
        [.removed n (.deadLettered token)])
  | .expire n =>
    (b.queue n).map fun message => (b.put n (some { message with lock := none }), [.released n])
  | .exceed n =>
    match b.queue n with
    | some message =>
      if message.lock = none ∧ limit ≤ message.deliveries then
        some ({ b.put n none with deadLetter := b.deadLetter ++ [(n, message)] },
          [.removed n .exceeded])
      else none
    | none => none
  | .forget id => some ({ b with history := b.history.filter (· ≠ id) }, [.forgot id])

end Broker

variable {b c : Broker Id Content} {n : Nat}

inductive Status (Id Content : Type*) where
  | unborn
  | queued (message : Message Id Content)
  | gone

def Broker.status (b : Broker Id Content) (n : Nat) : Status Id Content :=
  match b.queue n with
  | some message => .queued message
  | none => if n < b.nextNumber then .gone else .unborn

theorem status_queued {message : Message Id Content} (queued : b.queue n = some message) :
    b.status n = .queued message := by
  simp [Broker.status, queued]

theorem status_gone (gone : b.queue n = none) (known : n < b.nextNumber) : b.status n = .gone := by
  simp [Broker.status, gone, known]

theorem status_same (queue : c.queue n = b.queue n)
    (known : n < c.nextNumber ↔ n < b.nextNumber) : c.status n = b.status n := by
  unfold Broker.status
  rw [queue]
  cases b.queue n with
  | some message => rfl
  | none => simp only [known]

def Broker.Fresh (b : Broker Id Content) : Prop := ∀ n, b.nextNumber ≤ n → b.queue n = none

theorem Broker.Fresh.known (fresh : b.Fresh) {message : Message Id Content}
    (queued : b.queue n = some message) : n < b.nextNumber := by
  by_contra new
  rw [fresh n (by omega)] at queued
  cases queued

variable [DecidableEq Id]

def machine (limit : Nat) :
    Mealy.Machine (Broker Id Content) (Op Id Content) (Event Id Content) := ⟨Broker.step limit⟩

/-! ## What one step can do -/

variable {op : Op Id Content} {log es : List (Event Id Content)} {limit : Nat}

inductive Steps (limit : Nat) (b : Broker Id Content) :
    Op Id Content → Broker Id Content → List (Event Id Content) → Prop
  | drops {id : Id} {content : Content} (known : id ∈ b.history) :
      Steps limit b (.send id content) b [.dropped id]
  | accepts {id : Id} {content : Content} (fresh : id ∉ b.history) :
      Steps limit b (.send id content)
        { b.put b.nextNumber (some { id, content }) with
          history := id :: b.history, nextNumber := b.nextNumber + 1 }
        [.accepted b.nextNumber id content]
  | locks {n : Nat} {message : Message Id Content} (queued : b.queue n = some message)
      (free : message.lock = none) :
      Steps limit b (.lock n)
        { b.put n (some { message with
            lock := some b.nextToken, deliveries := message.deliveries + 1 }) with
          nextToken := b.nextToken + 1 } [.locked n b.nextToken]
  | renews {n token : Nat} {message : Message Id Content} (queued : b.queue n = some message)
      (current : message.lock = some token) : Steps limit b (.renew n token) b [.renewed n token]
  | releases {op : Op Id Content} {n : Nat} {message : Message Id Content}
      (queued : b.queue n = some message)
      (why : op = .expire n ∨ ∃ token, op = .abandon n token ∧ message.lock = some token) :
      Steps limit b op (b.put n (some { message with lock := none })) [.released n]
  | completes {n token : Nat} {message : Message Id Content} (queued : b.queue n = some message)
      (current : message.lock = some token) :
      Steps limit b (.complete n token) (b.put n none) [.removed n (.completed token)]
  | buries {op : Op Id Content} {n : Nat} {how : Removal} {message : Message Id Content}
      (queued : b.queue n = some message)
      (why : op = .exceed n ∧ how = .exceeded ∧ message.lock = none ∧ limit ≤ message.deliveries ∨
        ∃ token, op = .deadLetter n token ∧ how = .deadLettered token ∧
          message.lock = some token) :
      Steps limit b op { b.put n none with deadLetter := b.deadLetter ++ [(n, message)] }
        [.removed n how]
  | forgets {id : Id} :
      Steps limit b (.forget id) { b with history := b.history.filter (· ≠ id) } [.forgot id]

theorem step_cases (action : b.step limit op = some (c, es)) :
    Steps limit b op c es := by
  cases op with
  | send id content =>
      simp only [Broker.step] at action
      split at action <;> cases action
      · exact .drops ‹_›
      · exact .accepts ‹_›
  | lock n =>
      simp only [Broker.step] at action
      split at action
      · split at action <;> cases action
        exact .locks ‹_› ‹_›
      · contradiction
  | renew n token =>
      obtain ⟨message, held, same⟩ := Option.map_eq_some_iff.mp action
      cases same
      exact .renews (Broker.held_cases held).1 (Broker.held_cases held).2
  | abandon n token =>
      obtain ⟨message, held, same⟩ := Option.map_eq_some_iff.mp action
      cases same
      exact .releases (Broker.held_cases held).1 (.inr ⟨token, rfl, (Broker.held_cases held).2⟩)
  | complete n token =>
      obtain ⟨message, held, same⟩ := Option.map_eq_some_iff.mp action
      cases same
      exact .completes (Broker.held_cases held).1 (Broker.held_cases held).2
  | deadLetter n token =>
      obtain ⟨message, held, same⟩ := Option.map_eq_some_iff.mp action
      cases same
      exact .buries (Broker.held_cases held).1
        (.inr ⟨token, rfl, rfl, (Broker.held_cases held).2⟩)
  | expire n =>
      obtain ⟨message, queued, same⟩ := Option.map_eq_some_iff.mp action
      cases same
      exact .releases queued (.inl rfl)
  | exceed n =>
      simp only [Broker.step] at action
      split at action
      · split at action <;> cases action
        rename_i often
        exact .buries ‹_› (.inl ⟨rfl, rfl, often⟩)
      · contradiction
  | forget id =>
      cases action
      exact .forgets

theorem Steps.sends {id : Id} {content : Content} (stepped : Steps limit b (.send id content) c es) :
    id ∈ b.history ∧ es = [.dropped id] ∨ es = [.accepted b.nextNumber id content] := by
  cases stepped with
  | drops known => exact .inl ⟨known, rfl⟩
  | accepts => exact .inr rfl
  | releases _ why => rcases why with same | ⟨_, same, -⟩ <;> cases same
  | buries _ why => rcases why with ⟨same, -⟩ | ⟨_, same, -⟩ <;> cases same

theorem Steps.locking (stepped : Steps limit b (.lock n) c es) : es = [.locked n b.nextToken] := by
  cases stepped with
  | locks => rfl
  | releases _ why => rcases why with same | ⟨_, same, -⟩ <;> cases same
  | buries _ why => rcases why with ⟨same, -⟩ | ⟨_, same, -⟩ <;> cases same

theorem Steps.completing {token : Nat} (stepped : Steps limit b (.complete n token) c es) :
    es = [.removed n (.completed token)] := by
  cases stepped with
  | completes => rfl
  | releases _ why => rcases why with same | ⟨_, same, -⟩ <;> cases same
  | buries _ why => rcases why with ⟨same, -⟩ | ⟨_, same, -⟩ <;> cases same

theorem Steps.accepted (stepped : Steps limit b op c es) {id : Id} {content : Content}
    (accepted : .accepted n id content ∈ es) : op = .send id content := by
  cases stepped with
  | accepts =>
      cases List.mem_singleton.mp accepted
      rfl
  | _ => simp at accepted

theorem Steps.removed (stepped : Steps limit b op c es) {how : Removal}
    (removed : .removed n how ∈ es) :
    (∃ token, op = .complete n token ∧ how = .completed token) ∨
      (∃ token, op = .deadLetter n token ∧ how = .deadLettered token) ∨
        op = .exceed n ∧ how = .exceeded := by
  cases stepped with
  | completes =>
      cases List.mem_singleton.mp removed
      exact .inl ⟨_, rfl, rfl⟩
  | buries _ why =>
      cases List.mem_singleton.mp removed
      rcases why with ⟨exceeds, exceeded, -⟩ | ⟨token, buries, buried, -⟩
      · exact .inr (.inr ⟨exceeds, exceeded⟩)
      · exact .inr (.inl ⟨token, buries, buried⟩)
  | _ => simp at removed

theorem Steps.forgot (stepped : Steps limit b op c es) {id : Id} (forgot : .forgot id ∈ es) :
    op = .forget id := by
  cases stepped with
  | forgets =>
      cases List.mem_singleton.mp forgot
      rfl
  | _ => simp at forgot

/-! ## The life of one message -/

def Event.about (n : Nat) : Event Id Content → Bool
  | .accepted k _ _ | .locked k _ | .renewed k _ | .released k | .removed k _ => k = n
  | .dropped _ | .forgot _ => false

def Event.locks (n : Nat) : Event Id Content → Bool
  | .locked k _ => k = n
  | _ => false

/-- The token with which the event was brought about on message `n`. -/
def Event.token (n : Nat) : Event Id Content → Option Nat
  | .renewed k token | .removed k (.completed token) | .removed k (.deadLettered token) =>
    if k = n then some token else none
  | _ => none

def deliveries (n : Nat) (log : List (Event Id Content)) : Nat := log.countP (Event.locks n)

omit [DecidableEq Id] in
theorem deliveries_append (before after : List (Event Id Content)) :
    deliveries n (before ++ after) = deliveries n before + deliveries n after :=
  List.countP_append

/-- A message in this status has a life behind it in the log. -/
inductive Lives (limit n : Nat) : List (Event Id Content) → Status Id Content → Prop
  | nil : Lives limit n [] .unborn
  | elsewhere {log : List (Event Id Content)} {status : Status Id Content} {e : Event Id Content}
      (lives : Lives limit n log status) (other : e.about n = false) :
      Lives limit n (log ++ [e]) status
  | accepted {log : List (Event Id Content)} {id : Id} {content : Content}
      (lives : Lives limit n log .unborn) :
      Lives limit n (log ++ [.accepted n id content]) (.queued { id, content })
  | locked {log : List (Event Id Content)} {message : Message Id Content} {token : Nat}
      (lives : Lives limit n log (.queued message)) (free : message.lock = none) :
      Lives limit n (log ++ [.locked n token])
        (.queued { message with lock := some token, deliveries := message.deliveries + 1 })
  | renewed {log : List (Event Id Content)} {message : Message Id Content} {token : Nat}
      (lives : Lives limit n log (.queued message)) (current : message.lock = some token) :
      Lives limit n (log ++ [.renewed n token]) (.queued message)
  | released {log : List (Event Id Content)} {message : Message Id Content}
      (lives : Lives limit n log (.queued message)) :
      Lives limit n (log ++ [.released n]) (.queued { message with lock := none })
  | removed {log : List (Event Id Content)} {message : Message Id Content} {how : Removal}
      (lives : Lives limit n log (.queued message))
      (why : how = .exceeded ∧ limit ≤ message.deliveries ∨
        ∃ token, message.lock = some token ∧ (how = .completed token ∨ how = .deadLettered token)) :
      Lives limit n (log ++ [.removed n how]) .gone

theorem Steps.fresh (stepped : Steps limit b op c es) (fresh : b.Fresh) : c.Fresh := by
  have kept {k : Nat} {message : Message Id Content} (changed : Option (Message Id Content))
      (queued : b.queue k = some message) : (b.put k changed).Fresh := by
    intro m new
    have other : m ≠ k := by
      rintro rfl
      exact absurd (fresh.known queued) (Nat.not_lt.mpr new)
    rw [Broker.put_other changed other]
    exact fresh m new
  cases stepped with
  | drops => exact fresh
  | forgets => exact fresh
  | accepts =>
      intro m new
      have other : m ≠ b.nextNumber := by
        rintro rfl
        exact absurd new (Nat.not_succ_le_self _)
      exact (Broker.put_other _ other).trans (fresh m (Nat.le_of_succ_le new))
  | locks queued => exact kept _ queued
  | renews => exact fresh
  | releases queued => exact kept _ queued
  | completes queued => exact kept _ queued
  | buries queued => exact kept _ queued

theorem Steps.unconcerned {e : Event Id Content} (stepped : Steps limit b op c [e])
    (elsewhere : e.about n = false) : c.status n = b.status n := by
  have put {k : Nat} (message : Option (Message Id Content)) (other : ¬k = n) :
      (b.put k message).queue n = b.queue n := Broker.put_other message (Ne.symm other)
  cases stepped with
  | drops => rfl
  | forgets => rfl
  | accepts =>
      have other : ¬b.nextNumber = n := by simpa [Event.about] using elsewhere
      exact status_same (put _ other) (by show n < b.nextNumber + 1 ↔ _; omega)
  | locks => exact status_same (put _ (by simpa [Event.about] using elsewhere)) Iff.rfl
  | renews => rfl
  | releases => exact status_same (put _ (by simpa [Event.about] using elsewhere)) Iff.rfl
  | completes => exact status_same (put _ (by simpa [Event.about] using elsewhere)) Iff.rfl
  | buries => exact status_same (put _ (by simpa [Event.about] using elsewhere)) Iff.rfl

theorem Steps.concerned {e : Event Id Content} (stepped : Steps limit b op c [e])
    (fresh : b.Fresh) (lives : Lives limit n log (b.status n)) (about : e.about n = true) :
    Lives limit n (log ++ [e]) (c.status n) := by
  have becomes {status : Status Id Content} (next : Lives limit n (log ++ [e]) status)
      (after : c.status n = status) : Lives limit n (log ++ [e]) (c.status n) := after ▸ next
  cases stepped with
  | drops => cases about
  | forgets => cases about
  | accepts =>
      obtain rfl := of_decide_eq_true about
      have unborn : b.status b.nextNumber = .unborn := by
        simp [Broker.status, fresh b.nextNumber (Nat.le_refl _)]
      exact becomes (.accepted (unborn ▸ lives)) (status_queued (Broker.put_same _))
  | locks queued free =>
      obtain rfl := of_decide_eq_true about
      exact becomes (.locked (status_queued queued ▸ lives) free)
        (status_queued (Broker.put_same _))
  | renews queued current =>
      obtain rfl := of_decide_eq_true about
      exact becomes (.renewed (status_queued queued ▸ lives) current) (status_queued queued)
  | releases queued =>
      obtain rfl := of_decide_eq_true about
      exact becomes (.released (status_queued queued ▸ lives)) (status_queued (Broker.put_same _))
  | completes queued current =>
      obtain rfl := of_decide_eq_true about
      exact becomes (.removed (status_queued queued ▸ lives) (.inr ⟨_, current, .inl rfl⟩))
        (status_gone (Broker.put_same _) (fresh.known queued))
  | buries queued why =>
      obtain rfl := of_decide_eq_true about
      refine becomes (.removed (status_queued queued ▸ lives) ?_)
        (status_gone (Broker.put_same _) (fresh.known queued))
      rcases why with ⟨-, same, -, often⟩ | ⟨token, -, same, current⟩
      · exact .inl ⟨same, often⟩
      · exact .inr ⟨token, current, .inr same⟩

theorem Steps.single (stepped : Steps limit b op c es) : ∃ e, es = [e] := by
  cases stepped <;> exact ⟨_, rfl⟩

/-! ## Runs -/

theorem run_lives {G : Broker Id Content → Op Id Content → Prop}
    (run : Mealy.Run (machine limit) G ({}, []) log b) (n : Nat) :
    Lives limit n log (b.status n) := by
  have both : b.Fresh ∧ ∀ n, Lives limit n log (b.status n) := by
    refine run.invariant (P := fun log b => b.Fresh ∧ ∀ n, Lives limit n log (b.status n))
      ⟨fun _ _ => rfl, fun _ => .nil⟩ ?_
    intro log s op t new ⟨fresh, lives⟩ _ action
    have stepped := step_cases action
    obtain ⟨e, rfl⟩ := stepped.single
    refine ⟨stepped.fresh fresh, fun n => ?_⟩
    cases about : e.about n with
    | true => exact stepped.concerned fresh (lives n) about
    | false => exact stepped.unconcerned about ▸ .elsewhere (lives n) about
  exact both.2 n

theorem run_known {G : Broker Id Content → Op Id Content → Prop}
    (run : Mealy.Run (machine limit) G ({}, []) log b) {id : Id} (known : id ∈ b.history) :
    ∃ n content, .accepted n id content ∈ log := by
  refine run.invariant
    (P := fun log b => ∀ id ∈ b.history, ∃ n content, Event.accepted n id content ∈ log)
    (by simp) ?_ id known
  intro log s op t new before _ action id known
  have kept (old : id ∈ s.history) : ∃ n content, .accepted n id content ∈ log ++ new := by
    obtain ⟨n, content, member⟩ := before id old
    exact ⟨n, content, List.mem_append_left _ member⟩
  cases step_cases action with
  | @accepts other content =>
      rcases List.mem_cons.mp known with rfl | old
      · exact ⟨s.nextNumber, content, by simp⟩
      · exact kept old
  | forgets => exact kept (List.mem_of_mem_filter known)
  | _ => exact kept known

/-- Every token was given out before. -/
theorem run_tokens {G : Broker Id Content → Op Id Content → Prop}
    (run : Mealy.Run (machine limit) G ({}, []) log b) {n token : Nat}
    (locked : .locked n token ∈ log) : token < b.nextToken := by
  refine run.invariant
    (P := fun log b => ∀ n token, Event.locked n token ∈ log → token < b.nextToken)
    (by simp) ?_ n token locked
  intro log s op t new before _ action n token member
  rcases List.mem_append.mp member with old | new
  · have earlier := before n token old
    cases step_cases action with
    | locks => exact Nat.lt_succ_of_lt earlier
    | _ => exact earlier
  · cases step_cases action with
    | locks =>
        cases List.mem_singleton.mp new
        exact Nat.lt_succ_self _
    | _ => simp at new

/-! ## What a life says -/

section

omit [DecidableEq Id]

variable {status : Status Id Content} {message : Message Id Content}
  {before after : List (Event Id Content)}

theorem Lives.unborn (lives : Lives limit n log status) (unborn : status = .unborn) :
    ∀ e ∈ log, e.about n = false := by
  induction lives with
  | nil => simp
  | elsewhere _ other ih =>
      intro e member
      rcases List.mem_append.mp member with old | new
      · exact ih unborn e old
      · exact List.mem_singleton.mp new ▸ other
  | _ => cases unborn

theorem Lives.gone (lives : Lives limit n log status) (gone : status = .gone) :
    ∃ how, .removed n how ∈ log := by
  induction lives with
  | elsewhere _ _ ih =>
      obtain ⟨how, member⟩ := ih gone
      exact ⟨how, List.mem_append_left _ member⟩
  | @removed _ _ how => exact ⟨how, by simp⟩
  | _ => cases gone

/-- How message `n` was accepted, and that it has kept its id and its content. -/
structure Origin (n : Nat) (log : List (Event Id Content)) (status : Status Id Content) (id : Id)
    (content : Content) : Prop where
  accepted : .accepted n id content ∈ log
  single : ∀ other text, .accepted n other text ∈ log → other = id ∧ text = content
  kept : ∀ message, status = .queued message → message.id = id ∧ message.content = content

theorem Origin.next {id : Id} {content : Content} {later : Status Id Content}
    {e : Event Id Content} (origin : Origin n log status id content)
    (other : ∀ id content, e ≠ .accepted n id content)
    (kept : ∀ message, later = .queued message → message.id = id ∧ message.content = content) :
    Origin n (log ++ [e]) later id content := by
  refine ⟨List.mem_append_left _ origin.accepted, fun id' content' member => ?_, kept⟩
  rcases List.mem_append.mp member with old | new
  · exact origin.single _ _ old
  · exact absurd (List.mem_singleton.mp new).symm (other _ _)

theorem Lives.origin (lives : Lives limit n log status) :
    status = .unborn ∨ ∃ id content, Origin n log status id content := by
  -- what happens to a queued message changes neither its id nor its content
  have queued {log : List (Event Id Content)} {message : Message Id Content}
      {later : Status Id Content} {e : Event Id Content}
      (ih : Status.queued message = .unborn ∨ ∃ id content, Origin n log (.queued message) id content)
      (other : ∀ id content, e ≠ .accepted n id content)
      (kept : ∀ next, later = .queued next → next.id = message.id ∧ next.content = message.content) :
      later = .unborn ∨ ∃ id content, Origin n (log ++ [e]) later id content := by
    rcases ih with unborn | ⟨id, content, origin⟩
    · cases unborn
    · have same := origin.kept message rfl
      exact .inr ⟨id, content, origin.next other fun next is =>
        ⟨(kept next is).1.trans same.1, (kept next is).2.trans same.2⟩⟩
  induction lives with
  | nil => exact .inl rfl
  | elsewhere _ other ih =>
      rcases ih with unborn | ⟨id, content, origin⟩
      · exact .inl unborn
      · refine .inr ⟨id, content, origin.next ?_ origin.kept⟩
        rintro _ _ rfl
        simp [Event.about] at other
  | @accepted log id content lives =>
      refine .inr ⟨id, content, by simp, fun other text member => ?_, ?_⟩
      · rcases List.mem_append.mp member with old | new
        · have none := lives.unborn rfl _ old
          simp [Event.about] at none
        · cases List.mem_singleton.mp new
          exact ⟨rfl, rfl⟩
      · rintro _ ⟨⟩
        exact ⟨rfl, rfl⟩
  | locked _ _ ih =>
      refine queued ih (by simp) ?_
      rintro _ ⟨⟩
      exact ⟨rfl, rfl⟩
  | renewed _ _ ih =>
      refine queued ih (by simp) ?_
      rintro _ ⟨⟩
      exact ⟨rfl, rfl⟩
  | released _ ih =>
      refine queued ih (by simp) ?_
      rintro _ ⟨⟩
      exact ⟨rfl, rfl⟩
  | removed _ _ ih => exact queued ih (by simp) (by simp)

theorem Lives.accepted_once (lives : Lives limit n log status) {id other : Id}
    {content text : Content} (first : .accepted n id content ∈ log)
    (second : .accepted n other text ∈ log) : other = id ∧ text = content := by
  rcases lives.origin with unborn | ⟨_, _, origin⟩
  · have none := lives.unborn unborn _ first
    simp [Event.about] at none
  · obtain ⟨rfl, rfl⟩ := origin.single _ _ first
    exact origin.single _ _ second

theorem Event.silent {e : Event Id Content} (other : e.about n = false) :
    e.locks n = false ∧ e ≠ .released n := by
  cases e with
  | locked => exact ⟨other, by simp⟩
  | released =>
      refine ⟨rfl, ?_⟩
      rintro ⟨⟩
      simp [about] at other
  | _ => simp [locks]

theorem Event.about_of_token {e : Event Id Content} {token : Nat}
    (by_token : e.token n = some token) : e.about n = true := by
  unfold Event.token at by_token
  split at by_token
  · simp [about, (Option.ite_none_right_eq_some.mp by_token).1]
  · simp [about, (Option.ite_none_right_eq_some.mp by_token).1]
  · simp [about, (Option.ite_none_right_eq_some.mp by_token).1]
  · cases by_token

theorem Lives.deliveries (lives : Lives limit n log status) (queued : status = .queued message) :
    message.deliveries = PeekLock.deliveries n log := by
  induction lives generalizing message with
  | nil => cases queued
  | elsewhere _ other ih => simp [PeekLock.deliveries, (Event.silent other).1, ih queued]
  | accepted lives =>
      cases queued
      refine (List.countP_eq_zero.mpr fun e member => ?_).symm
      rcases List.mem_append.mp member with old | new
      · simp [(Event.silent (lives.unborn rfl e old)).1]
      · cases List.mem_singleton.mp new
        simp [Event.locks]
  | removed => cases queued
  | _ =>
      rename_i ih
      cases queued
      simp [PeekLock.deliveries, Event.locks, ih rfl]

/-- The last that happened to the locks of message `n` is that this token was given out. -/
def Current (n : Nat) (log : List (Event Id Content)) (token : Nat) : Prop :=
  ∃ before after, log = before ++ .locked n token :: after ∧
    ∀ e ∈ after, e.locks n = false ∧ e ≠ .released n

theorem Current.next {token : Nat} {e : Event Id Content} (current : Current n log token)
    (silent : e.locks n = false) (kept : e ≠ .released n) : Current n (log ++ [e]) token := by
  obtain ⟨before, after, rfl, quiet⟩ := current
  refine ⟨before, after ++ [e], by simp, fun f member => ?_⟩
  rcases List.mem_append.mp member with old | new
  · exact quiet f old
  · exact List.mem_singleton.mp new ▸ ⟨silent, kept⟩

theorem Lives.current {token : Nat} (lives : Lives limit n log status)
    (queued : status = .queued message) (held : message.lock = some token) :
    Current n log token := by
  induction lives generalizing message with
  | nil => cases queued
  | elsewhere _ other ih =>
      have quiet := Event.silent other
      exact (ih queued held).next quiet.1 quiet.2
  | accepted =>
      cases queued
      cases held
  | @locked log _ _ _ _ _ =>
      cases queued
      cases held
      exact ⟨log, [], rfl, by simp⟩
  | renewed _ _ ih =>
      cases queued
      exact (ih rfl held).next rfl (by simp)
  | released =>
      cases queued
      cases held
  | removed => cases queued

/-- Whatever is done to a message with a token is done while that token is its last lock. -/
theorem Lives.by_holder (lives : Lives limit n log status) {e : Event Id Content} {token : Nat}
    (split : log = before ++ e :: after) (by_token : e.token n = some token) :
    Current n before token := by
  induction lives generalizing before after with
  | nil => simp at split
  | elsewhere lives other ih =>
      rcases Mealy.split_snoc split with ⟨rest, earlier, -⟩ | ⟨rfl, rfl, -⟩
      · exact ih earlier
      · rw [Event.about_of_token by_token] at other
        cases other
  | accepted _ ih | locked _ _ ih | released _ ih =>
      rcases Mealy.split_snoc split with ⟨rest, earlier, -⟩ | ⟨rfl, rfl, -⟩
      · exact ih earlier
      · cases by_token
  | @renewed _ _ held lives current ih =>
      rcases Mealy.split_snoc split with ⟨rest, earlier, -⟩ | ⟨rfl, rfl, -⟩
      · exact ih earlier
      · have same : held = token := by simpa [Event.token] using by_token
        exact same ▸ lives.current rfl current
  | removed lives why ih =>
      rcases Mealy.split_snoc split with ⟨rest, earlier, -⟩ | ⟨rfl, rfl, -⟩
      · exact ih earlier
      · rcases why with ⟨rfl, -⟩ | ⟨held, current, rfl | rfl⟩
        · cases by_token
        all_goals
          have same : held = token := by simpa [Event.token] using by_token
          exact same ▸ lives.current rfl current

/-- Nothing happens to a message once it is removed. -/
theorem Lives.after_removal (lives : Lives limit n log status) {how : Removal}
    (split : log = before ++ .removed n how :: after) :
    status = .gone ∧ ∀ e ∈ after, e.about n = false := by
  induction lives generalizing before after with
  | nil => simp at split
  | elsewhere lives other ih =>
      rcases Mealy.split_snoc split with ⟨rest, earlier, rfl⟩ | ⟨rfl, rfl, -⟩
      · obtain ⟨gone, quiet⟩ := ih earlier
        refine ⟨gone, fun e member => ?_⟩
        rcases List.mem_append.mp member with old | new
        · exact quiet e old
        · exact List.mem_singleton.mp new ▸ other
      · simp [Event.about] at other
  | removed lives why ih =>
      rcases Mealy.split_snoc split with ⟨rest, earlier, -⟩ | ⟨-, -, rfl⟩
      · cases (ih earlier).1
      · exact ⟨rfl, by simp⟩
  | _ =>
      rename_i ih
      rcases Mealy.split_snoc split with ⟨rest, earlier, -⟩ | ⟨-, same, -⟩
      · cases (ih earlier).1
      · cases same

/-- A message that is buried without a lock has been handed out as often as the limit says. -/
theorem Lives.exceeded (lives : Lives limit n log status)
    (split : log = before ++ .removed n .exceeded :: after) :
    limit ≤ PeekLock.deliveries n before := by
  induction lives generalizing before after with
  | nil => simp at split
  | removed lives why ih =>
      rcases Mealy.split_snoc split with ⟨rest, earlier, -⟩ | ⟨rfl, same, -⟩
      · exact ih earlier
      · cases same
        rcases why with ⟨-, often⟩ | ⟨_, _, same | same⟩
        · exact lives.deliveries rfl ▸ often
        · cases same
        · cases same
  | elsewhere _ other ih =>
      rcases Mealy.split_snoc split with ⟨rest, earlier, -⟩ | ⟨-, rfl, -⟩
      · exact ih earlier
      · simp [Event.about] at other
  | _ =>
      rename_i ih
      rcases Mealy.split_snoc split with ⟨rest, earlier, -⟩ | ⟨-, same, -⟩
      · exact ih earlier
      · cases same

/-! ## Duplicates and dead letters -/

/-- Each acceptance of the id has been forgotten. -/
def Forgotten (id : Id) (log : List (Event Id Content)) : Prop :=
  ∀ n content before after, log = before ++ .accepted n id content :: after → .forgot id ∈ after

theorem Forgotten.next {id : Id} {e : Event Id Content} (forgotten : Forgotten id log)
    (other : ∀ n content, e ≠ .accepted n id content) : Forgotten id (log ++ [e]) := by
  intro n content before after split
  rcases Mealy.split_snoc split with ⟨rest, earlier, rfl⟩ | ⟨-, same, -⟩
  · exact List.mem_append_left _ (forgotten _ _ _ _ earlier)
  · exact absurd same.symm (other n content)

theorem Forgotten.forgot (id : Id) (log : List (Event Id Content)) :
    Forgotten id (log ++ [.forgot id]) := by
  intro n content before after split
  rcases Mealy.split_snoc split with ⟨rest, -, rfl⟩ | ⟨-, same, -⟩
  · simp
  · cases same

/-- The dead letters are the messages that were removed and not completed, as they were accepted. -/
structure Buries (log : List (Event Id Content)) (b : Broker Id Content) : Prop where
  removed : ∀ {n message}, (n, message) ∈ b.deadLetter →
    .accepted n message.id message.content ∈ log ∧
      ∃ how, .removed n how ∈ log ∧ ∀ token, how ≠ .completed token
  buried : ∀ {n how}, .removed n how ∈ log → (∀ token, how ≠ .completed token) →
    ∃ message, (n, message) ∈ b.deadLetter

theorem Buries.unchanged {e : Event Id Content} (buries : Buries log b)
    (same : c.deadLetter = b.deadLetter)
    (other : ∀ n how, e = .removed n how → ∃ token, how = .completed token) :
    Buries (log ++ [e]) c := by
  refine ⟨fun member => ?_, fun member open_ => ?_⟩
  · obtain ⟨accepted, how, removed, why⟩ := buries.removed (same ▸ member)
    exact ⟨List.mem_append_left _ accepted, how, List.mem_append_left _ removed, why⟩
  · rcases List.mem_append.mp member with old | new
    · exact same ▸ buries.buried old open_
    · obtain ⟨token, done⟩ := other _ _ (List.mem_singleton.mp new).symm
      exact absurd done (open_ token)

end

theorem Steps.forgotten {e : Event Id Content} (stepped : Steps limit b op c [e])
    (remembers : ∀ id, id ∉ b.history → Forgotten id log) :
    ∀ id, id ∉ c.history → Forgotten id (log ++ [e]) := by
  intro id unknown
  cases stepped with
  | accepts =>
      have new := List.ne_and_not_mem_of_not_mem_cons unknown
      refine (remembers id new.2).next ?_
      rintro _ _ ⟨⟩
      exact new.1 rfl
  | @forgets other =>
      by_cases same : id = other
      · exact same ▸ .forgot id log
      · exact (remembers id fun known => unknown (by simp [known, same])).next (by simp)
  | _ => exact (remembers id unknown).next (by simp)

theorem run_remembers {G : Broker Id Content → Op Id Content → Prop}
    (run : Mealy.Run (machine limit) G ({}, []) log b) :
    ∀ id, id ∉ b.history → Forgotten id log := by
  refine run.invariant (P := fun log b => ∀ id, id ∉ b.history → Forgotten id log) ?_ ?_
  · intro id _ n content before after split
    simp at split
  · intro log s op t new remembers _ action
    have stepped := step_cases action
    obtain ⟨e, rfl⟩ := stepped.single
    exact stepped.forgotten remembers

/-- An id that is accepted again has been forgotten in between. -/
theorem accepted_again {G : Broker Id Content → Op Id Content → Prop}
    (run : Mealy.Run (machine limit) G ({}, []) log b) {n m : Nat} {id : Id}
    {content text : Content} {before between after : List (Event Id Content)}
    (split : log = before ++ .accepted n id content :: between ++ .accepted m id text :: after) :
    .forgot id ∈ between := by
  induction run generalizing after with
  | refl => simp at split
  | @next log s t op new previous meets action ih =>
      have stepped := step_cases action
      obtain ⟨e, rfl⟩ := stepped.single
      rcases Mealy.split_snoc split with ⟨rest, earlier, -⟩ | ⟨same, rfl, -⟩
      · exact ih earlier
      · cases stepped with
        | accepts fresh => exact run_remembers previous _ fresh _ _ _ _ same.symm

theorem accepted_twice {G : Broker Id Content → Op Id Content → Prop}
    (run : Mealy.Run (machine limit) G ({}, []) log b) {n m : Nat} {id : Id}
    {content text : Content} (first : .accepted n id content ∈ log)
    (second : .accepted m id text ∈ log) (remembered : .forgot id ∉ log) : n = m := by
  obtain ⟨before, after, split⟩ := List.append_of_mem first
  have member := second
  rw [split] at member
  rcases List.mem_append.mp member with earlier | later
  · obtain ⟨front, between, rfl⟩ := List.append_of_mem earlier
    have forgot := accepted_again run split
    exact absurd (by simp [split, forgot]) remembered
  · rcases List.mem_cons.mp later with same | later
    · cases same
      rfl
    · obtain ⟨between, rest, rfl⟩ := List.append_of_mem later
      have forgot := accepted_again run
        (split.trans (List.append_assoc before (.accepted n id content :: between) _).symm)
      exact absurd (by simp [split, forgot]) remembered

theorem Steps.deadLetter {e : Event Id Content} (stepped : Steps limit b op c [e])
    (lives : ∀ n, Lives limit n log (b.status n)) (buries : Buries log b) :
    Buries (log ++ [e]) c := by
  cases stepped with
  | completes => exact buries.unchanged rfl (by simp)
  | @buries _ n how message queued why =>
      have own : .accepted n message.id message.content ∈ log := by
        rcases (lives n).origin with unborn | ⟨id, content, origin⟩
        · rw [status_queued queued] at unborn
          cases unborn
        · obtain ⟨rfl, rfl⟩ := origin.kept message (status_queued queued)
          exact origin.accepted
      have open_ : ∀ token, how ≠ .completed token := by
        rintro token rfl
        rcases why with ⟨-, same, -⟩ | ⟨_, -, same, -⟩ <;> cases same
      refine ⟨fun member => ?_, fun member why => ?_⟩
      · rcases List.mem_append.mp member with old | new
        · obtain ⟨accepted, how, removed, why⟩ := buries.removed old
          exact ⟨List.mem_append_left _ accepted, how, List.mem_append_left _ removed, why⟩
        · cases List.mem_singleton.mp new
          exact ⟨List.mem_append_left _ own, how, by simp, open_⟩
      · rcases List.mem_append.mp member with old | new
        · obtain ⟨message, member⟩ := buries.buried old why
          exact ⟨message, List.mem_append_left _ member⟩
        · cases List.mem_singleton.mp new
          exact ⟨message, by simp⟩
  | _ => exact buries.unchanged rfl (by simp)

theorem run_buries {G : Broker Id Content → Op Id Content → Prop}
    (run : Mealy.Run (machine limit) G ({}, []) log b) : Buries log b := by
  induction run with
  | refl => exact ⟨by simp, by simp⟩
  | next previous meets action ih =>
      have stepped := step_cases action
      obtain ⟨e, rfl⟩ := stepped.single
      exact stepped.deadLetter (run_lives previous) ih

end PeekLock
