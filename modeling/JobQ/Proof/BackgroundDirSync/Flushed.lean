import JobQ.Proof.Syncer.LostUpdate
import JobQ.Proof.BackgroundDirSync.Steps

/-!
# Flush means flushed

A `flush` that finds no pass under way waits for one that began later. That one has copied what was
complete when `flush` was called.
-/

namespace JobQ.BackgroundDirSync

variable {Content : Type*} {c : Syncer.Config} {s t : State Content} {a : Action Content}
  {log new : List Event} {i j : Nat} {content : Content}

/-- What the job has written, and for each caller what the source held when it last called `flush`,
less the files that were written since. -/
structure Ledger (Content : Type*) where
  history : Syncer.History Content := {}
  owed : Nat → Nat → Option Content := fun _ _ => none

def sourceContent (s : Syncer.State Content) (j : Nat) : Option Content :=
  ((s.files[j]?).bind Syncer.File.src).map Syncer.Inode.content

def Ledger.record (l : Ledger Content) (s : State Content) (a : Action Content) (_ : List Event) :
    Ledger Content :=
  match a with
  | .syncer (.writes j content) =>
    { history := l.history.record s.syncer (.writes j content) []
      owed := fun i k => if k = j then none else l.owed i k }
  | .syncer a => { l with history := l.history.record s.syncer a [] }
  | .calls i _ =>
    { l with owed := fun k j => if k = i then sourceContent s.syncer j else l.owed k j }
  | _ => l

def ledgerMachine (Content : Type*) (c : Syncer.Config) :
    Mealy.Machine (State Content × Ledger Content) (Action Content) Event :=
  (machine Content c).withHistory Ledger.record

/-- `flush` is called before the end of `shutdown` and while no pass is under way, no pass fails, and
the job keeps off the files that are being copied. -/
def flushesFresh (c : Syncer.Config) (s : State Content) : Action Content → Bool
  | .calls _ true => s.main ≠ .done && s.process ≠ .syncing && s.process ≠ .signalling
  | .syncer .raises => false
  | .syncer a => Syncer.keepsOff c s.syncer a
  | _ => true

/-- Where a `flush` has returned, the destination holds what the source held when it was called. -/
def Flushed (c : Syncer.Config) (s : State Content) (l : Ledger Content) : Prop :=
  ∀ i j content, s.callers[i]? = some .returned → l.owed i j = some content → c.skips j = false →
    ∃ f dst, s.syncer.files[j]? = some f ∧ f.dst = some dst ∧ dst.content = content

/-! ## The invariant -/

def CallerPc.waits : CallerPc → Bool
  | .idle | .setting false => false
  | _ => true

def CallerPc.released : CallerPc → Bool
  | .woken | .returned => true
  | _ => false

/-- The pass that is under way counts for the file, and has covered it when the event is set. -/
structure Covered (s : State Content) (h : Syncer.History Content) (pc : CallerPc) (j : Nat) : Prop where
  syncing : s.process = .syncing → h.begun j = true ∨ h.swept j = true
  swept : s.process = .signalling ∨ s.doneEvent = true ∨ pc.released = true → h.swept j = true

structure Promised (c : Syncer.Config) (s : State Content) (l : Ledger Content) : Prop where
  safe : Syncer.Safe c s.syncer l.history
  last : ∀ i j content, l.owed i j = some content → c.skips j = false →
    l.history.last j = some content
  covered : ∀ i pc, s.callers[i]? = some pc → pc.waits = true → ∀ j content,
    l.owed i j = some content → c.skips j = false → Covered s l.history pc j

variable {l : Ledger Content}

theorem source_last {s : Syncer.State Content} {h : Syncer.History Content}
    (safe : Syncer.Safe c s h) (wanted : c.skips j = false) (held : sourceContent s j = some content) :
    h.last j = some content := by
  obtain ⟨src, found, rfl⟩ := Option.map_eq_some_iff.mp held
  obtain ⟨f, stored, source⟩ := Option.bind_eq_some_iff.mp found
  have file := safe.files j f stored wanted
  cases last : h.last j with
  | none =>
      have unwritten := (file.unwritten last).1
      rw [source] at unwritten
      contradiction
  | some content => rw [(file.kept content last).source source]

theorem waits_wake (pc : CallerPc) : pc.wake.waits = pc.waits := by
  cases pc <;> rfl

section

variable (promised : Promised c s l)
include promised

theorem Promised.returned : Flushed c s l := by
  intro i j content returned owed wanted
  have last := promised.last i j content owed wanted
  have covered := promised.covered i _ returned rfl j content owed wanted
  have swept := covered.swept (.inr (.inr rfl))
  exact promised.safe.nothingLost j content last swept wanted

theorem Promised.aside (syncer : t.syncer = s.syncer) (callers : t.callers = s.callers)
    (process : t.process = .syncing ∨ t.process = .signalling → t.process = s.process)
    (done : t.doneEvent = true → s.doneEvent = true) : Promised c t l where
  safe := syncer ▸ promised.safe
  last := promised.last
  covered i pc found waits j content owed wanted := by
    have covered := promised.covered i pc (callers ▸ found) waits j content owed wanted
    refine ⟨fun syncing => ?_, fun signalled => ?_⟩
    · apply covered.syncing
      rw [← process (.inl syncing), syncing]
    · apply covered.swept
      rcases signalled with signalling | set | released
      · exact .inl (by rw [← process (.inr signalling), signalling])
      · exact .inr (.inl (done set))
      · exact .inr (.inr released)

theorem Promised.moves {pc : CallerPc} (syncer : t.syncer = s.syncer) (process : t.process = s.process)
    (done : t.doneEvent = s.doneEvent) (callers : t.callers = s.callers.set i pc)
    (from' : pc.waits = true → ∃ old, s.callers[i]? = some old ∧ old.waits = true ∧
      (pc.released = true → s.doneEvent = true ∨ old.released = true)) : Promised c t l where
  safe := syncer ▸ promised.safe
  last := promised.last
  covered k other found waits j content owed wanted := by
    rw [callers] at found
    rcases Pool.set_cases found with ⟨rfl, rfl⟩ | ⟨-, earlier⟩
    · obtain ⟨old, before, waited, released⟩ := from' waits
      have covered := promised.covered k old before waited j content owed wanted
      refine ⟨process ▸ covered.syncing, fun signalled => ?_⟩
      apply covered.swept
      rw [process, done] at signalled
      rcases signalled with signalling | set | now
      · exact .inl signalling
      · exact .inr (.inl set)
      · exact .inr (released now)
    · have covered := promised.covered k other earlier waits j content owed wanted
      exact ⟨process ▸ covered.syncing, process ▸ done ▸ covered.swept⟩

theorem Promised.caller (stepped : CallerSteps s i t) : Promised c t l := by
  cases stepped with
  | @sets wait pc =>
      refine promised.moves rfl rfl rfl rfl fun waits => ?_
      cases wait with
      | true => exact ⟨_, pc, rfl, by simp [CallerPc.released]⟩
      | false => simp [CallerPc.waits] at waits
  | goesOn pc set => exact promised.moves rfl rfl rfl rfl fun _ => ⟨_, pc, rfl, fun _ => .inl set⟩
  | blocks pc clear =>
      exact promised.moves rfl rfl rfl rfl fun _ => ⟨_, pc, rfl, by simp [CallerPc.released]⟩
  | wakes pc => exact promised.moves rfl rfl rfl rfl fun _ => ⟨_, pc, rfl, fun _ => .inr rfl⟩
  | leaves pc => exact promised.moves rfl rfl rfl rfl (by simp [CallerPc.waits])

theorem Promised.signals (pc : s.process = .signalling) :
    Promised c { setDone s with process := .testingFlush } l where
  safe := promised.safe
  last := promised.last
  covered i pc' found waits j content owed wanted := by
    obtain ⟨old, before, rfl⟩ : ∃ old, s.callers[i]? = some old ∧ old.wake = pc' := by
      simpa [setDone] using found
    have covered := promised.covered i old before (waits_wake old ▸ waits) j content owed wanted
    exact ⟨by simp, fun _ => covered.swept (.inl pc)⟩

theorem Promised.process (stepped : ProcessSteps s t new) : Promised c t l := by
  cases stepped with
  | signals pc => exact promised.signals pc
  | _ => exact promised.aside rfl rfl (by simp) id

theorem Promised.listener (stepped : ListenerSteps s t) : Promised c t l := by
  cases stepped with
  | clears => exact promised.aside rfl rfl (fun _ => rfl) (by simp)
  | _ => exact promised.aside rfl rfl (fun _ => rfl) id

theorem Promised.main (stepped : MainSteps s t new) : Promised c t l := by
  cases stepped <;> exact promised.aside rfl rfl (fun _ => rfl) id

/-- A caller that comes now is owed what the source holds now. -/
theorem Promised.calls {pc : CallerPc} {done wait : Bool} (clear : done = true → s.doneEvent = true)
    (fresh : pc.waits = true → s.process ≠ .syncing ∧
      ¬(s.process = .signalling ∨ done = true ∨ pc.released = true)) :
    Promised c { s with doneEvent := done, callers := s.callers.set i pc }
      (l.record s (.calls i wait) []) where
  safe := promised.safe
  last k j content owed wanted := by
    by_cases same : k = i
    · simp only [Ledger.record, same, if_true] at owed
      exact source_last promised.safe wanted owed
    · simp only [Ledger.record, same, if_false] at owed
      exact promised.last k j content owed wanted
  covered k other found waits j content owed wanted := by
    rcases Pool.set_cases found with ⟨rfl, rfl⟩ | ⟨same, earlier⟩
    · obtain ⟨notSyncing, notSignalled⟩ := fresh waits
      exact ⟨fun syncing => absurd syncing notSyncing, fun signalled => absurd signalled notSignalled⟩
    · simp only [Ledger.record, same, if_false] at owed
      have covered := promised.covered k other earlier waits j content owed wanted
      exact ⟨covered.syncing, fun signalled => covered.swept (signalled.imp_right (.imp_left clear))⟩

theorem Promised.syncs {b : Syncer.Action Content} {syncer : Syncer.State Content}
    (meets : Syncer.keepsOff c s.syncer b = true)
    (stepped : Syncer.step c s.syncer b = some (syncer, [])) :
    Promised c { s with syncer } (l.record s (.syncer b) []) := by
  have safe := promised.safe.step stepped meets
  have quiet := syncer_events stepped
  cases b with
  | writes k content =>
      refine ⟨safe, fun i j other owed wanted => ?_, fun i pc found waits j other owed wanted => ?_⟩
      · simp only [Ledger.record] at owed
        split at owed
        · contradiction
        · rename_i untouched
          simpa [Ledger.record, Syncer.History.record, untouched]
            using promised.last i j other owed wanted
      · simp only [Ledger.record] at owed
        split at owed
        · contradiction
        · rename_i untouched
          have covered := promised.covered i pc found waits j other owed wanted
          refine ⟨?_, ?_⟩
          · simpa [Ledger.record, Syncer.History.record, untouched] using covered.syncing
          · simpa [Ledger.record, Syncer.History.record, untouched] using covered.swept
  | ticks | handles =>
      exact ⟨safe, promised.last, fun i pc found waits j content owed wanted =>
        have covered := promised.covered i pc found waits j content owed wanted
        ⟨covered.syncing, covered.swept⟩⟩
  | begins | ends | raises => cases quiet

theorem Promised.begins {syncer : Syncer.State Content}
    (stepped : Syncer.step c s.syncer .begins = some (syncer, [.began])) :
    Promised c { s with syncer, process := .syncing } (l.record s (.syncer .begins) []) where
  safe := promised.safe.step stepped rfl
  last := promised.last
  covered i other found waits j content owed wanted := by
    have covered := promised.covered i other found waits j content owed wanted
    refine ⟨fun _ => .inl rfl, fun signalled => ?_⟩
    apply covered.swept
    rcases signalled with signalling | set
    · contradiction
    · exact .inr set

theorem Promised.ends {syncer : Syncer.State Content} (pc : s.process = .syncing)
    (stepped : Syncer.step c s.syncer .ends = some (syncer, [.ended])) :
    Promised c { s with syncer, process := .signalling } (l.record s (.syncer .ends) []) where
  safe := promised.safe.step stepped rfl
  last := promised.last
  covered i other found waits j content owed wanted := by
    have covered := promised.covered i other found waits j content owed wanted
    refine ⟨by simp, fun _ => ?_⟩
    show (l.history.swept j || l.history.begun j) = true
    rw [Bool.or_eq_true, Or.comm]
    exact covered.syncing pc

theorem Promised.step (stepped : Steps c s a t new) (meets : flushesFresh c s a = true) :
    Promised c t (l.record s a new) := by
  cases stepped with
  | @aside b _ stepped =>
      have keeps : Syncer.keepsOff c s.syncer b = true := by
        cases b with
        | raises => simp [flushesFresh] at meets
        | _ => exact meets
      exact promised.syncs keeps stepped
  | begins _ stepped => exact promised.begins stepped
  | ends pc stepped => exact promised.ends pc stepped
  | raises => simp [flushesFresh] at meets
  | process stepped => exact promised.process stepped
  | triggers | logging => exact promised.aside rfl rfl (fun _ => rfl) id
  | listener stepped => exact promised.listener stepped
  | @callsLate i wait pc late =>
      cases wait with
      | true => simp [flushesFresh, late] at meets
      | false => exact promised.calls id (by simp [CallerPc.waits])
  | @calls i wait pc early =>
      apply promised.calls (by simp)
      intro waits
      cases wait with
      | true => simpa [flushesFresh, early, CallerPc.released] using meets
      | false => simp [CallerPc.waits] at waits
  | caller stepped => exact promised.caller stepped
  | main stepped => exact promised.main stepped

end

theorem Promised.initial {now : Int} {dst : List (Option (Syncer.Inode Content))} {callers : Nat} :
    Promised c (initial (Syncer.initial now dst) callers) {} where
  safe := .initial now dst
  last _ _ _ owed := nomatch owed
  covered _ _ _ _ _ _ owed := nomatch owed

theorem flush_means_flushed {now : Int} {dst : List (Option (Syncer.Inode Content))} {callers : Nat}
    (run : Mealy.Run (ledgerMachine Content c) (fun x a => flushesFresh c x.1 a = true)
      ((initial (Syncer.initial now dst) callers, {}), []) log (s, l)) : Flushed c s l := by
  have promised : Promised c s l := by
    apply run.state_invariant (P := fun x => Promised c x.1 x.2)
    · exact .initial
    · intro x a y new promised meets action
      obtain ⟨s, l⟩ := x
      obtain ⟨t, _⟩ := y
      obtain ⟨stepped, rfl⟩ := Mealy.withHistory_step action
      exact promised.step (step_cases stepped) meets
  exact promised.returned

/-! ## Runs -/

def flushes : List (Action String) := [.calls 0 true, .caller 0, .caller 0]

theorem flush_means_flushed_hello : ∃ s l, Flushed (Syncer.everyFile true) s l ∧
    s.callers[0]? = some .returned ∧ l.owed 0 0 = some "output" := by
  have steps : Mealy.execIf (ledgerMachine String (Syncer.everyFile true))
      (fun x a => flushesFresh (Syncer.everyFile true) x.1 a)
      ((initial (Syncer.initial 0 [none]) 1, {}), [])
      ([.syncer (.writes 0 "output")] ++ flushes ++ [.process, .process, .syncer .begins] ++
        (Syncer.copiesFile 0).map .syncer ++
        [.syncer (.handles 0 .unlinks), .syncer .ends, .process, .caller 0]) =
      some ((_, _), _) := rfl
  exact ⟨_, _, flush_means_flushed (.of_execIf steps), rfl, rfl⟩

/-- The pass that is under way has listed the directory before the file was there. -/
theorem flush_too_early : ¬ ∀ c s l log,
    Mealy.Run (ledgerMachine String c) (fun _ a => a ≠ .syncer .raises)
      ((initial (Syncer.initial 0 [none]) 1, {}), []) log (s, l) → Flushed c s l := by
  intro claim
  have steps : Mealy.exec (ledgerMachine String (Syncer.everyFile false))
      ((initial (Syncer.initial 0 [none]) 1, {}), [])
      ([.process, .syncer .begins, .syncer (.writes 0 "output")] ++ flushes ++
        [.syncer .ends, .process, .caller 0]) = some ((_, _), _) := rfl
  obtain ⟨f, dst, found, stored, -⟩ :=
    claim _ _ _ _ (.of_exec (by simp [flushes]) steps) 0 0 "output" rfl rfl rfl
  cases found
  cases stored

end JobQ.BackgroundDirSync
