import JobQ.Proof.BackgroundDirSync.Flushed
import JobQ.Proof.BackgroundDirSync.Shutdown

/-!
# The output of a job is kept

The pass that `shutdown` waits for begins after the last write of the job, and so it has every file as
the job has left it: nothing is lost with the directory that is removed afterwards.
-/

namespace JobQ.BackgroundDirSync

variable {Content : Type*} {c : Syncer.Config} {s t : State Content} {a : Action Content}
  {log new : List Event} {e : Event}

/-- What the job has written, and whether `shutdown` has set `flush_event` between the two tests. -/
structure Output (Content : Type*) where
  history : Syncer.History Content := {}
  between : Bool := false

def Output.record (h : Output Content) (s : State Content) (a : Action Content) (new : List Event) :
    Output Content where
  history :=
    match a with
    | .syncer a => h.history.record s.syncer a []
    | _ => h.history
  between := recordBetween h.between s a new

def outputMachine (Content : Type*) (c : Syncer.Config) :
    Mealy.Machine (State Content × Output Content) (Action Content) Event :=
  (machine Content c).withHistory Output.record

/-- The job has ended when `shutdown` is called, and kept off the files that were being copied. -/
def endsFirst (c : Syncer.Config) (x : State Content × Output Content) (a : Action Content) : Bool :=
  hearsShutdown (x.1, x.2.between) a &&
    match a with
    | .syncer (.writes i content) =>
      x.1.main = .running && Syncer.keepsOff c x.1.syncer (.writes i content)
    | .syncer a => Syncer.keepsOff c x.1.syncer a
    | _ => true

def MainPc.joined : MainPc → Bool
  | .running | .settingFlush | .settingShutdown | .joiningProcess => false
  | _ => true

structure Keeping (c : Syncer.Config) (log : List Event) (s : State Content) (h : Output Content) :
    Prop where
  safe : Syncer.Safe c s.syncer h.history
  answering : Answering log s h.between
  unasked : s.main = .running → .shutdownCalled ∉ log
  begun : Fresh log → s.process = .syncing → ∀ i, h.history.begun i = true
  swept : SyncedSince log → ∀ i, h.history.swept i = true
  exited : s.process = .exited → .left ∈ log
  joined : s.main.joined = true → s.process = .exited

variable {h : Output Content}

/-! ## The log -/

theorem SyncedSince.called (synced : SyncedSince log) : .shutdownCalled ∈ log := by
  obtain ⟨before, middle, after, rfl⟩ := synced
  simp

theorem Fresh.called (fresh : Fresh log) : .shutdownCalled ∈ log := by
  obtain ⟨before, middle, rfl⟩ := fresh
  simp

/-- Only the end of a pass completes one. -/
theorem syncedSince_snoc (synced : SyncedSince (log ++ [e])) :
    SyncedSince log ∨ e = .pass .ended ∧ Fresh log := by
  obtain ⟨before, middle, after, split⟩ := synced
  rcases List.eq_nil_or_concat after with rfl | ⟨rest, last, rfl⟩
  · right
    have parts : log ++ [e] =
        (before ++ .shutdownCalled :: middle ++ [.pass .began]) ++ [.pass .ended] := by
      simpa using split
    obtain ⟨rfl, same⟩ := List.append_inj' parts rfl
    exact ⟨List.singleton_inj.mp same, before, middle, rfl⟩
  · left
    have parts : log ++ [e] =
        (before ++ .shutdownCalled :: middle ++ .pass .began :: .pass .ended :: rest) ++ [last] := by
      simpa using split
    obtain ⟨rfl, -⟩ := List.append_inj' parts rfl
    exact ⟨before, middle, rest, rfl⟩

theorem fresh_snoc (fresh : Fresh (log ++ [e])) : e = .pass .began := by
  obtain ⟨before, middle, split⟩ := fresh
  exact List.singleton_inj.mp (List.append_inj' split rfl).2

/-! ## One step -/

theorem ProcessSteps.outside (stepped : ProcessSteps s t new) :
    s.process ≠ .exited ∧ t.process ≠ .syncing ∧ t.main = s.main ∧ t.syncer = s.syncer ∧
      (new = [] ∧ t.process ≠ .exited ∨ new = [.left]) := by
  cases stepped <;> simp [*, setDone]

theorem endsFirst_syncer {a : Syncer.Action Content} (meets : endsFirst c (s, h) (.syncer a) = true) :
    Syncer.keepsOff c s.syncer a = true ∧ ((∃ i content, a = .writes i content) → s.main = .running) := by
  have ends := (Bool.and_eq_true_iff.mp meets).2
  cases a with
  | writes i content =>
      have both : s.main = .running ∧ Syncer.keepsOff c s.syncer (.writes i content) = true := by
        simpa using ends
      exact ⟨both.2, fun _ => both.1⟩
  | _ => exact ⟨ends, by simp⟩

theorem swept_append (swept : SyncedSince log → ∀ i, h.history.swept i = true) (other : e ≠ .pass .ended)
    (synced : SyncedSince (log ++ [e])) (i : Nat) : h.history.swept i = true := by
  rcases syncedSince_snoc synced with before | ⟨same, -⟩
  · exact swept before i
  · exact absurd same other

section

variable (keeping : Keeping c log s h)
include keeping

theorem Keeping.kept {between : Bool} (answering : Answering log t between)
    (syncer : t.syncer = s.syncer) (process : t.process = s.process) (main : t.main = s.main) :
    Keeping c log t { h with between } where
  safe := syncer ▸ keeping.safe
  answering := answering
  unasked := main ▸ keeping.unasked
  begun := process ▸ keeping.begun
  swept := keeping.swept
  exited := process ▸ keeping.exited
  joined := main ▸ process ▸ keeping.joined

theorem Keeping.process (stepped : ProcessSteps s t new) :
    Keeping c (log ++ new) t { h with between := false } := by
  have answering := keeping.answering.process stepped
  obtain ⟨running, idle, main, syncer, emits⟩ := stepped.outside
  refine ⟨syncer ▸ keeping.safe, answering, fun early => ?_, fun _ pc => absurd pc idle, ?_, ?_,
    fun joined => absurd (keeping.joined (main ▸ joined)) running⟩
  · have before := keeping.unasked (main ▸ early)
    rcases emits with ⟨rfl, -⟩ | rfl <;> simpa using before
  · rcases emits with ⟨rfl, -⟩ | rfl
    · simpa using keeping.swept
    · exact swept_append keeping.swept (by simp)
  · rcases emits with ⟨rfl, alive⟩ | rfl
    · exact fun exited => absurd exited alive
    · simp

theorem Keeping.main (stepped : MainSteps s t new)
    (meets : hearsShutdown (s, h.between) (.main : Action Content) = true) :
    Keeping c (log ++ new) t { h with between := recordBetween h.between s (.main : Action Content) new } := by
  have answering := keeping.answering.main stepped meets
  have swept (synced : SyncedSince (log ++ [.shutdownCalled])) :=
    swept_append keeping.swept (by simp) synced
  cases stepped with
  | called pc =>
      refine ⟨keeping.safe, answering, by simp, fun fresh => ?_, swept,
        fun exited => List.mem_append_left _ (keeping.exited exited), by simp [MainPc.joined]⟩
      cases fresh_snoc fresh
  | joinsProcess pc exited =>
      rw [List.append_nil] at answering ⊢
      exact ⟨keeping.safe, answering, by simp, keeping.begun, keeping.swept, keeping.exited,
        fun _ => exited⟩
  | setsFlush pc | setsShutdown pc =>
      rw [List.append_nil] at answering ⊢
      exact ⟨keeping.safe, answering, by simp, keeping.begun, keeping.swept, keeping.exited,
        by simp [MainPc.joined]⟩
  | setsLogShutdown pc | joinsLogging pc | joinsListener pc =>
      rw [List.append_nil] at answering ⊢
      exact ⟨keeping.safe, answering, by simp, keeping.begun, keeping.swept, keeping.exited,
        fun _ => keeping.joined (by simp [pc, MainPc.joined])⟩

theorem Keeping.step (stepped : Steps c s a t new) (meets : endsFirst c (s, h) a = true) :
    Keeping c (log ++ new) t (h.record s a new) := by
  obtain ⟨hears, ends⟩ := Bool.and_eq_true_iff.mp meets
  have answering := keeping.answering.step stepped hears
  cases stepped with
  | @aside b _ stepped =>
      obtain ⟨off, early⟩ := endsFirst_syncer meets
      rw [List.append_nil] at answering ⊢
      refine ⟨keeping.safe.step stepped off, answering, keeping.unasked, fun fresh syncing => ?_,
        fun synced => ?_, keeping.exited, keeping.joined⟩
      · have before := keeping.begun fresh syncing
        cases b with
        | writes i content => exact absurd fresh.called (keeping.unasked (early ⟨i, content, rfl⟩))
        | ticks | handles => exact before
        | begins | ends | raises => cases syncer_events stepped
      · have before := keeping.swept synced
        cases b with
        | writes i content => exact absurd synced.called (keeping.unasked (early ⟨i, content, rfl⟩))
        | ticks | handles => exact before
        | begins | ends | raises => cases syncer_events stepped
  | begins pc stepped =>
      exact ⟨keeping.safe.step stepped rfl, answering, by simpa using keeping.unasked, fun _ _ _ => rfl,
        swept_append keeping.swept (by simp), by simp, fun joined => by
          cases pc.symm.trans (keeping.joined joined)⟩
  | ends pc stepped =>
      refine ⟨keeping.safe.step stepped rfl, answering, by simpa using keeping.unasked,
        fun fresh => ?_, fun synced i => ?_, by simp, fun joined => ?_⟩
      · cases fresh_snoc fresh
      · rcases syncedSince_snoc synced with before | ⟨-, fresh⟩
        · simp [Output.record, Syncer.History.record, keeping.swept before i]
        · simp [Output.record, Syncer.History.record, keeping.begun fresh pc i]
      · cases pc.symm.trans (keeping.joined joined)
  | raises pc stepped =>
      obtain ⟨off, -⟩ := endsFirst_syncer meets
      refine ⟨keeping.safe.step stepped off, answering, by simpa using keeping.unasked,
        fun fresh => ?_, swept_append keeping.swept (by simp), by simp, fun joined => ?_⟩
      · cases fresh_snoc fresh
      · cases pc.symm.trans (keeping.joined joined)
  | process stepped => exact keeping.process stepped
  | main stepped => exact keeping.main stepped hears
  | listener stepped =>
      rw [List.append_nil] at answering ⊢
      cases stepped <;> exact keeping.kept answering rfl rfl rfl
  | caller stepped =>
      rw [List.append_nil] at answering ⊢
      cases stepped <;> exact keeping.kept answering rfl rfl rfl
  | _ =>
      rw [List.append_nil] at answering ⊢
      exact keeping.kept answering rfl rfl rfl

end

/-- Once `shutdown` has joined the sync process, the destination holds what the job has written last to
each file that is not skipped. -/
theorem output_kept {now : Int} {dst : List (Option (Syncer.Inode Content))} {callers : Nat}
    (run : Mealy.Run (outputMachine Content c) (fun x a => endsFirst c x a = true)
      ((initial (Syncer.initial now dst) callers, {}), []) log (s, h))
    (joined : s.main.joined = true) {i : Nat} {content : Content}
    (last : h.history.last i = some content) (wanted : c.skips i = false) :
    ∃ f dst, s.syncer.files[i]? = some f ∧ f.dst = some dst ∧ dst.content = content := by
  have keeping : Keeping c log s h := by
    apply run.invariant (P := fun log x => Keeping c log x.1 x.2)
    · have kept : LastSync [] := fun before after split => by simp at split
      have answering : Answering [] (initial (Syncer.initial now dst) callers) false :=
        ⟨by simp [initial], by simp [initial], by simp, by simp [initial, MainPc.flushed],
          by simp [initial, MainPc.flushed], kept⟩
      exact ⟨.initial now dst, answering, by simp, fun fresh => by simpa using fresh.called,
        fun synced => by simpa using synced.called, by simp [initial], by simp [initial, MainPc.joined]⟩
    · intro log x a y new keeping meets action
      obtain ⟨s, h⟩ := x
      obtain ⟨t, _⟩ := y
      obtain ⟨stepped, rfl⟩ := Mealy.withHistory_step action
      exact keeping.step (step_cases stepped) meets
  obtain ⟨before, after, rfl⟩ := List.append_of_mem (keeping.exited (keeping.joined joined))
  have synced := (keeping.answering.kept before after rfl).append (.left :: after)
  exact keeping.safe.nothingLost i content last (keeping.swept synced i) wanted

def pass : List (Action String) :=
  .syncer .begins :: (Syncer.copiesFile 0).map .syncer ++ [.syncer .ends]

/-- A file is written for the second time after a pass, and then `shutdown` is called. -/
def jobActions : List (Action String) :=
  [.syncer (.writes 0 "first"), .process] ++ pass ++ [.process, .process, .process,
    .syncer (.ticks 1000000), .syncer (.writes 0 "second"), .main, .main, .main, .process, .process] ++
      pass ++ [.process, .process, .process, .main]

set_option maxRecDepth 10000 in
theorem output_kept_hello : ∃ log s h f dst, Mealy.Run (outputMachine String copiesAll)
    (fun x a => endsFirst copiesAll x a = true) ((initial (Syncer.initial 0 [none]) 0, {}), [])
      log (s, h) ∧ s.syncer.files[0]? = some f ∧ f.dst = some dst ∧ dst.content = "second" := by
  have steps : Mealy.execIf (outputMachine String copiesAll) (endsFirst copiesAll)
      ((initial (Syncer.initial 0 [none]) 0, {}), []) jobActions = some ((_, _), _) := rfl
  have run := Mealy.Run.of_execIf steps
  obtain ⟨f, dst, stored, copied, same⟩ := output_kept run rfl (i := 0) rfl rfl
  exact ⟨_, _, _, f, dst, run, stored, copied, same⟩

end JobQ.BackgroundDirSync
