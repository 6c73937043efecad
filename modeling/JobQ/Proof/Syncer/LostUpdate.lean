import JobQ.Library.Pool
import JobQ.Proof.Syncer.Files

/-!
# No lost update

What the job wrote last is in the destination after one more pass, if no write falls into the copy of
its file or comes so soon after the last one that their times do not differ by a millisecond, and no
pass fails with a copy half done.
-/

namespace JobQ.Syncer

variable {Content : Type*} {c : Config} {s t : State Content} {a : Action Content} {new log : List Event}

/-- What the job has written last to each file, whether a pass that began since is under way, and
whether one has ended. -/
structure History (Content : Type*) where
  last : Nat → Option Content := fun _ => none
  begun : Nat → Bool := fun _ => false
  swept : Nat → Bool := fun _ => false

def History.record (h : History Content) (_ : State Content) (a : Action Content) (_ : List Event) :
    History Content :=
  match a with
  | .writes i content =>
    { last := fun j => if j = i then some content else h.last j
      begun := fun j => j ≠ i && h.begun j
      swept := fun j => j ≠ i && h.swept j }
  | .begins => { h with begun := fun _ => true }
  | .ends => { h with begun := fun _ => false, swept := fun j => h.swept j || h.begun j }
  | .raises => { h with begun := fun _ => false }
  | _ => h

def historyMachine (Content : Type*) (c : Config) :
    Mealy.Machine (State Content × History Content) (Action Content) Event :=
  (machine Content c).withHistory History.record

/-- The job writes to no file that is being copied or has been written just before, and no pass fails
between the content and the timestamps. -/
def keepsOff (c : Config) (s : State Content) : Action Content → Bool
  | .writes i _ => c.skips i || s.files[i]?.all fun f => f.mayBeWritten s.now
  | .raises => s.files.all fun f => !f.stage.isCopying
  | _ => true

/-- Once a pass has begun and ended after the last write to a file, the destination has it. -/
def NothingLost (c : Config) (s : State Content) (h : History Content) : Prop :=
  ∀ i content, h.last i = some content → h.swept i = true → c.skips i = false →
    ∃ f dst, s.files[i]? = some f ∧ f.dst = some dst ∧ dst.content = content

/-! ## The invariant -/

structure FileSafe (h : History Content) (i : Nat) (f : File Content) : Prop where
  unwritten : h.last i = none → f.src = none ∧ f.isOver = true
  kept : ∀ content, h.last i = some content → f.Kept content
  underway : ∀ content, h.last i = some content → h.begun i = true → f.Underway content
  settled : ∀ content, h.last i = some content → h.swept i = true → f.Settled content

structure Safe (c : Config) (s : State Content) (h : History Content) : Prop where
  idle : s.running = false → ∀ f ∈ s.files, f.stage = .finished
  known : ∀ i content, h.last i = some content → i < s.files.length
  files : ∀ i f, s.files[i]? = some f → c.skips i = false → FileSafe h i f

variable {h : History Content} {i : Nat} {now : Int} {f g : File Content}

theorem fileSafe_write (content : Content) (may : f.mayBeWritten now = true) :
    FileSafe (h.record s (.writes i content) []) i (f.write now content) := by
  have kept : (f.write now content).Kept content := File.write_kept may
  refine ⟨?_, ?_, ?_, ?_⟩
  · simp [History.record]
  · simpa [History.record] using kept
  · simp [History.record]
  · simp [History.record]

theorem FileSafe.handles {b : FileAction Content} (safe : FileSafe h i f)
    (wanted : c.skips i = false) (stepped : f.step c now i b = some g) : FileSafe h i g := by
  have steps := File.step_cases wanted stepped
  refine ⟨fun last => ?_, fun content last => ?_, fun content last begun => ?_,
    fun content last swept => ?_⟩
  · obtain ⟨none, ended⟩ := safe.unwritten last
    cases steps with
    | lists _ found | submits _ found | passes _ found | opens _ found | copies _ found
    | stamps _ found =>
        rw [none] at found
        contradiction
    | unlinks stage => simp [File.isOver, stage] at ended
  · exact ((safe.kept content last).step steps).1
  · exact ((safe.kept content last).step steps).2
  · exact (safe.settled content last swept).step steps

theorem FileSafe.begin (safe : FileSafe h i f) (idle : f.stage = .finished) :
    FileSafe (h.record s .begins []) i f.begin := by
  have whole : f.stage.isCopying = false := by simp [idle, Stage.isCopying]
  refine ⟨fun last => ?_, fun content last => ?_, fun content last _ => ?_,
    fun content last swept => ?_⟩
  · obtain ⟨none, -⟩ := safe.unwritten last
    simp [File.begin, File.isOver, none]
  · exact ((safe.kept content last).begin whole).1
  · exact ((safe.kept content last).begin whole).2
  · exact (safe.settled content last swept).begin

theorem FileSafe.finish {begun : Nat → Bool} {swept : Nat → Bool} (safe : FileSafe h i f)
    (whole : f.stage.isCopying = false) (none : begun i = false)
    (sweeps : swept i = true → h.swept i = true ∨ h.begun i = true ∧ f.isOver = true) :
    FileSafe { h with begun, swept } i f.finish := by
  refine ⟨fun last => ?_, fun content last => ?_, fun content last begun => ?_,
    fun content last now' => ?_⟩
  · exact ⟨(safe.unwritten last).1, rfl⟩
  · exact (safe.kept content last).finish whole
  · simp [none] at begun
  · rcases sweeps now' with before | ⟨begun, ended⟩
    · exact (safe.settled content last before).finish
    · exact (safe.underway content last begun).finish ended

theorem File.step_finished {b : FileAction Content} (stage : f.stage = .finished) :
    f.step c now i b = none := by
  cases b <;> simp [File.step, File.list, File.compare, File.openDst, File.copyContent,
    File.copyStat, File.unlink, stage]

theorem File.isOver_whole (ended : f.isOver = true) : f.stage.isCopying = false := by
  unfold File.isOver at ended
  split at ended
  · simp [Stage.isCopying, *]
  · simp [Stage.isCopying, *]
  · contradiction

theorem History.record_last {h : History Content} {a : Action Content} {content : Content}
    (last : (h.record s a new).last i = some content) :
    (∃ content, a = .writes i content) ∨ h.last i = some content := by
  unfold History.record at last
  split at last
  · rename_i j other
    by_cases same : i = j
    · subst same
      exact .inl ⟨other, rfl⟩
    · simp only [same, if_false] at last
      exact .inr last
  · exact .inr last
  · exact .inr last
  · exact .inr last
  · exact .inr last

theorem FileSafe.other {j : Nat} {content : Content} (safe : FileSafe h i f) (other : i ≠ j) :
    FileSafe (h.record s (.writes j content) new) i f where
  unwritten last := safe.unwritten (by simpa [History.record, other] using last)
  kept content last := safe.kept content (by simpa [History.record, other] using last)
  underway content last begun := safe.underway content
    (by simpa [History.record, other] using last) (by simpa [History.record, other] using begun)
  settled content last swept := safe.settled content
    (by simpa [History.record, other] using last) (by simpa [History.record, other] using swept)

section

variable (safe : Safe c s h)
include safe

theorem Safe.finish {begun swept : Nat → Bool} (finishes : ∀ i f, s.files[i]? = some f →
      c.skips i = false → f.stage.isCopying = false ∧ begun i = false ∧
        (swept i = true → h.swept i = true ∨ h.begun i = true ∧ f.isOver = true)) :
    Safe c { s with running := false, files := s.files.map File.finish } { h with begun, swept } := by
  refine ⟨fun _ g member => ?_, by simpa using safe.known, fun i g stored wanted => ?_⟩
  · obtain ⟨f, -, rfl⟩ := List.mem_map.mp member
    rfl
  · obtain ⟨f, found, rfl⟩ : ∃ f, s.files[i]? = some f ∧ f.finish = g := by simpa using stored
    obtain ⟨whole, none, sweeps⟩ := finishes i f found wanted
    exact (safe.files i f found wanted).finish whole none sweeps

theorem Safe.step (action : Syncer.step c s a = some (t, new)) (meets : keepsOff c s a = true) :
    Safe c t (h.record s a new) := by
  cases a with
  | writes i content =>
      simp only [Syncer.step] at action
      split at action <;> cases action
      rename_i f found
      obtain ⟨bound, -⟩ := List.getElem?_eq_some_iff.mp found
      refine ⟨fun idle => ?_, fun j other last => ?_, fun j g stored wanted => ?_⟩
      · have stage := safe.idle idle f (List.mem_of_getElem? found)
        exact Pool.forall_set (P := fun f : File Content => f.stage = .finished) (safe.idle idle)
          (by simp [File.write, stage])
      · rw [List.length_set]
        rcases History.record_last last with ⟨_, same⟩ | before
        · cases same
          exact bound
        · exact safe.known j other before
      · rcases Pool.set_cases stored with ⟨rfl, rfl⟩ | ⟨other, before⟩
        · exact fileSafe_write content (by simpa [keepsOff, wanted, found] using meets)
        · exact (safe.files j g before wanted).other other
  | ticks n =>
      cases action
      exact ⟨safe.idle, safe.known, safe.files⟩
  | begins =>
      simp only [Syncer.step] at action
      split at action <;> cases action
      rename_i idle
      refine ⟨by simp, by simpa [History.record] using safe.known, fun i g stored wanted => ?_⟩
      obtain ⟨f, found, rfl⟩ : ∃ f, s.files[i]? = some f ∧ f.begin = g := by simpa using stored
      have finished := safe.idle (by simpa using idle) f (List.mem_of_getElem? found)
      exact (safe.files i f found wanted).begin (s := s) finished
  | handles i b =>
      simp only [Syncer.step] at action
      split at action
      · split at action <;> cases action
        rename_i f found _ g stepped
        obtain ⟨bound, -⟩ := List.getElem?_eq_some_iff.mp found
        refine ⟨fun idle => ?_, ?_, fun j other stored wanted => ?_⟩
        · have stage := safe.idle idle f (List.mem_of_getElem? found)
          rw [File.step_finished stage] at stepped
          contradiction
        · simpa [History.record] using safe.known
        · rcases Pool.set_cases stored with ⟨rfl, rfl⟩ | ⟨-, before⟩
          · exact (safe.files j f found wanted).handles wanted stepped
          · exact safe.files j other before wanted
      · contradiction
  | ends =>
      simp only [Syncer.step] at action
      split at action <;> cases action
      rename_i ended
      apply safe.finish
      intro i f found wanted
      have done : f.isOver = true := List.all_eq_true.mp ended.2 f (List.mem_of_getElem? found)
      refine ⟨File.isOver_whole done, rfl, fun swept => ?_⟩
      have before : h.swept i = true ∨ h.begun i = true := by simpa using swept
      exact before.imp_right fun begun => ⟨begun, done⟩
  | raises =>
      simp only [Syncer.step] at action
      split at action <;> cases action
      apply safe.finish
      intro i f found wanted
      have whole := List.all_eq_true.mp meets f (List.mem_of_getElem? found)
      exact ⟨by simpa using whole, rfl, .inl⟩

end

theorem Safe.initial (now : Int) (dst : List (Option (Inode Content))) :
    Safe c (initial now dst) {} := by
  have fresh {i : Nat} {f : File Content} (found : (Syncer.initial now dst).files[i]? = some f) :
      f.src = none ∧ f.stage = .finished := by
    obtain ⟨dst, -, rfl⟩ : ∃ d, dst[i]? = some d ∧ ({ dst := d } : File Content) = f := by
      simpa [Syncer.initial] using found
    exact ⟨rfl, rfl⟩
  refine ⟨fun _ f member => ?_, fun i content last => ?_, fun i f found _ => ?_⟩
  · obtain ⟨i, found⟩ := List.mem_iff_getElem?.mp member
    exact (fresh found).2
  · cases last
  · have ended : f.isOver = true := by simp [File.isOver, (fresh found).2]
    exact ⟨fun _ => ⟨(fresh found).1, ended⟩, by simp, by simp, by simp⟩

theorem Safe.nothingLost (safe : Safe c s h) : NothingLost c s h := by
  intro i content last swept wanted
  obtain ⟨f, found⟩ : ∃ f, s.files[i]? = some f :=
    ⟨_, List.getElem?_eq_getElem (safe.known i content last)⟩
  obtain ⟨-, dst, stored, same, -⟩ := (safe.files i f found wanted).settled content last swept
  exact ⟨f, dst, found, stored, same⟩

theorem no_update_lost {now : Int} {dst : List (Option (Inode Content))}
    (run : Mealy.Run (historyMachine Content c) (fun x a => keepsOff c x.1 a = true)
      ((initial now dst, {}), []) log (s, h)) : NothingLost c s h := by
  have safe : Safe c s h := by
    apply run.state_invariant (P := fun x => Safe c x.1 x.2)
    · exact .initial now dst
    · intro x a y new safe meets action
      obtain ⟨s, h⟩ := x
      obtain ⟨t, _⟩ := y
      obtain ⟨stepped, rfl⟩ := Mealy.withHistory_step action
      exact safe.step stepped meets
  exact safe.nothingLost

/-! ## Runs -/

def copiesFile (i : Nat) : List (Action String) :=
  [.handles i .lists, .handles i .compares, .handles i (.opens ""), .handles i (.copies "torn"),
    .handles i .stamps]

def everyFile (deleteAfterCopy : Bool) : Config := ⟨fun _ => false, deleteAfterCopy⟩

set_option maxRecDepth 10000 in
theorem no_update_lost_hello : ∃ s h, NothingLost (everyFile true) s h ∧
    h.last 0 = some "second" ∧ h.swept 0 = true := by
  have steps : Mealy.execIf (historyMachine String (everyFile true))
      (fun x a => keepsOff (everyFile true) x.1 a) ((initial 0 [none], {}), [])
      ([.writes 0 "first", .begins] ++ copiesFile 0 ++ [.handles 0 .unlinks, .ends, .ticks 1000000,
        .writes 0 "second", .begins] ++ copiesFile 0 ++ [.handles 0 .unlinks, .ends]) =
      some ((_, _), _) := rfl
  exact ⟨_, _, no_update_lost (.of_execIf steps), rfl, rfl⟩

set_option maxRecDepth 10000 in
/-- The second write falls between the copy of the content and that of the timestamps. -/
theorem update_lost : ¬ ∀ c s h log,
    Mealy.Run (historyMachine String c) Mealy.always ((initial 0 [none], {}), []) log (s, h) →
    NothingLost c s h := by
  intro claim
  have steps : Mealy.exec (historyMachine String (everyFile false)) ((initial 0 [none], {}), [])
      [.writes 0 "first", .begins, .handles 0 .lists, .handles 0 .compares, .handles 0 (.opens ""),
        .handles 0 (.copies "torn"), .ticks 5000000, .writes 0 "second", .handles 0 .stamps, .ends,
        .begins, .handles 0 .lists, .handles 0 .compares, .ends] = some ((_, _), _) := rfl
  obtain ⟨f, dst, found, stored, same⟩ :=
    claim _ _ _ _ (.of_exec (by simp) steps) 0 "second" rfl rfl rfl
  cases found
  cases stored
  exact absurd same (by decide)

end JobQ.Syncer
