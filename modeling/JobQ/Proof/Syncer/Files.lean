import JobQ.Library.FloatRange
import JobQ.Model.Syncer

/-!
# What a pass does to one file

A file whose last content is not in the destination yet is found by its timestamps, as long as the
job leaves it alone while it is copied.
-/

namespace JobQ.Syncer

variable {Content : Type*} {c : Config} {now : Int} {i : Nat} {content : Content}
  {f g : File Content} {src dst : Inode Content}

/-- Equal times differ by nothing, so that a copy with the times of its source is up to date. -/
theorem isLater_self (t : Int) : isLater t t = false := by
  rw [isLater, decide_eq_false_iff_not]
  exact FloatRange.not_one_le_sub_self _

/-! ## Invariants of one file -/

/-- The source holds the content, written in one go. -/
structure Inode.Written (content : Content) (src : Inode Content) : Prop where
  content : src.content = content
  ctime : src.ctime = src.mtime

/-- The content is in the destination, and no pass copies over it. -/
def File.Holds (content : Content) (f : File Content) : Prop :=
  ∃ dst, f.dst = some dst ∧ dst.content = content ∧
    ∀ src, f.src = some src → src.Written content ∧ needsUpdate src dst = false

/-- The content is in the source, and the destination is older by its timestamps. -/
def File.Detects (content : Content) (f : File Content) : Prop :=
  ∃ src, f.src = some src ∧ src.Written content ∧
    ∀ dst, f.dst = some dst → needsUpdate src dst = true

/-- The content is not lost: it is in the destination, or a pass will copy it. -/
def File.Kept (content : Content) (f : File Content) : Prop :=
  match f.stage with
  | .submitted => f.Detects content
  | .copying touched => touched = false ∧ ∃ src, f.src = some src ∧ src.Written content
  | .copied => ∃ src dst, f.src = some src ∧ src.Written content ∧ f.dst = some dst ∧
      dst.content = content
  | .stamped => f.Holds content
  | .unlisted _ | .listed | .finished => f.Holds content ∨ f.Detects content

/-- A pass that began when the content was there already will have copied it when it is done. -/
def File.Underway (content : Content) (f : File Content) : Prop :=
  f.stage = .unlisted false ∨ f.stage = .finished → f.Holds content

def Stage.isCalm : Stage → Bool
  | .unlisted _ | .listed | .finished => true
  | _ => false

def Stage.isCopying : Stage → Bool
  | .copying _ | .copied => true
  | _ => false

def File.Settled (content : Content) (f : File Content) : Prop :=
  f.stage.isCalm = true ∧ f.Holds content

/-! ## The steps of a pass -/

inductive File.Steps (c : Config) (now : Int) (f : File Content) :
    FileAction Content → File Content → Prop
  | lists {due : Bool} {src : Inode Content} (stage : f.stage = .unlisted due)
      (found : f.src = some src) : Steps c now f .lists { f with stage := .listed }
  | submits {src : Inode Content} (stage : f.stage = .listed) (found : f.src = some src)
      (older : ∀ dst, f.dst = some dst → needsUpdate src dst = true) :
      Steps c now f .compares { f with stage := .submitted }
  | passes {src dst : Inode Content} (stage : f.stage = .listed) (found : f.src = some src)
      (stored : f.dst = some dst) (current : needsUpdate src dst = false) :
      Steps c now f .compares { f with stage := .finished }
  | opens {src : Inode Content} {partly : Content} (stage : f.stage = .submitted)
      (found : f.src = some src) :
      Steps c now f (.opens partly)
        { f with dst := some ⟨partly, now, now⟩, stage := .copying false }
  | copies {src : Inode Content} {touched : Bool} {torn : Content}
      (stage : f.stage = .copying touched) (found : f.src = some src) :
      Steps c now f (.copies torn)
        { f with dst := some ⟨if touched then torn else src.content, now, now⟩, stage := .copied }
  | stamps {src dst : Inode Content} (stage : f.stage = .copied) (found : f.src = some src)
      (stored : f.dst = some dst) :
      Steps c now f .stamps
        { f with
          dst := some ⟨dst.content, src.mtime, now⟩
          stage := if c.deleteAfterCopy then .stamped else .finished }
  | unlinks (stage : f.stage = .stamped) :
      Steps c now f .unlinks { f with src := none, stage := .finished }

theorem File.step_cases {a : FileAction Content} (wanted : c.skips i = false)
    (stepped : f.step c now i a = some g) : f.Steps c now a g := by
  cases a with
  | lists =>
      simp only [File.step, File.list, wanted] at stepped
      split at stepped <;> cases stepped
      exact .lists ‹_› ‹_›
  | compares =>
      simp only [File.step, File.compare] at stepped
      split at stepped
      · rename_i stage found none
        cases stepped
        exact .submits stage found (by simp [none])
      · rename_i src dst stage found stored
        cases stepped
        cases compared : needsUpdate src dst with
        | true => exact .submits stage found (by simp [stored, compared])
        | false => exact .passes stage found stored compared
      · cases stepped
  | opens partly =>
      simp only [File.step, File.openDst] at stepped
      split at stepped <;> cases stepped
      exact .opens ‹_› ‹_›
  | copies torn =>
      simp only [File.step, File.copyContent] at stepped
      split at stepped <;> cases stepped
      exact .copies ‹_› ‹_›
  | stamps =>
      simp only [File.step, File.copyStat] at stepped
      split at stepped <;> cases stepped
      exact .stamps ‹_› ‹_› ‹_›
  | unlinks =>
      simp only [File.step, File.unlink] at stepped
      split at stepped <;> cases stepped
      exact .unlinks ‹_›

theorem File.Holds.of_current (found : f.src = some src) (written : src.Written content)
    (stored : f.dst = some dst) (same : dst.content = content)
    (current : needsUpdate src dst = false) : f.Holds content := by
  refine ⟨dst, stored, same, fun other again => ?_⟩
  rw [found] at again
  cases again
  exact ⟨written, current⟩

theorem needsUpdate_stamped (written : src.Written content) {changed : Int} {copied : Content} :
    needsUpdate src ⟨copied, src.mtime, changed⟩ = false := by
  simp [needsUpdate, written.ctime, isLater_self]

theorem File.Kept.found (kept : f.Kept content) (whole : f.stage.isCopying = false) :
    f.Holds content ∨ f.Detects content := by
  unfold File.Kept at kept
  split at kept
  · exact .inr kept
  · simp [Stage.isCopying, *] at whole
  · simp [Stage.isCopying, *] at whole
  · exact .inl kept
  · exact kept
  · exact kept
  · exact kept

theorem File.Kept.source (kept : f.Kept content) (found : f.src = some src) :
    src.content = content := by
  have holds (holds : f.Holds content) : src.content = content := by
    obtain ⟨_, -, -, source⟩ := holds
    exact (source src found).1.content
  have other {written : Inode Content} (again : f.src = some written)
      (same : written.Written content) : src.content = content := by
    obtain rfl : src = written := Option.some.inj (found.symm.trans again)
    exact same.content
  have detects (detects : f.Detects content) : src.content = content := by
    obtain ⟨_, again, same, -⟩ := detects
    exact other again same
  unfold File.Kept at kept
  split at kept
  · exact detects kept
  · obtain ⟨-, _, again, same⟩ := kept
    exact other again same
  · obtain ⟨_, _, again, same, -⟩ := kept
    exact other again same
  · exact holds kept
  · exact kept.elim holds detects
  · exact kept.elim holds detects
  · exact kept.elim holds detects

/-- No step loses the content, and none is done with the file before it is copied. -/
theorem File.Kept.step {a : FileAction Content} (kept : f.Kept content)
    (steps : f.Steps c now a g) : g.Kept content ∧ g.Underway content := by
  cases steps with
  | lists stage found =>
      have found := kept.found (by simp [stage, Stage.isCopying])
      exact ⟨found, by simp [File.Underway]⟩
  | submits stage found older =>
      refine ⟨?_, by simp [File.Underway]⟩
      rcases kept.found (by simp [stage, Stage.isCopying]) with holds | detects
      · obtain ⟨dst, stored, -, source⟩ := holds
        have current := (source _ found).2
        rw [older _ stored] at current
        contradiction
      · exact detects
  | @passes src dst stage found stored current =>
      have holds : f.Holds content := by
        rcases kept.found (by simp [stage, Stage.isCopying]) with holds | detects
        · exact holds
        · obtain ⟨other, again, -, older⟩ := detects
          obtain rfl : src = other := Option.some.inj (found.symm.trans again)
          have update := older _ stored
          rw [current] at update
          contradiction
      exact ⟨.inl holds, fun _ => holds⟩
  | opens stage found =>
      obtain ⟨src, found, written, -⟩ : f.Detects content := by
        simpa [File.Kept, stage] using kept
      exact ⟨⟨rfl, src, found, written⟩, by simp [File.Underway]⟩
  | @copies src touched torn stage found =>
      obtain ⟨rfl, other, again, written⟩ : touched = false ∧
          ∃ src, f.src = some src ∧ src.Written content := by
        simpa [File.Kept, stage] using kept
      obtain rfl : src = other := Option.some.inj (found.symm.trans again)
      exact ⟨⟨src, _, found, written, rfl, written.content⟩, by simp [File.Underway]⟩
  | @stamps src dst stage found stored =>
      obtain ⟨other, copy, again, written, stored', same⟩ : ∃ src dst, f.src = some src ∧
          src.Written content ∧ f.dst = some dst ∧ dst.content = content := by
        simpa [File.Kept, stage] using kept
      obtain rfl : src = other := Option.some.inj (found.symm.trans again)
      obtain rfl : dst = copy := Option.some.inj (stored.symm.trans stored')
      have holds (stage : Stage) : File.Holds content
          { f with dst := some ⟨dst.content, src.mtime, now⟩, stage } :=
        .of_current found written rfl same (needsUpdate_stamped written)
      cases c.deleteAfterCopy with
      | true => exact ⟨holds .stamped, by simp [File.Underway]⟩
      | false => exact ⟨.inl (holds .finished), fun _ => holds .finished⟩
  | unlinks stage =>
      obtain ⟨dst, stored, same, -⟩ : f.Holds content := by simpa [File.Kept, stage] using kept
      have holds : File.Holds content { f with src := none, stage := .finished } :=
        ⟨dst, stored, same, by simp⟩
      exact ⟨.inl holds, fun _ => holds⟩

theorem File.Settled.step {a : FileAction Content} (settled : f.Settled content)
    (steps : f.Steps c now a g) : g.Settled content := by
  obtain ⟨calm, dst, stored, same, source⟩ := settled
  cases steps with
  | lists => exact ⟨rfl, dst, stored, same, source⟩
  | submits stage found older =>
      have current := (source _ found).2
      rw [older _ stored] at current
      contradiction
  | passes => exact ⟨rfl, dst, stored, same, source⟩
  | opens stage | copies stage | stamps stage | unlinks stage =>
      rw [stage] at calm
      contradiction

/-! ## The beginning and the end of a pass, and the job -/


theorem File.Kept.begin (kept : f.Kept content) (whole : f.stage.isCopying = false) :
    f.begin.Kept content ∧ f.begin.Underway content := by
  have found := kept.found whole
  refine ⟨found, fun absent => ?_⟩
  rcases found with holds | detects
  · exact holds
  · obtain ⟨src, found, -⟩ := detects
    simp [File.begin, found] at absent

theorem File.Settled.begin (settled : f.Settled content) : f.begin.Settled content :=
  ⟨rfl, settled.2⟩

theorem File.Settled.finish (settled : f.Settled content) : f.finish.Settled content :=
  ⟨rfl, settled.2⟩

theorem File.Kept.finish (kept : f.Kept content) (whole : f.stage.isCopying = false) :
    f.finish.Kept content :=
  kept.found whole

theorem File.Underway.finish (underway : f.Underway content) (ended : f.isOver = true) :
    f.finish.Settled content := by
  refine ⟨rfl, underway ?_⟩
  unfold File.isOver at ended
  split at ended
  · rename_i due stage
    left
    simpa [stage] using ended
  · exact .inr ‹_›
  · contradiction

/-- The job may write: no copy of the file is under way, and one that is in the destination is older,
as the next pass will find. -/
def File.mayBeWritten (f : File Content) (now : Int) : Bool :=
  match f.stage with
  | .copying _ | .copied | .stamped => false
  | _ => f.dst.all fun dst => isLater now dst.mtime

theorem File.write_kept (may : f.mayBeWritten now = true) : (f.write now content).Kept content := by
  have detects (older : f.dst.all fun dst => isLater now dst.mtime) :
      (f.write now content).Detects content := by
    refine ⟨_, rfl, ⟨rfl, rfl⟩, fun dst stored => ?_⟩
    have later : isLater now dst.mtime = true := by
      rw [show f.dst = some dst from stored] at older
      simpa using older
    simp [needsUpdate, later]
  cases stage : f.stage with
  | submitted =>
      have found := detects (by simpa [File.mayBeWritten, stage] using may)
      simpa [File.Kept, File.write, stage] using found
  | copying | copied | stamped => simp [File.mayBeWritten, stage] at may
  | unlisted | listed | finished =>
      have found := detects (by simpa [File.mayBeWritten, stage] using may)
      have stays : (f.write now content).stage = f.stage := by simp [File.write, stage]
      unfold File.Kept
      rw [stays, stage]
      exact .inr found

end JobQ.Syncer
