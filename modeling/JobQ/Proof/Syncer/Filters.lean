import JobQ.Proof.Syncer.Include

/-!
# Filters given with a task

The text of the process environment is split into words. The text of a task is passed on as it is,
and its characters become the patterns.
-/

namespace JobQ.SyncFilter

variable {environ env : Env} {text : List Char} {tree : Entries}

def Env.movedTo (env environ : Env) : Env :=
  ⟨env.includes <|> environ.includes, env.excludes <|> environ.excludes⟩

/-- The texts of the task leave out the same files as they do in the environment of the process,
and the patterns are their words. -/
structure Honoured (environ env : Env) : Prop where
  skipped : ∀ tree, ∀ p ∈ tree.files [], p ∉ (submit environ env).filters.considered [] tree ↔
    p ∉ (submit (env.movedTo environ) {}).filters.considered [] tree
  includes : ∀ text, env.includes = some text →
    (submit environ env).filters.includes = Text.split text
  excludes : ∀ text, env.excludes = some text →
    (submit environ env).filters.excludes = Text.split text ++ [flushFilename]

def Plain (text : List Char) : Prop := text = [] ∨ ∃ c, Text.isSpace c = false ∧ text = [c]

theorem includes_given (given : env.includes = some text) :
    (submit environ env).filters.includes = text.map ([·]) := by
  simp [submit, init, BackgroundDirSync.filters, given, Sequence.items]

theorem excludes_given (given : env.excludes = some text) :
    (submit environ env).filters.excludes = text.map ([·]) ++ [flushFilename] := by
  simp [submit, init, BackgroundDirSync.filters, given, Sequence.items]

theorem filters_moved (plain : ∀ text, env.includes = some text ∨ env.excludes = some text →
    Plain text) : (submit environ env).filters = (submit (env.movedTo environ) {}).filters := by
  obtain ⟨includes, excludes⟩ := env
  have words {text : List Char} (given : includes = some text ∨ excludes = some text) :
      Text.split text = text.map ([·]) := Text.split_eq_map_iff.mpr (plain text given)
  unfold submit init BackgroundDirSync.filters Env.movedTo
  congr 1
  · cases includes with
    | none => rfl
    | some text => exact (words (.inl rfl)).symm
  · cases excludes with
    | none => rfl
    | some text => exact congrArg (· ++ [flushFilename]) (words (.inr rfl)).symm

/-- The filters of a task are honoured exactly when each of its texts is empty or one character. -/
theorem honoured_iff (environ env : Env) : Honoured environ env ↔
    ∀ text, env.includes = some text ∨ env.excludes = some text → Plain text := by
  constructor
  · rintro honoured text (given | given)
    · have words := honoured.includes text given
      rw [includes_given given] at words
      exact Text.split_eq_map_iff.mp words.symm
    · have words := honoured.excludes text given
      rw [excludes_given given] at words
      exact Text.split_eq_map_iff.mp (List.append_cancel_right words).symm
  · intro plain
    refine ⟨fun tree p _ => by rw [filters_moved plain], fun text given => ?_, fun text given => ?_⟩
    · rw [includes_given given, Text.split_eq_map_iff.mpr (plain text (.inl given))]
    · rw [excludes_given given, Text.split_eq_map_iff.mpr (plain text (.inr given))]

/-- The task leaves out the checkpoints, and `model.bin` is not copied either: its name matches the
first character of the pattern. -/
theorem filters_not_honoured :
    let env : Env := { excludes := some "*.pt".toList }
    let tree : Entries := .file "model.bin".toList .nil
    ¬Honoured {} env ∧ (submit {} env).filters.considered [] tree = [] ∧
      (submit (env.movedTo {}) {}).filters.considered [] tree = [⟨[], "model.bin".toList⟩] := by
  refine ⟨fun honoured => ?_, by decide +kernel, by decide +kernel⟩
  have left := (honoured.skipped (.file "model.bin".toList .nil) ⟨[], "model.bin".toList⟩
    (by decide)).mp (by decide +kernel)
  revert left
  decide +kernel

end JobQ.SyncFilter
