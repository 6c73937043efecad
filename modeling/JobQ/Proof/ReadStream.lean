import JobQ.Model.ReadStream

/-!
# Output that is not drained

A reader ends at a line that is too long, or that is no UTF-8.
-/

namespace JobQ.ReadStream

variable {level : Nat} {jobId : String} {stream line : List UInt8} {queue : List Record}

/-- A line that is read and decoded. -/
structure Readable (line : List UInt8) : Prop where
  short : (line.takeWhile (· ≠ newline)).length ≤ limit
  valid : (ByteArray.mk line.toArray).IsValidUTF8

theorem decode_ok (line : List UInt8) :
    (∃ text, decode line = .ok text) ↔ (ByteArray.mk line.toArray).IsValidUTF8 := by
  unfold decode String.fromUTF8?
  by_cases valid : (ByteArray.mk line.toArray).IsValidUTF8 <;> simp [valid]

/-- The record of a line, with its text without the whitespace at the end. -/
def IsRecordOf (level : Nat) (jobId : String) (line : List UInt8) (r : Record) : Prop :=
  r.level = level ∧ r.jobId = jobId ∧
    ∀ text, decode line = .ok text → r.text = String.ofList (Text.rstrip text.toList)

/-- The reader reaches the end of the stream, and puts one record for each line into the queue. -/
def Drains (level : Nat) (jobId : String) (stream : List UInt8) (queue : List Record) : Prop :=
  (readStreamAndLog level jobId stream queue).1 = .ok () ∧
    ∃ records, (readStreamAndLog level jobId stream queue).2 = queue ++ records ∧
      List.Forall₂ (IsRecordOf level jobId) (Text.lines newline stream) records

/-! ## One line -/

theorem readline_error {exc : Exc} (read : readline stream = .error exc) :
    ∃ line others, Text.lines newline stream = line :: others ∧ ¬ Readable line := by
  unfold readline at read
  dsimp only at read
  split at read
  · have some : stream ≠ [] := by
      rintro rfl
      simp at *
    refine ⟨_, _, Text.lines_eq_cons some, fun readable => ?_⟩
    have short := readable.short
    rw [Text.takeWhile_line] at short
    omega
  · cases read

theorem readline_nil {rest : List UInt8} (read : readline stream = .ok ([], rest)) :
    Text.lines newline stream = [] := by
  unfold readline at read
  dsimp only at read
  split at read
  · cases read
  · injection read with result
    have none := (Prod.mk.inj result).1
    by_contra some
    cases stream with
    | nil => exact some rfl
    | cons byte others =>
        by_cases ends : byte = newline <;> simp [ends] at none

theorem readline_cons {rest : List UInt8} (read : readline stream = .ok (line, rest))
    (some : line ≠ []) : Text.lines newline stream = line :: Text.lines newline rest ∧
      (line.takeWhile (· ≠ newline)).length ≤ limit := by
  unfold readline at read
  dsimp only at read
  split at read
  · cases read
  · cases read
    refine ⟨Text.lines_eq_cons ?_, ?_⟩
    · rintro rfl
      simp at some
    · rw [Text.takeWhile_line]
      omega

/-! ## The stream -/

section

variable {rest : List UInt8} {exc : Exc} {text : String}

theorem readStreamAndLog_raised (read : readline stream = .error exc) :
    readStreamAndLog level jobId stream queue = (.error exc, queue) := by
  rw [readStreamAndLog]
  split
  · simp_all
  · simp_all

theorem readStreamAndLog_ended (read : readline stream = .ok ([], rest)) :
    readStreamAndLog level jobId stream queue = (.ok (), queue) := by
  rw [readStreamAndLog]
  split <;> simp_all

theorem readStreamAndLog_undecoded (read : readline stream = .ok (line, rest)) (some : line ≠ [])
    (raised : decode line = .error exc) :
    readStreamAndLog level jobId stream queue = (.error exc, queue) := by
  rw [readStreamAndLog]
  split <;> simp_all

theorem readStreamAndLog_next (read : readline stream = .ok (line, rest)) (some : line ≠ [])
    (decoded : decode line = .ok text) : readStreamAndLog level jobId stream queue =
      readStreamAndLog level jobId rest (queue ++ [record level jobId text]) := by
  rw [readStreamAndLog]
  split <;> simp_all

end

theorem readStreamAndLog_returns (level : Nat) (jobId : String) (stream : List UInt8)
    (queue : List Record) : (readStreamAndLog level jobId stream queue).1 = .ok () ↔
      ∀ line ∈ Text.lines newline stream, Readable line := by
  induction stream, queue using readStreamAndLog.induct level jobId with
  | case1 stream queue exc read =>
      obtain ⟨line, others, found, unreadable⟩ := readline_error read
      rw [readStreamAndLog_raised read, found, List.forall_mem_cons]
      simp [unreadable]
  | case2 stream queue rest read =>
      rw [readStreamAndLog_ended read, readline_nil read]
      simp
  | case3 stream queue line rest read some _ exc raised =>
      obtain ⟨found, -⟩ := readline_cons read some
      have unreadable : ¬ Readable line := fun readable => by
        obtain ⟨text, decoded⟩ := (decode_ok line).mpr readable.valid
        rw [raised] at decoded
        cases decoded
      rw [readStreamAndLog_undecoded read some raised, found, List.forall_mem_cons]
      simp [unreadable]
  | case4 stream queue line rest read some _ text decoded ih =>
      obtain ⟨found, short⟩ := readline_cons read some
      have readable : Readable line := ⟨short, (decode_ok line).mp ⟨text, decoded⟩⟩
      rw [readStreamAndLog_next read some decoded, found, List.forall_mem_cons, ih]
      exact (and_iff_right readable).symm

theorem readStreamAndLog_records (level : Nat) (jobId : String) (stream : List UInt8)
    (queue : List Record) (returns : (readStreamAndLog level jobId stream queue).1 = .ok ()) :
    ∃ records, (readStreamAndLog level jobId stream queue).2 = queue ++ records ∧
      List.Forall₂ (IsRecordOf level jobId) (Text.lines newline stream) records := by
  induction stream, queue using readStreamAndLog.induct level jobId with
  | case1 stream queue exc read =>
      rw [readStreamAndLog_raised read] at returns
      cases returns
  | case2 stream queue rest read =>
      rw [readStreamAndLog_ended read, readline_nil read]
      exact ⟨[], (List.append_nil _).symm, .nil⟩
  | case3 stream queue line rest read some _ exc raised =>
      rw [readStreamAndLog_undecoded read some raised] at returns
      cases returns
  | case4 stream queue line rest read some _ text decoded ih =>
      rw [readStreamAndLog_next read some decoded] at returns ⊢
      obtain ⟨records, queued, one⟩ := ih returns
      refine ⟨record level jobId text :: records, by rw [queued, List.append_assoc]; rfl, ?_⟩
      rw [(readline_cons read some).1]
      refine .cons ⟨rfl, rfl, fun other decodes => ?_⟩ one
      rw [decoded] at decodes
      cases decodes
      rfl

/-- A stream is drained exactly when all of its lines can be read: none is longer than the limit, and
each is UTF-8. -/
theorem drains_iff (level : Nat) (jobId : String) (stream : List UInt8) (queue : List Record) :
    Drains level jobId stream queue ↔ ∀ line ∈ Text.lines newline stream, Readable line := by
  rw [← readStreamAndLog_returns level jobId stream queue]
  exact and_iff_left_of_imp (readStreamAndLog_records level jobId stream queue)

/-- A single byte that no UTF-8 begins with. -/
theorem invalid_byte : ¬ ∀ level jobId stream queue, Drains level jobId stream queue := by
  intro claim
  have returned := (claim 20 "job" [0xFF] []).1
  rw [@readStreamAndLog_undecoded 20 "job" [0xFF] [0xFF] [] [] _ rfl (by decide) rfl] at returned
  cases returned

end JobQ.ReadStream
