import JobQ.Model.Duration

/-!
# The grammar of the durations

The method fails with a usage error where the last letter is no unit. Before a unit it takes an
integer for granted, and it has no answer for the empty text, which has no last letter.
-/

namespace JobQ.Duration

open IntLiteral

/-- An integer literal and a unit are that many units, anything else is a usage error, and what the
`amlt` command writes for an accepted value is read back as the same duration. -/
structure AcceptsGrammar (value : List Char) : Prop where
  accepts : ∀ text letter l seconds, value = text ++ [letter] → unit letter = some seconds →
    literal text = some l → ∃ t, convert value = .ok t ∧ t.totalSeconds = l.value * seconds
  refuses : (∀ text letter l seconds, value = text ++ [letter] → unit letter = some seconds →
    literal text ≠ some l) → ∃ expected, convert value = .error (.usageError expected value)
  onlyUsage : ∀ exc, convert value = .error exc → ∃ expected, exc = .usageError expected value
  again : ∀ t, convert value = .ok t → convert (exported t) = .ok t

/-- The text is not empty, and before a unit stands an integer that Python reads and whose duration
is in the range of a `timedelta`. -/
def WithinGuard (value : List Char) : Prop :=
  value ≠ [] ∧ ∀ text letter seconds, value = text ++ [letter] → unit letter = some seconds →
    ∃ l, literal text = some l ∧ l.digits.length ≤ maxStrDigits ∧
      -maxDays * secondsPerDay ≤ l.value * seconds ∧
      l.value * seconds < (maxDays + 1) * secondsPerDay

/-! ## The two readings of the last letter -/

section

variable {text : List Char} {letter : Char} {seconds : Nat}

theorem convert_other (other : unit letter = none) :
    convert (text ++ [letter]) = .error (.usageError "<number>[smhdw]" (text ++ [letter])) := by
  rw [convert, List.getLast?_concat]
  simp only [other]

theorem convert_unit (known : unit letter = some seconds) : convert (text ++ [letter]) =
    (int text).elim (.error .valueError) fun number => timedelta (number * seconds) := by
  rw [convert, List.getLast?_concat]
  simp only [known, List.dropLast_concat]
  cases int text <;> rfl

theorem timedelta_ok {n : Int} {t : Timedelta} :
    timedelta n = .ok t ↔ t.totalSeconds = n := by
  rw [timedelta]
  constructor
  · intro made
    split at made <;> cases made
    rfl
  · rintro rfl
    exact dif_pos ⟨t.least, t.greatest⟩

theorem int_some {number : Int} : int text = some number ↔
    ∃ l, literal text = some l ∧ l.digits.length ≤ maxStrDigits ∧ l.value = number := by
  simp [int, and_assoc]

/-- The number of digits of a duration is far below what Python reads. -/
theorem totalSeconds_short (t : Timedelta) :
    (Nat.toDigits 10 t.totalSeconds.natAbs).length ≤ maxStrDigits := by
  have below : t.totalSeconds.natAbs < 10 ^ 14 := by
    have least := t.least
    have greatest := t.greatest
    simp only [maxDays, secondsPerDay] at least greatest
    omega
  have digits := (Nat.length_toDigits_le_iff (by decide) (by decide)).mpr below
  exact Nat.le_trans digits (by decide)

theorem convert_exported (t : Timedelta) : convert (exported t) = .ok t := by
  have second : unit 's' = some 1 := rfl
  rw [exported, convert_unit second, int_str (totalSeconds_short t)]
  exact timedelta_ok.mpr (by simp)

end

/-! ## Where the grammar is kept -/

theorem convert_accepts {value text : List Char} {letter : Char} {l : Literal} {seconds : Nat}
    (guarded : WithinGuard value) (split : value = text ++ [letter])
    (known : unit letter = some seconds) (read : literal text = some l) :
    ∃ t, convert value = .ok t ∧ t.totalSeconds = l.value * seconds := by
  obtain ⟨m, readAlso, short, least, greatest⟩ := guarded.2 text letter seconds split known
  cases readAlso.symm.trans read
  refine ⟨⟨l.value * seconds, least, greatest⟩, ?_, rfl⟩
  rw [split, convert_unit known, int_some.mpr ⟨l, read, short, rfl⟩]
  exact timedelta_ok.mpr rfl

theorem convert_refuses {value : List Char} (guarded : WithinGuard value)
    (other : ∀ text letter l seconds, value = text ++ [letter] → unit letter = some seconds →
      literal text ≠ some l) : convert value = .error (.usageError "<number>[smhdw]" value) := by
  rcases List.eq_nil_or_concat' value with rfl | ⟨text, letter, rfl⟩
  · exact absurd rfl guarded.1
  · cases known : unit letter with
    | none => exact convert_other known
    | some seconds =>
        obtain ⟨l, read, _⟩ := guarded.2 text letter seconds rfl known
        exact absurd read (other text letter l seconds rfl known)

theorem acceptsGrammar_of_guard {value : List Char} (guarded : WithinGuard value) :
    AcceptsGrammar value := by
  refine ⟨fun _ _ _ _ => convert_accepts guarded, fun other => ⟨_, convert_refuses guarded other⟩,
    ?_, fun t _ => convert_exported t⟩
  intro exc fails
  by_cases other : ∀ text letter l seconds, value = text ++ [letter] →
      unit letter = some seconds → literal text ≠ some l
  · rw [convert_refuses guarded other] at fails
    cases fails
    exact ⟨_, rfl⟩
  · push Not at other
    obtain ⟨text, letter, l, seconds, split, known, read⟩ := other
    obtain ⟨t, accepted, _⟩ := convert_accepts guarded split known read
    cases accepted.symm.trans fails

theorem guard_of_acceptsGrammar {value : List Char} (grammar : AcceptsGrammar value) :
    WithinGuard value := by
  constructor
  · rintro rfl
    obtain ⟨expected, same⟩ := grammar.onlyUsage .indexError rfl
    cases same
  · rintro text letter seconds rfl known
    cases read : int text with
    | none =>
        have fails : convert (text ++ [letter]) = .error .valueError := by
          rw [convert_unit known, read, Option.elim_none]
        obtain ⟨expected, same⟩ := grammar.onlyUsage .valueError fails
        cases same
    | some number =>
        obtain ⟨l, literal, short, rfl⟩ := int_some.mp read
        obtain ⟨t, accepted, same⟩ := grammar.accepts text letter l seconds rfl known literal
        exact ⟨l, literal, short, same ▸ t.least, same ▸ t.greatest⟩

theorem accepts_grammar_iff (value : List Char) : AcceptsGrammar value ↔ WithinGuard value :=
  ⟨guard_of_acceptsGrammar, acceptsGrammar_of_guard⟩

/-- A unit without a number leaves the method with the `ValueError` of `int`. -/
theorem bare_unit_raises : ¬ AcceptsGrammar "xs".toList := by
  intro grammar
  obtain ⟨expected, same⟩ := grammar.onlyUsage .valueError (by decide)
  cases same

end JobQ.Duration
