import JobQ.Library.FloatRange
import JobQ.Model.Workforce.RequestWithRetry

/-!
# Which request of a call decides

`_request_with_retry` hands on the outcome of the first request that succeeds, or else of the last
one, as long as no wait raises.
-/

namespace JobQ.RequestWithRetry

open FloatRange

variable {x : Float} {attempt r : Nat} {request : Nat → Outcome} {jitter : Nat → Jitter}
  {clock : Nat → Monotonic} {now : Monotonic}

/-! ## The waits -/

theorem maxZero_nonneg (x : Float) : 0 ≤ maxZero x := by
  unfold maxZero
  split
  · rename_i positive
    exact le_of_lt positive
  · rw [nonneg_iff]
    trivial

theorem askedDelay_nonneg {headers : Headers} {delay : Float} (asked : askedDelay headers = some delay) :
    0 ≤ delay := by
  simp only [askedDelay, Option.or_eq_some_iff, Option.map_eq_some_iff] at asked
  rcases asked with ⟨ms, -, rfl⟩ | ⟨-, ra, -, rfl⟩
  · exact maxZero_nonneg (ms / 1000.0)
  · exact maxZero_nonneg ra

/-- The delay, and the deadline that it comes to, fit in 64 bits of nanoseconds. -/
def Fits (now : Monotonic) (delay : Float) : Prop :=
  delay * 1000000000.0 < 9223372036854775808.0 ∧ now.val + roundUp (delay * 1000000000.0) < 2 ^ 63

theorem sleep_ok_iff (nonneg : 0 ≤ x) : sleep now x = .ok () ↔ Fits now x := by
  have billion : (1000000000.0 : Float).toModel.unpack =
    .finite .positive 8388608000000000 (-23) (by decide) := by rfl
  have least : (-9223372036854775808.0 : Float).toModel.unpack =
    .finite .negative 4503599627370496 11 (by decide) := by rfl
  have product := mul_nonneg nonneg billion
  have lower := le_of_nonneg product least
  have sign : ¬x * 1000000000.0 < 0.0 := not_lt_zero product
  rw [sleep, Fits, isNaN_of_nonneg nonneg, if_neg Bool.false_ne_true]
  by_cases small : x * 1000000000.0 < 9223372036854775808.0
  · rw [if_neg (not_not_intro ⟨lower, small⟩), if_neg sign]
    by_cases late : 2 ^ 63 ≤ now.val + roundUp (x * 1000000000.0)
    · rw [if_pos late]
      exact iff_of_false nofun fun fits => Nat.not_lt.mpr late fits.2
    · rw [if_neg late]
      exact iff_of_true rfl ⟨small, Nat.lt_of_not_le late⟩
  · rw [if_pos fun range => small range.2]
    exact iff_of_false nofun fun fits => small fits.1

theorem roundUp_le (below : Below 0 x) : roundUp x ≤ 2 ^ 53 := by
  have whole := below.toUInt64_lt
  unfold roundUp
  dsimp only
  split <;> omega

theorem backoff_sleeps (early : attempt < 1024) (jitter : Jitter) :
    (backoff attempt jitter >>= sleep now) = .ok () := by
  have thirty : Below (-48) 30.0 := ⟨by decide, by decide⟩
  have one : Below (-52) 1 := ⟨by decide, by decide⟩
  have billion : Below (-23) 1000000000.0 := ⟨by decide, by decide⟩
  have limit : (9223372036854775808.0 : Float).toModel.unpack =
    .finite .positive 4503599627370496 11 (by decide) := by rfl
  have capped : Below (-48) (if 30.0 < Float.ofNat (1 <<< attempt) then 30.0
      else Float.ofNat (1 <<< attempt)) := by
    split
    · exact thirty
    · rename_i small
      have positive := ofNat_nonneg (1 <<< attempt)
      exact below_of_le positive (le_of_not_lt positive thirty.nonneg small) thirty
  have drawn : Below (-48) jitter.val :=
    (below_of_le jitter.property.1 jitter.property.2 one).mono (by decide)
  have delay := Below.add (by decide) (by decide) capped drawn
  have product := Below.mul (by decide) (by decide) delay billion
  have nanoseconds := roundUp_le (product.mono (by decide))
  have now := now.property
  rw [backoff, powTwo, if_pos early]
  exact (sleep_ok_iff delay.nonneg).mpr ⟨product.lt limit (by decide), by omega⟩

theorem backoff_overflows (late : ¬attempt < 1024) (jitter : Jitter) :
    (backoff attempt jitter >>= sleep now) = .error .overflowError := by
  rw [backoff, powTwo, if_neg late]
  rfl

/-- The wait after a request that is to be repeated. -/
def wait (attempt : Nat) (jitter : Jitter) (now : Monotonic) : Outcome → Except Raised Unit
  | .exception _ => backoff attempt jitter >>= sleep now
  | .response response => resumeRetryDelay response attempt jitter >>= sleep now

/-- The delay that the service asks for fits. Where it asks for none, the power of two is still a
float. -/
def Waitable (attempt : Nat) (now : Monotonic) : Outcome → Prop
  | .exception _ => attempt < 1024
  | .response response =>
    match askedDelay response.headers with
    | some delay => Fits now delay
    | none => attempt < 1024

theorem backoff_sleeps_iff (jitter : Jitter) :
    (backoff attempt jitter >>= sleep now) = .ok () ↔ attempt < 1024 := by
  constructor
  · intro slept
    by_contra late
    rw [backoff_overflows late] at slept
    cases slept
  · intro early
    exact backoff_sleeps early jitter

theorem wait_ok_iff (jitter : Jitter) (outcome : Outcome) :
    wait attempt jitter now outcome = .ok () ↔ Waitable attempt now outcome := by
  cases outcome with
  | exception exc => exact backoff_sleeps_iff jitter
  | response response =>
      simp only [wait, Waitable, resumeRetryDelay]
      cases asked : askedDelay response.headers with
      | none => exact backoff_sleeps_iff jitter
      | some delay => exact sleep_ok_iff (askedDelay_nonneg asked)

/-! ## Which request decides -/

def Outcome.isFinal : Outcome → Bool
  | .response received => received.isFinal
  | .exception _ => false

def Outcome.ending : Outcome → Ending
  | .response received => .returned received
  | .exception exc => .raised (.requestException exc)

/-- The position of the first final response among the first `r + 1` outcomes, or `r + 1`. -/
def position (r : Nat) (request : Nat → Outcome) : Nat :=
  ((List.range (r + 1)).find? fun i => (request i).isFinal).getD r + 1

structure Faithful (r : Nat) (request : Nat → Outcome) (call : Call) : Prop where
  sent : call.sent = position r request
  ending : call.ending = (request (position r request - 1)).ending

structure Decisive (r : Nat) (request : Nat → Outcome) (k : Nat) : Prop where
  bound : k ≤ r
  earlier : ∀ i < k, (request i).isFinal = false
  stops : k = r ∨ (request k).isFinal = true

theorem position_decisive (r : Nat) (request : Nat → Outcome) :
    ∃ k, position r request = k + 1 ∧ Decisive r request k := by
  rw [position]
  cases found : (List.range (r + 1)).find? fun i => (request i).isFinal with
  | none =>
      simp only [List.find?_eq_none, List.mem_range, Bool.not_eq_true] at found
      exact ⟨r, rfl, Nat.le_refl r, fun i below => found i (by omega), .inl rfl⟩
  | some k =>
      rw [List.find?_range_eq_some] at found
      obtain ⟨final, member, earlier⟩ := found
      refine ⟨k, rfl, ?_, fun i below => ?_, .inr final⟩
      · exact Nat.le_of_lt_succ (List.mem_range.mp member)
      · simpa using earlier i below

theorem Decisive.before_iff {k : Nat} (decisive : Decisive r request k) :
    attempt < k ↔ attempt < r ∧ ∀ i ≤ attempt, (request i).isFinal = false := by
  constructor
  · intro before
    exact ⟨Nat.lt_of_lt_of_le before decisive.bound,
      fun i le => decisive.earlier i (Nat.lt_of_le_of_lt le before)⟩
  · rintro ⟨before, none⟩
    by_contra late
    rcases decisive.stops with rfl | final
    · exact late before
    · rw [none _ (Nat.le_of_not_lt late)] at final
      cases final

/-! ## The loop -/

theorem loop_stops {lastExc : Option RequestException} {left : Nat}
    (stops : attempt = r ∨ (request attempt).isFinal = true) :
    loop r request jitter clock lastExc attempt (left + 1) = ⟨attempt + 1, (request attempt).ending⟩ := by
  rw [loop]
  cases outcome : request attempt with
  | exception exc =>
      rw [outcome] at stops
      rcases stops with rfl | final
      · dsimp only
        rw [if_pos rfl]
        rfl
      · cases final
  | response response =>
      rw [outcome] at stops
      rcases stops with rfl | final
      · dsimp only
        rw [if_pos rfl, ite_self]
        rfl
      · exact if_pos final

theorem loop_continues (jitter : Nat → Jitter) (clock : Nat → Monotonic) (lastExc : Option RequestException) (left : Nat)
    (before : attempt < r) (retried : (request attempt).isFinal = false) :
    ∃ next, loop r request jitter clock lastExc attempt (left + 1) =
      match wait attempt (jitter attempt) (clock attempt) (request attempt) with
      | .error raised => ⟨attempt + 1, .raised raised⟩
      | .ok () => loop r request jitter clock next (attempt + 1) left := by
  have other : ¬(attempt : Int) = r := by omega
  rw [loop]
  cases outcome : request attempt with
  | exception exc => exact ⟨some exc, if_neg other⟩
  | response response =>
      have retried : ¬response.isFinal = true := by
        rw [outcome] at retried
        exact ne_true_of_eq_false retried
      refine ⟨lastExc, ?_⟩
      dsimp only
      rw [if_neg retried, if_neg other]
      rfl

theorem loop_faithful_iff {k : Nat} (decisive : Decisive r request k)
    (lastExc : Option RequestException) (left : Nat) (reached : attempt ≤ k)
    (rest : attempt + left = r) :
    loop r request jitter clock lastExc attempt (left + 1) = ⟨k + 1, (request k).ending⟩ ↔
      ∀ i, attempt ≤ i → i < k → Waitable i (clock i) (request i) := by
  induction left generalizing attempt lastExc with
  | zero =>
      obtain rfl : attempt = k := by have := decisive.bound; omega
      rw [loop_stops decisive.stops]
      simp only [true_iff]
      intro i le lt
      omega
  | succ left ih =>
      rcases Nat.lt_or_eq_of_le reached with before | rfl
      · obtain ⟨next, step⟩ := loop_continues jitter clock lastExc (left + 1) (before.trans_le decisive.bound)
          (decisive.earlier attempt before)
        rw [step]
        cases waited : wait attempt (jitter attempt) (clock attempt) (request attempt) with
        | error raised =>
            have stuck : ¬Waitable attempt (clock attempt) (request attempt) := by
              rw [← wait_ok_iff (jitter attempt), waited]
              exact nofun
            constructor
            · intro same
              injection same with sent
              omega
            · intro waits
              exact absurd (waits attempt (Nat.le_refl attempt) before) stuck
        | ok =>
            have waits := (wait_ok_iff (jitter attempt) (request attempt)).mp waited
            show loop r request jitter clock next (attempt + 1) (left + 1) = _ ↔ _
            rw [ih next (by omega) (by omega)]
            constructor
            · intro later i le lt
              rcases Nat.lt_or_eq_of_le le with after | rfl
              · exact later i after lt
              · exact waits
            · intro all i le lt
              exact all i (by omega) lt
      · rw [loop_stops decisive.stops]
        simp only [true_iff]
        intro i le lt
        omega

theorem faithful_iff {k : Nat} (decides : position r request = k + 1) (call : Call) :
    Faithful r request call ↔ call = ⟨k + 1, (request k).ending⟩ := by
  obtain ⟨sent, ending⟩ := call
  constructor
  · rintro ⟨rfl, rfl⟩
    rw [decides]
    rfl
  · intro made
    cases made
    exact ⟨decides.symm, by rw [decides]; rfl⟩

theorem requestWithRetry_faithful_iff (r : Nat) (request : Nat → Outcome) (jitter : Nat → Jitter)
    (clock : Nat → Monotonic) : Faithful r request (requestWithRetry (some r) request jitter clock) ↔
      ∀ attempt < r, (∀ i ≤ attempt, (request i).isFinal = false) →
        Waitable attempt (clock attempt) (request attempt) := by
  obtain ⟨k, decides, decisive⟩ := position_decisive r request
  have call : requestWithRetry (some r) request jitter clock =
      loop r request jitter clock none 0 (r + 1) := by
    rw [requestWithRetry, Option.getD_some, ← Int.natCast_succ, Int.toNat_natCast]
  rw [faithful_iff decides, call, loop_faithful_iff decisive none r (Nat.zero_le k) (Nat.zero_add r)]
  constructor
  · intro waits attempt before none
    exact waits attempt (Nat.zero_le attempt) (decisive.before_iff.mpr ⟨before, none⟩)
  · intro waits attempt _ before
    obtain ⟨bound, none⟩ := decisive.before_iff.mp before
    exact waits attempt bound none

/-- The delay that is asked for does not fit in 64 bits of nanoseconds. -/
def throttled : Outcome :=
  .response ⟨503, { retryAfter := some "10000000000" }, "Service Unavailable"⟩

theorem requestWithRetry_not_faithful :
    requestWithRetry (some 1) (fun _ => throttled) (fun _ => default) (fun _ => default) = ⟨1, .raised .overflowError⟩ ∧
      ¬ Faithful 1 (fun _ => throttled)
        (requestWithRetry (some 1) (fun _ => throttled) (fun _ => default) (fun _ => default)) := by
  have raised : requestWithRetry (some 1) (fun _ => throttled) (fun _ => default) (fun _ => default) =
      ⟨1, .raised .overflowError⟩ := by decide +kernel
  refine ⟨raised, fun faithful => ?_⟩
  have sent := faithful.sent
  rw [raised] at sent
  exact absurd sent (by decide)

end JobQ.RequestWithRetry
