import Mathlib

/-!
# How large a float can become

Bounds on the exponent of a sum and of a product of doubles that are not negative, on the logical
model of `Float`. A mantissa has 53 bits, so that the exponent bounds the number.
-/

namespace FloatRange

open Float.Model Float.Model.UnpackedFloat

abbrev binary64 : Format := Format.binary64

/-- A zero, or a positive number with an exponent of at most `k`. -/
def BelowExponent (k : Int) : UnpackedFloat → Prop
  | .zero _ => True
  | .finite .positive m e _ => m < 2 ^ 53 ∧ e ≤ k
  | _ => False

/-! ## Packing -/

/-- What can be read of bits with a positive sign and an exponent below that of the infinities. -/
theorem unpack_positive {b : BitVec binary64.numBits}
    (positive : Sign.ofBitVec (unpackSign b) = .positive) (finite : (unpackExponent b).toNat < 2047) :
    UnpackedFloat.unpack binary64 b = .zero .positive ∨
      ∃ m, ∃ pos : 0 < m, m < 2 ^ 53 ∧ UnpackedFloat.unpack binary64 b =
        .finite .positive m (max ((unpackExponent b).toNat : Int) 1 - 1075) pos := by
  have ordinary : unpackExponent b ≠ -1#11 := by
    intro infinite
    rw [infinite] at finite
    exact absurd finite (by decide)
  unfold UnpackedFloat.unpack
  dsimp only
  rw [positive, if_neg ordinary]
  by_cases subnormal : unpackExponent b = 0#11
  · rw [if_pos subnormal]
    by_cases zero : unpackMantissa b = 0#52
    · rw [dif_pos zero]
      exact .inl rfl
    · have pos : 0 < (unpackMantissa b).toNat := by
        simpa [BitVec.toNat_pos, BitVec.pos_iff_ne_zero] using zero
      have short : (unpackMantissa b).toNat < 2 ^ 53 :=
        Nat.lt_of_lt_of_le (unpackMantissa b).isLt (by decide)
      rw [dif_neg zero]
      refine .inr ⟨(unpackMantissa b).toNat, pos, short, ?_⟩
      rw [subnormal]
      rfl
  · have nonzero : (unpackExponent b).toNat ≠ 0 := fun zero => subnormal (BitVec.eq_of_toNat_eq zero)
    have exponent : max ((unpackExponent b).toNat : Int) 1 - 1075 = (unpackExponent b).toNat - 1075 := by
      omega
    have pos : 0 < (1#1 ++ unpackMantissa b).toNat := by
      rw [BitVec.toNat_append]
      exact Nat.lt_of_lt_of_le (by decide) Nat.left_le_or
    rw [if_neg subnormal, exponent]
    exact .inr ⟨(1#1 ++ unpackMantissa b).toNat, pos, (1#1 ++ unpackMantissa b).isLt, rfl⟩

theorem unpack_components {exponent : BitVec 11} (mantissa : BitVec 52) (finite : exponent.toNat < 2047) :
    UnpackedFloat.unpack binary64 (packComponents binary64 .positive exponent mantissa) = .zero .positive ∨
      ∃ m, ∃ pos : 0 < m, m < 2 ^ 53 ∧
        UnpackedFloat.unpack binary64 (packComponents binary64 .positive exponent mantissa) =
          .finite .positive m (max (exponent.toNat : Int) 1 - 1075) pos := by
  have stored : unpackExponent (packComponents binary64 .positive exponent mantissa) = exponent :=
    unpackExponent_packComponents
  have read := unpack_positive (b := packComponents binary64 .positive exponent mantissa)
    (by rw [unpackSign_packComponents]; rfl) (by rw [stored]; exact finite)
  rwa [stored] at read

section

variable {k l : Int}

theorem below_unpack_components {exponent : BitVec 11} {mantissa : BitVec 52} (least : -1074 ≤ k)
    (small : (exponent.toNat : Int) - 1075 ≤ k) (finite : exponent.toNat < 2047) :
    BelowExponent k (UnpackedFloat.unpack binary64 (packComponents binary64 .positive exponent mantissa)) := by
  rcases unpack_components mantissa finite with zero | ⟨m, pos, short, read⟩
  · rw [zero]
    trivial
  · rw [read]
    exact ⟨short, by omega⟩

/-- What is read back has the exponent that was written, or the least one. -/
theorem below_unpack_pack {f : UnpackedFloat} (below : BelowExponent k f) (least : -1074 ≤ k)
    (greatest : k ≤ 900) : BelowExponent k (UnpackedFloat.unpack binary64 (UnpackedFloat.pack binary64 f)) := by
  match f, below with
  | .zero .positive, _ => trivial
  | .zero .negative, _ => trivial
  | .finite .positive m e pos, below =>
      have small : e ≤ k := below.2
      have bias : (binary64.exponentBias : Int) = 1023 := rfl
      unfold UnpackedFloat.pack
      simp only [bias]
      split
      · rename_i large
        have : 2 ^ 11 ≤ (e + 1023 + 52).toNat + 1 := large
        omega
      · split
        · apply below_unpack_components least
          · simp only [BitVec.toNat_ofNat]
            omega
          · simp only [BitVec.toNat_ofNat]
            omega
        · apply below_unpack_components least
          · simp only [BitVec.toNat_ofNat]
            omega
          · decide

/-! ## Signs -/

/-- A number that is not negative, or the positive infinity. -/
def NonNegative : UnpackedFloat → Prop
  | .zero _ | .finite .positive .. | .infinity .positive => True
  | _ => False

theorem nonNegative_unpack_components {exponent : BitVec 11} {mantissa : BitVec 52}
    (finite : exponent.toNat < 2047) :
    NonNegative (UnpackedFloat.unpack binary64 (packComponents binary64 .positive exponent mantissa)) := by
  rcases unpack_components mantissa finite with zero | ⟨m, pos, -, read⟩
  · rw [zero]
    trivial
  · rw [read]
    trivial

theorem nonNegative_unpack_pack {f : UnpackedFloat} (nonNegative : NonNegative f) :
    NonNegative (UnpackedFloat.unpack binary64 (UnpackedFloat.pack binary64 f)) := by
  match f, nonNegative with
  | .zero .positive, _ => trivial
  | .zero .negative, _ => trivial
  | .infinity .positive, _ => trivial
  | .finite .positive m e pos, _ =>
      unfold UnpackedFloat.pack
      dsimp only
      split
      · trivial
      · rename_i small
        split
        · apply nonNegative_unpack_components
          have small : ¬2 ^ 11 ≤ (e + 1023 + 52).toNat + 1 := small
          have stored : (BitVec.ofNat 11 (e + 1023 + 52).toNat).toNat < 2047 := by
            rw [BitVec.toNat_ofNat]
            omega
          exact stored
        · exact nonNegative_unpack_components (by decide)

theorem nonNegative_roundWithAccuracy (m : Nat) (e : Int) (a : Accuracy) :
    NonNegative (roundWithAccuracy binary64 .positive m e a) := by
  unfold roundWithAccuracy
  dsimp only
  split <;> trivial

theorem nonNegative_ofNat (n : Nat) : NonNegative (UnpackedFloat.ofNat binary64 n) := by
  unfold UnpackedFloat.ofNat UnpackedFloat.ofInt UnpackedFloat.normalize
  split
  · rename_i negative
    have := Int.compare_eq_lt.mp negative
    omega
  · trivial
  · exact nonNegative_roundWithAccuracy _ _ _

theorem nonNegative_mul {a b : UnpackedFloat} (first : NonNegative a) {m : Nat} {e : Int} {pos : 0 < m}
    (second : b = .finite .positive m e pos) : NonNegative (UnpackedFloat.mul binary64 a b) := by
  subst second
  match a, first with
  | .zero .positive, _ => trivial
  | .zero .negative, _ => trivial
  | .infinity .positive, _ => trivial
  | .finite .positive m₁ e₁ pos₁, _ =>
      exact nonNegative_roundWithAccuracy (m₁ * m) (e₁ + e) .exact

theorem nonNegative_ofScientific (m : Nat) {e : Int} (whole : 0 ≤ e) :
    NonNegative (UnpackedFloat.ofScientific binary64 m e) := by
  unfold UnpackedFloat.ofScientific
  split
  · trivial
  · split
    · trivial
    · split
      · trivial
      · exact nonNegative_mul (by trivial) rfl

/-! ## Rounding -/

theorem roundedMantissa_le (em : ExtendedMantissa) : em.roundedMantissa ≤ em.mantissa + 1 := by
  obtain ⟨m, r, s⟩ := em
  cases r <;> cases s <;>
    simp only [ExtendedMantissa.roundedMantissa, ExtendedMantissa.accuracy,
      Accuracy.roundToNearestEven] <;> omega

theorem mantissa_shiftRight (em : ExtendedMantissa) (n : Nat) :
    (em >>> n).mantissa = em.mantissa / 2 ^ n := by
  induction n generalizing em with
  | zero => simp [HShiftRight.hShiftRight, Nat.repeat]
  | succ n ih =>
      have one : em >>> (n + 1) = (em >>> n).shiftRightOne := rfl
      rw [one, ExtendedMantissa.shiftRightOne, ih, Nat.div_div_eq_div_mul, Nat.pow_succ]

theorem mantissa_ofMantissaAndAccuracy (m : Nat) (a : Accuracy) :
    (ExtendedMantissa.ofMantissaAndAccuracy m a).mantissa = m := by
  match a with
  | .exact => rfl
  | .inexact .lt => rfl
  | .inexact .eq => rfl
  | .inexact .gt => rfl

theorem targetExponent_eq (m : Nat) (e : Int) :
    binary64.targetExponent (totalExponent m e) = max (m.log2 + e - 52) (-1074) := by
  have bits : (binary64.mantissaBits : Int) = 53 := rfl
  have least : binary64.minExponent = -1074 := rfl
  rw [Format.targetExponent, totalExponent, bits, least]
  omega

theorem shiftToTarget_exponent (m : Nat) (e : Int) (a : Accuracy) :
    (shiftToTargetExponent binary64 m e a).2 = max e (max (m.log2 + e - 52) (-1074)) := by
  rw [shiftToTargetExponent, targetExponent_eq, shiftToExponent]
  dsimp only
  omega

theorem shiftToTarget_mantissa (m : Nat) (e : Int) (a : Accuracy) :
    (shiftToTargetExponent binary64 m e a).1.mantissa < 2 ^ 53 := by
  rw [shiftToTargetExponent, targetExponent_eq, shiftToExponent]
  dsimp only
  rw [mantissa_shiftRight, mantissa_ofMantissaAndAccuracy]
  apply (Nat.div_lt_iff_lt_mul (Nat.two_pow_pos _)).mpr
  have short : m.log2 + 1 ≤ 53 + (max (m.log2 + e - 52) (-1074) - e).toNat := by omega
  calc m < 2 ^ (m.log2 + 1) := Nat.lt_log2_self
    _ ≤ 2 ^ (53 + (max (m.log2 + e - 52) (-1074) - e).toNat) := Nat.pow_le_pow_right (by decide) short
    _ = 2 ^ 53 * 2 ^ (max (m.log2 + e - 52) (-1074) - e).toNat := Nat.pow_add _ _ _

theorem log2_le {n k : Nat} (below : n < 2 ^ (k + 1)) : n.log2 ≤ k := by
  by_cases zero : n = 0
  · simp [zero]
  · exact Nat.le_of_lt_succ ((Nat.log2_lt zero).mpr below)

/-- The carry of the rounding can move the exponent by one. -/
theorem below_roundWithAccuracy {m : Nat} {e : Int} (a : Accuracy) (least : -1074 ≤ k)
    (given : e ≤ k) (small : m.log2 + e - 52 ≤ k) :
    BelowExponent (k + 1) (roundWithAccuracy binary64 .positive m e a) := by
  have exponent := shiftToTarget_exponent m e a
  have mantissa := shiftToTarget_mantissa m e a
  unfold roundWithAccuracy
  generalize shiftToTargetExponent binary64 m e a = first at exponent mantissa
  obtain ⟨em, e₁⟩ := first
  dsimp only at exponent mantissa ⊢
  have carry : em.roundedMantissa.log2 ≤ 53 := by
    have rounded := roundedMantissa_le em
    exact log2_le (by omega)
  have exponent₂ := shiftToTarget_exponent em.roundedMantissa e₁ .exact
  have mantissa₂ := shiftToTarget_mantissa em.roundedMantissa e₁ .exact
  split
  · trivial
  · refine ⟨mantissa₂, ?_⟩
    rw [exponent₂]
    omega

theorem decreaseExponent_spec (m : Nat) (e target : Int) :
    (decreaseExponent m e target).1 = m <<< (e - target).toNat ∧
      (decreaseExponent m e target).2 = min e target := by
  rw [decreaseExponent]
  exact ⟨rfl, by dsimp only; omega⟩

theorem log2_shiftLeft_le (m n : Nat) : (m <<< n).log2 ≤ m.log2 + n := by
  apply log2_le
  rw [Nat.shiftLeft_eq, Nat.add_right_comm, Nat.pow_add]
  exact Nat.mul_lt_mul_of_pos_right Nat.lt_log2_self (Nat.two_pow_pos n)

theorem below_round {m : Nat} {e : Int} (least : -1074 ≤ k) (small : m.log2 + e - 52 ≤ k) :
    BelowExponent (k + 1) (UnpackedFloat.round binary64 .positive m e) := by
  rw [UnpackedFloat.round, targetExponent_eq]
  obtain ⟨mantissa, exponent⟩ := decreaseExponent_spec m e (max (m.log2 + e - 52) (-1074))
  generalize decreaseExponent m e (max (m.log2 + e - 52) (-1074)) = shifted at mantissa exponent
  obtain ⟨m', e'⟩ := shifted
  dsimp only at mantissa exponent ⊢
  apply below_roundWithAccuracy _ least
  · omega
  · rw [mantissa]
    have shifted := log2_shiftLeft_le m (e - max (m.log2 + e - 52) (-1074)).toNat
    omega

/-! ## Sums and products -/

theorem shiftLeft_lt {m n : Nat} (short : m < 2 ^ 53) : m <<< n < 2 ^ (53 + n) := by
  rw [Nat.shiftLeft_eq, Nat.pow_add]
  exact Nat.mul_lt_mul_of_pos_right short (Nat.two_pow_pos n)

theorem below_normalize {n : Nat} {e : Int} (least : -1074 ≤ k) (small : n.log2 + e - 52 ≤ k) :
    BelowExponent (k + 1) (UnpackedFloat.normalize binary64 n e .positive) := by
  unfold UnpackedFloat.normalize
  split
  · rename_i negative
    have := Int.compare_eq_lt.mp negative
    omega
  · trivial
  · exact below_round least small

theorem below_add {a b : UnpackedFloat} (least : -1074 ≤ k) (first : BelowExponent k a)
    (second : BelowExponent k b) : BelowExponent (k + 2) (UnpackedFloat.add binary64 a b) := by
  match a, b, first, second with
  | .zero s, .zero t, _, _ => cases s <;> cases t <;> trivial
  | .zero s, .finite .positive m e pos, _, second => exact ⟨second.1, by have := second.2; omega⟩
  | .finite .positive m e pos, .zero s, first, _ => exact ⟨first.1, by have := first.2; omega⟩
  | .finite .positive m₁ e₁ _, .finite .positive m₂ e₂ _, ⟨short₁, small₁⟩, ⟨short₂, small₂⟩ =>
      -- both mantissas, shifted to the smaller exponent, are below one power of two
      have bound {m : Nat} {e : Int} (short : m < 2 ^ 53) (le : e ≤ max e₁ e₂) :
          (decreaseExponent m e (min e₁ e₂)).1 < 2 ^ (53 + (max e₁ e₂ - min e₁ e₂).toNat) := by
        rw [(decreaseExponent_spec m e (min e₁ e₂)).1]
        exact Nat.lt_of_lt_of_le (shiftLeft_lt short) (Nat.pow_le_pow_right (by decide) (by omega))
      have first := bound short₁ (Int.le_max_left e₁ e₂)
      have second := bound short₂ (Int.le_max_right e₁ e₂)
      unfold UnpackedFloat.add
      dsimp only [Sign.apply]
      rw [← Int.natCast_add]
      generalize (decreaseExponent m₁ e₁ (min e₁ e₂)).1 = n₁ at first ⊢
      generalize (decreaseExponent m₂ e₂ (min e₁ e₂)).1 = n₂ at second ⊢
      have digits : (n₁ + n₂).log2 ≤ 53 + (max e₁ e₂ - min e₁ e₂).toNat := by
        apply log2_le
        rw [Nat.pow_succ]
        omega
      have carry : k + 2 = k + 1 + 1 := by omega
      rw [carry]
      exact below_normalize (n := n₁ + n₂) (e := min e₁ e₂) (by omega) (by omega)

theorem below_mul {a b : UnpackedFloat} (least : -1074 ≤ k + l + 53) (first : BelowExponent k a)
    (second : BelowExponent l b) : BelowExponent (k + l + 54) (UnpackedFloat.mul binary64 a b) := by
  match a, b, first, second with
  | .zero s, .zero t, _, _ => trivial
  | .zero s, .finite .positive m e pos, _, _ => trivial
  | .finite .positive m e pos, .zero s, _, _ => trivial
  | .finite .positive m₁ e₁ pos₁, .finite .positive m₂ e₂ pos₂, ⟨short₁, small₁⟩, ⟨short₂, small₂⟩ =>
      have product : m₁ * m₂ < 2 ^ 53 * 2 ^ 53 := Nat.mul_lt_mul'' short₁ short₂
      rw [← Nat.pow_add] at product
      have digits := log2_le product
      have exponents : e₁ + e₂ ≤ k + l := Int.add_le_add small₁ small₂
      have carry : k + l + 54 = k + l + 53 + 1 := by omega
      rw [carry]
      exact below_roundWithAccuracy (m := m₁ * m₂) (e := e₁ + e₂) .exact least (by omega) (by omega)

end

/-! ## Floats -/

section

variable {k l : Int} {x y : Float}

/-- Not negative, and with an exponent of at most `k`. -/
def Below (k : Int) (x : Float) : Prop := BelowExponent k x.toModel.unpack

theorem Below.mono (below : Below k x) (le : k ≤ l) : Below l x := by
  unfold Below at below ⊢
  match x.toModel.unpack, below with
  | .zero s, _ => trivial
  | .finite .positive m e pos, ⟨short, small⟩ => exact ⟨short, Int.le_trans small le⟩

theorem Below.add (least : -1074 ≤ k) (greatest : k ≤ 898) (first : Below k x) (second : Below k y) :
    Below (k + 2) (x + y) :=
  below_unpack_pack (below_add least first second) (by omega) (by omega)

theorem Below.mul (least : -1074 ≤ k + l + 53) (greatest : k + l ≤ 846) (first : Below k x)
    (second : Below l y) : Below (k + l + 54) (x * y) :=
  below_unpack_pack (below_mul least first second) (by omega) (by omega)

theorem le_iff : x ≤ y ↔ UnpackedFloat.le x.toModel.unpack y.toModel.unpack = true :=
  decide_eq_true_iff

theorem lt_iff : x < y ↔ UnpackedFloat.lt x.toModel.unpack y.toModel.unpack = true :=
  decide_eq_true_iff

theorem nonneg_iff : 0 ≤ x ↔ NonNegative x.toModel.unpack := by
  have zero : (0 : Float).toModel.unpack = .zero .positive := by rfl
  rw [le_iff, zero]
  constructor
  · intro le
    match x.toModel.unpack, le with
    | .zero s, _ => trivial
    | .finite .positive m e pos, _ => trivial
    | .infinity .positive, _ => trivial
  · intro nonNegative
    match x.toModel.unpack, nonNegative with
    | .zero s, _ => rfl
    | .finite .positive m e pos, _ => rfl
    | .infinity .positive, _ => rfl

theorem mul_nonneg (first : 0 ≤ x) {m : Nat} {e : Int} {pos : 0 < m}
    (second : y.toModel.unpack = .finite .positive m e pos) : 0 ≤ x * y := by
  rw [nonneg_iff] at first ⊢
  exact nonNegative_unpack_pack (nonNegative_mul first second)

theorem ofNat_nonneg (n : Nat) : 0 ≤ Float.ofNat n := by
  have one : Float.exactlyRepresentablePowersOfTen[0].toModel.unpack =
    .finite .positive (2 ^ 52) (-52) (by decide) := by rfl
  change 0 ≤ Float.ofScientific n false 0
  unfold Float.ofScientific
  split
  · simp only [Bool.false_eq_true, if_false]
    apply mul_nonneg
    · rw [nonneg_iff]
      exact nonNegative_unpack_pack (nonNegative_ofNat _)
    · exact one
  · rw [nonneg_iff]
    exact nonNegative_unpack_pack (nonNegative_ofScientific n (Int.le_refl 0))

theorem le_of_lt (lt : x < y) : x ≤ y := by
  rw [lt_iff, UnpackedFloat.lt, beq_iff_eq] at lt
  rw [le_iff, UnpackedFloat.le, lt]
  rfl

theorem le_of_not_lt (first : 0 ≤ x) (second : 0 ≤ y) (not : ¬y < x) : x ≤ y := by
  rw [nonneg_iff] at first second
  rw [lt_iff] at not
  rw [le_iff]
  generalize x.toModel.unpack = u at first not ⊢
  generalize y.toModel.unpack = v at second not
  match u, v, first, second with
  | .zero s, .zero t, _, _ => rfl
  | .zero s, .finite .positive m e pos, _, _ => rfl
  | .zero s, .infinity .positive, _, _ => rfl
  | .finite .positive m e pos, .zero t, _, _ => exact absurd rfl not
  | .infinity .positive, .zero t, _, _ => exact absurd rfl not
  | .infinity .positive, .finite .positive m e pos, _, _ => exact absurd rfl not
  | .infinity .positive, .infinity .positive, _, _ => rfl
  | .finite .positive m e pos, .infinity .positive, _, _ => rfl
  | .finite .positive m₁ e₁ _, .finite .positive m₂ e₂ _, _, _ =>
      rw [UnpackedFloat.le, UnpackedFloat.compare, Option.any_some]
      rw [UnpackedFloat.lt, UnpackedFloat.compare, ← Int.compare_swap, ← Nat.compare_swap,
        ← Ordering.swap_then] at not
      cases order : (compare e₁ e₂).then (compare m₁ m₂) with
      | lt => rfl
      | eq => rfl
      | gt =>
          rw [order] at not
          exact absurd rfl not

theorem isNaN_of_nonneg (nonneg : 0 ≤ x) : x.isNaN = false := by
  rw [nonneg_iff] at nonneg
  unfold Float.isNaN Float.Model.isNaN
  match x.toModel.unpack, nonneg with
  | .zero s, _ => rfl
  | .finite .positive m e pos, _ => rfl
  | .infinity .positive, _ => rfl

theorem not_lt_zero (nonneg : 0 ≤ x) : ¬x < 0 := by
  have zero : (0 : Float).toModel.unpack = .zero .positive := by rfl
  rw [nonneg_iff] at nonneg
  rw [lt_iff, zero]
  match x.toModel.unpack, nonneg with
  | .zero s, _ => exact Bool.false_ne_true
  | .finite .positive m e pos, _ => exact Bool.false_ne_true
  | .infinity .positive, _ => exact Bool.false_ne_true

/-- Whatever is not negative lies above a negative number. -/
theorem le_of_nonneg (nonneg : 0 ≤ x) {m : Nat} {e : Int} {pos : 0 < m}
    (negative : y.toModel.unpack = .finite .negative m e pos) : y ≤ x := by
  rw [nonneg_iff] at nonneg
  rw [le_iff, negative]
  match x.toModel.unpack, nonneg with
  | .zero s, _ => rfl
  | .finite .positive m e pos, _ => rfl
  | .infinity .positive, _ => rfl

theorem Below.nonneg (below : Below k x) : 0 ≤ x := by
  rw [nonneg_iff]
  unfold Below at below
  match x.toModel.unpack, below with
  | .zero s, _ => trivial
  | .finite .positive m e pos, _ => trivial

theorem mantissa_lt {b : BitVec binary64.numBits} {s : Sign} {m : Nat} {e : Int} {pos : 0 < m}
    (read : UnpackedFloat.unpack binary64 b = .finite s m e pos) : m < 2 ^ 53 := by
  unfold UnpackedFloat.unpack at read
  dsimp only at read
  split at read
  · split at read <;> cases read
  · split at read
    · split at read
      · cases read
      · cases read
        have short := (unpackMantissa b).isLt
        omega
    · cases read
      exact (1#1 ++ unpackMantissa b).isLt

theorem exponent_le_of_le {m₁ m₂ : Nat} {e₁ e₂ : Int} {pos₁ : 0 < m₁} {pos₂ : 0 < m₂}
    (le : UnpackedFloat.le (.finite .positive m₁ e₁ pos₁) (.finite .positive m₂ e₂ pos₂) = true) :
    e₁ ≤ e₂ := by
  by_contra larger
  have order : compare e₁ e₂ = .gt := Int.compare_eq_gt.mpr (Int.lt_of_not_ge larger)
  rw [UnpackedFloat.le, UnpackedFloat.compare, order] at le
  cases le

theorem below_of_le (positive : 0 ≤ x) (le : x ≤ y) (below : Below k y) : Below k x := by
  have zero : (0 : Float).toModel.unpack = .zero .positive := by rfl
  rw [le_iff, zero] at positive
  rw [le_iff] at le
  unfold Below at below ⊢
  have short {s m e pos} (read : x.toModel.unpack = .finite s m e pos) : m < 2 ^ 53 := mantissa_lt read
  generalize x.toModel.unpack = u at positive le short ⊢
  generalize y.toModel.unpack = v at le below
  match u, v, below with
  | .zero s, _, _ => trivial
  | .notANumber, _, _ => cases positive
  | .infinity .negative, _, _ => cases positive
  | .finite .negative m e pos, _, _ => cases positive
  | .infinity .positive, .zero t, _ => cases le
  | .infinity .positive, .finite .positive m e pos, _ => cases le
  | .finite .positive m e pos, .zero t, _ => cases le
  | .finite .positive m₁ e₁ pos₁, .finite .positive m₂ e₂ pos₂, ⟨_, small⟩ =>
      exact ⟨short rfl, Int.le_trans (exponent_le_of_le le) small⟩

theorem Below.lt (below : Below k x) {m : Nat} {e : Int} {pos : 0 < m}
    (large : y.toModel.unpack = .finite .positive m e pos) (less : k < e) : x < y := by
  rw [lt_iff, large]
  unfold Below at below
  generalize x.toModel.unpack = u at below
  match u, below with
  | .zero s, _ => rfl
  | .finite .positive m₁ e₁ pos₁, ⟨_, small⟩ =>
      have order : compare e₁ e = .lt := Int.compare_eq_lt.mpr (Int.lt_of_le_of_lt small less)
      rw [UnpackedFloat.lt, UnpackedFloat.compare, order]
      rfl

theorem roundToInt_whole (m : Nat) {e : Int} (fraction : e ≤ 0) :
    roundToInt .positive m e = ((m / 2 ^ (-e).toNat : Nat) : Int) := by
  have none : (e - 0).toNat = 0 := by omega
  have same : e - (0 : Nat) = e := by omega
  have amount : (0 - e).toNat = (-e).toNat := by omega
  simp only [roundToInt, shiftToExponent, decreaseExponent, none, Nat.shiftLeft_zero, same, amount,
    mantissa_shiftRight, mantissa_ofMantissaAndAccuracy]
  rfl

theorem Below.toUInt64_lt (below : Below 0 x) : x.toUInt64.toNat < 2 ^ 53 := by
  unfold Float.toUInt64 Float.Model.toUInt64 UnpackedFloat.toUInt64
  unfold Below at below
  generalize x.toModel.unpack = u at below
  match u, below with
  | .zero s, _ => exact Nat.two_pow_pos 53
  | .finite .positive m e pos, ⟨short, small⟩ =>
      have whole := Nat.lt_of_le_of_lt (Nat.div_le_self m (2 ^ (-e).toNat)) short
      rw [toInt, roundToInt_whole m small, Int.toNat_natCast, UInt64.ofNatClamp,
        dif_pos (Nat.lt_trans whole (by decide))]
      exact whole

theorem sub_self (u : UnpackedFloat) :
    UnpackedFloat.sub binary64 u u = .zero .positive ∨ UnpackedFloat.sub binary64 u u = .notANumber := by
  match u with
  | .notANumber => exact .inr rfl
  | .infinity .positive | .infinity .negative => exact .inr rfl
  | .zero .positive | .zero .negative => exact .inl rfl
  | .finite s m e pos =>
      left
      simp only [UnpackedFloat.sub, Int.sub_self]
      rfl

/-- A float does not differ from itself, at whatever scale. -/
theorem not_one_le_sub_self (x : Float) : ¬(1.0 : Float) ≤ (x - x) * 1000.0 := by
  have difference : (x - x).toModel =
      .pack (UnpackedFloat.sub binary64 x.toModel.unpack x.toModel.unpack) := rfl
  have product : ((x - x) * 1000.0).toModel =
      .pack (UnpackedFloat.mul binary64 (x - x).toModel.unpack (1000.0 : Float).toModel.unpack) := rfl
  rw [le_iff, product, difference]
  rcases sub_self x.toModel.unpack with zero | none
  · rw [zero]
    decide +kernel
  · rw [none]
    decide +kernel

end

end FloatRange
