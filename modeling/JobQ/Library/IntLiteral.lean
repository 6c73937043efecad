import Mathlib.Data.List.TakeWhile
import Mathlib.Data.Nat.Notation
import JobQ.Library.Text

/-!
# Integers and their texts

Python's `int(text)` and `str(n)`. A literal may have a sign, spaces around it, single underscores
between its digits, and the decimal digits of any script (those of Unicode 14).
-/

namespace IntLiteral

/-- The zero of each run of ten digits. -/
def zeros : List Nat :=
  [0x30, 0x660, 0x6F0, 0x7C0, 0x966, 0x9E6, 0xA66, 0xAE6, 0xB66, 0xBE6, 0xC66, 0xCE6, 0xD66, 0xDE6,
    0xE50, 0xED0, 0xF20, 0x1040, 0x1090, 0x17E0, 0x1810, 0x1946, 0x19D0, 0x1A80, 0x1A90, 0x1B50,
    0x1BB0, 0x1C40, 0x1C50, 0xA620, 0xA8D0, 0xA900, 0xA9D0, 0xA9F0, 0xAA50, 0xABF0, 0xFF10, 0x104A0,
    0x10D30, 0x11066, 0x110F0, 0x11136, 0x111D0, 0x112F0, 0x11450, 0x114D0, 0x11650, 0x116C0, 0x11730,
    0x118E0, 0x11950, 0x11C50, 0x11D50, 0x11DA0, 0x16A60, 0x16AC0, 0x16B50, 0x1D7CE, 0x1D7D8, 0x1D7E2,
    0x1D7EC, 0x1D7F6, 0x1E140, 0x1E2F0, 0x1E950, 0x1FBF0]

def digit (c : Char) : Option Nat :=
  (zeros.find? fun first => first ≤ c.toNat && c.toNat < first + 10).map (c.toNat - ·)

def digits : List Char → Option (List Nat)
  | [] => none
  | [c] => (digit c).map ([·])
  | c :: d :: rest =>
    match digit c, if d = '_' then digits rest else digits (d :: rest) with
    | some value, some values => some (value :: values)
    | _, _ => none

structure Literal where
  negative : Bool
  digits : List Nat

namespace Literal

def value (l : Literal) : Int :=
  let magnitude : Nat := l.digits.foldl (fun n d => 10 * n + d) 0
  if l.negative then -magnitude else magnitude

end Literal

/-- Unlike `str.strip`, `int` does not take the four separators of ASCII for spaces. -/
def isSpace (c : Char) : Bool := Text.isSpace c && !(28 ≤ c.toNat && c.toNat ≤ 31)

def strip (text : List Char) : List Char :=
  ((text.dropWhile isSpace).reverse.dropWhile isSpace).reverse

def literal (text : List Char) : Option Literal :=
  match strip text with
  | '-' :: rest => (digits rest).map (⟨true, ·⟩)
  | '+' :: rest => (digits rest).map (⟨false, ·⟩)
  | rest => (digits rest).map (⟨false, ·⟩)

/-- `sys.get_int_max_str_digits()` by default. -/
def maxStrDigits : Nat := 4300

/-- `int(text)`, where the only exception is a `ValueError`. -/
def int (text : List Char) : Option Int :=
  ((literal text).filter fun l => l.digits.length ≤ maxStrDigits).map Literal.value

/-- `str(n)` -/
def str (n : Int) : List Char :=
  if n < 0 then '-' :: Nat.toDigits 10 n.natAbs else Nat.toDigits 10 n.natAbs

/-! ## Reading what was written -/

theorem isDigit_bounds {c : Char} (isDigit : c.isDigit = true) : 48 ≤ c.toNat ∧ c.toNat < 58 := by
  simp only [Char.isDigit, Bool.and_eq_true, decide_eq_true_eq] at isDigit
  have lower : (48 : UInt32) ≤ c.val := isDigit.1
  have upper : c.val ≤ (57 : UInt32) := isDigit.2
  rw [UInt32.le_iff_toNat_le] at lower upper
  exact ⟨lower, Nat.lt_succ_of_le upper⟩

theorem toDigits_isDigit {n : Nat} : ∀ c ∈ Nat.toDigits 10 n, c.isDigit = true :=
  fun _ member => Nat.isDigit_of_mem_toDigits (by decide) (by decide) member

theorem digit_ascii {c : Char} (isDigit : c.isDigit = true) : digit c = some (c.toNat - '0'.toNat) := by
  obtain ⟨lower, upper⟩ := isDigit_bounds isDigit
  have found : zeros.find? (fun first => first ≤ c.toNat && c.toNat < first + 10) = some 48 :=
    List.find?_cons_of_pos (by simp [lower]; omega)
  rw [digit, found]
  rfl

theorem digits_ascii {text : List Char} (filled : text ≠ [])
    (ascii : ∀ c ∈ text, c.isDigit = true) :
    digits text = some (text.map fun c => c.toNat - '0'.toNat) := by
  induction text with
  | nil => contradiction
  | cons c rest ih =>
      have first := digit_ascii (ascii c (by simp))
      cases rest with
      | nil => simp [digits, first]
      | cons d rest =>
          have plain : d ≠ '_' := by
            rintro rfl
            cases ascii '_' (by simp)
          have others := ih (by simp) fun c member => ascii c (by simp [member])
          simp [digits, plain, first, others]

theorem digits_toDigits (n : Nat) : digits (Nat.toDigits 10 n) =
    some ((Nat.toDigits 10 n).map fun c => c.toNat - '0'.toNat) :=
  digits_ascii Nat.toDigits_ne_nil toDigits_isDigit

theorem foldl_toDigits (n : Nat) :
    ((Nat.toDigits 10 n).map fun c => c.toNat - '0'.toNat).foldl (fun n d => 10 * n + d) 0 = n := by
  rw [List.foldl_map, ← Nat.ofDigitChars_eq_foldl]
  exact Nat.ofDigitChars_toDigits (by decide) (by decide)

theorem isSpace_ascii {c : Char} (isDigit : c.isDigit = true) : isSpace c = false := by
  obtain ⟨lower, upper⟩ := isDigit_bounds isDigit
  simp only [isSpace, Text.isSpace, Bool.and_eq_false_iff, Bool.or_eq_false_iff,
    decide_eq_false_iff_not, beq_eq_false_iff_ne]
  omega

theorem dropWhile_eq_self {text : List Char} (plain : ∀ c ∈ text, isSpace c = false) :
    text.dropWhile isSpace = text := by
  cases text with
  | nil => rfl
  | cons c rest => exact List.dropWhile_cons_of_neg (by simp [plain c])

theorem strip_eq_self {text : List Char} (plain : ∀ c ∈ text, isSpace c = false) :
    strip text = text := by
  rw [strip, dropWhile_eq_self plain, dropWhile_eq_self fun c member =>
    plain c (List.mem_reverse.mp member), List.reverse_reverse]

theorem literal_negative (n : Nat) : literal ('-' :: Nat.toDigits 10 n) =
    some ⟨true, (Nat.toDigits 10 n).map fun c => c.toNat - '0'.toNat⟩ := by
  have plain : ∀ c ∈ '-' :: Nat.toDigits 10 n, isSpace c = false := by
    intro c member
    rcases List.mem_cons.mp member with rfl | later
    · rfl
    · exact isSpace_ascii (toDigits_isDigit c later)
  rw [literal, strip_eq_self plain]
  simp only [digits_toDigits, Option.map_some]

theorem literal_natural (n : Nat) : literal (Nat.toDigits 10 n) =
    some ⟨false, (Nat.toDigits 10 n).map fun c => c.toNat - '0'.toNat⟩ := by
  have plain : ∀ c ∈ Nat.toDigits 10 n, isSpace c = false :=
    fun c member => isSpace_ascii (toDigits_isDigit c member)
  rw [literal, strip_eq_self plain]
  split
  · rename_i sign
    cases toDigits_isDigit '-' (sign ▸ List.mem_cons_self)
  · rename_i sign
    cases toDigits_isDigit '+' (sign ▸ List.mem_cons_self)
  · simp only [digits_toDigits, Option.map_some]

theorem literal_str (n : Int) : ∃ l, literal (str n) = some l ∧ l.value = n ∧
    l.digits.length = (Nat.toDigits 10 n.natAbs).length := by
  rw [str]
  split
  · refine ⟨_, literal_negative n.natAbs, ?_, List.length_map _⟩
    simp only [Literal.value, foldl_toDigits, if_true]
    omega
  · refine ⟨_, literal_natural n.natAbs, ?_, List.length_map _⟩
    simp only [Literal.value, foldl_toDigits, Bool.false_eq_true, if_false]
    omega

/-- Nothing that `str` writes is refused, as long as it is short enough to be read. -/
theorem int_str {n : Int} (short : (Nat.toDigits 10 n.natAbs).length ≤ maxStrDigits) :
    int (str n) = some n := by
  obtain ⟨l, read, value, length⟩ := literal_str n
  have few : l.digits.length ≤ maxStrDigits := length.trans_le short
  simp [int, read, few, value]

end IntLiteral
