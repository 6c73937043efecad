import JobQ.Library.IntLiteral

/-!
# Floats and their texts

Python's `float(text)`. A literal may have a sign, spaces around it, a fraction and an exponent, and
single underscores between its digits; infinities and the value that is no number go by their names.
-/

namespace FloatLiteral

open IntLiteral (digits Literal strip)

def magnitude (values : List Nat) : Nat := (Literal.value ⟨false, values⟩).toNat

def mantissa (text : List Char) : Option (List Nat × List Nat) :=
  let whole := text.takeWhile (· ≠ '.')
  let side (part : List Char) := if part = [] then some [] else digits part
  match text.dropWhile (· ≠ '.') with
  | [] => (digits whole).map (·, [])
  | _ :: fraction =>
    if whole = [] ∧ fraction = [] then none
    else
      match side whole, side fraction with
      | some before, some after => some (before, after)
      | _, _ => none

def exponent : List Char → Option Int
  | [] => some 0
  | _ :: '-' :: rest => (digits rest).map fun values => -(magnitude values : Int)
  | _ :: '+' :: rest => (digits rest).map fun values => (magnitude values : Int)
  | _ :: rest => (digits rest).map fun values => (magnitude values : Int)

def decimal (text : List Char) : Option Float :=
  match mantissa (text.takeWhile (· ≠ 'e')), exponent (text.dropWhile (· ≠ 'e')) with
  | some (before, after), some e =>
    let e := e - after.length
    some (Float.ofScientific (magnitude (before ++ after)) (decide (e < 0)) e.natAbs)
  | _, _ => none

def infinity : Float := 1.0 / 0.0

def unsigned (text : List Char) : Option Float :=
  let text := text.map Char.toLower
  if text = "inf".toList ∨ text = "infinity".toList then some infinity
  else if text = "nan".toList then some (0.0 / 0.0)
  else decimal text

/-- `float(text)`, where the only exception is a `ValueError`. -/
def float (text : List Char) : Option Float :=
  match strip text with
  | '-' :: rest => (unsigned rest).map (-·)
  | '+' :: rest => unsigned rest
  | rest => unsigned rest

end FloatLiteral
