import Mathlib.Data.List.Infix

/-!
# Python strings

A `str` is a sequence of code points. It may have surrogates, where `high n` is U+D800 + `n` and `low n`
is U+DC00 + `n`, also two in a row that would be the halves of one character: these stay two code
points until the text is written and read again.
-/

inductive Point where
  | char (c : Char)
  | high (n : Fin 1024)
  | low (n : Fin 1024)
deriving DecidableEq

structure Str where
  points : List Point
deriving DecidableEq

namespace Point

instance : Coe Char Point := ⟨char⟩

abbrev half (n : Nat) : Fin 1024 := Fin.ofNat 1024 n

theorem half_val (n : Fin 1024) : half n.val = n := Fin.ofNat_val_eq_self n

def char? : Point → Option Char
  | .char c => some c
  | _ => none

/-- The character that UTF-16 writes as the two surrogates. -/
def pair (h l : Fin 1024) : Char := Char.ofNat (0x10000 + h.val * 1024 + l.val)

theorem pair_toNat (h l : Fin 1024) : (pair h l).toNat = 0x10000 + h.val * 1024 + l.val := by
  have valid : (0x10000 + h.val * 1024 + l.val).isValidChar := .inr (by omega)
  rw [pair, Char.ofNat, dif_pos valid]
  rfl

end Point

namespace Str

def ofString (s : String) : Str := ⟨s.toList.map Point.char⟩

instance : Coe String Str := ⟨ofString⟩

/-- The text, unless it has a surrogate. -/
def toString? (s : Str) : Option String := (s.points.mapM Point.char?).map String.ofList

/-- Each high surrogate directly followed by a low one becomes their character. -/
def joinPoints : List Point → List Point
  | .high h :: .low l :: rest => Point.pair h l :: joinPoints rest
  | p :: rest => p :: joinPoints rest
  | [] => []

def joined (s : Str) : Str := ⟨joinPoints s.points⟩

/-- No high surrogate is directly followed by a low one. -/
def Joined (s : Str) : Prop := s.joined = s

instance (s : Str) : Decidable s.Joined := inferInstanceAs (Decidable (s.joined = s))

def contains (part text : Str) : Bool := part.points <:+: text.points

variable {s t : String}

@[simp]
theorem ofString_inj : ofString s = ofString t ↔ s = t := by
  constructor
  · intro same
    have points := congrArg points same
    rw [ofString, ofString, List.map_inj_right fun _ _ => Point.char.inj] at points
    exact String.toList_injective points
  · exact congrArg ofString

theorem eq_empty_iff {s : Str} : s = "" ↔ s.points = [] := by
  cases s
  simp [ofString]

theorem joinPoints_char (cs : List Char) : joinPoints (cs.map Point.char) = cs.map Point.char := by
  induction cs with
  | nil => rfl
  | cons c cs ih => rw [List.map_cons, joinPoints, ih]; simp

@[simp]
theorem joined_ofString : (ofString s).joined = ofString s :=
  congrArg mk (joinPoints_char s.toList)

@[simp]
theorem ofString_joined : (ofString s).Joined := joined_ofString

@[simp]
theorem toString?_ofString : (ofString s).toString? = some s := by
  have chars (cs : List Char) : (cs.map Point.char).mapM Point.char? = some cs := by
    induction cs with
    | nil => rfl
    | cons c cs ih => simp [Point.char?, ih]
  rw [toString?, ofString, chars, Option.map_some, String.ofList_toList]

end Str
