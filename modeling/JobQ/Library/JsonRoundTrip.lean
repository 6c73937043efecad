import JobQ.Library.Json
import Mathlib.Tactic.Common

/-!
# `json.loads` reads back what `json.dumps` wrote

What was written is read back with the surrogate pairs of its strings joined, and with the hook
applied to every object. A well-formed value comes back as it is.
-/

namespace JsonText

/-! ## Strings -/

theorem hexValue_digitChar : ∀ d, d < 16 → hexValue (Nat.digitChar d) = some d := by decide

theorem hex4Value_hex4 (n : Nat) (bound : n < 0x10000) :
    hex4Value (Nat.digitChar (n / 4096 % 16)) (Nat.digitChar (n / 256 % 16))
      (Nat.digitChar (n / 16 % 16)) (Nat.digitChar (n % 16)) = some n := by
  have digit (k : Nat) : hexValue (Nat.digitChar (k % 16)) = some (k % 16) :=
    hexValue_digitChar _ (Nat.mod_lt _ (by omega))
  simp only [hex4Value, digit, Option.some.injEq]
  omega

theorem unitOf_high (n : Fin 1024) : unitOf (0xd800 + n.val) = .high n := by
  rw [unitOf, if_pos (by omega), Nat.add_sub_cancel_left, Point.half_val]

theorem unitOf_low (n : Fin 1024) : unitOf (0xdc00 + n.val) = .low n := by
  rw [unitOf, if_neg (by omega), if_pos (by omega), Nat.add_sub_cancel_left, Point.half_val]

theorem unitOf_char (c : Char) : unitOf c.toNat = .point c := by
  have valid : c.toNat < 0xd800 ∨ (0xdfff < c.toNat ∧ c.toNat < 0x110000) := c.valid
  rw [unitOf, if_neg (by omega), if_neg (by omega), Char.ofNat_toNat]

variable (rest : List Point)

theorem parseUnits_unit (n : Nat) (bound : n < 0x10000) :
    parseUnits ((escapeUnit n).map .char ++ rest) = consUnit (unitOf n) (parseUnits rest) := by
  simp only [escapeUnit, hex4, List.map_cons, List.map_nil, List.cons_append, List.nil_append]
  rw [parseUnits, hex4Value_hex4 n bound]

theorem parseUnits_plain (c : Char) (quote : c ≠ '"') (slash : c ≠ '\\') (printable : 32 ≤ c.toNat) :
    parseUnits (.char c :: rest) = consUnit (.point c) (parseUnits rest) := by
  rw [parseUnits.eq_def]
  split
  · contradiction
  · rename_i equal; cases equal; contradiction
  · rename_i equal; cases equal; contradiction
  · rename_i equal
    cases equal
    have control : isControl (.char c) = false := by
      simp only [isControl, decide_eq_false_iff_not]
      omega
    rw [if_neg (by simpa using quote), control]
    rfl

theorem parseUnits_simple (e c : Char) (notU : e ≠ 'u') (escape : simpleEscape e = some c) :
    parseUnits (.char '\\' :: .char e :: rest) = consUnit (.point c) (parseUnits rest) := by
  rw [parseUnits.eq_def]
  split
  · contradiction
  · rename_i equal; cases equal; contradiction
  · rename_i equal; cases equal; simp [escape]
  · rename_i noEscape equal
    cases equal
    exact (noEscape _ _ rfl rfl).elim

/-- What the text of a code point stands for: outside the Basic Multilingual Plane, two surrogates. -/
def unitsOf : Point → List StringUnit
  | .char c =>
    if c.toNat < 0x10000 then [.point c]
    else [.high (Point.half ((c.toNat - 0x10000) / 1024)),
      .low (Point.half ((c.toNat - 0x10000) % 1024))]
  | .high n => [.high n]
  | .low n => [.low n]

def consUnits (us : List StringUnit) :
    Option (List StringUnit × List Point) → Option (List StringUnit × List Point) :=
  Option.map fun r => (us ++ r.1, r.2)

theorem parseUnits_escapeChar (c : Char) : parseUnits ((escapeChar c).map .char ++ rest) =
    consUnits (unitsOf (.char c)) (parseUnits rest) := by
  have basic (small : c.toNat < 0x10000) : consUnits (unitsOf (.char c)) (parseUnits rest) =
      consUnit (.point c) (parseUnits rest) := by
    rw [unitsOf, if_pos small]
    rfl
  unfold escapeChar
  split
  · subst c; exact parseUnits_simple rest _ _ (by decide) rfl
  split
  · subst c; exact parseUnits_simple rest _ _ (by decide) rfl
  split
  · rename_i code
    rw [basic (by omega), show c = Char.ofNat 8 by rw [← code, Char.ofNat_toNat]]
    exact parseUnits_simple rest _ _ (by decide) rfl
  split
  · rename_i code
    rw [basic (by omega), show c = Char.ofNat 12 by rw [← code, Char.ofNat_toNat]]
    exact parseUnits_simple rest _ _ (by decide) rfl
  split
  · subst c; exact parseUnits_simple rest _ _ (by decide) rfl
  split
  · subst c; exact parseUnits_simple rest _ _ (by decide) rfl
  split
  · subst c; exact parseUnits_simple rest _ _ (by decide) rfl
  split
  · rename_i slash quote _ _ _ _ _ printable
    rw [basic (by omega)]
    exact parseUnits_plain rest c quote slash printable.1
  split
  · rename_i small
    rw [basic small, parseUnits_unit rest _ small, unitOf_char]
  · rename_i supplementary
    have valid : c.toNat < 0x110000 := by
      have : c.toNat < 0xd800 ∨ (0xdfff < c.toNat ∧ c.toNat < 0x110000) := c.valid
      omega
    have high := unitOf_high (Point.half ((c.toNat - 0x10000) / 1024))
    have low := unitOf_low (Point.half ((c.toNat - 0x10000) % 1024))
    simp only [Fin.val_ofNat, Nat.mod_mod] at high low
    rw [Nat.mod_eq_of_lt (by omega)] at high
    rw [List.map_append, List.append_assoc, parseUnits_unit _ _ (by omega), high,
      parseUnits_unit _ _ (by omega), low, unitsOf, if_neg supplementary]
    cases parseUnits rest <;> rfl

theorem parseUnits_escapePoint (p : Point) :
    parseUnits ((escapePoint p).map .char ++ rest) = consUnits (unitsOf p) (parseUnits rest) := by
  cases p with
  | char c => exact parseUnits_escapeChar rest c
  | high n => rw [escapePoint, parseUnits_unit _ _ (by omega), unitOf_high]; rfl
  | low n => rw [escapePoint, parseUnits_unit _ _ (by omega), unitOf_low]; rfl

theorem parseUnits_escape (ps : List Point) :
    parseUnits ((escape ps).map .char ++ .char '"' :: rest) = some (ps.flatMap unitsOf, rest) := by
  induction ps with
  | nil => simp [escape, parseUnits]
  | cons p ps ih =>
      have first : escape (p :: ps) = escapePoint p ++ escape ps := rfl
      rw [first, List.map_append, List.append_assoc, parseUnits_escapePoint, ih]
      rfl

theorem mergeUnits_high {us : List StringUnit} (n : Fin 1024) (other : ∀ l, us.head? ≠ some (.low l)) :
    mergeUnits (.high n :: us) = .high n :: mergeUnits us := by
  rw [mergeUnits]
  rintro l rest rfl
  exact other l rfl

theorem head?_units (ps : List Point) (l : Fin 1024) (first : (ps.flatMap unitsOf).head? = some (.low l)) :
    ∃ rest, ps = .low l :: rest := by
  cases ps with
  | nil => cases first
  | cons p rest =>
      cases p with
      | char c =>
          rw [List.flatMap_cons, unitsOf] at first
          split at first <;> cases first
      | high n => cases first
      | low n => cases first; exact ⟨rest, rfl⟩

theorem mergeUnits_char (c : Char) (us : List StringUnit) :
    mergeUnits (unitsOf (.char c) ++ us) = .char c :: mergeUnits us := by
  rw [unitsOf]
  split
  · rfl
  · rename_i supplementary
    have valid : c.toNat < 0xd800 ∨ (0xdfff < c.toNat ∧ c.toNat < 0x110000) := c.valid
    have code : 0x10000 + (Point.half ((c.toNat - 0x10000) / 1024)).val * 1024 +
        (Point.half ((c.toNat - 0x10000) % 1024)).val = c.toNat := by
      simp only [Fin.val_ofNat]
      omega
    have pair : mergeUnits ([.high (Point.half ((c.toNat - 0x10000) / 1024)),
        .low (Point.half ((c.toNat - 0x10000) % 1024))] ++ us) =
        .char (Point.pair _ _) :: mergeUnits us := rfl
    rw [pair, Point.pair, code, Char.ofNat_toNat]

theorem mergeUnits_flatMap (ps : List Point) :
    mergeUnits (ps.flatMap unitsOf) = Str.joinPoints ps := by
  fun_induction Str.joinPoints ps with
  | case1 h l rest ih => exact congrArg _ ih
  | case2 p rest apart ih =>
      rw [List.flatMap_cons]
      cases p with
      | char c => rw [mergeUnits_char, ih]
      | high n =>
          refine (mergeUnits_high n fun l first => ?_).trans (congrArg _ ih)
          obtain ⟨others, equal⟩ := head?_units rest l first
          exact apart n l others rfl equal
      | low n => exact congrArg _ ih
  | case3 => rfl

theorem parseString_dumpsString (s : Str) :
    parseString ((escape s.points).map .char ++ .char '"' :: rest) = some (s.joined, rest) := by
  rw [parseString, parseUnits_escape, Option.map_some, mergeUnits_flatMap]
  rfl

/-! ## Numbers -/

def EndsDigits (ps : List Point) : Prop := ∀ c, ps.head? = some (.char c) → c.isDigit = false

def Stops (ps : List Point) : Prop :=
  EndsDigits ps ∧ ps.head? ≠ some (.char '.') ∧ ps.head? ≠ some (.char 'e') ∧
    ps.head? ≠ some (.char 'E')

theorem stops_nil : Stops [] := by simp [Stops, EndsDigits]

theorem stops_char {c : Char} (digit : c.isDigit = false) (dot : c ≠ '.') (lower : c ≠ 'e')
    (upper : c ≠ 'E') : Stops (.char c :: rest) := by
  simp [Stops, EndsDigits, digit, dot, lower, upper]

variable {rest}

theorem spanDigits_append {cs : List Char} (all : ∀ c ∈ cs, c.isDigit = true)
    (stop : EndsDigits rest) : spanDigits (cs.map .char ++ rest) = (cs, rest) := by
  induction cs with
  | nil =>
      cases rest with
      | nil => rfl
      | cons p rest =>
          cases p with
          | char c => simp [spanDigits, stop c rfl]
          | high n => rfl
          | low n => rfl
  | cons c cs ih =>
      have tail := ih fun d member => all d (List.mem_cons_of_mem _ member)
      simp [spanDigits, all c List.mem_cons_self, tail]

theorem parseDigits_append (ds : Digits) (stop : EndsDigits rest) :
    parseDigits (ds.chars.map .char ++ rest) = some (ds, rest) := by
  have span := spanDigits_append ds.digits stop
  unfold parseDigits
  simp only [span]
  rw [dif_pos ds.nonempty]

theorem toDigits_head (n : Nat) (positive : 0 < n) :
    ∃ c cs, Nat.toDigits 10 n = c :: cs ∧ c ≠ '0' := by
  induction n using Nat.strongRecOn with
  | ind n ih =>
      by_cases small : n < 10
      · refine ⟨n.digitChar, [], Nat.toDigits_of_lt_base small, ?_⟩
        have : ∀ k < 10, 0 < k → k.digitChar ≠ '0' := by decide
        exact this n small positive
      · obtain ⟨c, cs, digits, leading⟩ := ih (n / 10) (by omega) (by omega)
        refine ⟨c, cs ++ [(n % 10).digitChar], ?_, leading⟩
        rw [Nat.toDigits_of_base_le (by decide) (by omega), digits, List.cons_append]

theorem toDigits_cons (n : Nat) : ∃ c cs, Nat.toDigits 10 n = c :: cs ∧ c.isDigit = true := by
  obtain ⟨c, cs, digits⟩ := List.exists_cons_of_ne_nil (Nat.toDigits_ne_nil (n := n) (b := 10))
  exact ⟨c, cs, digits, IntLiteral.toDigits_isDigit (n := n) c (by simp [digits])⟩

theorem parseWhole_toDigits (n : Nat) (stop : EndsDigits rest) :
    parseWhole ((Nat.toDigits 10 n).map .char ++ rest) = some (n, rest) := by
  by_cases zero : n = 0
  · subst n; simp [parseWhole, Nat.toDigits_zero]
  · have span := spanDigits_append (IntLiteral.toDigits_isDigit (n := n)) stop
    obtain ⟨c, cs, digits, leading⟩ := toDigits_head n (by omega)
    have digit : c.isDigit = true := IntLiteral.toDigits_isDigit (n := n) c (by simp [digits])
    have value := Nat.ofDigitChars_ten_toDigits (n := n)
    rw [digits] at span value ⊢
    rw [List.map_cons, List.cons_append] at span ⊢
    rw [parseWhole, if_neg leading, if_pos digit, span, value]

theorem parseFraction_append (fraction : Option Digits) (stop : EndsDigits rest)
    (dot : rest.head? ≠ some (.char '.')) :
    parseFraction ((dumpsFraction fraction).map .char ++ rest) = (fraction, rest) := by
  cases fraction with
  | none =>
      rw [dumpsFraction, List.map_nil, List.nil_append, parseFraction]
      rintro rest rfl
      exact dot rfl
  | some ds => simp [parseFraction, dumpsFraction, parseDigits_append ds stop]

theorem parseExponent_append (exponent : Option (Bool × Digits)) (stop : Stops rest) :
    parseExponent ((dumpsExponent exponent).map .char ++ rest) = (exponent, rest) := by
  cases exponent with
  | none =>
      cases rest with
      | nil => rfl
      | cons p rest =>
          obtain ⟨-, -, lower, upper⟩ := stop
          rw [List.head?_cons, ne_eq, Option.some.injEq] at lower upper
          simp [parseExponent, dumpsExponent, lower, upper]
  | some sign =>
      obtain ⟨negative, ds⟩ := sign
      have digits := parseDigits_append ds stop.1
      cases negative <;> simp [parseExponent, dumpsExponent, digits]

theorem dumpsExponent_stops (exponent : Option (Bool × Digits)) (stop : Stops rest) :
    EndsDigits ((dumpsExponent exponent).map .char ++ rest) ∧
      ((dumpsExponent exponent).map Point.char ++ rest).head? ≠ some (.char '.') := by
  cases exponent with
  | none => exact ⟨stop.1, stop.2.1⟩
  | some sign => simp [dumpsExponent, EndsDigits]

theorem dumpsFraction_stops (fraction : Option Digits) (stop : EndsDigits rest) :
    EndsDigits ((dumpsFraction fraction).map .char ++ rest) := by
  cases fraction with
  | none => exact stop
  | some ds => simp [dumpsFraction, EndsDigits]

def numberText (negative : Bool) (whole : Nat) (fraction : Option Digits)
    (exponent : Option (Bool × Digits)) : List Char :=
  dumpsSign negative ++ Nat.toDigits 10 whole ++ dumpsFraction fraction ++ dumpsExponent exponent

theorem parseNumber_append (negative : Bool) (whole : Nat) (fraction : Option Digits)
    (exponent : Option (Bool × Digits)) (stop : Stops rest) :
    parseNumber ((numberText negative whole fraction exponent).map .char ++ rest) =
      (numberOf negative whole fraction exponent).map (·, rest) := by
  obtain ⟨atExponent, dot⟩ := dumpsExponent_stops exponent stop
  have atFraction := dumpsFraction_stops fraction atExponent
  have wholePart := parseWhole_toDigits whole atFraction
  have fractionPart := parseFraction_append fraction atExponent dot
  have exponentPart := parseExponent_append exponent stop
  obtain ⟨c, cs, digits, digit⟩ := toDigits_cons whole
  have unsigned : c ≠ '-' := by rintro rfl; contradiction
  have sign : decide ((((Nat.toDigits 10 whole).map Point.char ++
      ((dumpsFraction fraction).map Point.char ++
        ((dumpsExponent exponent).map Point.char ++ rest))).head? = some (.char '-'))) = false := by
    simp [digits, unsigned]
  cases negative with
  | true =>
      simp [parseNumber, numberText, dumpsSign, wholePart, fractionPart, exponentPart, List.append_assoc]
  | false =>
      simp only [parseNumber, numberText, dumpsSign, List.append_assoc, List.map_append,
        Bool.false_eq_true, ↓reduceIte, List.nil_append, sign, wholePart, fractionPart, exponentPart]

theorem constants_find_digit (c : Char) (ps : List Point) (digit : c.isDigit = true) :
    constants.find? (fun k => (k.1.map Point.char).isPrefixOf (.char c :: ps)) = none := by
  have ne (d : Char) (other : d.isDigit = false) : (Point.char d == .char c) = false := by
    simp only [beq_eq_false_iff_ne, ne_eq, Point.char.injEq]
    rintro rfl
    simp [digit] at other
  simp [constants, List.isPrefixOf, ne 'n' (by decide), ne 't' (by decide), ne 'f' (by decide),
    ne 'N' (by decide), ne 'I' (by decide), ne '-' (by decide)]

theorem constants_find_negative (c : Char) (ps : List Point) (digit : c.isDigit = true) :
    constants.find? (fun k => (k.1.map Point.char).isPrefixOf (.char '-' :: .char c :: ps)) = none := by
  have ne : (Point.char 'I' == .char c) = false := by
    simp only [beq_eq_false_iff_ne, ne_eq, Point.char.injEq]
    rintro rfl
    contradiction
  simp [constants, List.isPrefixOf, ne]

theorem parseAtom_number (negative : Bool) (whole : Nat) (fraction : Option Digits)
    (exponent : Option (Bool × Digits)) (stop : Stops rest) :
    parseAtom ((numberText negative whole fraction exponent).map .char ++ rest) =
      (numberOf negative whole fraction exponent).map (·, rest) := by
  rw [← parseNumber_append negative whole fraction exponent stop]
  obtain ⟨c, cs, digits, digit⟩ := toDigits_cons whole
  unfold parseAtom numberText
  cases negative with
  | true => simp [dumpsSign, digits, constants_find_negative c _ digit]
  | false => simp [dumpsSign, digits, constants_find_digit c _ digit]

theorem str_eq_numberText (n : Int) :
    IntLiteral.str n = numberText (decide (n < 0)) n.natAbs none none := by
  by_cases negative : n < 0 <;>
    simp [IntLiteral.str, numberText, dumpsSign, dumpsFraction, dumpsExponent, negative]

theorem parseAtom_int {n : Int} (fits : Fits n) (stop : Stops rest) :
    parseAtom ((IntLiteral.str n).map .char ++ rest) = some (.int n, rest) := by
  rw [str_eq_numberText, parseAtom_number _ _ _ _ stop, numberOf, dif_neg (by simp)]
  have value : (if decide (n < 0) then -(n.natAbs : Int) else n.natAbs) = n := by
    split
    · rename_i below
      have negative := of_decide_eq_true below
      omega
    · rename_i above
      have positive := of_decide_eq_false (Bool.eq_false_iff.mpr above)
      omega
  simp only [value, if_pos fits, Option.map_some]

theorem dumpsFloat_finite (x : FloatLiteral) :
    dumpsFloat (.finite x) = numberText x.negative x.whole x.fraction x.exponent := rfl

theorem parseAtom_float (x : PyFloat) (stop : Stops rest) :
    parseAtom ((dumpsFloat x).map .char ++ rest) = some (.float x, rest) := by
  cases x with
  | finite x =>
      rw [dumpsFloat_finite, parseAtom_number _ _ _ _ stop, numberOf, dif_pos x.isFloat]
      rfl
  | infinity => simp [dumpsFloat, parseAtom, constants, List.isPrefixOf]
  | negInfinity => simp [dumpsFloat, parseAtom, constants, List.isPrefixOf]
  | nan => simp [dumpsFloat, parseAtom, constants, List.isPrefixOf]

/-! ## Dictionaries -/

theorem setItem_fresh (d : Members) (key : Str) (value : Json)
    (fresh : key ∉ d.map Prod.fst) : setItem d key value = d ++ [(key, value)] :=
  if_neg fresh

theorem foldl_setItem (d pairs : Members) (nodup : ((d ++ pairs).map Prod.fst).Nodup) :
    pairs.foldl (fun d m => setItem d m.1 m.2) d = d ++ pairs := by
  induction pairs generalizing d with
  | nil => simp
  | cons m rest ih =>
      have fresh : m.1 ∉ d.map Prod.fst := by
        rw [List.map_append, List.nodup_append] at nodup
        intro member
        exact nodup.2.2 m.1 member m.1 (by simp) rfl
      have regroup : d ++ m :: rest = (d ++ [m]) ++ rest := by simp
      rw [List.foldl_cons, setItem_fresh d m.1 m.2 fresh, regroup]
      exact ih (d ++ [m]) (regroup ▸ nodup)

theorem dictOf_nodup (pairs : Members) (nodup : (pairs.map Prod.fst).Nodup) :
    dictOf pairs = pairs := by
  simpa [dictOf] using foldl_setItem [] pairs (by simpa using nodup)

/-! ## What comes back -/

section

variable (hook : Members → Members)

mutual
def readBack : Json → Json
  | .str s => .str s.joined
  | .arr items => .arr (itemsReadBack items)
  | .obj members => .obj (hook (membersReadBack members))
  | v => v
def itemsReadBack : List Json → List Json
  | [] => []
  | v :: rest => readBack v :: itemsReadBack rest
def membersReadBack : Members → Members
  | [] => []
  | (k, v) :: rest => (k.joined, readBack v) :: membersReadBack rest
end

end

mutual
theorem readBack_wellFormed : ∀ v : Json, WellFormed v → readBack dictOf v = v
  | .null, _ | .bool _, _ | .int _, _ | .float _, _ => by simp [readBack]
  | .str s, wf => by rw [readBack, wf]
  | .arr items, wf => by rw [readBack, itemsReadBack_wellFormed items wf]
  | .obj members, wf => by
      rw [readBack, membersReadBack_wellFormed members wf.2, dictOf_nodup members wf.1]
theorem itemsReadBack_wellFormed : ∀ items : List Json, ItemsWellFormed items →
    itemsReadBack dictOf items = items
  | [], _ => rfl
  | v :: rest, wf => by
      rw [itemsReadBack, readBack_wellFormed v wf.1, itemsReadBack_wellFormed rest wf.2]
theorem membersReadBack_wellFormed : ∀ members : Members, MembersWellFormed members →
    membersReadBack dictOf members = members
  | [], _ => rfl
  | (k, v) :: rest, wf => by
      rw [membersReadBack, wf.1, readBack_wellFormed v wf.2.1, membersReadBack_wellFormed rest wf.2.2]
end

mutual
theorem writable_wellFormed : ∀ v : Json, WellFormed v → writable v = true
  | .null, _ | .bool _, _ | .float _, _ | .str _, _ => rfl
  | .int _, fits => decide_eq_true fits
  | .arr items, wf => itemsWritable_wellFormed items wf
  | .obj members, wf => membersWritable_wellFormed members wf.2
theorem itemsWritable_wellFormed : ∀ items : List Json, ItemsWellFormed items →
    itemsWritable items = true
  | [], _ => rfl
  | v :: rest, wf => by
      rw [itemsWritable, writable_wellFormed v wf.1, itemsWritable_wellFormed rest wf.2]; rfl
theorem membersWritable_wellFormed : ∀ members : Members, MembersWellFormed members →
    membersWritable members = true
  | [], _ => rfl
  | (_, v) :: rest, wf => by
      rw [membersWritable, writable_wellFormed v wf.2.1, membersWritable_wellFormed rest wf.2.2]; rfl
end

/-! ## Values -/

theorem skipSpace_cons {p : Point} (ps : List Point) (visible : isSpace p = false) :
    skipSpace (p :: ps) = p :: ps := by
  simp [skipSpace, visible]

theorem skipSpace_space (ps : List Point) : skipSpace (.char ' ' :: ps) = skipSpace ps := by
  simp [skipSpace, isSpace]

theorem dumpsValue_head (v : Json) :
    ∃ c cs, dumpsValue v = c :: cs ∧ isSpace c = false ∧ c ≠ ']' := by
  have digits (n : Nat) : ∃ c cs, Nat.toDigits 10 n = c :: cs ∧ isSpace c = false ∧ c ≠ ']' := by
    obtain ⟨c, cs, equal, digit⟩ := toDigits_cons n
    refine ⟨c, cs, equal, ?_, by rintro rfl; contradiction⟩
    simp only [isSpace, decide_eq_false_iff_not, Point.char.injEq]
    rintro (rfl | rfl | rfl | rfl) <;> contradiction
  cases v with
  | null => exact ⟨_, _, rfl, by decide, by decide⟩
  | bool b => cases b <;> exact ⟨_, _, rfl, by decide, by decide⟩
  | int n =>
      by_cases negative : n < 0
      · exact ⟨'-', _, by rw [dumpsValue, IntLiteral.str, if_pos negative], by decide, by decide⟩
      · rw [dumpsValue, IntLiteral.str, if_neg negative]
        exact digits _
  | float x =>
      cases x with
      | finite x =>
          obtain ⟨c, cs, equal, visible, open'⟩ := digits x.whole
          rw [dumpsValue, dumpsFloat, dumpsSign]
          cases x.negative with
          | true => exact ⟨_, _, rfl, by decide, by decide⟩
          | false => exact ⟨c, _, by simp [equal]; rfl, visible, open'⟩
      | infinity => exact ⟨_, _, rfl, by decide, by decide⟩
      | negInfinity => exact ⟨_, _, rfl, by decide, by decide⟩
      | nan => exact ⟨_, _, rfl, by decide, by decide⟩
  | str s => exact ⟨'"', _, rfl, by decide, by decide⟩
  | arr items =>
      cases items with
      | nil => exact ⟨'[', _, rfl, by decide, by decide⟩
      | cons v items => exact ⟨'[', _, rfl, by decide, by decide⟩
  | obj members =>
      cases members with
      | nil => exact ⟨'{', _, rfl, by decide, by decide⟩
      | cons m members => exact ⟨'{', _, rfl, by decide, by decide⟩

theorem skipSpace_dumpsValue (v : Json) (ps : List Point) :
    skipSpace ((dumpsValue v).map .char ++ ps) = (dumpsValue v).map .char ++ ps := by
  obtain ⟨c, cs, equal, visible, -⟩ := dumpsValue_head v
  rw [equal, List.map_cons, List.cons_append, skipSpace_cons _ visible]

theorem dumpsItems_stops (items : List Json) (ps : List Point) :
    Stops ((dumpsItems items).map .char ++ .char ']' :: ps) := by
  cases items with
  | nil => exact stops_char _ (by decide) (by decide) (by decide) (by decide)
  | cons v items => exact stops_char _ (by decide) (by decide) (by decide) (by decide)

theorem dumpsMembers_stops (members : Members) (ps : List Point) :
    Stops ((dumpsMembers members).map .char ++ .char '}' :: ps) := by
  cases members with
  | nil => exact stops_char _ (by decide) (by decide) (by decide) (by decide)
  | cons m members => exact stops_char _ (by decide) (by decide) (by decide) (by decide)

section

variable {hook : Members → Members} {fuel : Nat}

theorem parseValue_atom {ps : List Point} {v : Json} {c : Char} (head : ps.head? = some (.char c))
    (quote : c ≠ '"') (bracket : c ≠ '[') (brace : c ≠ '{') (atom : parseAtom ps = some (v, rest)) :
    parseValue hook (fuel + 1) ps = some (v, rest) := by
  cases ps with
  | nil => contradiction
  | cons p ps =>
      simp only [List.head?_cons, Option.some.injEq] at head
      subst p
      rw [parseValue, if_neg (by simpa using quote), if_neg (by simpa using bracket),
        if_neg (by simpa using brace), atom]

theorem parseValue_number (negative : Bool) (whole : Nat) (fraction : Option Digits)
    (exponent : Option (Bool × Digits)) {v : Json}
    (atom : parseAtom ((numberText negative whole fraction exponent).map .char ++ rest) =
      some (v, rest)) :
    parseValue hook (fuel + 1) ((numberText negative whole fraction exponent).map .char ++ rest) =
      some (v, rest) := by
  have head : ∃ c, (c.isDigit = true ∨ c = '-') ∧
      ((numberText negative whole fraction exponent).map Point.char ++ rest).head? = some (.char c) := by
    cases negative with
    | true => exact ⟨'-', .inr rfl, rfl⟩
    | false =>
        obtain ⟨c, cs, equal, digit⟩ := toDigits_cons whole
        exact ⟨c, .inl digit, by simp [numberText, dumpsSign, equal]⟩
  obtain ⟨c, start, first⟩ := head
  exact parseValue_atom first (by rintro rfl; simp at start) (by rintro rfl; simp at start)
    (by rintro rfl; simp at start) atom

theorem parseValue_int {n : Int} (fits : Fits n) (stop : Stops rest) :
    parseValue hook (fuel + 1) ((IntLiteral.str n).map .char ++ rest) = some (.int n, rest) := by
  have atom := parseAtom_int fits stop
  rw [str_eq_numberText] at atom ⊢
  exact parseValue_number _ _ _ _ atom

theorem parseValue_float (x : PyFloat) (stop : Stops rest) :
    parseValue hook (fuel + 1) ((dumpsFloat x).map .char ++ rest) = some (.float x, rest) := by
  have atom := parseAtom_float x stop
  cases x with
  | finite x => exact parseValue_number _ _ _ _ atom
  | infinity => exact parseValue_atom rfl (by decide) (by decide) (by decide) atom
  | negInfinity => exact parseValue_atom rfl (by decide) (by decide) (by decide) atom
  | nan => exact parseValue_atom rfl (by decide) (by decide) (by decide) atom

end

/-! The three readers invert the three writers, by induction on the value. The fuel need only
exceed the length of the text. -/

section

variable (hook : Members → Members)

mutual
theorem parseValue_dumpsValue : ∀ (v : Json) (fuel : Nat) (rest : List Point), writable v = true →
    (dumpsValue v).length ≤ fuel → Stops rest →
    parseValue hook fuel ((dumpsValue v).map .char ++ rest) = some (readBack hook v, rest)
  | v, 0, _, _, enough, _ => by
      obtain ⟨c, cs, equal, -⟩ := dumpsValue_head v
      simp [equal] at enough
  | .null, fuel + 1, rest, _, _, _ =>
      parseValue_atom rfl (by decide) (by decide) (by decide)
        (by simp [dumpsValue, parseAtom, constants, List.isPrefixOf, readBack])
  | .bool true, fuel + 1, rest, _, _, _ =>
      parseValue_atom rfl (by decide) (by decide) (by decide)
        (by simp [dumpsValue, parseAtom, constants, List.isPrefixOf, readBack])
  | .bool false, fuel + 1, rest, _, _, _ =>
      parseValue_atom rfl (by decide) (by decide) (by decide)
        (by simp [dumpsValue, parseAtom, constants, List.isPrefixOf, readBack])
  | .int n, fuel + 1, rest, fits, _, stop => by
      rw [dumpsValue, readBack]
      · exact parseValue_int (of_decide_eq_true fits) stop
      all_goals nofun
  | .float x, fuel + 1, rest, _, _, stop => by
      rw [dumpsValue, readBack]
      · exact parseValue_float x stop
      all_goals nofun
  | .str s, fuel + 1, rest, _, _, _ => by
      simp [dumpsValue, dumpsString, parseValue, parseString_dumpsString, readBack]
  | .arr [], fuel + 1, rest, _, _, _ => by
      simp [dumpsValue, parseValue, skipSpace, isSpace, readBack, itemsReadBack]
  | .arr (v :: items), fuel + 1, rest, ok, enough, _ => by
      obtain ⟨c, cs, head, visible, item⟩ := dumpsValue_head v
      rw [writable, itemsWritable, Bool.and_eq_true] at ok
      have body := parseItems_dumpsItems v items fuel rest ok.1 ok.2
        (by simp [dumpsValue] at enough ⊢; omega)
      have skip := skipSpace_dumpsValue v ((dumpsItems items).map .char ++ .char ']' :: rest)
      have first : ((dumpsValue v).map Point.char ++
          ((dumpsItems items).map Point.char ++ .char ']' :: rest)).head? ≠ some (.char ']') := by
        simp [head, item]
      have text : (dumpsValue (.arr (v :: items))).map Point.char ++ rest =
          .char '[' :: ((dumpsValue v).map .char ++
            ((dumpsItems items).map .char ++ .char ']' :: rest)) := by simp [dumpsValue]
      rw [text, parseValue, if_neg (by decide), if_pos rfl, skip, if_neg first, body]
      simp [readBack]
  | .obj [], fuel + 1, rest, _, _, _ => by
      simp [dumpsValue, parseValue, skipSpace, isSpace, readBack, membersReadBack]
  | .obj ((k, v) :: members), fuel + 1, rest, ok, enough, _ => by
      rw [writable, membersWritable, Bool.and_eq_true] at ok
      have body := parseMembers_dumpsMembers k v members fuel rest ok.1 ok.2
        (by simp [dumpsValue] at enough ⊢; omega)
      have text : (dumpsValue (.obj ((k, v) :: members))).map Point.char ++ rest =
          .char '{' :: ((dumpsString k).map .char ++ (.char ':' :: .char ' ' ::
            ((dumpsValue v).map .char ++ ((dumpsMembers members).map .char ++ .char '}' :: rest)))) := by
        simp [dumpsValue]
      have skip : skipSpace ((dumpsString k).map Point.char ++ (.char ':' :: .char ' ' ::
          ((dumpsValue v).map .char ++ ((dumpsMembers members).map .char ++ .char '}' :: rest)))) =
          (dumpsString k).map Point.char ++ (.char ':' :: .char ' ' ::
            ((dumpsValue v).map .char ++ ((dumpsMembers members).map .char ++ .char '}' :: rest))) :=
        skipSpace_cons _ (by decide)
      rw [text, parseValue, if_neg (by decide), if_neg (by decide), if_pos rfl, skip,
        if_neg (by simp [dumpsString]), body]
      simp [readBack]

theorem parseItems_dumpsItems : ∀ (v : Json) (items : List Json) (fuel : Nat) (rest : List Point),
    writable v = true → itemsWritable items = true →
    (dumpsValue v).length + (dumpsItems items).length + 1 ≤ fuel →
    parseItems hook fuel ((dumpsValue v).map .char ++ ((dumpsItems items).map .char ++
      .char ']' :: rest)) = some (itemsReadBack hook (v :: items), rest)
  | _, _, 0, _, _, _, enough => by omega
  | v, [], fuel + 1, rest, ok, _, enough => by
      have value := parseValue_dumpsValue v fuel (.char ']' :: rest) ok (by omega)
        (dumpsItems_stops [] rest)
      simp [parseItems, dumpsItems, value, skipSpace, isSpace, itemsReadBack]
  | v, w :: items, fuel + 1, rest, ok, oks, enough => by
      rw [itemsWritable, Bool.and_eq_true] at oks
      simp only [dumpsItems, List.length_cons, List.length_append] at enough
      have value := parseValue_dumpsValue v fuel
        ((dumpsItems (w :: items)).map .char ++ .char ']' :: rest) ok (by omega)
        (dumpsItems_stops (w :: items) rest)
      have tail := parseItems_dumpsItems w items fuel rest oks.1 oks.2 (by omega)
      have skip := skipSpace_dumpsValue w ((dumpsItems items).map .char ++ .char ']' :: rest)
      rw [parseItems, value]
      simp [dumpsItems, skipSpace_cons, skipSpace_space, isSpace, skip, tail, itemsReadBack]

theorem parseMembers_dumpsMembers : ∀ (k : Str) (v : Json) (members : Members) (fuel : Nat)
    (rest : List Point), writable v = true → membersWritable members = true →
    (dumpsValue v).length + (dumpsMembers members).length + 1 ≤ fuel →
    parseMembers hook fuel ((dumpsString k).map .char ++ (.char ':' :: .char ' ' ::
        ((dumpsValue v).map .char ++ ((dumpsMembers members).map .char ++ .char '}' :: rest)))) =
      some (membersReadBack hook ((k, v) :: members), rest)
  | _, _, _, 0, _, _, _, enough => by omega
  | k, v, [], fuel + 1, rest, ok, _, enough => by
      have value := parseValue_dumpsValue v fuel (.char '}' :: rest) ok (by omega)
        (dumpsMembers_stops [] rest)
      have skip := skipSpace_dumpsValue v (.char '}' :: rest)
      simp [parseMembers, dumpsString, dumpsMembers, parseString_dumpsString, skipSpace_cons,
        skipSpace_space, isSpace, skip, value, membersReadBack]
  | k, v, (l, w) :: members, fuel + 1, rest, ok, oks, enough => by
      rw [membersWritable, Bool.and_eq_true] at oks
      simp only [dumpsMembers, List.length_cons, List.length_append] at enough
      have value := parseValue_dumpsValue v fuel
        ((dumpsMembers ((l, w) :: members)).map .char ++ .char '}' :: rest) ok (by omega)
        (dumpsMembers_stops ((l, w) :: members) rest)
      have tail := parseMembers_dumpsMembers l w members fuel rest oks.1 oks.2 (by omega)
      have skip := skipSpace_dumpsValue v
        ((dumpsMembers ((l, w) :: members)).map .char ++ .char '}' :: rest)
      have key : parseMembers hook (fuel + 1) ((dumpsString k).map .char ++ (.char ':' :: .char ' ' ::
          ((dumpsValue v).map .char ++
            ((dumpsMembers ((l, w) :: members)).map .char ++ .char '}' :: rest)))) =
          (parseMembers hook fuel ((dumpsString l).map .char ++ (.char ':' :: .char ' ' ::
            ((dumpsValue w).map .char ++
              ((dumpsMembers members).map .char ++ .char '}' :: rest))))).map
            fun r => ((k.joined, readBack hook v) :: r.1, r.2) := by
        simp only [parseMembers, dumpsString, List.map_cons, List.map_append, List.map_nil,
          List.cons_append, ↓reduceIte, List.append_assoc, List.nil_append, parseString_dumpsString]
        rw [skipSpace_cons _ (by decide)]
        simp only [↓reduceIte, skipSpace_space, skip, value]
        simp [dumpsMembers, dumpsString, skipSpace_cons, skipSpace_space, isSpace]
      rw [key, tail]
      simp [membersReadBack]
end

theorem loadsWith_text {v : Json} (ok : writable v = true) :
    loadsWith hook (text v) = some (readBack hook v) := by
  have value := parseValue_dumpsValue hook v ((dumpsValue v).length + 1) [] ok (by omega) stops_nil
  have skip := skipSpace_dumpsValue v []
  simp only [List.append_nil] at value skip
  simp only [loadsWith, text, Str.ofString, String.toList_ofList, skip, List.length_map, value]
  simp [skipSpace]

end

theorem dumps_wellFormed {v : Json} (wf : WellFormed v) : dumps v = some (text v) :=
  if_pos (writable_wellFormed v wf)

theorem loads_text {v : Json} (wf : WellFormed v) : loads (text v) = some v := by
  rw [loads, loadsWith_text dictOf (writable_wellFormed v wf), readBack_wellFormed v wf]

/-! ## Values with one text -/

/-- The value with the surrogate pairs of its strings and keys joined. -/
def joined : Json → Json := readBack id

theorem escapeChar_pair (h l : Fin 1024) :
    escapeChar (Point.pair h l) = escapeUnit (0xd800 + h.val) ++ escapeUnit (0xdc00 + l.val) := by
  have code := Point.pair_toNat h l
  have other (c : Char) (basic : c.toNat < 0x10000) : Point.pair h l ≠ c := by
    rintro rfl
    omega
  have high : (0x10000 + h.val * 1024 + l.val - 0x10000) / 1024 = h.val := by omega
  have low : (0x10000 + h.val * 1024 + l.val - 0x10000) % 1024 = l.val := by omega
  rw [escapeChar, if_neg (other _ (by decide)), if_neg (other _ (by decide)), if_neg (by omega),
    if_neg (by omega), if_neg (other _ (by decide)), if_neg (other _ (by decide)),
    if_neg (other _ (by decide)), if_neg (by omega), if_neg (by omega), code, high, low]

theorem escape_joinPoints (ps : List Point) : escape (Str.joinPoints ps) = escape ps := by
  fun_induction Str.joinPoints ps with
  | case1 h l rest ih =>
      have pair : escape (.char (Point.pair h l) :: Str.joinPoints rest) =
          escapeChar (Point.pair h l) ++ escape (Str.joinPoints rest) := rfl
      rw [pair, escapeChar_pair, ih, List.append_assoc]
      rfl
  | case2 p rest apart ih => exact congrArg (escapePoint p ++ ·) ih
  | case3 => rfl

theorem dumpsString_joined (s : Str) : dumpsString s.joined = dumpsString s := by
  simp only [dumpsString, Str.joined, escape_joinPoints]

mutual
theorem dumpsValue_joined : ∀ v : Json, dumpsValue (joined v) = dumpsValue v
  | .null | .bool _ | .int _ | .float _ | .arr [] | .obj [] => rfl
  | .str s => dumpsString_joined s
  | .arr (v :: rest) => by
      change '[' :: dumpsValue (joined v) ++ dumpsItems (itemsReadBack id rest) ++ [']'] = _
      rw [dumpsValue_joined v, dumpsItems_joined rest]
      rfl
  | .obj ((k, v) :: rest) => by
      change '{' :: dumpsString k.joined ++ ':' :: ' ' :: dumpsValue (joined v) ++
        dumpsMembers (membersReadBack id rest) ++ ['}'] = _
      rw [dumpsString_joined k, dumpsValue_joined v, dumpsMembers_joined rest]
      rfl
theorem dumpsItems_joined : ∀ items : List Json, dumpsItems (itemsReadBack id items) = dumpsItems items
  | [] => rfl
  | v :: rest => by
      change ',' :: ' ' :: dumpsValue (joined v) ++ dumpsItems (itemsReadBack id rest) = _
      rw [dumpsValue_joined v, dumpsItems_joined rest]
      rfl
theorem dumpsMembers_joined : ∀ members : Members,
    dumpsMembers (membersReadBack id members) = dumpsMembers members
  | [] => rfl
  | (k, v) :: rest => by
      change ',' :: ' ' :: dumpsString k.joined ++ ':' :: ' ' :: dumpsValue (joined v) ++
        dumpsMembers (membersReadBack id rest) = _
      rw [dumpsString_joined k, dumpsValue_joined v, dumpsMembers_joined rest]
      rfl
end

mutual
theorem writable_joined : ∀ v : Json, writable (joined v) = writable v
  | .null | .bool _ | .int _ | .float _ | .str _ => rfl
  | .arr items => itemsWritable_joined items
  | .obj members => membersWritable_joined members
theorem itemsWritable_joined : ∀ items : List Json,
    itemsWritable (itemsReadBack id items) = itemsWritable items
  | [] => rfl
  | v :: rest => congrArg₂ and (writable_joined v) (itemsWritable_joined rest)
theorem membersWritable_joined : ∀ members : Members,
    membersWritable (membersReadBack id members) = membersWritable members
  | [] => rfl
  | (_, v) :: rest => congrArg₂ and (writable_joined v) (membersWritable_joined rest)
end

/-- Two values that can be written have one text exactly if they differ in split pairs only. -/
theorem text_eq_iff {v w : Json} (left : writable v = true) (right : writable w = true) :
    text v = text w ↔ joined v = joined w := by
  constructor
  · intro same
    have read := loadsWith_text id left
    rw [same, loadsWith_text id right] at read
    exact (Option.some.inj read).symm
  · intro same
    rw [text, text, ← dumpsValue_joined v, same, dumpsValue_joined w]

end JsonText
