import Mathlib.Data.List.Nodup
import Mathlib.Data.Rat.Defs
import JobQ.Library.IntLiteral
import JobQ.Library.Str

/-!
# JSON values and their text

The values `json.dumps` accepts, its text with the default settings (`ensure_ascii`, separators
`", "` and `": "`), and the reader `json.loads`. A dictionary is the list of its members in
insertion order; a finite float is kept as its shortest decimal literal, which is the text
`float.__repr__` gives it. Both functions refuse an integer of more than 4300 digits. The recursion
limit is left out.
-/

namespace JsonText

/-! ## Values -/

structure Digits where
  chars : List Char
  nonempty : chars ≠ []
  digits : ∀ c ∈ chars, c.isDigit = true

/-- A number literal with a fraction or an exponent. The exponent carries its sign. -/
structure FloatLiteral where
  negative : Bool
  whole : Nat
  fraction : Option Digits
  exponent : Option (Bool × Digits)
  isFloat : fraction.isSome = true ∨ exponent.isSome = true

inductive PyFloat where
  | finite (literal : FloatLiteral)
  | infinity
  | negInfinity
  | nan

inductive Json where
  | null
  | bool (b : Bool)
  | int (n : Int)
  | float (x : PyFloat)
  | str (s : Str)
  | arr (items : List Json)
  | obj (members : List (Str × Json))

abbrev Members := List (Str × Json)

def Digits.value (ds : Digits) : Nat := Nat.ofDigitChars 10 ds.chars 0

def FloatLiteral.value (x : FloatLiteral) : Rat :=
  let fraction : Rat := match x.fraction with
    | none => 0
    | some ds => (ds.value : Rat) / 10 ^ ds.chars.length
  let scale : Rat := match x.exponent with
    | none => 1
    | some (true, ds) => 1 / 10 ^ ds.value
    | some (false, ds) => 10 ^ ds.value
  (if x.negative then -1 else 1) * ((x.whole : Rat) + fraction) * scale

/-- `v == n` for an integer `n`: booleans and floats compare by their numeric value. -/
def Json.equalsInt : Json → Int → Bool
  | .int m, n => m = n
  | .bool b, n => (if b then 1 else 0) = n
  | .float (.finite x), n => x.value = n
  | _, _ => false

def Json.truthy : Json → Bool
  | .null => false
  | .str s => !s.points.isEmpty
  | .arr items => !items.isEmpty
  | .obj members => !members.isEmpty
  | number => !number.equalsInt 0

/-- `d[key] = value`: a key that is present keeps its position. -/
def setItem (d : Members) (key : Str) (value : Json) : Members :=
  if key ∈ d.map Prod.fst then d.map fun m => if m.1 = key then (key, value) else m
  else d ++ [(key, value)]

def dictOf (pairs : Members) : Members :=
  pairs.foldl (fun d m => setItem d m.1 m.2) []

def getItem (d : Members) (key : Str) : Option Json :=
  (d.find? fun m => m.1 = key).map Prod.snd

def Fits (n : Int) : Prop := (Nat.toDigits 10 n.natAbs).length ≤ IntLiteral.maxStrDigits

instance (n : Int) : Decidable (Fits n) := Nat.decLe _ _

/-! A value that is well formed can be written, and comes back as it is. A dictionary has each key
once, at every level. -/

mutual
def WellFormed : Json → Prop
  | .int n => Fits n
  | .str s => s.Joined
  | .arr items => ItemsWellFormed items
  | .obj members => (members.map Prod.fst).Nodup ∧ MembersWellFormed members
  | _ => True
def ItemsWellFormed : List Json → Prop
  | [] => True
  | v :: rest => WellFormed v ∧ ItemsWellFormed rest
def MembersWellFormed : Members → Prop
  | [] => True
  | (k, v) :: rest => k.Joined ∧ WellFormed v ∧ MembersWellFormed rest
end

/-! ## `json.dumps` -/

def hex4 (n : Nat) : List Char :=
  [Nat.digitChar (n / 4096 % 16), Nat.digitChar (n / 256 % 16), Nat.digitChar (n / 16 % 16),
    Nat.digitChar (n % 16)]

def escapeUnit (n : Nat) : List Char := '\\' :: 'u' :: hex4 n

def escapeChar (c : Char) : List Char :=
  if c = '\\' then ['\\', '\\']
  else if c = '"' then ['\\', '"']
  else if c.toNat = 8 then ['\\', 'b']
  else if c.toNat = 12 then ['\\', 'f']
  else if c = '\n' then ['\\', 'n']
  else if c = '\r' then ['\\', 'r']
  else if c = '\t' then ['\\', 't']
  else if 32 ≤ c.toNat ∧ c.toNat ≤ 126 then [c]
  else if c.toNat < 0x10000 then escapeUnit c.toNat
  else
    -- outside the Basic Multilingual Plane: a surrogate pair
    escapeUnit (0xd800 + (c.toNat - 0x10000) / 1024) ++
      escapeUnit (0xdc00 + (c.toNat - 0x10000) % 1024)

def escapePoint : Point → List Char
  | .char c => escapeChar c
  | .high n => escapeUnit (0xd800 + n.val)
  | .low n => escapeUnit (0xdc00 + n.val)

def escape (points : List Point) : List Char := points.flatMap escapePoint

def dumpsString (s : Str) : List Char := '"' :: escape s.points ++ ['"']

def dumpsSign (negative : Bool) : List Char := if negative then ['-'] else []

def dumpsFraction : Option Digits → List Char
  | none => []
  | some ds => '.' :: ds.chars

def dumpsExponent : Option (Bool × Digits) → List Char
  | none => []
  | some (negative, ds) => 'e' :: (if negative then '-' else '+') :: ds.chars

def dumpsFloat : PyFloat → List Char
  | .finite x => dumpsSign x.negative ++ Nat.toDigits 10 x.whole ++ dumpsFraction x.fraction ++
      dumpsExponent x.exponent
  | .infinity => ['I', 'n', 'f', 'i', 'n', 'i', 't', 'y']
  | .negInfinity => ['-', 'I', 'n', 'f', 'i', 'n', 'i', 't', 'y']
  | .nan => ['N', 'a', 'N']

mutual
def dumpsValue : Json → List Char
  | .null => ['n', 'u', 'l', 'l']
  | .bool true => ['t', 'r', 'u', 'e']
  | .bool false => ['f', 'a', 'l', 's', 'e']
  | .int n => IntLiteral.str n
  | .float x => dumpsFloat x
  | .str s => dumpsString s
  | .arr [] => ['[', ']']
  | .arr (v :: rest) => '[' :: dumpsValue v ++ dumpsItems rest ++ [']']
  | .obj [] => ['{', '}']
  | .obj ((k, v) :: rest) =>
      '{' :: dumpsString k ++ ':' :: ' ' :: dumpsValue v ++ dumpsMembers rest ++ ['}']
def dumpsItems : List Json → List Char
  | [] => []
  | v :: rest => ',' :: ' ' :: dumpsValue v ++ dumpsItems rest
def dumpsMembers : Members → List Char
  | [] => []
  | (k, v) :: rest =>
      ',' :: ' ' :: dumpsString k ++ ':' :: ' ' :: dumpsValue v ++ dumpsMembers rest
end

/-- What `json.dumps` returns where it does not raise. -/
def text (v : Json) : String := String.ofList (dumpsValue v)

mutual
def writable : Json → Bool
  | .int n => Fits n
  | .arr items => itemsWritable items
  | .obj members => membersWritable members
  | _ => true
def itemsWritable : List Json → Bool
  | [] => true
  | v :: rest => writable v && itemsWritable rest
def membersWritable : Members → Bool
  | [] => true
  | (_, v) :: rest => writable v && membersWritable rest
end

/-- The only exception is the `ValueError` that an integer raises. -/
def dumps (v : Json) : Option String := if writable v then some (text v) else none

/-! ## `json.loads` -/

def isSpace (p : Point) : Bool := p = ' ' ∨ p = '\t' ∨ p = '\n' ∨ p = '\r'

def skipSpace (ps : List Point) : List Point := ps.dropWhile isSpace

def hexValue : Point → Option Nat
  | .char c =>
    if '0' ≤ c ∧ c ≤ '9' then some (c.toNat - '0'.toNat)
    else if 'a' ≤ c ∧ c ≤ 'f' then some (c.toNat - 'a'.toNat + 10)
    else if 'A' ≤ c ∧ c ≤ 'F' then some (c.toNat - 'A'.toNat + 10)
    else none
  | _ => none

/-- What stands in a string: a code point, or a surrogate that is written by its number. -/
inductive StringUnit where
  | point (p : Point)
  | high (n : Fin 1024)
  | low (n : Fin 1024)

def unitOf (n : Nat) : StringUnit :=
  if 0xd800 ≤ n ∧ n ≤ 0xdbff then .high (Point.half (n - 0xd800))
  else if 0xdc00 ≤ n ∧ n ≤ 0xdfff then .low (Point.half (n - 0xdc00))
  else .point (Char.ofNat n)

def hex4Value (a b c d : Point) : Option Nat :=
  match hexValue a, hexValue b, hexValue c, hexValue d with
  | some a, some b, some c, some d => some (a * 4096 + b * 256 + c * 16 + d)
  | _, _, _, _ => none

def isControl : Point → Bool
  | .char c => c.toNat < 32
  | _ => false

def simpleEscape (p : Point) : Option Char :=
  if p = '"' then some '"'
  else if p = '\\' then some '\\'
  else if p = '/' then some '/'
  else if p = 'b' then some (Char.ofNat 8)
  else if p = 'f' then some (Char.ofNat 12)
  else if p = 'n' then some '\n'
  else if p = 'r' then some '\r'
  else if p = 't' then some '\t'
  else none

def consUnit (u : StringUnit) :
    Option (List StringUnit × List Point) → Option (List StringUnit × List Point) :=
  Option.map fun r => (u :: r.1, r.2)

def parseUnits : List Point → Option (List StringUnit × List Point)
  | [] => none
  | .char '\\' :: .char 'u' :: a :: b :: c :: d :: rest =>
    match hex4Value a b c d with
    | none => none
    | some n => consUnit (unitOf n) (parseUnits rest)
  | .char '\\' :: e :: rest =>
    match simpleEscape e with
    | none => none
    | some c => consUnit (.point c) (parseUnits rest)
  | p :: rest =>
    if p = '"' then some ([], rest)
    else if isControl p then none
    else consUnit (.point p) (parseUnits rest)

/-- A high surrogate directly followed by a low one is one character, if both are written by their
numbers. -/
def mergeUnits : List StringUnit → List Point
  | .high h :: .low l :: rest => Point.pair h l :: mergeUnits rest
  | .high h :: rest => .high h :: mergeUnits rest
  | .low l :: rest => .low l :: mergeUnits rest
  | .point p :: rest => p :: mergeUnits rest
  | [] => []

def parseString (ps : List Point) : Option (Str × List Point) :=
  (parseUnits ps).map fun r => (⟨mergeUnits r.1⟩, r.2)

def spanDigits : List Point → List Char × List Point
  | .char c :: rest =>
    if c.isDigit then (c :: (spanDigits rest).1, (spanDigits rest).2) else ([], .char c :: rest)
  | ps => ([], ps)

theorem spanDigits_isDigit (ps : List Point) : ∀ c ∈ (spanDigits ps).1, c.isDigit = true := by
  fun_induction spanDigits ps with
  | case1 c rest digit ih => simpa [digit] using ih
  | case2 => simp
  | case3 => simp

def parseDigits (ps : List Point) : Option (Digits × List Point) :=
  if h : (spanDigits ps).1 ≠ [] then
    some (⟨(spanDigits ps).1, h, spanDigits_isDigit ps⟩, (spanDigits ps).2)
  else none

def parseWhole : List Point → Option (Nat × List Point)
  | .char c :: rest =>
    if c = '0' then some (0, rest)
    else if c.isDigit then
      some (Nat.ofDigitChars 10 (spanDigits (.char c :: rest)).1 0, (spanDigits (.char c :: rest)).2)
    else none
  | _ => none

def parseFraction (ps : List Point) : Option Digits × List Point :=
  match ps with
  | .char '.' :: rest =>
    match parseDigits rest with
    | none => (none, ps)
    | some (ds, rest) => (some ds, rest)
  | _ => (none, ps)

def parseExponent (ps : List Point) : Option (Bool × Digits) × List Point :=
  match ps with
  | [] => (none, ps)
  | p :: rest =>
    if p = 'e' ∨ p = 'E' then
      match parseDigits
          (if rest.head? = some (.char '-') ∨ rest.head? = some (.char '+') then rest.tail else rest) with
      | none => (none, ps)
      | some (ds, after) => (some (decide (rest.head? = some (.char '-')), ds), after)
    else (none, ps)

def numberOf (negative : Bool) (whole : Nat) (fraction : Option Digits)
    (exponent : Option (Bool × Digits)) : Option Json :=
  if h : fraction.isSome = true ∨ exponent.isSome = true then
    some (.float (.finite ⟨negative, whole, fraction, exponent, h⟩))
  else
    let n : Int := if negative then -(whole : Int) else whole
    if Fits n then some (.int n) else none

def parseNumber (ps : List Point) : Option (Json × List Point) :=
  let negative := decide (ps.head? = some (.char '-'))
  match parseWhole (if negative then ps.tail else ps) with
  | none => none
  | some (whole, rest) =>
    let (fraction, rest) := parseFraction rest
    let (exponent, rest) := parseExponent rest
    (numberOf negative whole fraction exponent).map (·, rest)

def constants : List (List Char × Json) :=
  [(['n', 'u', 'l', 'l'], .null), (['t', 'r', 'u', 'e'], .bool true),
    (['f', 'a', 'l', 's', 'e'], .bool false), (['N', 'a', 'N'], .float .nan),
    (['I', 'n', 'f', 'i', 'n', 'i', 't', 'y'], .float .infinity),
    (['-', 'I', 'n', 'f', 'i', 'n', 'i', 't', 'y'], .float .negInfinity)]

def parseAtom (ps : List Point) : Option (Json × List Point) :=
  match constants.find? fun c => (c.1.map Point.char).isPrefixOf ps with
  | some (word, value) => some (value, ps.drop word.length)
  | none => parseNumber ps

section

-- `object_pairs_hook`
variable (hook : Members → Members)

mutual
/-- One value at the head of the text. The fuel bounds the nesting and is never exhausted on a
text shorter than it. -/
def parseValue : Nat → List Point → Option (Json × List Point)
  | 0, _ => none
  | _ + 1, [] => none
  | fuel + 1, p :: rest =>
    if p = '"' then (parseString rest).map fun r => (.str r.1, r.2)
    else if p = '[' then
      if (skipSpace rest).head? = some (.char ']') then some (.arr [], (skipSpace rest).tail)
      else (parseItems fuel (skipSpace rest)).map fun r => (.arr r.1, r.2)
    else if p = '{' then
      if (skipSpace rest).head? = some (.char '}') then some (.obj (hook []), (skipSpace rest).tail)
      else (parseMembers fuel (skipSpace rest)).map fun r => (.obj (hook r.1), r.2)
    else parseAtom (p :: rest)
def parseItems : Nat → List Point → Option (List Json × List Point)
  | 0, _ => none
  | fuel + 1, ps =>
    match parseValue fuel ps with
    | none => none
    | some (v, rest) =>
      match skipSpace rest with
      | [] => none
      | p :: rest =>
        if p = ']' then some ([v], rest)
        else if p = ',' then (parseItems fuel (skipSpace rest)).map fun r => (v :: r.1, r.2)
        else none
def parseMembers : Nat → List Point → Option (Members × List Point)
  | 0, _ => none
  | _ + 1, [] => none
  | fuel + 1, quote :: ps =>
    if quote = '"' then
      match parseString ps with
      | none => none
      | some (key, rest) =>
        match skipSpace rest with
        | [] => none
        | colon :: rest =>
          if colon = ':' then
            match parseValue fuel (skipSpace rest) with
            | none => none
            | some (v, rest) =>
              match skipSpace rest with
              | [] => none
              | p :: rest =>
                if p = '}' then some ([(key, v)], rest)
                else if p = ',' then
                  (parseMembers fuel (skipSpace rest)).map fun r => ((key, v) :: r.1, r.2)
                else none
          else none
    else none
end

def loadsWith (s : Str) : Option Json :=
  match parseValue hook (s.points.length + 1) (skipSpace s.points) with
  | none => none
  | some (v, rest) => if skipSpace rest = [] then some v else none

end

def loads (s : Str) : Option Json := loadsWith dictOf s

end JsonText
