import Mathlib.Data.List.Infix

/-!
# Shell patterns

`fnmatch` of Python's standard library, on characters: `*` stands for any text, `?` for one
character, `[seq]` for one that is in the sequence and `[!seq]` for one that is not. A `[` that is not
closed stands for itself.
-/

namespace Glob

inductive Token where
  | star
  | any
  | one (c : Char)
  | set (negated : Bool) (ranges : List (Char × Char))
deriving DecidableEq

/-- A hyphen stands for itself at either end, and after a range. -/
def ranges : List Char → List (Char × Char)
  | c :: '-' :: d :: rest => (c, d) :: ranges rest
  | c :: rest => (c, c) :: ranges rest
  | [] => []

/-- What follows a `[`: whether it is negated, its sequence, and the rest of the pattern. A `]` that
comes first belongs to the sequence. -/
def splitSet (pattern : List Char) : Option (Bool × List Char × List Char) :=
  let negated := pattern.head? == some '!'
  let body := pattern.drop (if negated then 1 else 0)
  let first := body.take (if body.head? == some ']' then 1 else 0)
  let others := body.drop first.length
  match others.dropWhile (· ≠ ']') with
  | [] => none
  | _ :: rest => some (negated, first ++ others.takeWhile (· ≠ ']'), rest)

theorem dropWhile_shorter {p : Char → Bool} {text rest : List Char} {c : Char}
    (found : text.dropWhile p = c :: rest) : rest.length < text.length := by
  have suffix := List.dropWhile_suffix p (l := text)
  rw [found] at suffix
  exact suffix.length_le

theorem splitSet_shorter {pattern sequence rest : List Char} {negated : Bool}
    (closed : splitSet pattern = some (negated, sequence, rest)) : rest.length < pattern.length := by
  unfold splitSet at closed
  dsimp only at closed
  split at closed
  · cases closed
  · rename_i found
    cases closed
    refine (dropWhile_shorter found).trans_le ?_
    simp only [List.length_drop]
    omega

def tokens : List Char → List Token
  | [] => []
  | '*' :: rest => .star :: tokens rest
  | '?' :: rest => .any :: tokens rest
  | '[' :: rest =>
    match closed : splitSet rest with
    | some (negated, sequence, after) =>
      have := splitSet_shorter closed
      .set negated (ranges sequence) :: tokens after
    | none => .one '[' :: tokens rest
  | c :: rest => .one c :: tokens rest
termination_by pattern => pattern.length

def Token.admits : Token → Char → Bool
  | .star, _ => false
  | .any, _ => true
  | .one c, d => c == d
  | .set negated ranges, d => negated != ranges.any fun r => r.1 ≤ d && d ≤ r.2

/-- Every token but the star stands for one character. -/
def accepts : List Token → List Char → Bool
  | [], text => text.isEmpty
  | .star :: rest, text => text.tails.any (accepts rest)
  | _ :: _, [] => false
  | token :: rest, c :: text => token.admits c && accepts rest text

def fnmatch (name pattern : List Char) : Bool := accepts (tokens pattern) name

example : fnmatch "x-1.pt".toList "[!a-w][-]?.p[]s-u]".toList = true := by decide +kernel

end Glob
