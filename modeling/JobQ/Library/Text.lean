import Mathlib.Data.List.Basic

/-!
# Lines and words

The lines of a stream, and the words of a text as Python's `str.split` and `str.rstrip` see them.
-/

namespace Text

variable {α : Type*} [DecidableEq α]

/-- Each line but perhaps the last ends with the newline. -/
def lines (newline : α) : List α → List (List α)
  | [] => []
  | a :: rest =>
    if a = newline then [a] :: lines newline rest
    else
      match lines newline rest with
      | [] => [[a]]
      | line :: others => (a :: line) :: others

def isSpace (c : Char) : Bool :=
  let n := c.toNat
  (9 ≤ n && n ≤ 13) || (28 ≤ n && n ≤ 32) || n == 0x85 || n == 0xA0 || n == 0x1680 ||
    (0x2000 ≤ n && n ≤ 0x200A) || n == 0x2028 || n == 0x2029 || n == 0x202F || n == 0x205F ||
    n == 0x3000

def rstrip (text : List Char) : List Char := (text.reverse.dropWhile isSpace).reverse

def split : List Char → List (List Char)
  | [] => []
  | c :: rest =>
    if isSpace c then split rest
    else
      match rest with
      | [] => [[c]]
      | d :: _ =>
        if isSpace d then [c] :: split rest
        else
          match split rest with
          | [] => [[c]]
          | word :: others => (c :: word) :: others

/-- `text.rsplit(separator, 1)`, if the separator is there. -/
def rsplit (separator : α) : List α → Option (List α × List α)
  | [] => none
  | a :: rest =>
    match rsplit separator rest with
    | some (before, after) => some (a :: before, after)
    | none => if a = separator then some ([], rest) else none

/-! ## Lines -/

variable {newline : α} {stream : List α}

/-- The first line reaches to the first newline. -/
theorem lines_eq_cons (some : stream ≠ []) : lines newline stream =
    (stream.takeWhile (· ≠ newline) ++ (stream.dropWhile (· ≠ newline)).take 1) ::
      lines newline ((stream.dropWhile (· ≠ newline)).drop 1) := by
  induction stream with
  | nil => contradiction
  | cons a rest ih =>
      rw [lines]
      by_cases ends : a = newline
      · simp [ends]
      · rw [if_neg ends]
        cases rest with
        | nil => simp [lines, ends]
        | cons b others =>
            rw [ih (by simp)]
            simp [ends]

omit [DecidableEq α] in
/-- The line ends where its newline is, or at the end of the stream. -/
theorem takeWhile_line (p : α → Bool) (stream : List α) :
    (stream.takeWhile p ++ (stream.dropWhile p).take 1).takeWhile p = stream.takeWhile p := by
  induction stream with
  | nil => rfl
  | cons a rest ih => by_cases inside : p a <;> simp [inside, ih]

/-! ## The last separator -/

section

variable {separator : α} {text before after : List α}

theorem rsplit_eq_none : rsplit separator text = none ↔ separator ∉ text := by
  induction text with
  | nil => simp [rsplit]
  | cons a rest ih =>
      rw [rsplit, List.mem_cons, not_or, ← ih]
      cases rsplit separator rest with
      | none => by_cases same : a = separator <;> simp [same, @eq_comm _ separator]
      | some halves => simp

theorem rsplit_append (absent : separator ∉ after) :
    rsplit separator (before ++ separator :: after) = some (before, after) := by
  induction before with
  | nil => simp [rsplit, rsplit_eq_none.mpr absent]
  | cons a rest ih => rw [List.cons_append, rsplit, ih]

theorem rsplit_eq_some : rsplit separator text = some (before, after) ↔
    text = before ++ separator :: after ∧ separator ∉ after := by
  constructor
  · intro halves
    induction text generalizing before with
    | nil => cases halves
    | cons a rest ih =>
        rw [rsplit] at halves
        split at halves
        · rename_i found
          cases halves
          obtain ⟨rfl, absent⟩ := ih found
          exact ⟨rfl, absent⟩
        · rename_i absent
          split at halves <;> cases halves
          rename_i same
          exact ⟨by rw [same]; rfl, rsplit_eq_none.mp absent⟩
  · rintro ⟨rfl, absent⟩
    exact rsplit_append absent

end

/-! ## Words -/

theorem split_space {c : Char} (space : isSpace c = true) (rest : List Char) :
    split (c :: rest) = split rest := by
  rw [split.eq_def]
  exact if_pos space

theorem split_single {c : Char} (word : isSpace c = false) : split [c] = [[c]] := by
  rw [split.eq_def]
  exact if_neg (by simp [word])

theorem split_length (text : List Char) : (split text).length ≤ text.length := by
  fun_induction split text with
  | case1 => exact Nat.le_refl _
  | case2 c rest space ih => exact Nat.le_succ_of_le ih
  | case3 c => exact Nat.le_refl _
  | case4 c word d others space ih => exact Nat.succ_le_succ ih
  | case5 c word d others next none ih => simp [none]
  | case6 c word d others next first more found ih =>
      rw [found] at ih ⊢
      exact Nat.le_succ_of_le ih

theorem split_length_lt (c d : Char) (text : List Char) :
    (split (c :: d :: text)).length < (c :: d :: text).length := by
  have rest := split_length (d :: text)
  rw [split.eq_def]
  dsimp only
  split
  · exact Nat.lt_succ_of_le rest
  · split
    · rename_i space
      rw [split_space space]
      exact Nat.succ_lt_succ (Nat.lt_succ_of_le (split_length text))
    · split
      · simp
      · rename_i found
        rw [found] at rest
        exact Nat.lt_succ_of_le rest

/-- Each character is a word only where there is nothing to split. -/
theorem split_eq_map_iff {text : List Char} : split text = text.map ([·]) ↔
    text = [] ∨ ∃ c, isSpace c = false ∧ text = [c] := by
  constructor
  · intro same
    match text with
    | [] => exact .inl rfl
    | [c] =>
      refine .inr ⟨c, ?_, rfl⟩
      by_contra space
      rw [split_space (by simpa using space)] at same
      cases same
    | c :: d :: others =>
      have short := split_length_lt c d others
      rw [same, List.length_map] at short
      exact absurd short (Nat.lt_irrefl _)
  · rintro (rfl | ⟨c, word, rfl⟩)
    · rfl
    · exact split_single word

end Text
