import JobQ.Model.Entities
import Mathlib.Algebra.Group.Int.Defs

/-!
# Deduplication ids

The id of a task without an explicit one is the MD5 hash of a JSON text that holds the text of its
arguments as a string. Tasks that JSON tells apart have different texts. The text follows the order
in which the arguments were inserted, so equal tasks may have different ones.
-/

namespace JobQ
open JsonText

namespace AnyTask

variable {t u : AnyTask}

def Writable (t : AnyTask) : Prop :=
  writable t.kwargs = true ∧ writable t.numRetries = true ∧ writable t.replyRequested = true

instance (t : AnyTask) : Decidable t.Writable := inferInstanceAs (Decidable (_ ∧ _))

/-- What JSON keeps of the fields that are hashed: a surrogate pair is one character. -/
def content (t : AnyTask) : Json × Json × Json :=
  (joined t.kwargs, joined t.numRetries, joined t.replyRequested)

def members (t : AnyTask) : Members :=
  [("version", .int 1), ("reply_requested", t.replyRequested), ("kwargs", .str (text t.kwargs)),
    ("num_retries", t.numRetries)]

theorem dictWithoutId_eq : t.dictWithoutId = if writable t.kwargs then some t.members else none := by
  rw [dictWithoutId, dumps]
  split <;> rfl

theorem writable_members :
    writable (.obj t.members) = (writable t.replyRequested && writable t.numRetries) := by
  have version : Fits 1 := fits_of_lt (by decide)
  simp [writable, members, membersWritable, version]

theorem hashed_eq : t.hashed = if t.Writable then some (text (.obj t.members)) else none := by
  rw [hashed, dictWithoutId_eq]
  cases kwargs : writable t.kwargs with
  | false => simp [Writable, kwargs]
  | true => simp [Writable, kwargs, dumps, writable_members, and_comm]

theorem joined_members : joined (.obj t.members) = joined (.obj u.members) ↔
    text t.kwargs = text u.kwargs ∧ joined t.numRetries = joined u.numRetries ∧
      joined t.replyRequested = joined u.replyRequested := by
  simp only [joined, readBack, membersReadBack, members, Str.joined_ofString, id_eq, Json.obj.injEq,
    List.cons.injEq, Prod.mk.injEq, true_and, and_true, Json.str.injEq, Str.ofString_inj]
  tauto

theorem hashed_eq_iff (left : t.Writable) (right : u.Writable) :
    t.hashed = u.hashed ↔ t.content = u.content := by
  have leftOuter : writable (.obj t.members) = true := by simp [writable_members, left.2.1, left.2.2]
  have rightOuter : writable (.obj u.members) = true := by simp [writable_members, right.2.1, right.2.2]
  rw [hashed_eq, hashed_eq, if_pos left, if_pos right, Option.some.injEq,
    text_eq_iff leftOuter rightOuter, joined_members, text_eq_iff left.1 right.1, content, content,
    Prod.mk.injEq, Prod.mk.injEq]

structure HashedApart (t u : AnyTask) (a b : String) : Prop where
  left : t._id = some (.str (digest a))
  right : u._id = some (.str (digest b))
  leftHashed : t.hashed = some a
  rightHashed : u.hashed = some b
  apart : a ≠ b

theorem _id_of_anonymous (anonymous : t.id.truthy = false) :
    t._id = t.hashed.map fun text => .str (digest text) := by
  simp [_id, anonymous]

/-- Tasks that differ for JSON have different texts to hash. -/
theorem hashed_apart (anonymous : t.id.truthy = false) (nameless : u.id.truthy = false)
    (left : t.Writable) (right : u.Writable) (differ : t.content ≠ u.content) :
    ∃ a b, HashedApart t u a b := by
  have apart := mt (hashed_eq_iff left right).mp differ
  have leftHashed : t.hashed = some _ := hashed_eq.trans (if_pos left)
  have rightHashed : u.hashed = some _ := hashed_eq.trans (if_pos right)
  refine ⟨_, _, ?_, ?_, leftHashed, rightHashed, fun same => apart ?_⟩
  · rw [_id_of_anonymous anonymous, leftHashed, Option.map_some]
  · rw [_id_of_anonymous nameless, rightHashed, Option.map_some]
  · rw [leftHashed, rightHashed, same]

def nameless (members : Members) : AnyTask where
  kwargs := .obj members
  numRetries := .int 5

theorem hashed_apart_echo : ∃ a b, HashedApart (nameless [("cmd", .str "echo \"a\"")])
    (nameless [("cmd", .str "echo \\\"a\\\"")]) a b :=
  hashed_apart rfl rfl (by decide) (by decide) (by simp [nameless, content, joined, readBack, membersReadBack])

/-! ## Tasks that JSON does not tell apart -/

def wholeFace : Str := ⟨[.char (Char.ofNat 0x1f600)]⟩
def splitFace : Str := ⟨[.high (Point.half 0x3d), .low (Point.half 0x200)]⟩

def hugeInt : Int := 10 ^ IntLiteral.maxStrDigits

theorem not_fits_hugeInt : ¬ Fits hugeInt := by
  have base : Int.natAbs 10 = 10 := rfl
  rw [Fits, hugeInt, Int.natAbs_pow, base, Nat.length_toDigits_le_iff (by decide) (by decide)]
  exact Nat.lt_irrefl _

/-- Two different arguments have one text, and an integer may have none. -/
theorem hashed_not_apart :
    (splitFace ≠ wholeFace ∧ ¬ ∃ a b,
      HashedApart (nameless [("cmd", .str splitFace)]) (nameless [("cmd", .str wholeFace)]) a b) ∧
    ¬ ∃ a b, HashedApart (nameless [("n", .int hugeInt)]) (nameless []) a b := by
  refine ⟨⟨by decide, ?_⟩, ?_⟩
  · rintro ⟨a, b, apart⟩
    have same := (hashed_eq_iff (t := nameless [("cmd", .str splitFace)])
      (u := nameless [("cmd", .str wholeFace)]) (by decide) (by decide)).mpr rfl
    rw [apart.leftHashed, apart.rightHashed, Option.some.injEq] at same
    exact apart.apart same
  · rintro ⟨a, b, apart⟩
    have unwritable : ¬ (nameless [("n", .int hugeInt)]).Writable := by
      simp [Writable, nameless, writable, membersWritable, not_fits_hugeInt]
    have hashed := apart.leftHashed
    rw [hashed_eq, if_neg unwritable] at hashed
    cases hashed

/-! ## Equal tasks -/

structure Equal (t u : AnyTask) : Prop where
  kwargs : Equals t.kwargs u.kwargs
  numRetries : t.numRetries = u.numRetries
  replyRequested : t.replyRequested = u.replyRequested

def Collides (t u : AnyTask) : Prop :=
  ∃ a b, t.hashed = some a ∧ u.hashed = some b ∧ a ≠ b ∧
    digest a = digest b

theorem Equal.hashed (equal : t.Equal u) (kwargs : joined t.kwargs = joined u.kwargs) :
    t.hashed = u.hashed := by
  have content : t.content = u.content := by
    simp [AnyTask.content, kwargs, equal.numRetries, equal.replyRequested]
  have writes : t.Writable ↔ u.Writable := by
    rw [Writable, Writable, ← writable_joined t.kwargs, kwargs, writable_joined, equal.numRetries,
      equal.replyRequested]
  by_cases left : t.Writable
  · exact (hashed_eq_iff left (writes.mp left)).mpr content
  · rw [hashed_eq, hashed_eq, if_neg left, if_neg (mt writes.mpr left)]

/-- Equal tasks get the same id exactly when their arguments are written the same, with the members
in the same order at every level, or by a collision. Where neither is written, neither has an id. -/
theorem equal_ids_iff (t u : AnyTask) (anonymous : t.id.truthy = false)
    (nameless : u.id.truthy = false) (equal : t.Equal u) :
    t._id = u._id ↔
      joined t.kwargs = joined u.kwargs ∨ (¬ t.Writable ∧ ¬ u.Writable) ∨ Collides t u := by
  rw [_id_of_anonymous anonymous, _id_of_anonymous nameless]
  constructor
  · intro same
    rw [hashed_eq, hashed_eq] at same
    by_cases left : t.Writable
    · by_cases right : u.Writable
      · simp only [if_pos left, if_pos right, Option.map_some, Option.some.injEq, Json.str.injEq,
          Str.ofString_inj] at same
        by_cases texts : t.hashed = u.hashed
        · exact .inl (congrArg Prod.fst ((hashed_eq_iff left right).mp texts))
        · rw [hashed_eq, hashed_eq, if_pos left, if_pos right, Option.some.injEq] at texts
          exact .inr (.inr ⟨_, _, hashed_eq.trans (if_pos left), hashed_eq.trans (if_pos right), texts, same⟩)
      · simp [if_pos left, if_neg right] at same
    · by_cases right : u.Writable
      · simp [if_neg left, if_pos right] at same
      · exact .inr (.inl ⟨left, right⟩)
  · rintro (kwargs | ⟨left, right⟩ | ⟨a, b, leftHashed, rightHashed, -, same⟩)
    · rw [equal.hashed kwargs]
    · rw [hashed_eq, hashed_eq, if_neg left, if_neg right]
    · rw [leftHashed, rightHashed, Option.map_some, Option.map_some, same]

def ordered : AnyTask := nameless [("a", .int 1), ("b", .int 2)]
def reordered : AnyTask := nameless [("b", .int 2), ("a", .int 1)]

theorem reordered_equal : ordered.Equal reordered :=
  ⟨⟨rfl, ⟨_, rfl, .inl rfl⟩, ⟨_, rfl, .inl rfl⟩, trivial⟩, rfl, rfl⟩

/-- A pair in a key may be split where another key has it whole. -/
def splitFirst : AnyTask := nameless [(splitFace, .int 1), (wholeFace, .int 1)]
def wholeFirst : AnyTask := nameless [(wholeFace, .int 1), (splitFace, .int 1)]

theorem splitFirst_equal : splitFirst.Equal wholeFirst :=
  ⟨⟨rfl, ⟨_, rfl, .inl rfl⟩, ⟨_, rfl, .inl rfl⟩, trivial⟩, rfl, rfl⟩

theorem equal_ids_faces : splitFirst._id = wholeFirst._id :=
  (equal_ids_iff splitFirst wholeFirst rfl rfl splitFirst_equal).mpr (.inl rfl)

theorem equal_ids_fail : ¬ ∀ t u : AnyTask, t.id.truthy = false → u.id.truthy = false →
    t.Equal u → t._id = u._id := by
  intro claim
  have same := claim ordered reordered rfl rfl reordered_equal
  have apart : ordered.hashed.map digest ≠ reordered.hashed.map digest := by decide +kernel
  rw [_id_of_anonymous rfl, _id_of_anonymous rfl] at same
  exact apart (Option.map_injective (fun _ _ texts => Str.ofString_inj.mp (Json.str.inj texts))
    (by simpa [Function.comp_def] using same))

end AnyTask

end JobQ
