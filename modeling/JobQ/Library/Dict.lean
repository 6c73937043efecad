import JobQ.Library.JsonRoundTrip
import Mathlib.Algebra.Group.Nat.Defs

/-!
# Dictionaries

A `Dict` is a well-formed JSON object, so that it survives being written and read.
-/

namespace JsonText

theorem membersWellFormed_iff (members : Members) :
    MembersWellFormed members ↔ ∀ m ∈ members, m.1.Joined ∧ WellFormed m.2 := by
  induction members with
  | nil => simp [MembersWellFormed]
  | cons m rest ih => simp [MembersWellFormed, ih, and_assoc]

theorem keys_setItem (d : Members) (key : Str) (value : Json) :
    (setItem d key value).map Prod.fst =
      if key ∈ d.map Prod.fst then d.map Prod.fst else d.map Prod.fst ++ [key] := by
  unfold setItem
  split
  · rw [List.map_map]
    apply List.map_congr_left
    intro m _
    by_cases same : m.1 = key <;> simp [same]
  · simp

theorem setItem_nodup {d : Members} (key : Str) (value : Json)
    (nodup : (d.map Prod.fst).Nodup) : ((setItem d key value).map Prod.fst).Nodup := by
  rw [keys_setItem]
  split
  · exact nodup
  · rename_i fresh
    rw [List.nodup_append]
    exact ⟨nodup, List.nodup_singleton key, fun a ha b hb => by
      rintro rfl; exact fresh (List.mem_singleton.mp hb ▸ ha)⟩

theorem setItem_membersWellFormed {d : Members} {key : Str} {value : Json}
    (members : MembersWellFormed d) (joined : key.Joined) (wf : WellFormed value) :
    MembersWellFormed (setItem d key value) := by
  rw [membersWellFormed_iff] at members ⊢
  intro m member
  unfold setItem at member
  split at member
  · obtain ⟨old, before, rfl⟩ := List.mem_map.mp member
    split
    · exact ⟨joined, wf⟩
    · exact members old before
  · rcases List.mem_append.mp member with before | new
    · exact members m before
    · rw [List.mem_singleton.mp new]
      exact ⟨joined, wf⟩

theorem getItem_setItem_same (d : Members) (key : Str) (value : Json) :
    getItem (setItem d key value) key = some value := by
  unfold setItem
  split
  · rename_i member
    induction d with
    | nil => simp at member
    | cons m rest ih =>
        by_cases same : m.1 = key
        · simp [getItem, same]
        · have later : key ∈ rest.map Prod.fst := by simpa [Ne.symm same] using member
          simpa [getItem, same] using ih later
  · rename_i fresh
    have absent : d.find? (fun m => m.1 = key) = none := by
      rw [List.find?_eq_none]
      intro m member
      simpa using fun same => fresh (List.mem_map.mpr ⟨m, member, same⟩)
    simp [getItem, absent]

theorem getItem_setItem_other (d : Members) {key other : Str} (value : Json)
    (distinct : other ≠ key) : getItem (setItem d key value) other = getItem d other := by
  unfold setItem
  split
  · rename_i member
    clear member
    induction d with
    | nil => rfl
    | cons m rest ih =>
        by_cases same : m.1 = key
        · simpa [getItem, same, Ne.symm distinct] using ih
        · by_cases found : m.1 = other
          · simp [getItem, found, distinct]
          · simpa [getItem, same, found] using ih
  · simp [getItem, Ne.symm distinct]

theorem setItem_of_getItem {d : Members} {key : Str} {value : Json}
    (nodup : (d.map Prod.fst).Nodup) (stored : getItem d key = some value) :
    setItem d key value = d := by
  obtain ⟨m, found, rfl⟩ := Option.map_eq_some_iff.mp stored
  have same : m.1 = key := by simpa using List.find?_some found
  have member := List.mem_of_find?_eq_some found
  unfold setItem
  rw [if_pos (List.mem_map.mpr ⟨m, member, same⟩)]
  conv_rhs => rw [← List.map_id d]
  apply List.map_congr_left
  intro n other
  split
  · rename_i key
    rw [← List.inj_on_of_nodup_map nodup member other (same.trans key.symm)]
    simp [← same]
  · rfl

/-! ## Deciding -/

mutual
def decideWellFormed : (v : Json) → Decidable (WellFormed v)
  | .null | .bool _ | .float _ => .isTrue trivial
  | .int n => inferInstanceAs (Decidable (Fits n))
  | .str s => inferInstanceAs (Decidable s.Joined)
  | .arr items => decideItems items
  | .obj members =>
    have := decideMembers members
    inferInstanceAs (Decidable ((members.map Prod.fst).Nodup ∧ MembersWellFormed members))
def decideItems : (items : List Json) → Decidable (ItemsWellFormed items)
  | [] => .isTrue trivial
  | v :: rest =>
    have := decideWellFormed v
    have := decideItems rest
    inferInstanceAs (Decidable (WellFormed v ∧ ItemsWellFormed rest))
def decideMembers : (members : Members) → Decidable (MembersWellFormed members)
  | [] => .isTrue trivial
  | (k, v) :: rest =>
    have := decideWellFormed v
    have := decideMembers rest
    inferInstanceAs (Decidable (k.Joined ∧ WellFormed v ∧ MembersWellFormed rest))
end

instance (v : Json) : Decidable (WellFormed v) := decideWellFormed v

theorem fits_of_lt {n : Int} (small : n.natAbs < 10 ^ 18) : Fits n :=
  (Nat.length_toDigits_le_iff (by decide) (by decide)).mpr
    (small.trans_le (Nat.pow_le_pow_right (by decide) (by decide)))

theorem fits_mono {m n : Int} (fits : Fits n) (smaller : m.natAbs ≤ n.natAbs) : Fits m := by
  unfold Fits at fits ⊢
  rw [Nat.length_toDigits_le_iff (by decide) (by decide)] at fits ⊢
  exact smaller.trans_lt fits

/-! ## The structure -/

/-- A dictionary with string keys: each key once, at every level. -/
@[ext]
structure Dict where
  members : Members
  wellFormed : WellFormed (.obj members)

namespace Dict

def setItem (d : Dict) (key : String) (value : Json) (wf : WellFormed value) : Dict where
  members := JsonText.setItem d.members key value
  wellFormed := ⟨setItem_nodup key value d.wellFormed.1,
    setItem_membersWellFormed d.wellFormed.2 Str.joined_ofString wf⟩

def get (d : Dict) (key : String) : Option Json := getItem d.members key

theorem setItem_eq_iff (d : Dict) (key : String) (value : Json) (wf : WellFormed value) :
    d.setItem key value wf = d ↔ d.get key = some value := by
  constructor
  · intro same
    rw [← same]
    exact getItem_setItem_same _ _ _
  · intro stored
    ext1
    exact setItem_of_getItem d.wellFormed.1 stored

theorem get_setItem_same (d : Dict) (key : String) (value : Json) (wf : WellFormed value) :
    (d.setItem key value wf).get key = some value := getItem_setItem_same _ _ _

theorem get_setItem_other (d : Dict) {key other : String} (value : Json) (wf : WellFormed value)
    (distinct : other ≠ key) : (d.setItem key value wf).get other = d.get other :=
  getItem_setItem_other _ _ (mt Str.ofString_inj.mp distinct)

end Dict

/-! ## Equality -/

def number? : Json → Option Rat
  | .int n => some n
  | .bool b => some (if b then 1 else 0)
  | .float (.finite x) => some x.value
  | _ => none

mutual
/-- `v == w`: dictionaries are equal as mappings, in whatever order their members were inserted, and
numbers by their value. -/
def Equals : Json → Json → Prop
  | .obj a, .obj b => a.length = b.length ∧ MembersEqual a b
  | .arr a, .arr b => ItemsEqual a b
  | v, w => v = w ∨ ((number? v).isSome = true ∧ number? v = number? w)
def ItemsEqual : List Json → List Json → Prop
  | [], [] => True
  | v :: rest, w :: others => Equals v w ∧ ItemsEqual rest others
  | _, _ => False
def MembersEqual : Members → Members → Prop
  | [], _ => True
  | (k, v) :: rest, b => (∃ w, getItem b k = some w ∧ Equals v w) ∧ MembersEqual rest b
end

end JsonText
