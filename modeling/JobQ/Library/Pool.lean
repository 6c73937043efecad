import Mathlib.Algebra.Order.Group.Multiset
import Mathlib.Data.List.ReduceOption
import Mathlib.Tactic.Abel

/-!
# Pools

A pool is a list of workers of which one at a time changes. How many of them meet a condition, and
what they hold as a multiset, changes by what that one does.
-/

namespace Pool

variable {α β : Type*}

section

variable {p : α → Bool} {l : List α} {i : Nat} {a b : α} (stored : l[i]? = some a)
include stored

theorem countP_set : (l.set i b).countP p + (if p a then 1 else 0) =
    l.countP p + if p b then 1 else 0 := by
  obtain ⟨bound, rfl⟩ := List.getElem?_eq_some_iff.mp stored
  rw [List.countP_set bound]
  have least := List.boole_getElem_le_countP (p := p) bound
  omega

theorem countP_gains (before : p a = false) (after : p b = true) :
    (l.set i b).countP p = l.countP p + 1 := by
  simpa [before, after] using countP_set (p := p) (b := b) stored

theorem countP_drops (before : p a = true) (after : p b = false) :
    l.countP p = (l.set i b).countP p + 1 := by
  simpa [before, after] using (countP_set (p := p) (b := b) stored).symm

theorem countP_stays (same : p a = p b) : (l.set i b).countP p = l.countP p := by
  simpa [same] using countP_set (p := p) (b := b) stored

theorem countP_set_le (keeps : p b = true → p a = true) : (l.set i b).countP p ≤ l.countP p := by
  have counted := countP_set (p := p) (b := b) stored
  split at counted <;> split at counted <;> first | omega | simp_all

theorem countP_le_set (keeps : p a = true → p b = true) : l.countP p ≤ (l.set i b).countP p := by
  have counted := countP_set (p := p) (b := b) stored
  split at counted <;> split at counted <;> first | omega | simp_all

end

section

variable {l : List α} {i : Nat} {a : α} (f : α → Option β) (stored : l[i]? = some a) (b : α)
include stored

theorem filterMap_set : ((l.set i b).filterMap f : Multiset β) + (f a).toList =
    l.filterMap f + (f b).toList := by
  induction l generalizing i with
  | nil => cases stored
  | cons c rest ih =>
      have split (c : α) (rest : List α) : (((c :: rest).filterMap f : List β) : Multiset β) =
          (f c).toList + rest.filterMap f := by
        cases equal : f c <;> simp [equal]
      cases i with
      | zero =>
          cases stored
          rw [List.set_cons_zero, split, split]
          abel
      | succ i =>
          have later := ih (i := i) (by simpa using stored)
          rw [List.set_cons_succ, split, split, add_assoc, later]
          abel

theorem filterMap_gains {x : β} (before : f a = none) (after : f b = some x) :
    ((l.set i b).filterMap f : Multiset β) = l.filterMap f + [x] := by
  simpa [before, after] using filterMap_set f stored b

theorem filterMap_drops {x : β} (before : f a = some x) (after : f b = none) :
    (l.filterMap f : Multiset β) = (l.set i b).filterMap f + [x] := by
  simpa [before, after] using (filterMap_set f stored b).symm

theorem filterMap_stays (same : f a = f b) :
    ((l.set i b).filterMap f : Multiset β) = l.filterMap f := by
  have whole := filterMap_set f stored b
  rw [same] at whole
  exact add_right_cancel whole

end

theorem filterMap_idle {p : α → Bool} {f : α → Option β} {l : List α} (count : l.countP p = 0)
    (idle : ∀ a, p a = false → f a = none) : l.filterMap f = [] := by
  rw [List.filterMap_eq_nil_iff]
  intro a member
  exact idle a (by simpa using List.countP_eq_zero.mp count a member)

theorem filterMap_snoc {f : α → Option β} (l : List α) (a : α) :
    ((l ++ [a]).filterMap f : Multiset β) = l.filterMap f + (f a).toList := by
  rw [List.filterMap_append, Multiset.coe_add]
  cases equal : f a <;> simp [equal]

theorem reduceOption_snoc (items : List (Option α)) (x : α) :
    ((items ++ [some x]).reduceOption : Multiset α) = items.reduceOption + [x] := by
  rw [List.reduceOption_append, Multiset.coe_add]
  rfl

theorem coe_head {items rest : List α} {x : α} (first : items = x :: rest) :
    (items : Multiset α) = rest + [x] := by
  rw [first, Multiset.coe_add]
  exact Multiset.coe_eq_coe.mpr (List.perm_append_singleton x rest).symm

theorem reduceOption_head {items rest : List (Option α)} {x : α} (first : items = some x :: rest) :
    (items.reduceOption : Multiset α) = rest.reduceOption + [x] := by
  rw [first, List.reduceOption_cons_of_some]
  exact coe_head rfl

theorem mem_of_set {l : List α} {i : Nat} {a b : α} (member : b ∈ l.set i a) (other : a ≠ b) :
    b ∈ l := by
  rcases List.mem_or_eq_of_mem_set member with old | same
  · exact old
  · exact absurd same.symm other

theorem mem_set_or {l : List α} {i : Nat} {a b c : α} (stored : l[i]? = some a) (member : c ∈ l) :
    c = a ∨ c ∈ l.set i b := by
  obtain ⟨j, found⟩ := List.mem_iff_getElem?.mp member
  by_cases same : j = i
  · subst same
    exact .inl (Option.some.inj (found.symm.trans stored))
  · exact .inr (List.mem_of_getElem? (by rwa [List.getElem?_set_ne (Ne.symm same)]))

theorem set_cases {l : List α} {i j : Nat} {a b : α} (found : (l.set i a)[j]? = some b) :
    (j = i ∧ b = a) ∨ j ≠ i ∧ l[j]? = some b := by
  by_cases same : j = i
  · subst same
    obtain ⟨-, rfl⟩ : j < l.length ∧ a = b := by simpa [List.getElem?_set] using found
    exact .inl ⟨rfl, rfl⟩
  · rw [List.getElem?_set_ne (Ne.symm same)] at found
    exact .inr ⟨same, found⟩

theorem append_cases {l : List α} {i : Nat} {a b : α} (found : (l ++ [a])[i]? = some b) :
    l[i]? = some b ∨ i = l.length ∧ b = a := by
  rw [List.getElem?_append] at found
  split at found
  · exact .inl found
  · rename_i beyond
    obtain ⟨last, rfl⟩ : i - l.length = 0 ∧ a = b := by
      simpa [List.getElem?_singleton] using found
    exact .inr ⟨by omega, rfl⟩

theorem getElem?_of_mem_set {l : List α} {i : Nat} {a b : α} (member : b ∈ l.set i a) :
    b = a ∨ ∃ j, j ≠ i ∧ l[j]? = some b := by
  obtain ⟨j, found⟩ := List.mem_iff_getElem?.mp member
  exact (set_cases found).imp And.right fun other => ⟨j, other⟩

theorem mem_modify {l : List α} {i : Nat} {f : α → α} {a : α} (member : a ∈ l.modify i f) :
    ∃ old ∈ l, a = old ∨ a = f old := by
  obtain ⟨j, found⟩ := List.mem_iff_getElem?.mp member
  rw [List.getElem?_modify] at found
  obtain ⟨old, stored, rfl⟩ := Option.map_eq_some_iff.mp found
  refine ⟨old, List.mem_of_getElem? stored, ?_⟩
  by_cases here : i = j
  · simp [here]
  · simp [here]

theorem forall_set {P : α → Prop} {l : List α} {i : Nat} {a : α} (all : ∀ b ∈ l, P b) (new : P a) :
    ∀ b ∈ l.set i a, P b := by
  intro b member
  rcases List.mem_or_eq_of_mem_set member with old | rfl
  · exact all b old
  · exact new

/-! ## Every worker once, in any order -/

theorem getElem?_foldl_set (order : List Nat) (f : Nat → α) (l : List α) (j : Nat) :
    (order.foldl (fun l i => l.set i (f i)) l)[j]? =
      if j ∈ order then l[j]?.map fun _ => f j else l[j]? := by
  induction order generalizing l with
  | nil => simp
  | cons i rest ih =>
      rw [List.foldl_cons, ih]
      by_cases same : i = j
      · subst same
        by_cases bound : i < l.length <;> simp [bound]
      · simp [List.getElem?_set_ne same, List.mem_cons, Ne.symm same]

theorem foldl_set_replicate {order : List Nat} {n : Nat} (whole : order.Perm (List.range n))
    (a : α) (f : Nat → α) :
    order.foldl (fun l i => l.set i (f i)) (List.replicate n a) = (List.range n).map f := by
  apply List.ext_getElem?
  intro j
  have member : j ∈ order ↔ j < n := by rw [whole.mem_iff, List.mem_range]
  rw [getElem?_foldl_set]
  by_cases bound : j < n <;> simp [member, bound]

theorem filterMap_range (l : List α) : ((List.range l.length).filterMap fun i => l[i]?) = l := by
  have stored : (List.range l.length).map (fun i => l[i]?) = l.map some := by
    apply List.ext_getElem <;> simp
  calc
    ((List.range l.length).filterMap fun i => l[i]?) =
        ((List.range l.length).map fun i => l[i]?).filterMap id := by
      rw [List.filterMap_map]
      rfl
    _ = (l.map some).filterMap id := by rw [stored]
    _ = l := by simp

end Pool
