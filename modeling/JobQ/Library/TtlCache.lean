import Mathlib.Data.List.AList
import Mathlib.Order.Lattice

/-!
# Caches whose entries expire

An entry expires at a time that is fixed when it is assigned. The entries are listed from the one
that was used last. An assignment drops what has expired, and makes room for a new key by dropping
what was used longest ago.
-/

namespace TtlCache

variable {κ ν τ : Type*}

abbrev Cache (κ ν τ : Type*) : Type _ := AList fun _ : κ => ν × τ

def evict (c : Cache κ ν τ) (room : Nat) : Cache κ ν τ :=
  ⟨c.entries.take room, c.nodupKeys.sublist (List.take_sublist room _)⟩

section

variable {μ : Type*}

def mapEntry (f : κ → ν → μ) : (Sigma fun _ : κ => ν × τ) → Sigma fun _ : κ => μ × τ :=
  .map id fun k entry => (f k entry.1, entry.2)

/-- The keys stay, with their times and in their order. -/
def mapValues (f : κ → ν → μ) (c : Cache κ ν τ) : Cache κ μ τ :=
  ⟨c.entries.map (mapEntry f), c.nodupKeys.map₂ _ _⟩

theorem mapEntry_congr {f f' : κ → ν → μ} {k : κ} (others : ∀ l v, l ≠ k → f' l v = f l v)
    {l : List (Sigma fun _ : κ => ν × τ)} (absent : k ∉ l.keys) :
    l.map (mapEntry f') = l.map (mapEntry f) := by
  apply List.map_congr_left
  intro entry member
  have other : entry.1 ≠ k := fun same => absent (same ▸ List.mem_keys_of_mem member)
  obtain ⟨l, v, expires⟩ := entry
  simp only [mapEntry, Sigma.map, id_eq, others l v other]

end

variable [DecidableEq κ]

section

variable {c : Cache κ ν τ} {k l : κ} {f : ν → ν}

/-- The value is read, and changed in place. -/
def touch (c : Cache κ ν τ) (k : κ) (f : ν → ν) : Cache κ ν τ :=
  match c.lookup k with
  | none => c
  | some (value, expires) => c.insert k (f value, expires)

variable {μ : Type*} {g g' : κ → ν → μ} {h : μ → μ}

theorem lookup_mapValues :
    (mapValues g c).lookup k = (c.lookup k).map fun entry => (g k entry.1, entry.2) :=
  List.dlookup_map₂ k

theorem kerase_mapEntry (entries : List (Sigma fun _ : κ => ν × τ)) :
    List.kerase k (entries.map (mapEntry g)) = (List.kerase k entries).map (mapEntry g) := by
  induction entries with
  | nil => rfl
  | cons entry rest ih =>
      have key : (mapEntry g entry).1 = entry.1 := rfl
      by_cases same : k = entry.1
      · rw [List.map_cons, List.kerase_cons_eq (same.trans key.symm), List.kerase_cons_eq same]
      · rw [List.map_cons, List.kerase_cons_ne same, List.map_cons, List.kerase_cons_ne (key ▸ same), ih]

section

variable (others : ∀ l v, l ≠ k → g' l v = g l v)
include others

theorem insert_mapValues (entry : ν × τ) :
    (mapValues g c).insert k (g' k entry.1, entry.2) = mapValues g' (c.insert k entry) := by
  apply AList.ext
  have absent : k ∉ (List.kerase k c.entries).keys := List.notMem_keys_kerase k c.nodupKeys
  change _ :: List.kerase k (c.entries.map (mapEntry g)) = _ :: (List.kerase k c.entries).map (mapEntry g')
  rw [kerase_mapEntry, mapEntry_congr others absent]
  rfl

theorem touch_mapValues (own : ∀ entry, c.lookup k = some entry → g' k (f entry.1) = h (g k entry.1)) :
    touch (mapValues g c) k h = mapValues g' (touch c k f) := by
  rw [touch, touch, lookup_mapValues]
  cases found : c.lookup k with
  | none =>
      have absent : k ∉ c.entries.keys := AList.lookup_eq_none.mp found
      exact AList.ext (mapEntry_congr others absent).symm
  | some entry =>
      rw [Option.map_some]
      dsimp only
      rw [← own entry found]
      exact insert_mapValues others (f entry.1, entry.2)

end

end

variable [LinearOrder τ]

def contains (c : Cache κ ν τ) (k : κ) (now : τ) : Bool := (c.lookup k).any fun entry => now < entry.2

def expire (c : Cache κ ν τ) (now : τ) : Cache κ ν τ :=
  ⟨c.entries.filter fun entry => now < entry.2.2, c.nodupKeys.sublist List.filter_sublist⟩

def setItem (maxsize : Nat) (c : Cache κ ν τ) (k : κ) (value : ν) (now expires : τ) : Cache κ ν τ :=
  (evict ((expire c now).erase k) (maxsize - 1)).insert k (value, expires)

variable {c : Cache κ ν τ} {k l : κ} {value : ν} {now expires : τ} {maxsize : Nat}

theorem contains_iff : contains c k now = true ↔ ∃ entry, c.lookup k = some entry ∧ now < entry.2 := by
  rw [contains, Option.any_eq_true]
  simp only [decide_eq_true_eq]

section

variable {μ : Type*} {g h : κ → ν → μ}

theorem contains_mapValues : contains (mapValues g c) k now = contains c k now := by
  rw [contains, lookup_mapValues, Option.any_map]
  rfl

theorem setItem_mapValues (others : ∀ l v, l ≠ k → h l v = g l v) :
    setItem maxsize (mapValues g c) k (h k value) now expires =
      mapValues h (setItem maxsize c k value now expires) := by
  have same : evict ((expire (mapValues g c) now).erase k) (maxsize - 1) =
      mapValues g (evict ((expire c now).erase k) (maxsize - 1)) := by
    apply AList.ext
    change (List.kerase k ((c.entries.map (mapEntry g)).filter _)).take _ =
      ((List.kerase k (c.entries.filter _)).take _).map (mapEntry g)
    rw [List.filter_map, kerase_mapEntry, List.map_take]
    rfl
  rw [setItem, same]
  exact insert_mapValues others (value, expires)

end

end TtlCache
