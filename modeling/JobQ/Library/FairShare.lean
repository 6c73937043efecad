import Mathlib.Algebra.Order.BigOperators.Group.List
import Mathlib.Algebra.Order.Ring.Int

/-!
# Shares with a carry

A total is dealt out to takers of limited capacity, one after another. Everybody is offered an equal
share, and what a taker leaves of it is offered to the next one in addition.
-/

namespace FairShare

def shares (share total : Int) : List Int → Int → Int → List Int
  | [], _, _ => []
  | capacity :: rest, carry, given =>
    let taken := min (min (share + carry) capacity) (total - given)
    taken :: shares share total rest (carry + (share - taken)) (given + taken)

variable {share total : Int}

theorem length_mul_le_sum {bound : Int} {capacities : List Int} (above : ∀ c ∈ capacities, bound ≤ c) :
    (capacities.length : Int) * bound ≤ capacities.sum := by
  simpa using List.card_nsmul_le_sum capacities bound above

/-- In ascending order of capacity nobody's capacity is left unused while shares are left over. -/
theorem shares_sum {capacities : List Int} {carry given : Int}
    (nonnegative : ∀ c ∈ capacities, 0 ≤ c) (ascending : capacities.Pairwise (· ≤ ·))
    (owed : 0 ≤ carry) (left : given ≤ total) :
    (shares share total capacities carry given).sum =
      min (min capacities.sum (carry + capacities.length * share)) (total - given) := by
  induction capacities generalizing carry given with
  | nil => simp [shares]; omega
  | cons capacity rest ih =>
      have positive := nonnegative capacity (by simp)
      have later : ∀ c ∈ rest, 0 ≤ c := fun c member => nonnegative c (by simp [member])
      obtain ⟨least, ascending⟩ := List.pairwise_cons.mp ascending
      have spare : 0 ≤ rest.sum := List.sum_nonneg later
      have enough := length_mul_le_sum least
      simp only [shares, List.sum_cons, List.length_cons, Nat.cast_add, Nat.cast_one, add_mul, one_mul]
      rw [ih later ascending (by omega) (by omega)]
      -- who takes the whole offer is followed by takers of at least its size
      have offered : share + carry ≤ capacity → share + carry + rest.length * share ≤
          share + carry + rest.sum := by
        intro whole
        have above : ∀ c ∈ rest, share ≤ c := fun c member => by
          have := least c member
          omega
        have fits := length_mul_le_sum above
        omega
      omega

end FairShare
