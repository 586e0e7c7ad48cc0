import Mathlib.Algebra.BigOperators.Group.Finset.Piecewise
import Mathlib.Algebra.Order.BigOperators.Group.Finset
import Mathlib.Algebra.Order.Ring.Int

/-! Counters that summarise a table: a tally adds up a weight over all places, and changing one
place changes it by the difference of the weights.
-/

namespace Library

open Function

variable {ι α : Type} [Fintype ι]

/-- The weights of all places together. -/
def tally (weight : α → Int) (table : ι → α) : Int :=
  Finset.univ.sum fun place => weight (table place)

/-- Witness: the place is taken out of both sums, and the rest is the same. -/
theorem tally_update [DecidableEq ι] (weight : α → Int) (table : ι → α) (place : ι) (value : α)
    : tally weight (update table place value)
      = tally weight table - weight (table place) + weight value := by
  have rest : ((Finset.univ.erase place).sum
        fun other => weight (update table place value other))
      = (Finset.univ.erase place).sum fun other => weight (table other) := by
    refine Finset.sum_congr rfl fun other inside => ?_
    rw [update_of_ne (Finset.mem_erase.mp inside).1]
  rw [tally, tally, ← Finset.add_sum_erase _ _ (Finset.mem_univ place),
    ← Finset.add_sum_erase _ _ (Finset.mem_univ place), rest, update_self]
  omega

variable {weight : α → Int} {table : ι → α}

theorem tally_congr {other : α → Int} {table' : ι → α}
    (same : ∀ place, weight (table place) = other (table' place))
    : tally weight table = tally other table' :=
  Finset.sum_congr rfl fun place _ => same place

theorem tally_nonneg (nonneg : ∀ place, 0 ≤ weight (table place))
    : 0 ≤ tally weight table :=
  Finset.sum_nonneg fun place _ => nonneg place

/-- No place weighs more than all of them. -/
theorem le_tally (nonneg : ∀ place, 0 ≤ weight (table place)) (place : ι)
    : weight (table place) ≤ tally weight table :=
  Finset.single_le_sum (f := fun place => weight (table place)) (fun other _ => nonneg other)
    (Finset.mem_univ place)

end Library
