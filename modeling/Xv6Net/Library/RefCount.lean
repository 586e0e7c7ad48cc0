import Mathlib.Algebra.BigOperators.Group.Finset.Piecewise

/-! Counting the references to an object in a finite table of references. A table that changes
in one cell changes the count by what the cell held and holds, and a count of one means that no
two cells refer to the object.
-/

namespace Library

variable {α : Type} [DecidableEq α]

/-- How many cells of the first `rows` rows and `columns` columns refer to `object`. -/
def references (table : Nat → Nat → Option α) (rows columns : Nat) (object : α) : Nat :=
  ((Finset.range rows ×ˢ Finset.range columns).filter
    fun cell => table cell.1 cell.2 = some object).card

variable {table table' : Nat → Nat → Option α} {rows columns : Nat} {object : α}

/-- Witness: the cell is taken out of both counts, and the rest is the same. -/
theorem references_change {i j : Nat} (row : i < rows) (column : j < columns)
    (others : ∀ a b, ¬ (a = i ∧ b = j) → table' a b = table a b)
    : references table' rows columns object + (if table i j = some object then 1 else 0)
      = references table rows columns object
        + (if table' i j = some object then 1 else 0) := by
  have member : (i, j) ∈ Finset.range rows ×ˢ Finset.range columns :=
    Finset.mem_product.mpr ⟨Finset.mem_range.mpr row, Finset.mem_range.mpr column⟩
  have rest : ((Finset.range rows ×ˢ Finset.range columns).erase (i, j)).sum
        (fun cell => if table' cell.1 cell.2 = some object then 1 else 0)
      = ((Finset.range rows ×ˢ Finset.range columns).erase (i, j)).sum
        (fun cell => if table cell.1 cell.2 = some object then 1 else 0) := by
    refine Finset.sum_congr rfl fun cell inside => ?_
    rw [others cell.1 cell.2 fun same => ?_]
    exact (Finset.mem_erase.mp inside).1 (Prod.ext same.1 same.2)
  simp only [references, Finset.card_filter]
  rw [← Finset.add_sum_erase _ _ member, ← Finset.add_sum_erase _ _ member, rest]
  simp only
  omega

/-- An object that is referred to once is referred to from one cell only. -/
theorem references_unique {i j a b : Nat} (once : references table rows columns object = 1)
    (row : i < rows) (column : j < columns) (here : table i j = some object) (row' : a < rows)
    (column' : b < columns) (there : table a b = some object)
    : a = i ∧ b = j := by
  have few := Finset.card_le_one.mp (le_of_eq once)
  have one : (i, j) ∈ (Finset.range rows ×ˢ Finset.range columns).filter
      fun cell => table cell.1 cell.2 = some object := by
    simp [row, column, here]
  have other : (a, b) ∈ (Finset.range rows ×ˢ Finset.range columns).filter
      fun cell => table cell.1 cell.2 = some object := by
    simp [row', column', there]
  have same := few _ other _ one
  exact ⟨congrArg Prod.fst same, congrArg Prod.snd same⟩

/-- An object that a cell refers to is referred to. -/
theorem references_pos {i j : Nat} (row : i < rows) (column : j < columns)
    (here : table i j = some object)
    : 0 < references table rows columns object := by
  refine Finset.card_pos.mpr ⟨(i, j), ?_⟩
  simp [row, column, here]

end Library
