import Mathlib.Data.List.Basic

/-! Tables of slots that stand for a finite map: a slot is free or holds a key with its value, and
the map says for each key its value and the slot that holds it.
-/

namespace Library.SlotMap

open Function

variable {κ ν : Type}

/-- The first `n` slots hold what is in the map, each key in one slot. -/
def StandsFor (slots : Nat → Option (κ × ν)) (n : Nat) (map : κ → Option (ν × Nat)) : Prop :=
  ∀ key value i, map key = some (value, i) ↔ i < n ∧ slots i = some (key, value)

/-- The first of the slots that is free, or the end of the table. -/
def firstFree (slots : Nat → Option (κ × ν)) (n : Nat) : Nat :=
  ((List.range n).find? fun i => (slots i).isNone).getD n

section

variable {slots : Nat → Option (κ × ν)} {n i : Nat} {map : κ → Option (ν × Nat)}

theorem StandsFor.empty : StandsFor slots 0 fun _ : κ => none := by
  intro key value i
  simp

theorem StandsFor.unique (h : StandsFor slots n map) {j : Nat} {key : κ} {value value' : ν}
    (inside : i < n) (inside' : j < n) (here : slots i = some (key, value))
    (there : slots j = some (key, value'))
    : i = j := by
  have first_ := (h key value i).mpr ⟨inside, here⟩
  have second := (h key value' j).mpr ⟨inside', there⟩
  rw [first_] at second
  exact (Prod.mk.inj (Option.some.inj second)).2

theorem StandsFor.ne_of_none (h : StandsFor slots n map) {key : κ} (absent : map key = none)
    (inside : i < n) (value : ν)
    : slots i ≠ some (key, value) := by
  intro here
  rw [(h key value i).mpr ⟨inside, here⟩] at absent
  cases absent

section

variable [DecidableEq κ]

/-- A key that is not in the map gets a free slot, or one at the end. -/
theorem StandsFor.insert (h : StandsFor slots n map) {key : κ} (value : ν)
    (absent : map key = none) (end_ : i ≤ n) (free : i < n → slots i = none)
    : StandsFor (update slots i (some (key, value))) (max n (i + 1))
        (update map key (some (value, i))) := by
  intro other value' j
  by_cases same : other = key
  · rw [same, update_self]
    constructor
    · intro equal
      obtain ⟨rfl, rfl⟩ := Prod.mk.inj (Option.some.inj equal)
      exact ⟨by omega, update_self ..⟩
    · rintro ⟨inside, there⟩
      by_cases here : j = i
      · rw [here, update_self] at there
        rw [here, (Prod.mk.inj (Option.some.inj there)).2]
      · rw [update_of_ne here] at there
        exact (h.ne_of_none absent (by omega) value' there).elim
  · rw [update_of_ne same, h other value' j]
    by_cases here : j = i
    · rw [here, update_self]
      constructor
      · rintro ⟨inside, there⟩
        rw [free inside] at there
        cases there
      · rintro ⟨-, there⟩
        exact (same (Prod.mk.inj (Option.some.inj there)).1.symm).elim
    · rw [update_of_ne here]
      exact and_congr_left fun _ => by omega

/-- A slot that holds a key is made free. -/
theorem StandsFor.erase (h : StandsFor slots n map) {key : κ} {value : ν} (inside : i < n)
    (holding : slots i = some (key, value))
    : StandsFor (update slots i none) n (update map key none) := by
  intro other value' j
  by_cases here : j = i
  · rw [here, update_self]
    by_cases same : other = key
    · rw [same, update_self]
      simp
    · rw [update_of_ne same, h other value' i, holding]
      refine iff_of_false ?_ (by simp)
      rintro ⟨-, there⟩
      exact same (Prod.mk.inj (Option.some.inj there)).1.symm
  · rw [update_of_ne here]
    by_cases same : other = key
    · rw [same, update_self]
      refine iff_of_false (by simp) ?_
      rintro ⟨inside', there⟩
      exact here (h.unique inside' inside there holding)
    · rw [update_of_ne same]
      exact h other value' j

end

theorem firstFree_le : firstFree slots n ≤ n := by
  rw [firstFree]
  cases found : (List.range n).find? fun i => (slots i).isNone with
  | none => exact Nat.le_refl n
  | some => exact Nat.le_of_lt (List.mem_range.mp (List.mem_of_find?_eq_some found))

theorem free_of_firstFree_lt (inside : firstFree slots n < n)
    : slots (firstFree slots n) = none := by
  rw [firstFree] at inside ⊢
  cases found : (List.range n).find? fun i => (slots i).isNone with
  | none =>
    rw [found] at inside
    exact (Nat.lt_irrefl n inside).elim
  | some => simpa using List.find?_some found

theorem taken_of_lt_firstFree (before : i < firstFree slots n) : (slots i).isNone = false := by
  have bound : firstFree slots n ≤ n := firstFree_le
  rw [firstFree] at before bound
  cases found : (List.range n).find? fun i => (slots i).isNone with
  | none =>
    have all := List.find?_eq_none.mp found i (List.mem_range.mpr (by omega))
    exact Bool.eq_false_iff.mpr all
  | some =>
    rw [found] at before
    have taken := (List.find?_range_eq_some.mp found).2.2 i before
    simpa using taken

end

end Library.SlotMap
