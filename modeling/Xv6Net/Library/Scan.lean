import Mathlib.Data.List.Basic

/-! Linear scans of a table with `n` slots: the first slot that passes a test, and the first
slot whose key is the least below a bound.
-/

namespace Library.Scan

/-- What a search through a table finds. -/
theorem find_range_spec {test : Nat → Bool} {n i : Nat} (found : (List.range n).find? test = some i)
    : i < n ∧ test i = true :=
  ⟨List.mem_range.mp (List.mem_of_find?_eq_some found), List.find?_some found⟩

/-- A scan looks only at the items of the list. -/
theorem takeWhile_congr {α : Type} {test other : α → Bool} {items : List α}
    (same : ∀ item ∈ items, test item = other item)
    : items.takeWhile test = items.takeWhile other := by
  induction items with
  | nil => rfl
  | cons head rest ih =>
    obtain ⟨first_, later⟩ := List.forall_mem_cons.mp same
    rw [List.takeWhile_cons, List.takeWhile_cons, first_, ih later]

/-- Two scans stop at the same place if and only if the tests agree up to there. -/
theorem takeWhile_length_eq_iff {α : Type} {test other : α → Bool} (items : List α)
    : (items.takeWhile test).length = (items.takeWhile other).length
      ↔ ∀ item ∈ items.take ((items.takeWhile test).length + 1), test item = other item := by
  induction items with
  | nil => exact iff_of_true rfl nofun
  | cons head rest ih =>
    rw [List.take_succ_cons, List.forall_mem_cons]
    cases passes : test head with
    | false =>
      rw [List.takeWhile_cons_of_neg (by simp [passes])]
      cases also : other head with
      | false => simp [also]
      | true => simp [also]
    | true =>
      rw [List.takeWhile_cons_of_pos passes, List.length_cons]
      cases also : other head with
      | false => simp [also]
      | true =>
        rw [List.takeWhile_cons_of_pos also, List.length_cons, Nat.add_right_cancel_iff, ih]
        simp

section

variable {κ : Type} [LT κ] [LE κ] [DecidableLT κ]
  (eligible : Nat → Prop) [DecidablePred eligible] (key : Nat → κ) (bound : κ)

/-- The scan that keeps the least key so far and the slot that has it. -/
def leastBelow (n : Nat) : κ × Option Nat :=
  (List.range n).foldl
    (fun (least, slot) i =>
      if eligible i ∧ key i < least then (key i, some i) else (least, slot))
    (bound, none)

/-- The first of the slots with the least key, which is below the bound. -/
structure FirstLeast (n i : Nat) : Prop where
  inside : i < n
  fits : eligible i
  below : key i < bound
  least : ∀ j < n, eligible j → key i ≤ key j
  first : ∀ j < i, eligible j → key i < key j

variable [Std.IsLinearOrder κ] [Std.LawfulOrderLT κ]

/-- The scan finds the first of the least keys, if one is below the bound: a new slot replaces the
one found only if its key is smaller.
-/
theorem leastBelow_spec (n : Nat)
    : (∃ i, leastBelow eligible key bound n = (key i, some i)
        ∧ FirstLeast eligible key bound n i)
      ∨ (leastBelow eligible key bound n = (bound, none)
        ∧ ∀ j < n, eligible j → bound ≤ key j) := by
  induction n with
  | zero => exact Or.inr ⟨rfl, fun j inside => absurd inside (Nat.not_lt_zero j)⟩
  | succ n ih =>
    have next : leastBelow eligible key bound (n + 1)
        = (if eligible n ∧ key n < (leastBelow eligible key bound n).1 then (key n, some n)
          else leastBelow eligible key bound n) := by
      simp only [leastBelow, List.range_succ, List.foldl_append, List.foldl_cons, List.foldl_nil]
      rfl
    rcases ih with ⟨i, found, ok⟩ | ⟨found, none_⟩
    · by_cases smaller : eligible n ∧ key n < key i
      · refine Or.inl ⟨n, by rw [next, found, if_pos smaller], Nat.lt_succ_self n, smaller.1,
          Std.lt_trans smaller.2 ok.below, ?_, ?_⟩
        · intro j inside fits
          rcases Nat.lt_succ_iff_lt_or_eq.mp inside with earlier | rfl
          · exact Std.le_of_lt (Std.lt_of_lt_of_le smaller.2 (ok.least j earlier fits))
          · exact Std.le_refl _
        · intro j earlier fits
          exact Std.lt_of_lt_of_le smaller.2 (ok.least j earlier fits)
      · refine Or.inl ⟨i, by rw [next, found, if_neg smaller],
          Nat.lt_succ_of_lt ok.inside, ok.fits, ok.below, ?_, ok.first⟩
        intro j inside fits
        rcases Nat.lt_succ_iff_lt_or_eq.mp inside with earlier | rfl
        · exact ok.least j earlier fits
        · exact Std.not_lt.mp fun less => smaller ⟨fits, less⟩
    · by_cases smaller : eligible n ∧ key n < bound
      · refine Or.inl ⟨n, by rw [next, found, if_pos smaller], Nat.lt_succ_self n, smaller.1,
          smaller.2, ?_, fun j earlier fits => Std.lt_of_lt_of_le smaller.2 (none_ j earlier fits)⟩
        intro j inside fits
        rcases Nat.lt_succ_iff_lt_or_eq.mp inside with earlier | rfl
        · exact Std.le_of_lt (Std.lt_of_lt_of_le smaller.2 (none_ j earlier fits))
        · exact Std.le_refl _
      · refine Or.inr ⟨by rw [next, found, if_neg smaller], ?_⟩
        intro j inside fits
        rcases Nat.lt_succ_iff_lt_or_eq.mp inside with earlier | rfl
        · exact none_ j earlier fits
        · exact Std.not_lt.mp fun less => smaller ⟨fits, less⟩

omit [DecidableLT κ] [DecidablePred eligible] in
/-- There is only one first slot with the least key. -/
theorem FirstLeast.unique {n i j : Nat} (hi : FirstLeast eligible key bound n i)
    (hj : FirstLeast eligible key bound n j)
    : i = j := by
  rcases Nat.lt_trichotomy i j with earlier | same | later
  · exact absurd (hj.first i earlier hi.fits) (Std.not_lt.mpr (hi.least j hj.inside hj.fits))
  · exact same
  · exact absurd (hi.first j later hj.fits) (Std.not_lt.mpr (hj.least i hi.inside hi.fits))

/-- The scan finds exactly the first of the least keys. -/
theorem leastBelow_eq_some_iff {n i : Nat}
    : (leastBelow eligible key bound n).2 = some i ↔ FirstLeast eligible key bound n i := by
  rcases leastBelow_spec eligible key bound n with ⟨j, found, first⟩ | ⟨found, none_⟩
  · rw [found]
    constructor
    · intro same
      exact Option.some.inj same ▸ first
    · intro also
      rw [first.unique eligible key bound also]
  · rw [found]
    refine iff_of_false nofun fun first => ?_
    exact Std.not_lt.mpr (none_ i first.inside first.fits) first.below

end

end Library.Scan
