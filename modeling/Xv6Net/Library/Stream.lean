import Mathlib.Data.List.Infix

/-! Pieces of a stream. Items that are laid end to end cover a range of positions; a block of
cells occurs in a stream at the position where it was written. Both survive what a sliding
window does: adding an item at the end, dropping items from the front.
-/

namespace Library

section

variable {ι : Type} (start length : ι → Nat)

/-- The items are laid end to end from `first` to `last`. -/
def Tiles : Nat → List ι → Nat → Prop
  | first, [], last => first = last
  | first, item :: rest, last => start item = first ∧ Tiles (first + length item) rest last

variable {start length}

variable {first last : Nat} {items : List ι}

section

variable (tiles : Tiles start length first items last)
include tiles

theorem Tiles.le
    : first ≤ last := by
  induction items generalizing first with
  | nil => exact Nat.le_of_eq tiles
  | cons item rest ih =>
    have later := ih tiles.2
    omega

/-- One more item at the end. -/
theorem Tiles.concat {item : ι} (begins : start item = last)
    : Tiles start length first (items ++ [item]) (last + length item) := by
  induction items generalizing first with
  | nil =>
    have same : first = last := tiles
    subst same
    exact ⟨begins, rfl⟩
  | cons head rest ih => exact ⟨tiles.1, ih tiles.2⟩

/-- Every item lies between the ends. -/
theorem Tiles.bounds {item : ι} (member : item ∈ items)
    : first ≤ start item ∧ start item + length item ≤ last := by
  induction items generalizing first with
  | nil => cases member
  | cons head rest ih =>
    obtain ⟨begins, later⟩ := tiles
    rcases List.mem_cons.mp member with rfl | inside
    · have bound := later.le
      omega
    · have bounds := ih later inside
      omega

/-- The items that end by a position are the first ones. -/
theorem Tiles.takeWhile_eq_filter (position : Nat)
    : items.takeWhile (fun item => decide (start item + length item ≤ position))
      = items.filter (fun item => decide (start item + length item ≤ position)) := by
  induction items generalizing first with
  | nil => rfl
  | cons head rest ih =>
    obtain ⟨begins, later⟩ := tiles
    by_cases ends : start head + length head ≤ position
    · simp only [List.takeWhile_cons, List.filter_cons, decide_eq_true ends, if_true, ih later]
    · have beyond : ∀ item ∈ rest, ¬ start item + length item ≤ position := by
        intro item inside
        have bounds := later.bounds inside
        omega
      have none_ : rest.filter (fun item => decide (start item + length item ≤ position))
          = [] := by
        rw [List.filter_eq_nil_iff]
        intro item inside
        simpa using beyond item inside
      simp only [List.takeWhile_cons, List.filter_cons, decide_eq_false ends, none_,
        Bool.false_eq_true, if_false]

/-- Only the positions and lengths of the listed items matter. -/
theorem Tiles.congr {start' length' : ι → Nat}
    (agree : ∀ item ∈ items, start' item = start item ∧ length' item = length item)
    : Tiles start' length' first items last := by
  induction items generalizing first with
  | nil => exact tiles
  | cons head rest ih =>
    obtain ⟨sameStart, sameLength⟩ := agree head List.mem_cons_self
    refine ⟨sameStart.trans tiles.1, ?_⟩
    rw [sameLength]
    exact ih tiles.2 fun item inside => agree item (List.mem_cons_of_mem head inside)

end

end

section

variable {α : Type}

/-- The stream holds the block at the position. -/
def Occurs (stream block : List α) (position : Nat) : Prop :=
  block <+: stream.drop position

variable {stream block : List α} {position : Nat}

/-- A block stays where it is when the stream grows. -/
theorem Occurs.grow (occurs : Occurs stream block position) (more : List α)
    : Occurs (stream ++ more) block position := by
  refine List.IsPrefix.trans occurs ?_
  rw [List.drop_append]
  exact List.prefix_append _ _

/-- What is added to a stream occurs at its former end. -/
theorem occurs_append (stream block : List α)
    : Occurs (stream ++ block) block stream.length := by
  simp [Occurs]

/-- A reader that has taken the stream up to a position takes a block from there. -/
theorem Occurs.take_append (occurs : Occurs stream block position)
    : stream.take position ++ block = stream.take (position + block.length) := by
  rw [List.take_add, ← List.prefix_iff_eq_take.mp occurs]

/-- A block that occurs inside a stream ends inside it. -/
theorem Occurs.end_le (occurs : Occurs stream block position) (inside : position ≤ stream.length)
    : position + block.length ≤ stream.length := by
  have bound := occurs.length_le
  rw [List.length_drop] at bound
  omega

/-- A block that is written over and over, the last time only its beginning. -/
theorem getElem?_repeat (block : List α) (n : Nat) {cut j : Nat} (short : cut ≤ block.length)
    (inside : j < n * block.length + cut)
    : ((List.replicate n block).flatten ++ block.take cut)[j]?
      = block[j % block.length]? := by
  induction n generalizing j with
  | zero =>
    have below : j < block.length := by omega
    simp only [List.replicate_zero, List.flatten_nil, List.nil_append, Nat.mod_eq_of_lt below]
    rw [List.getElem?_take_of_lt (by omega)]
  | succ n ih =>
    simp only [List.replicate_succ, List.flatten_cons, List.append_assoc]
    rw [List.getElem?_append]
    split
    · rename_i below
      rw [Nat.mod_eq_of_lt below]
    · rename_i beyond
      rw [ih (by rw [Nat.succ_mul] at inside; omega), ← Nat.mod_eq_sub_mod (not_lt.mp beyond)]

end

end Library
