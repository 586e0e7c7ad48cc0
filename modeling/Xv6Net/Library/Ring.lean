import Xv6Net.Library.Bytes

/-! A ring of cells at the start of a memory, written by a device that goes on at the start
when it reaches the end. Positions count on for ever; position `p` is the cell `p % size`.
Records of different lengths follow each other in the ring.
-/

namespace Library.Ring

open Library.Memory Function

variable {α β : Type} {size : Nat}

/-- The memory after the device has written the cells from a position on. -/
def write (size : Nat) (mem : Int → α) (position : Nat) (cells : List α) : Int → α :=
  fun i =>
    if 0 ≤ i ∧ i < size then (cells[((i - position) % size).toNat]?).getD (mem i) else mem i

/-- The ring holds the cells from a position on. -/
def Holds (size : Nat) (mem : Int → α) (position : Nat) (cells : List α) : Prop :=
  ∀ (i : Nat) (inside : i < cells.length), mem ((position + i) % size : Nat) = cells[i]

/-- What a write leaves in the cell of a position. -/
theorem write_at (mem : Int → α) (position other : Nat) (cells : List α) (some_ : 0 < size)
    : write size mem position cells (other % size : Nat)
      = (cells[(((other : Int) - position) % size).toNat]?).getD (mem (other % size : Nat)) := by
  have inside := Nat.mod_lt other some_
  have offset : ((other % size : Nat) - (position : Int)) % size
      = ((other : Int) - position) % size := by
    rw [Int.natCast_emod, Int.emod_sub_emod]
  rw [write, if_pos ⟨by omega, by exact_mod_cast inside⟩, offset]

/-- A device that keeps its position within the ring writes to the same cells. -/
theorem write_mod (mem : Int → α) (position : Nat) (cells : List α)
    : write size mem (position % size : Nat) cells = write size mem position cells := by
  funext i
  simp only [write, Int.natCast_emod, Int.sub_emod_emod]

variable {cells : List α} {mem : Int → α} {position : Nat}

theorem holds_write (mem : Int → α) (position : Nat) (fits : cells.length ≤ size)
    : Holds size (write size mem position cells) position cells := by
  intro i inside
  have offset : (((position + i : Nat) : Int) - position) % size = i := by
    rw [Int.emod_eq_of_lt (by omega) (by omega)]
    omega
  rw [write_at mem position (position + i) cells (by omega), offset, Int.toNat_natCast,
    List.getElem?_eq_getElem inside, Option.getD_some]

/-- Cells that were written before are kept until the device comes round to them. -/
theorem Holds.write (holds : Holds size mem position cells) (new : List α) (ahead : Nat)
    (behind : cells.length ≤ ahead) (room : ahead + new.length ≤ size)
    : Holds size (write size mem (position + ahead) new) position cells := by
  intro i inside
  have offset : (((position + i : Nat) : Int) - (position + ahead : Nat)) % size
      = size - (ahead - i) := by
    rw [← Int.add_emod_right, Int.emod_eq_of_lt (by omega) (by omega)]
    omega
  rw [write_at mem _ (position + i) new (by omega), offset, List.getElem?_eq_none (by omega),
    Option.getD_none]
  exact holds i inside

/-- A part that ends inside the ring is one range of the memory. -/
theorem Holds.slice (holds : Holds size mem position cells) (skip count : Nat)
    (listed : skip + count ≤ cells.length) (straight : position % size + skip + count ≤ size)
    : slice mem ((position % size : Nat) + skip) count = (cells.drop skip).take count := by
  apply List.ext_getElem
  · rw [length_slice, List.length_take, List.length_drop]
    omega
  · intro i left right
    rw [length_slice] at left
    rw [getElem_slice, List.getElem_take, List.getElem_drop, ← holds (skip + i) (by omega)]
    have same : (position + (skip + i)) % size = position % size + skip + i := by
      rw [Nat.add_mod, Nat.mod_eq_of_lt (a := skip + i) (by omega), Nat.mod_eq_of_lt (by omega),
        Nat.add_assoc]
    rw [same]
    push_cast
    rfl

/-- A write of one cell. -/
theorem write_singleton (mem : Int → α) (position : Nat) (cell : α) (some_ : 0 < size)
    : write size mem position [cell]
      = update mem (position % size : Nat) cell := by
  funext i
  by_cases here : i = (position % size : Nat)
  · rw [here, update_self, write_at mem position position [cell] some_, sub_self, Int.zero_emod]
    rfl
  · rw [update_of_ne here, write]
    split
    · rename_i inside
      have other : ((i - position) % size).toNat ≠ 0 := by
        intro zero
        have multiple : (i - position) % size = 0 := by
          have := Int.emod_nonneg (i - position) (b := size) (by omega)
          omega
        apply here
        rw [Int.natCast_emod, ← Int.emod_eq_emod_iff_emod_sub_eq_zero.mpr multiple,
          Int.emod_eq_of_lt inside.1 inside.2]
      rw [List.getElem?_eq_none (by rw [List.length_singleton]; omega), Option.getD_none]
    · rfl

variable {more : List α} {ok : Nat → β → Prop} {records : List β}

theorem Holds.append (holds : Holds size mem position cells)
    (then_ : Holds size mem (position + cells.length) more)
    : Holds size mem position (cells ++ more) := by
  intro i inside
  rw [List.getElem_append]
  split
  · rename_i front
    exact holds i front
  · rename_i behind
    rw [List.length_append] at inside
    rw [← then_ (i - cells.length) (by omega)]
    congr 3
    omega

theorem Holds.tail {cell : α} {rest : List α} (holds : Holds size mem position (cell :: rest))
    : Holds size mem (position + 1) rest := by
  intro i inside
  have later := holds (i + 1) (by rw [List.length_cons]; omega)
  rw [List.getElem_cons_succ] at later
  rw [← later]
  congr 3
  omega

theorem Holds.front (holds : Holds size mem position (cells ++ more))
    : Holds size mem position cells := by
  intro i inside
  rw [holds i (by rw [List.length_append]; omega), List.getElem_append_left inside]

/-- A counter of positions that has wrapped still names the right cell, if the size of the ring
divides 2^32.
-/
theorem counter_mod {counter cells : UInt32} {count : Nat}
    (counts : counter.toNat = count % 2 ^ 32) (divides : cells.toNat ∣ 2 ^ 32)
    : (counter % cells).toNat = count % cells.toNat := by
  rw [UInt32.toNat_mod, counts, Nat.mod_mod_of_dvd count divides]

/-- Each record satisfies `ok` at its position, the first one at the given position. -/
def Laid (span : β → Nat) (ok : Nat → β → Prop) : Nat → List β → Prop
  | _, [] => True
  | position, record :: rest => ok position record ∧ Laid span ok (position + span record) rest

/-- The positions that the records take. -/
def extent (span : β → Nat) (records : List β) : Nat :=
  (records.map span).sum

variable {span : β → Nat}

@[simp]
theorem extent_nil : extent span [] = 0 :=
  rfl

@[simp]
theorem extent_cons (record : β) (rest : List β)
    : extent span (record :: rest) = span record + extent span rest :=
  rfl

theorem extent_append (records more : List β)
    : extent span (records ++ more) = extent span records + extent span more := by
  simp [extent]

theorem laid_append_singleton (laid : Laid span ok position records) {record : β}
    (last : ok (position + extent span records) record)
    : Laid span ok position (records ++ [record]) := by
  induction records generalizing position with
  | nil => exact ⟨last, trivial⟩
  | cons first rest ih =>
    refine ⟨laid.1, ih laid.2 ?_⟩
    rwa [extent_cons, ← Nat.add_assoc] at last

/-- What holds of a record at its position can be changed, record by record. -/
theorem Laid.imp {better : Nat → β → Prop} (laid : Laid span ok position records)
    (implies
      : ∀ here record,
          position ≤ here
          → here + span record ≤ position + extent span records
          → ok here record
          → better here record)
    : Laid span better position records := by
  induction records generalizing position with
  | nil => trivial
  | cons first rest ih =>
    refine ⟨implies position first le_rfl (by rw [extent_cons]; omega) laid.1, ih laid.2 ?_⟩
    intro here record behind inside
    exact implies here record (by omega) (by rw [extent_cons]; omega)

end Library.Ring
