import Mathlib.Data.List.Basic
import Mathlib.Tactic.Ring

/-! Byte-addressed memory as a function of the address: slices, overwriting a range, and
little-endian words. Words are characterised by their numeric value, so that facts about
encodings reduce to linear arithmetic.
-/

namespace Library.Memory

variable {α : Type}

/-- The `count` cells from `start` on. -/
def slice (mem : Int → α) (start : Int) (count : Nat) : List α :=
  (List.range count).map (fun (i : Nat) => mem (start + i))

/-- The memory with the cells from `start` on replaced by the listed ones. -/
def overlay (mem : Int → α) (start : Int) (cells : List α) : Int → α :=
  fun i => if start ≤ i then (cells[(i - start).toNat]?).getD (mem i) else mem i

@[simp]
theorem length_slice (mem : Int → α) (start : Int) (count : Nat)
    : (slice mem start count).length = count := by
  simp [slice]

@[simp]
theorem slice_zero (mem : Int → α) (start : Int) : slice mem start 0 = [] :=
  rfl

theorem getElem_slice (mem : Int → α) (start : Int) (count i : Nat)
    (h : i < (slice mem start count).length)
    : (slice mem start count)[i] = mem (start + i) := by
  simp [slice]

variable {count i : Nat} {start p q : Int} {mem other : Int → UInt8} {cells : List UInt8}

theorem getElem?_slice (mem : Int → α) (start : Int) (inside : i < count)
    : (slice mem start count)[i]? = some (mem (start + i)) := by
  simp [slice, inside]

/-- A range that holds a list holds each of its elements. -/
theorem cell_of_slice {mem : Int → α} {cells : List α} {value : α}
    (stored : slice mem start cells.length = cells) (element : cells[i]? = some value)
    : mem (start + i) = value := by
  obtain ⟨inside, -⟩ := List.getElem?_eq_some_iff.mp element
  rw [← stored, getElem?_slice mem start inside] at element
  exact Option.some.inj element

/-- Adjacent ranges concatenate. -/
theorem slice_append (mem : Int → α) (start : Int) (m n : Nat)
    : slice mem start (m + n) = slice mem start m ++ slice mem (start + m) n := by
  apply List.ext_getElem
  · simp
  · intro i _ _
    rw [getElem_slice, List.getElem_append]
    split
    · rw [getElem_slice]
    · rename_i late
      rw [getElem_slice]
      rw [length_slice] at late ⊢
      congr 1
      omega

theorem slice_succ (mem : Int → α) (start : Int) (n : Nat)
    : slice mem start (n + 1) = mem start :: slice mem (start + 1) n := by
  rw [Nat.add_comm, slice_append]
  simp [slice]

/-- Memories that agree on a range have the same slice of it. -/
theorem slice_congr {mem other : Int → α}
    (agree : ∀ i, start ≤ i → i < start + count → mem i = other i)
    : slice mem start count = slice other start count := by
  apply List.map_congr_left
  intro i member
  have bound := List.mem_range.mp member
  exact agree _ (by omega) (by omega)

/-- Ranges of two memories with the same contents agree cell by cell. -/
theorem eq_of_slice_eq {mem other : Int → α} (same : slice mem p count = slice other q count)
    (inside : i < count)
    : mem (p + i) = other (q + i) := by
  have left := getElem_slice mem p count i (by simpa using inside)
  have right := getElem_slice other q count i (by simpa using inside)
  rw [← left, ← right]
  simp only [same]

/-- A range holds a concatenation exactly when it holds the two parts one after the other. -/
theorem slice_eq_append_iff (mem : Int → α) (start : Int) (first second : List α)
    : slice mem start (first ++ second).length = first ++ second
      ↔ slice mem start first.length = first
        ∧ slice mem (start + first.length) second.length = second := by
  rw [List.length_append, slice_append]
  constructor
  · intro same
    exact List.append_inj same (length_slice ..)
  · rintro ⟨left, right⟩
    rw [left, right]

theorem drop_slice (mem : Int → α) (start : Int) (m n : Nat)
    : (slice mem start (m + n)).drop m = slice mem (start + m) n := by
  rw [slice_append, List.drop_left' (length_slice mem start m)]

theorem take_slice (mem : Int → α) (start : Int) (count n : Nat)
    : (slice mem start count).take n = slice mem start (min n count) := by
  simp only [slice, ← List.map_take, List.take_range]

theorem overlay_before (mem : Int → α) {i : Int} (cells : List α) (h : i < start)
    : overlay mem start cells i = mem i := by
  simp [overlay, not_le.mpr h]

theorem overlay_beyond (mem : Int → α) {i : Int} {cells : List α} (h : start + cells.length ≤ i)
    : overlay mem start cells i = mem i := by
  have outside : cells.length ≤ (i - start).toNat := by omega
  simp [overlay, List.getElem?_eq_none outside]

theorem overlay_within (mem : Int → α) {i : Int} {cells : List α} (low : start ≤ i)
    (high : (i - start).toNat < cells.length)
    : overlay mem start cells i = cells[(i - start).toNat] := by
  simp [overlay, low, high]

/-- A cell of the overlay depends on that cell of the memory only. -/
theorem overlay_congr {mem other : Int → α} {i : Int} (same : mem i = other i) (start : Int)
    (cells : List α)
    : overlay mem start cells i = overlay other start cells i := by
  simp only [overlay, same]

@[simp]
theorem overlay_nil (mem : Int → α) (start : Int) : overlay mem start [] = mem := by
  funext i
  simp [overlay]

/-- Reading back a range that was just written gives what was written. -/
@[simp]
theorem slice_overlay (mem : Int → α) (start : Int) (cells : List α)
    : slice (overlay mem start cells) start cells.length = cells := by
  apply List.ext_getElem
  · simp
  · intro i _ bound
    rw [getElem_slice, overlay_within mem (by omega) (by omega)]
    congr 1
    omega

/-- A write does not show in a range that ends before it. -/
theorem slice_overlay_before (mem : Int → α) {from_ : Int} (cells : List α)
    (h : from_ + count ≤ start)
    : slice (overlay mem start cells) from_ count = slice mem from_ count :=
  slice_congr fun _ _ below => overlay_before mem cells (by omega)

/-- Two adjacent writes are one. -/
theorem overlay_append (mem : Int → α) (start : Int) (first second : List α)
    : overlay mem start (first ++ second)
      = overlay (overlay mem start first) (start + first.length) second := by
  funext i
  by_cases before : i < start
  · rw [overlay_before mem _ before, overlay_before _ _ (by omega), overlay_before mem _ before]
  · by_cases inside : i < start + first.length
    · rw [overlay_before _ _ inside, overlay, overlay, if_pos (by omega), if_pos (by omega),
        List.getElem?_append_left (by omega)]
    · rw [overlay, overlay, overlay_beyond mem (by omega), if_pos (by omega),
        if_pos (by omega), List.getElem?_append_right (by omega)]
      congr 3
      omega

/-- The memory after a loop that stores one value at `count` addresses from `start` on. -/
def fill (value : α) (mem : Int → α) (start : Int) : Nat → Int → α
  | 0 => mem
  | count + 1 => fill value (overlay mem start [value]) (start + 1) count

/-- The loop is one write. -/
theorem fill_eq_overlay (value : α) (mem : Int → α) (start : Int) (count : Nat)
    : fill value mem start count = overlay mem start (List.replicate count value) := by
  induction count generalizing mem start with
  | zero => simp [fill]
  | succ count ih =>
    rw [fill, ih, List.replicate_succ]
    exact (overlay_append mem start [value] (List.replicate count value)).symm

/-- A range that starts together with a longer write is the beginning of what was written.
-/
theorem slice_overlay_take (mem : Int → α) (start : Int) (cells : List α) (h : count ≤ cells.length)
    : slice (overlay mem start cells) start count = cells.take count := by
  conv_rhs => rw [← slice_overlay mem start cells]
  rw [take_slice, Nat.min_eq_left h]

/-- The 16-bit word stored at `p`, low byte first. -/
def load16 (mem : Int → UInt8) (p : Int) : UInt16 :=
  (mem p).toUInt16 ||| ((mem (p + 1)).toUInt16 <<< 8)

/-- The 32-bit word stored at `p`, low byte first. -/
def load32 (mem : Int → UInt8) (p : Int) : UInt32 :=
  (mem p).toUInt32 ||| ((mem (p + 1)).toUInt32 <<< 8)
    ||| ((mem (p + 2)).toUInt32 <<< 16) ||| ((mem (p + 3)).toUInt32 <<< 24)

/-- The bytes of a 16-bit word, low byte first. -/
def bytes16 (v : UInt16) : List UInt8 :=
  [v.toUInt8, (v >>> 8).toUInt8]

/-- The bytes of a 32-bit word, low byte first. -/
def bytes32 (v : UInt32) : List UInt8 :=
  [v.toUInt8, (v >>> 8).toUInt8, (v >>> 16).toUInt8, (v >>> 24).toUInt8]

@[simp]
theorem length_bytes16 (v : UInt16) : (bytes16 v).length = 2 :=
  rfl

@[simp]
theorem length_bytes32 (v : UInt32) : (bytes32 v).length = 4 :=
  rfl

/-- A value below `2 ^ k` and a value shifted past it do not overlap, so their union is
their sum.
-/
theorem or_shiftLeft_eq_add {low : Nat} (high : Nat) {k : Nat} (h : low < 2 ^ k)
    : low ||| high <<< k = low + high * 2 ^ k := by
  rw [Nat.or_comm, ← Nat.shiftLeft_add_eq_or_of_lt h, Nat.shiftLeft_eq, Nat.add_comm]

theorem load16_toNat (mem : Int → UInt8) (p : Int)
    : (load16 mem p).toNat = (mem p).toNat + (mem (p + 1)).toNat * 2 ^ 8 := by
  have low := (mem p).toNat_lt
  have high := (mem (p + 1)).toNat_lt
  have shifted : (mem (p + 1)).toNat <<< 8 % 2 ^ 16 = (mem (p + 1)).toNat <<< 8 := by
    rw [Nat.shiftLeft_eq]
    omega
  simp only [load16, UInt16.toNat_or, UInt8.toNat_toUInt16, UInt16.toNat_shiftLeft,
    UInt16.reduceToNat, Nat.reduceMod]
  rw [shifted, or_shiftLeft_eq_add _ (by omega)]

theorem shiftLeft_byte_mod {byte k : Nat} (small : byte < 2 ^ 8) (room : k ≤ 24)
    : byte <<< k % 2 ^ 32 = byte <<< k := by
  rw [Nat.shiftLeft_eq]
  apply Nat.mod_eq_of_lt
  calc byte * 2 ^ k
      < 2 ^ 8 * 2 ^ k := Nat.mul_lt_mul_of_pos_right small (Nat.two_pow_pos k)
    _ = 2 ^ (8 + k) := (pow_add 2 8 k).symm
    _ ≤ 2 ^ 32 := Nat.pow_le_pow_right (by omega) (by omega)

theorem or_bytes_eq_sum {b0 b1 b2 b3 : Nat} (h0 : b0 < 2 ^ 8) (h1 : b1 < 2 ^ 8) (h2 : b2 < 2 ^ 8)
    : b0 ||| b1 <<< 8 ||| b2 <<< 16 ||| b3 <<< 24
      = b0 + b1 * 2 ^ 8 + b2 * 2 ^ 16 + b3 * 2 ^ 24 := by
  -- from the inside out, where the bounds are known
  have half : b0 ||| b1 <<< 8 ||| b2 <<< 16 = b0 + b1 * 2 ^ 8 + b2 * 2 ^ 16 := by
    rw [or_shiftLeft_eq_add _ h0, or_shiftLeft_eq_add _ (by omega)]
  rw [half, or_shiftLeft_eq_add _ (by omega)]

theorem load32_toNat (mem : Int → UInt8) (p : Int)
    : (load32 mem p).toNat
      = (mem p).toNat + (mem (p + 1)).toNat * 2 ^ 8 + (mem (p + 2)).toNat * 2 ^ 16
        + (mem (p + 3)).toNat * 2 ^ 24 := by
  have h0 := (mem p).toNat_lt
  have h1 := (mem (p + 1)).toNat_lt
  have h2 := (mem (p + 2)).toNat_lt
  have h3 := (mem (p + 3)).toNat_lt
  simp only [load32, UInt32.toNat_or, UInt8.toNat_toUInt32, UInt32.toNat_shiftLeft,
    UInt32.reduceToNat, Nat.reduceMod]
  rw [shiftLeft_byte_mod h1 (k := 8) (by omega), shiftLeft_byte_mod h2 (k := 16) (by omega),
    shiftLeft_byte_mod h3 (k := 24) (by omega), or_bytes_eq_sum h0 h1 h2]

/-- A signed number is converted to a word by its residue. -/
theorem toNat_ofInt (n : Int) : (UInt32.ofInt n).toNat = (n % 2 ^ 32).toNat := by
  rw [UInt32.ofInt, UInt32.toNat_ofNat']
  omega

/-- A word that was just stored is loaded back. -/
theorem load16_overlay (mem : Int → UInt8) (p : Int) (v : UInt16)
    : load16 (overlay mem p (bytes16 v)) p = v := by
  apply UInt16.toNat_inj.mp
  have bound := v.toNat_lt
  have first : overlay mem p (bytes16 v) p = v.toUInt8 := by simp [overlay, bytes16]
  have second : overlay mem p (bytes16 v) (p + 1) = (v >>> 8).toUInt8 := by
    simp [overlay, bytes16]
  rw [load16_toNat, first, second]
  simp only [UInt16.toNat_toUInt8, UInt16.toNat_shiftRight, Nat.shiftRight_eq_div_pow,
    UInt16.reduceToNat, Nat.reduceMod, Nat.reducePow]
  omega

theorem load32_overlay (mem : Int → UInt8) (p : Int) (v : UInt32)
    : load32 (overlay mem p (bytes32 v)) p = v := by
  apply UInt32.toNat_inj.mp
  have bound := v.toNat_lt
  have first : overlay mem p (bytes32 v) p = v.toUInt8 := by simp [overlay, bytes32]
  have second : overlay mem p (bytes32 v) (p + 1) = (v >>> 8).toUInt8 := by
    simp [overlay, bytes32]
  have third : overlay mem p (bytes32 v) (p + 2) = (v >>> 16).toUInt8 := by
    simp [overlay, bytes32]
  have fourth : overlay mem p (bytes32 v) (p + 3) = (v >>> 24).toUInt8 := by
    simp [overlay, bytes32]
  rw [load32_toNat, first, second, third, fourth]
  simp only [UInt32.toNat_toUInt8, UInt32.toNat_shiftRight, Nat.shiftRight_eq_div_pow,
    UInt32.reduceToNat, Nat.reduceMod, Nat.reducePow]
  omega

/-- Words at the same place of two ranges with the same contents are equal. -/
theorem load16_of_slice_eq (same : slice mem p count = slice other q count) (i : Nat)
    (inside : i + 2 ≤ count)
    : load16 mem (p + i) = load16 other (q + i) := by
  have first := eq_of_slice_eq same (i := i) (by omega)
  have second := eq_of_slice_eq same (i := i + 1) (by omega)
  push_cast [← add_assoc] at second
  rw [load16, load16, first, second]

theorem load32_of_slice_eq (same : slice mem p count = slice other q count) (i : Nat)
    (inside : i + 4 ≤ count)
    : load32 mem (p + i) = load32 other (q + i) := by
  have first := eq_of_slice_eq same (i := i) (by omega)
  have second := eq_of_slice_eq same (i := i + 1) (by omega)
  have third := eq_of_slice_eq same (i := i + 2) (by omega)
  have fourth := eq_of_slice_eq same (i := i + 3) (by omega)
  push_cast [← add_assoc] at second third fourth
  rw [load32, load32, first, second, third, fourth]

/-- A range that holds the bytes of a word holds the word. -/
theorem load16_of_slice {v : UInt16} (stored : slice mem p 2 = bytes16 v)
    : load16 mem p = v := by
  have same : slice mem p 2 = slice (overlay mem p (bytes16 v)) p 2 := by
    rw [stored]
    exact (slice_overlay mem p (bytes16 v)).symm
  have word := load16_of_slice_eq same 0 (by omega)
  rwa [Nat.cast_zero, add_zero, load16_overlay] at word

theorem load16_of_cells {v : UInt16} (stored : slice mem p cells.length = cells)
    (field : (cells.drop i).take 2 = bytes16 v)
    : load16 mem (p + i) = v := by
  have two := congrArg List.length field
  simp only [List.length_take, List.length_drop, length_bytes16] at two
  obtain ⟨n, split⟩ : ∃ n, cells.length = i + n := ⟨cells.length - i, by omega⟩
  apply load16_of_slice
  rw [← field, ← stored, split, drop_slice, take_slice, Nat.min_eq_left (by omega)]

theorem load32_of_slice {v : UInt32} (stored : slice mem p 4 = bytes32 v)
    : load32 mem p = v := by
  have same : slice mem p 4 = slice (overlay mem p (bytes32 v)) p 4 := by
    rw [stored]
    exact (slice_overlay mem p (bytes32 v)).symm
  have word := load32_of_slice_eq same 0 (by omega)
  rwa [Nat.cast_zero, add_zero, load32_overlay] at word

theorem load32_of_cells {v : UInt32} (stored : slice mem p cells.length = cells)
    (field : (cells.drop i).take 4 = bytes32 v)
    : load32 mem (p + i) = v := by
  have four := congrArg List.length field
  simp only [List.length_take, List.length_drop, length_bytes32] at four
  obtain ⟨n, split⟩ : ∃ n, cells.length = i + n := ⟨cells.length - i, by omega⟩
  apply load32_of_slice
  rw [← field, ← stored, split, drop_slice, take_slice, Nat.min_eq_left (by omega)]

theorem load16_congr (agree : ∀ i, p ≤ i → i < p + 2 → mem i = other i)
    : load16 mem p = load16 other p := by
  simp only [load16, agree p (by omega) (by omega), agree (p + 1) (by omega) (by omega)]

theorem load32_congr (agree : ∀ i, p ≤ i → i < p + 4 → mem i = other i)
    : load32 mem p = load32 other p := by
  simp only [load32, agree p (by omega) (by omega), agree (p + 1) (by omega) (by omega),
    agree (p + 2) (by omega) (by omega), agree (p + 3) (by omega) (by omega)]

/-- A store does not change a word that lies outside it. -/
theorem load16_overlay_disjoint (mem : Int → UInt8)
    (apart : p + 2 ≤ start ∨ start + cells.length ≤ p)
    : load16 (overlay mem start cells) p = load16 mem p := by
  apply load16_congr
  intro i low high
  rcases apart with before | beyond
  · exact overlay_before mem cells (by omega)
  · exact overlay_beyond mem (by omega)

theorem load32_overlay_disjoint (mem : Int → UInt8)
    (apart : p + 4 ≤ start ∨ start + cells.length ≤ p)
    : load32 (overlay mem start cells) p = load32 mem p := by
  apply load32_congr
  intro i low high
  rcases apart with before | beyond
  · exact overlay_before mem cells (by omega)
  · exact overlay_beyond mem (by omega)

/-- Masking the low bits out rounds down. -/
theorem and_high_mask {w k x : Nat} (inside : k ≤ w) (small : x < 2 ^ w)
    : x &&& (2 ^ w - 2 ^ k) = x / 2 ^ k * 2 ^ k := by
  have mask : 2 ^ w - 2 ^ k = 2 ^ w - ((2 ^ k - 1) + 1) := by
    rw [Nat.sub_add_cancel (Nat.two_pow_pos k)]
  have low : 2 ^ k - 1 < 2 ^ w := by
    have := Nat.pow_le_pow_right (n := 2) (by decide) inside
    have := Nat.two_pow_pos k
    omega
  rw [← Nat.shiftRight_eq_div_pow, ← Nat.shiftLeft_eq, mask]
  apply Nat.eq_of_testBit_eq
  intro i
  rw [Nat.testBit_and, Nat.testBit_two_pow_sub_succ low, Nat.testBit_two_pow_sub_one,
    Nat.testBit_shiftLeft, Nat.testBit_shiftRight]
  by_cases before : i < k
  · simp [before]
  · have same : k + (i - k) = i := by omega
    by_cases wide : i < w
    · simp [before, wide, same, Nat.not_lt.mp before]
    · have zero : x.testBit i = false :=
        Nat.testBit_lt_two_pow (lt_of_lt_of_le small (Nat.pow_le_pow_right (by decide) (by omega)))
      simp [before, same, zero]

end Library.Memory
