import Xv6Net.Fs.Inodes
import Xv6Net.Library.Ownership
import Mathlib.Data.Finset.Card

/-! Which blocks belong to which inode: the pointers of an inode, the bitmap, and the invariant
that ties them together. The inodes are a parameter beside the disk, since the copy of an inode
in the cache is ahead of the disk while the inode is being changed.
-/

namespace Xv6Net

open Library Memory Function

/-- The number of blocks that the contents take up. -/
def Dinode.blocks (d : Dinode) : Nat := (d.size.toNat + 511) / 512

namespace Fs

/-- The pointers of an inode: twelve direct ones, the 128 of the indirect block, and the one to it.
-/
def pointer (disk : Nat → Block) (d : Dinode) (k : Nat) : Nat :=
  if direct : k < 12 then (d.addrs ⟨k, Dinode.direct_lt direct⟩).toNat
  else if k < 140 then
    if d.addrs 12 = 0 then 0
    else (load32 (disk (d.addrs 12).toNat) (4 * (k - 12 : Nat))).toNat
  else (d.addrs 12).toNat

/-- The pointers that an inode with `len` blocks has set. -/
def holds (len k : Nat) : Prop := k < len ∨ k = 140 ∧ 12 < len

def marked (sb : Superblock) (disk : Nat → Block) (b : Nat) : Bool :=
  Bitmap.get (disk (sb.bblock b)) (b % 4096)

def freeCount (sb : Superblock) (disk : Nat → Block) : Nat :=
  ((Finset.range sb.size).filter fun b => marked sb disk b = false).card

/-- The disk after `balloc` has handed out the block. -/
def allocate (sb : Superblock) (disk : Nat → Block) (b : Nat) : Nat → Block :=
  let marking := update disk (sb.bblock b)
    (Bitmap.set (disk (sb.bblock b)) (b % 4096))
  update marking b (zeroed (marking b))

/-- The disk after `bfree` of the block. -/
def release (sb : Superblock) (disk : Nat → Block) (b : Nat) : Nat → Block :=
  update disk (sb.bblock b) (Bitmap.clear (disk (sb.bblock b)) (b % 4096))

variable {k b : Nat} {d : Dinode} {disk disk' : Nat → Block} {sb : Superblock}

theorem pointer_direct (disk : Nat → Block) (d : Dinode) (direct : k < 12)
    : pointer disk d k = (d.addrs ⟨k, Dinode.direct_lt direct⟩).toNat := by
  rw [pointer, dif_pos direct]

theorem pointer_indirect (disk : Nat → Block) (d : Dinode)
    : pointer disk d 140 = (d.addrs 12).toNat := by
  rw [pointer, dif_neg (by omega), if_neg (by omega)]

theorem toNat_ne_zero {x : UInt32} : x.toNat ≠ 0 ↔ x ≠ 0 :=
  not_congr ⟨fun zero => UInt32.toNat_inj.mp zero, fun zero => by rw [zero]; rfl⟩

theorem pointer_indirect_ne (disk : Nat → Block) (d : Dinode)
    : pointer disk d 140 ≠ 0 ↔ d.addrs 12 ≠ 0 := by
  rw [pointer_indirect, toNat_ne_zero]

theorem pointer_entry (disk : Nat → Block) (low : 12 ≤ k)
    (high : k < 140) (present : d.addrs 12 ≠ 0)
    : pointer disk d k
      = (load32 (disk (d.addrs 12).toNat) (4 * (k - 12 : Nat))).toNat := by
  rw [pointer, dif_neg (by omega), if_pos high, if_neg present]

/-- The pointers are in the inode and in its indirect block. -/
theorem pointer_congr
    (same : d.addrs 12 ≠ 0 → disk' (d.addrs 12).toNat = disk (d.addrs 12).toNat) (k : Nat)
    : pointer disk' d k = pointer disk d k := by
  rw [pointer, pointer]
  by_cases absent : d.addrs 12 = 0
  · simp only [if_pos absent]
  · rw [same absent]

theorem marked_congr (same : disk' (sb.bblock b) = disk (sb.bblock b))
    : marked sb disk' b = marked sb disk b := by
  rw [marked, marked, same]

theorem eq_of_bblock_eq {c : Nat} (block : sb.bblock c = sb.bblock b) (place : c % 4096 = b % 4096)
    : c = b := by
  rw [Superblock.bblock, Superblock.bblock] at block
  omega

section

variable {sb : Superblock} {disk : Nat → Block} {b c : Nat}

theorem allocate_self : ∃ data, allocate sb disk b b = zeroed data :=
  ⟨_, update_self ..⟩

theorem allocate_of_ne (other : c ≠ b) (bitmap : c ≠ sb.bblock b)
    : allocate sb disk b c = disk c := by
  rw [allocate, update_of_ne other, update_of_ne bitmap]

/-- `balloc` sets one bit. -/
theorem marked_allocate (data : sb.dataStart ≤ b) (inside : c < sb.size)
    : marked sb (allocate sb disk b) c = (decide (c = b) || marked sb disk c) := by
  have low := (sb.bblock_lt inside).2
  rw [marked, allocate, update_of_ne (by omega), marked]
  by_cases block : sb.bblock c = sb.bblock b
  · rw [block, update_self, Bitmap.get_set]
    congr 1
    rw [decide_eq_decide]
    exact ⟨fun place => eq_of_bblock_eq block place, fun same => by rw [same]⟩
  · rw [update_of_ne block]
    have other : c ≠ b := fun same => block (by rw [same])
    simp [other]

theorem release_of_ne (bitmap : c ≠ sb.bblock b) : release sb disk b c = disk c := by
  rw [release, update_of_ne bitmap]

/-- `bfree` clears one bit. -/
theorem marked_release : marked sb (release sb disk b) c
    = (decide (c ≠ b) && marked sb disk c) := by
  rw [marked, release, marked]
  by_cases block : sb.bblock c = sb.bblock b
  · rw [block, update_self, Bitmap.get_clear]
    congr 1
    rw [decide_eq_decide]
    exact not_congr ⟨fun place => eq_of_bblock_eq block place, fun same => by rw [same]⟩
  · rw [update_of_ne block]
    have other : c ≠ b := fun same => block (by rw [same])
    simp [other]

variable {disk' : Nat → Block}

theorem freeCount_congr (same : ∀ c < sb.size, marked sb disk' c = marked sb disk c)
    : freeCount sb disk' = freeCount sb disk := by
  rw [freeCount, freeCount]
  congr 1
  refine Finset.filter_congr fun c member => ?_
  rw [same c (Finset.mem_range.mp member)]

/-- A block that gets marked is one free block less. -/
theorem freeCount_mark (inside : b < sb.size) (free : marked sb disk b = false)
    (marks : ∀ c < sb.size, marked sb disk' c = (decide (c = b) || marked sb disk c))
    : freeCount sb disk' + 1 = freeCount sb disk := by
  have member : b ∈ (Finset.range sb.size).filter fun c => marked sb disk c = false :=
    Finset.mem_filter.mpr ⟨Finset.mem_range.mpr inside, free⟩
  have rest : (Finset.range sb.size).filter (fun c => marked sb disk' c = false)
      = ((Finset.range sb.size).filter fun c => marked sb disk c = false).erase b := by
    ext c
    rw [Finset.mem_erase, Finset.mem_filter, Finset.mem_filter, Finset.mem_range]
    constructor
    · rintro ⟨low, unmarked⟩
      rw [marks c low] at unmarked
      simp only [Bool.or_eq_false_iff, decide_eq_false_iff_not] at unmarked
      exact ⟨unmarked.1, low, unmarked.2⟩
    · rintro ⟨other, low, unmarked⟩
      rw [marks c low, unmarked]
      simp [other, low]
  rw [freeCount, freeCount, rest, Finset.card_erase_of_mem member]
  have positive : 0 < ((Finset.range sb.size).filter fun c => marked sb disk c = false).card :=
    Finset.card_pos.mpr ⟨b, member⟩
  omega

end

theorem zeroed_load32 (data : Block) {i : Nat} (inside : i < 128)
    : load32 (zeroed data) (4 * i) = 0 := by
  have all := slice_overlay data 0 (List.replicate 512 0)
  have entry : ((List.replicate 512 (0 : UInt8)).drop (4 * i)).take 4 = bytes32 0 := by
    rw [List.drop_replicate, List.take_replicate, Nat.min_eq_left (by omega)]
    rfl
  have read := load32_of_cells all entry
  rw [Int.zero_add, Nat.cast_mul] at read
  exact read

/-- The blocks of the live pointers are different data blocks, and these are the data blocks that
the bitmap marks. A pointer `(i, k)` is pointer `k` of inode `i`.
-/
structure Mapped (sb : Superblock) (disk : Nat → Block) (inodes : Nat → Dinode)
    (live : Nat × Nat → Prop)
    : Prop where
  owns
    : Owns live (fun key => pointer disk (inodes key.1) key.2)
        (fun b => sb.dataStart ≤ b ∧ b < sb.size ∧ marked sb disk b = true)
  reserved : ∀ b < sb.dataStart, marked sb disk b = true
  bounded : ∀ key, live key → key.2 ≤ 140
  /-- The pointers in an indirect block are live only as long as the block is. -/
  closed : ∀ i k, live (i, k) → 12 ≤ k → live (i, 140)

namespace Mapped

variable {sb : Superblock} {disk disk' : Nat → Block} {inodes inodes' : Nat → Dinode}
  {live live' : Nat × Nat → Prop}

section

variable (h : Mapped sb disk inodes live)
include h

variable {i k b : Nat}

theorem data_of_live (held : live (i, k))
    : sb.dataStart ≤ pointer disk (inodes i) k ∧ pointer disk (inodes i) k < sb.size :=
  ⟨(h.owns.used_of_live held).1, (h.owns.used_of_live held).2.1⟩

/-- The blocks before the data are always marked. -/
theorem data_of_unmarked (free : marked sb disk b = false)
    : sb.dataStart ≤ b := by
  by_contra low
  rw [h.reserved b (by omega)] at free
  cases free

/-- A live pointer stays what it is where the indirect blocks in use stay what they are. -/
theorem pointer_eq (same : ∀ i, live (i, 140)
      → disk' (pointer disk (inodes i) 140) = disk (pointer disk (inodes i) 140))
    (held : live (i, k))
    : pointer disk' (inodes i) k = pointer disk (inodes i) k := by
  by_cases direct : k < 12
  · rw [pointer_direct _ _ direct, pointer_direct _ _ direct]
  · refine pointer_congr (fun _ => ?_) k
    rw [← pointer_indirect disk]
    exact same i (h.closed i k held (by omega))

theorem congr (lives : ∀ key, live' key ↔ live key)
    (same : ∀ i k, live (i, k) → pointer disk' (inodes' i) k = pointer disk (inodes i) k)
    (marks : ∀ b < sb.size, marked sb disk' b = marked sb disk b)
    : Mapped sb disk' inodes' live' := by
  refine ⟨h.owns.congr lives (fun key held => same key.1 key.2 held) ?_, ?_, ?_, ?_⟩
  · intro b
    constructor
    · rintro ⟨low, high, mark⟩
      exact ⟨low, high, marks b high ▸ mark⟩
    · rintro ⟨low, high, mark⟩
      exact ⟨low, high, (marks b high).trans mark⟩
  · intro b low
    have fits := sb.bitmapFits
    rw [marks b (by rw [Superblock.dataStart] at low; omega)]
    exact h.reserved b low
  · intro key held
    exact h.bounded key ((lives key).mp held)
  · intro i k held indirect
    exact (lives _).mpr (h.closed i k ((lives _).mp held) indirect)

/-- A free block is put in a place that had none. -/
theorem assign (inside : b < sb.size) (free : marked sb disk b = false)
    (small : k ≤ 140) (covered : 12 ≤ k → k < 140 → live (i, 140))
    (lives : ∀ key, live' key ↔ key = (i, k) ∨ live key) (there : pointer disk' (inodes' i) k = b)
    (same : ∀ j l, live (j, l) → pointer disk' (inodes' j) l = pointer disk (inodes j) l)
    (marks : ∀ c < sb.size, marked sb disk' c = (decide (c = b) || marked sb disk c))
    : Mapped sb disk' inodes' live' := by
  have data := h.data_of_unmarked free
  refine ⟨h.owns.take ?_ lives there
    (fun key held => same key.1 key.2 held) ?_, ?_, ?_, ?_⟩
  · rintro ⟨-, -, mark⟩
    rw [free] at mark
    cases mark
  · intro c
    constructor
    · rintro ⟨low, high, mark⟩
      rw [marks c high] at mark
      simp only [Bool.or_eq_true, decide_eq_true_eq] at mark
      exact mark.imp id fun mark => ⟨low, high, mark⟩
    · rintro (rfl | ⟨low, high, mark⟩)
      · exact ⟨data, inside, by simp [marks c inside]⟩
      · exact ⟨low, high, by simp [marks c high, mark]⟩
  · intro c low
    have fits := sb.bitmapFits
    rw [marks c (by rw [Superblock.dataStart] at low; omega), h.reserved c low, Bool.or_true]
  · intro key held
    rcases (lives key).mp held with rfl | held
    · exact small
    · exact h.bounded key held
  · intro j l held indirect
    rcases (lives _).mp held with same | held
    · obtain ⟨rfl, rfl⟩ := Prod.mk.inj same
      rcases Nat.lt_or_ge l 140 with entry | last
      · exact (lives _).mpr (Or.inr (covered indirect entry))
      · have whole : l = 140 := by omega
        exact (lives _).mpr (Or.inl (by rw [whole]))
    · exact (lives _).mpr (Or.inr (h.closed j l held indirect))

/-- A pointer gives its block back; that of an indirect block only as the last one. -/
theorem unassign (held : live (i, k)) (last : k = 140 → ∀ l, live (i, l) → 12 ≤ l → l = 140)
    (lives : ∀ key, live' key ↔ key ≠ (i, k) ∧ live key)
    (same : ∀ j l, (j, l) ≠ (i, k) → live (j, l)
      → pointer disk' (inodes' j) l = pointer disk (inodes j) l)
    (marks : ∀ c < sb.size, marked sb disk' c
      = (decide (c ≠ pointer disk (inodes i) k) && marked sb disk c))
    : Mapped sb disk' inodes' live' := by
  have data := h.data_of_live held
  refine ⟨h.owns.drop held lives
    (fun key other held => same key.1 key.2 other held) ?_, ?_, ?_, ?_⟩
  · intro c
    constructor
    · rintro ⟨low, high, mark⟩
      rw [marks c high] at mark
      simp only [Bool.and_eq_true, decide_eq_true_eq] at mark
      exact ⟨mark.1, low, high, mark.2⟩
    · rintro ⟨other, low, high, mark⟩
      exact ⟨low, high, by simp [marks c high, mark, other]⟩
  · intro c low
    have fits := sb.bitmapFits
    rw [marks c (by rw [Superblock.dataStart] at low; omega), h.reserved c low, Bool.and_true,
      decide_eq_true_eq]
    omega
  · intro key held
    exact h.bounded key ((lives key).mp held).2
  · intro j l held' indirect
    obtain ⟨other, held'⟩ := (lives _).mp held'
    refine (lives _).mpr ⟨?_, h.closed j l held' indirect⟩
    intro same
    obtain ⟨rfl, rfl⟩ := Prod.mk.inj same
    exact other (by rw [last rfl l held' indirect])

end

end Mapped

end Fs

end Xv6Net
