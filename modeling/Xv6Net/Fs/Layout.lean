import Xv6Net.Fs.Log
import Xv6Net.Library.Bitmap
import Mathlib.Data.Fintype.Basic
import Mathlib.Tactic.FinCases

/-! The disk format of the file system: the superblock, the inodes on disk, the bitmap, and the
block pointers of an inode.
-/

namespace Xv6Net

open Library Memory

abbrev rootDev : UInt32 := 1

abbrev rootIno : Nat := 1

/-- The fields of `struct superblock` that are used. Inode blocks stand before the bitmap, and that
before the data blocks.
-/
structure Superblock where
  size : Nat
  ninodes : Nat
  inodestart : Nat
  bmapstart : Nat
  inodesFit : inodestart + ninodes / 8 < bmapstart
  bitmapFits : bmapstart + size / 4096 < size
  sizeFits : size ≤ 2 ^ 31

namespace Superblock

/-- `IBLOCK`; eight inodes fit in a block. -/
def iblock (sb : Superblock) (inum : Nat) : Nat := inum / 8 + sb.inodestart

/-- `BBLOCK`; a block has 4096 bits. -/
def bblock (sb : Superblock) (b : Nat) : Nat := b / 4096 + sb.bmapstart

def dataStart (sb : Superblock) : Nat := sb.bmapstart + sb.size / 4096 + 1

theorem iblock_lt (sb : Superblock) {inum : Nat} (inside : inum < sb.ninodes)
    : sb.iblock inum < sb.bmapstart := by
  have fits := sb.inodesFit
  have least := Nat.div_le_div_right (c := 8) (Nat.le_of_lt inside)
  rw [iblock]
  omega

theorem bblock_lt (sb : Superblock) {b : Nat} (inside : b < sb.size)
    : sb.bmapstart ≤ sb.bblock b ∧ sb.bblock b < sb.dataStart := by
  have least := Nat.div_le_div_right (c := 4096) (Nat.le_of_lt inside)
  rw [bblock, dataStart]
  omega

end Superblock

/-- `struct dinode`; twelve direct blocks and the indirect block. -/
@[ext]
structure Dinode where
  type : UInt16
  major : UInt16
  minor : UInt16
  nlink : UInt16
  size : UInt32
  addrs : Fin 13 → UInt32

instance Dinode.neZeroAddrs : NeZero 13 := ⟨by decide⟩

theorem Dinode.direct_lt {k : Nat} (direct : k < 12) : k < 13 := Nat.lt_succ_of_lt direct

def Dinode.bytes (d : Dinode) : List UInt8 :=
  bytes16 d.type ++ bytes16 d.major ++ bytes16 d.minor ++ bytes16 d.nlink ++ bytes32 d.size
    ++ (List.finRange 13).flatMap fun i => bytes32 (d.addrs i)

def readDinode (data : Block) (off : Int) : Dinode :=
  { type := load16 data off
    major := load16 data (off + 2)
    minor := load16 data (off + 4)
    nlink := load16 data (off + 6)
    size := load32 data (off + 8)
    addrs := fun i => load32 data (off + 12 + 4 * i.val) }

/-- The inode with this number, as it is on disk. -/
def dinodeAt (sb : Superblock) (disk : Nat → Block) (inum : Nat) : Dinode :=
  readDinode (disk (sb.iblock inum)) (64 * (inum % 8 : Nat))

theorem dinodeAt_congr {sb : Superblock} {disk disk' : Nat → Block} {inum : Nat}
    (same : disk' (sb.iblock inum) = disk (sb.iblock inum))
    : dinodeAt sb disk' inum = dinodeAt sb disk inum := by
  rw [dinodeAt, dinodeAt, same]

@[simp]
theorem Dinode.length_bytes (d : Dinode) : d.bytes.length = 64 := by
  simp [bytes]

theorem Dinode.addrs_bytes (d : Dinode) (i : Fin 13)
    : (d.bytes.drop (12 + 4 * i.val)).take 4 = bytes32 (d.addrs i) := by
  fin_cases i <;> rfl

theorem readDinode_overlay (data : Block) (off : Int) (d : Dinode)
    : readDinode (overlay data off d.bytes) off = d := by
  have stored := slice_overlay data off d.bytes
  have type := load16_of_cells (i := 0) (v := d.type) stored rfl
  rw [Nat.cast_zero, Int.add_zero] at type
  apply Dinode.ext
  · exact type
  · exact load16_of_cells (i := 2) stored rfl
  · exact load16_of_cells (i := 4) stored rfl
  · exact load16_of_cells (i := 6) stored rfl
  · exact load32_of_cells (i := 8) stored rfl
  · funext i
    have addr := load32_of_cells stored (d.addrs_bytes i)
    rw [Nat.cast_add, Nat.cast_mul, ← Int.add_assoc] at addr
    exact addr

theorem readDinode_overlay_disjoint (data : Block) {off start : Int} {cells : List UInt8}
    (apart : off + 64 ≤ start ∨ start + cells.length ≤ off)
    : readDinode (overlay data start cells) off = readDinode data off := by
  rw [readDinode, readDinode]
  congr 1
  · exact load16_overlay_disjoint data (by omega)
  · exact load16_overlay_disjoint data (by omega)
  · exact load16_overlay_disjoint data (by omega)
  · exact load16_overlay_disjoint data (by omega)
  · exact load32_overlay_disjoint data (by omega)
  · funext i
    have last := i.isLt
    exact load32_overlay_disjoint data (by omega)

end Xv6Net
