import Xv6Net.Fs.Directories
import Xv6Net.Fs.InodeCache
import Mathlib.Order.Interval.Finset.Nat

/-! `mkfs.c`: the image of a file system is built from a list of files. An assertion that fails, and
a sector that cannot be read, end the program. Counters are unbounded here: a block or an inode
that does not fit is refused long before they could wrap.
-/

namespace Xv6Net

open Library Memory Function

/-- The layout for `FSSIZE` = 1000 blocks and `NINODES` = 200 inodes, with a log of 30 blocks. -/
def mkfsSb : Superblock :=
  { size := 1000, ninodes := 200, inodestart := 32, bmapstart := 58
    inodesFit := by decide, bitmapFits := by decide, sizeFits := by decide }

/-- `xshort` and `xint` on a host with the byte order of the disk. -/
def xshort (x : UInt16) : UInt16 := load16 (overlay (fun _ => 0) 0 (bytes16 x)) 0

def xint (x : UInt32) : UInt32 := load32 (overlay (fun _ => 0) 0 (bytes32 x)) 0

/-- The struct `sb`: `size`, `nblocks`, `ninodes`, `nlog`, `logstart`, `inodestart` and
`bmapstart`.
-/
def superblockBytes : List UInt8 :=
  [1000, 941, 200, 30, 2, 32, 58].flatMap fun x => bytes32 (xint x)

/-- The sectors of the image, and the first free inode and block. -/
structure Mkfs where
  disk : Nat → Block
  freeinode : Nat
  freeblock : Nat

/-- An argument of `mkfs`: the name, and what `read` returns for the file, call by call. -/
structure InputFile where
  name : List UInt8
  reads : List (List UInt8)

/-- The contents end where `read` returns nothing. -/
def InputFile.bytes (file : InputFile) : List UInt8 := (file.reads.takeWhile (· ≠ [])).flatten

/-- The name without a leading `_`. -/
def InputFile.strippedName (file : InputFile) : List UInt8 :=
  if file.name.head? = some 95 then file.name.tail else file.name

namespace Mkfs

/-- The image has `FSSIZE` sectors. -/
def rsect (s : Mkfs) (sec : Nat) : Option Block := if sec < 1000 then some (s.disk sec) else none

def wsect (s : Mkfs) (sec : Nat) (buf : Block) : Mkfs :=
  { s with disk := update s.disk sec buf }

def winode (s : Mkfs) (inum : Nat) (din : Dinode) : Option Mkfs := do
  let bn := mkfsSb.iblock inum
  let buf ← s.rsect bn
  return s.wsect bn (overlay buf (64 * (inum % 8 : Nat)) din.bytes)

def rinode (s : Mkfs) (inum : Nat) : Option Dinode := do
  let buf ← s.rsect (mkfsSb.iblock inum)
  return readDinode buf (64 * (inum % 8 : Nat))

def ialloc (s : Mkfs) (type : UInt16) : Option (Mkfs × Nat) := do
  let inum := s.freeinode
  let din : Dinode :=
    { type := xshort type, major := 0, minor := 0, nlink := xshort 1, size := xint 0
      addrs := fun _ => 0 }
  let s ← winode { s with freeinode := s.freeinode + 1 } inum din
  return (s, inum)

/-- `if(xint(din.addrs[i]) == 0) din.addrs[i] = xint(freeblock++)`. -/
def addrOrNext (s : Mkfs) (din : Dinode) (i : Fin 13) : Mkfs × Dinode :=
  if xint (din.addrs i) = 0 then
    ({ s with freeblock := s.freeblock + 1 },
      { din with addrs := update din.addrs i (xint (UInt32.ofNat s.freeblock)) })
  else
    (s, din)

/-- The part of the loop of `iappend` that finds the sector of block `fbn`. -/
def sectorOf (s : Mkfs) (din : Dinode) (fbn : Nat) : Option (Mkfs × Dinode × UInt32) :=
  if direct : fbn < 12 then
    let (s, din) := s.addrOrNext din ⟨fbn, Dinode.direct_lt direct⟩
    some (s, din, xint (din.addrs ⟨fbn, Dinode.direct_lt direct⟩))
  else do
    let (s, din) := s.addrOrNext din 12
    let indirect ← s.rsect (xint (din.addrs 12)).toNat
    if load32 indirect (4 * (fbn - 12 : Nat)) = 0 then
      let entry := xint (UInt32.ofNat s.freeblock)
      let s := { s with freeblock := s.freeblock + 1 }
      let indirect := overlay indirect (4 * (fbn - 12 : Nat)) (bytes32 entry)
      return (s.wsect (xint (din.addrs 12)).toNat indirect, din,
        xint (load32 indirect (4 * (fbn - 12 : Nat))))
    else
      return (s, din, xint (load32 indirect (4 * (fbn - 12 : Nat))))

/-- The loop of `iappend` with the bytes `p` that are left. -/
def iappendLoop (s : Mkfs) (din : Dinode) (off : Nat) (p : List UInt8)
    : Option (Mkfs × Dinode × Nat) :=
  if _done : p = [] then
    some (s, din, off)
  else do
    let fbn := off / 512
    if fbn < 140 then
      let (s, din, x) ← s.sectorOf din fbn
      let n1 := min p.length ((fbn + 1) * 512 - off)
      let buf ← s.rsect x.toNat
      let s := s.wsect x.toNat (overlay buf (off - fbn * 512 : Nat) (p.take n1))
      iappendLoop s din (off + n1) (p.drop n1)
    else none
termination_by p.length
decreasing_by
  have some_ := List.length_pos_iff.mpr _done
  rw [List.length_drop]
  omega

def iappend (s : Mkfs) (inum : Nat) (p : List UInt8) : Option Mkfs := do
  let din ← s.rinode inum
  let (s, din, off) ← s.iappendLoop din (xint din.size).toNat p
  s.winode inum { din with size := xint (UInt32.ofNat off) }

/-- The buffer of `balloc`. -/
def bitmapOf (used : Nat) : Block := (List.range used).foldl Bitmap.set fun _ => 0

def balloc (s : Mkfs) (used : Nat) : Option Mkfs :=
  if used < 4096 then some (s.wsect mkfsSb.bmapstart (bitmapOf used)) else none

/-- A cleared `struct dirent` that gets this name; `strcpy` of `.` and `..` stores what `strncpy`
does.
-/
def dirent (inum : Nat) (name : List UInt8) : List UInt8 :=
  Fs.Dirent.bytes { inum := xshort (UInt16.ofNat inum), name := strncpy (cstring name) dirSiz }

def appendReads (s : Mkfs) (inum : Nat) : List (List UInt8) → Option Mkfs
  | [] => some s
  | buf :: rest =>
    if buf = [] then some s
    else do
      let s ← s.iappend inum buf
      s.appendReads inum rest

def addFile (rootino : Nat) (s : Mkfs) (file : InputFile) : Option Mkfs :=
  if Fs.slash ∈ file.name then none
  else do
    let (s, inum) ← s.ialloc tFile
    let s ← s.iappend rootino (dirent inum file.strippedName)
    s.appendReads inum file.reads

/-- The image with a superblock and nothing else. -/
def start : Mkfs :=
  let s : Mkfs := { disk := fun _ _ => 0, freeinode := 1, freeblock := mkfsSb.dataStart }
  s.wsect 1 (overlay (fun _ => 0) 0 superblockBytes)

/-- The size that the root directory gets at the end. -/
def rootSize (off : Nat) : Nat := (off / 512 + 1) * 512

/-- `main`, with the image and `freeblock` at the end. -/
def mkfs (files : List InputFile) : Option Mkfs := do
  let (s, rootino) ← start.ialloc tDir
  if rootino = rootIno then
    let s ← s.iappend rootino (dirent rootino [46])
    let s ← s.iappend rootino (dirent rootino [46, 46])
    let s ← files.foldlM (addFile rootino) s
    let din ← s.rinode rootino
    let s ← s.winode rootino
      { din with size := xint (UInt32.ofNat (rootSize (xint din.size).toNat)) }
    s.balloc s.freeblock
  else none

end Mkfs

@[simp]
theorem xshort_eq (x : UInt16) : xshort x = x := load16_overlay ..

@[simp]
theorem xint_eq (x : UInt32) : xint x = x := load32_overlay ..

namespace Mkfs

open Fs

theorem bitmapOf_succ (used : Nat) : bitmapOf (used + 1) = Bitmap.set (bitmapOf used) used := by
  rw [bitmapOf, List.range_succ, List.foldl_append]
  rfl

/-- `balloc` of `mkfs` marks the blocks below `freeblock`. -/
theorem get_bitmapOf (used b : Nat) : Bitmap.get (bitmapOf used) b = decide (b < used) := by
  induction used with
  | zero => simp [bitmapOf, Bitmap.get]
  | succ used ih =>
    rw [bitmapOf_succ, Bitmap.get_set, ih, ← Bool.decide_or, decide_eq_decide]
    omega

/-- The image as it would be if the bitmap were written now. -/
def image (s : Mkfs) : Nat → Block :=
  update s.disk mkfsSb.bmapstart (bitmapOf s.freeblock)

variable {s s' : Mkfs} {inum : Nat} {din : Dinode}

theorem marked_image {b : Nat} (inside : b < 4096)
    : marked mkfsSb s.image b = decide (b < s.freeblock) := by
  have block : mkfsSb.bblock b = mkfsSb.bmapstart := by
    rw [Superblock.bblock, Nat.div_eq_of_lt inside, Nat.zero_add]
  rw [marked, block, image, update_self, Nat.mod_eq_of_lt inside, get_bitmapOf]

/-- The free blocks of the image are the others. -/
theorem freeCount_image : freeCount mkfsSb s.image = 1000 - s.freeblock := by
  have free : (Finset.range mkfsSb.size).filter (fun b => marked mkfsSb s.image b = false)
      = Finset.Ico s.freeblock 1000 := by
    ext b
    rw [Finset.mem_filter, Finset.mem_range, Finset.mem_Ico]
    constructor
    · rintro ⟨inside, unmarked⟩
      have inside' : b < 1000 := inside
      rw [marked_image (by omega), decide_eq_false_iff_not] at unmarked
      omega
    · rintro ⟨low, high⟩
      refine ⟨high, ?_⟩
      rw [marked_image (by omega), decide_eq_false_iff_not]
      omega
  rw [freeCount, free, Nat.card_Ico]

theorem image_of_ne {b : Nat} (other : b ≠ mkfsSb.bmapstart) : s.image b = s.disk b :=
  update_of_ne other ..

theorem image_wsect {b : Nat} (other : b ≠ mkfsSb.bmapstart) (buf : Block)
    : (s.wsect b buf).image = update s.image b buf := by
  rw [image, image, wsect]
  exact update_comm other ..

/-- The blocks from `freeblock` on are there and clear. -/
structure Fresh (s : Mkfs) : Prop where
  low : mkfsSb.dataStart ≤ s.freeblock
  high : s.freeblock ≤ 1000
  clear : ∀ b, s.freeblock ≤ b → s.disk b = fun _ => 0

theorem zeroed_zero : zeroed (fun _ => 0) = fun _ => 0 := by
  funext i
  by_cases inside : 0 ≤ i ∧ (i - 0).toNat < (List.replicate 512 (0 : UInt8)).length
  · rw [zeroed, overlay_within _ inside.1 inside.2, List.getElem_replicate]
  · rw [List.length_replicate] at inside
    rcases Int.lt_or_le i 0 with before | from_
    · exact overlay_before _ _ before
    · refine overlay_beyond _ ?_
      rw [List.length_replicate]
      omega

/-- Taking the next block is an allocation in the image. -/
theorem Fresh.image_next (fresh : s.Fresh) (room : s.freeblock < 1000)
    : image { s with freeblock := s.freeblock + 1 } = allocate mkfsSb s.image s.freeblock := by
  have low := fresh.low
  have block : mkfsSb.bblock s.freeblock = mkfsSb.bmapstart := by
    rw [Superblock.bblock, Nat.div_eq_of_lt (by omega), Nat.zero_add]
  have other : s.freeblock ≠ mkfsSb.bmapstart := by
    rw [Superblock.dataStart] at low
    omega
  rw [allocate, block, Nat.mod_eq_of_lt (by omega)]
  simp only [image]
  rw [update_self, update_idem, update_of_ne other,
    fresh.clear _ le_rfl, zeroed_zero, bitmapOf_succ]
  symm
  rw [update_eq_self_iff, update_of_ne other, fresh.clear _ le_rfl]

theorem Fresh.next (fresh : s.Fresh) (room : s.freeblock < 1000)
    : Fresh { s with freeblock := s.freeblock + 1 } :=
  ⟨Nat.le_succ_of_le fresh.low, room, fun b beyond => fresh.clear b (Nat.le_of_succ_le beyond)⟩

/-- A block that has been taken may be written. -/
theorem Fresh.wsect (fresh : s.Fresh) {b : Nat} (below : b < s.freeblock) (buf : Block)
    : Fresh (s.wsect b buf) :=
  ⟨fresh.low, fresh.high, fun c beyond =>
    (update_of_ne (by have : s.freeblock ≤ c := beyond; omega) ..).trans
      (fresh.clear c beyond)⟩

/-- The kernel that works on an inode as `iappend` does: the disk is the image, and the first slot
has the inode.
-/
def scratch (s : Mkfs) (inum : Nat) (din : Dinode) : FsState :=
  { disk := s.image
    icache := fun ip =>
      { dev := rootDev, inum, ref := if ip = 0 then 1 else 0, locked := true, valid := true
        copy := if ip = 0 then din else freshDinode 0 } }

theorem scratch_wsect {b : Nat} (other : b ≠ mkfsSb.bmapstart) (buf : Block)
    : (s.wsect b buf).scratch inum din
      = { s.scratch inum din with disk := update s.image b buf } := by
  rw [scratch, image_wsect other]
  rfl

theorem scratch_withSlot (change : Dinode → Dinode)
    : withSlot (s.scratch inum din) 0 (fun node => { node with copy := change node.copy })
      = s.scratch inum (change din) := by
  rw [withSlot, scratch, scratch]
  congr 1
  funext ip
  by_cases first_ : ip = 0
  · subst first_
    rfl
  · rw [update_of_ne first_]
    simp only [if_neg first_]

/-- The inode gets more pointers, as it would in the kernel. -/
structure Extends (inum : Nat) (held held' : Nat → Prop) (cost : Nat) (s : Mkfs) (din : Dinode)
    (s' : Mkfs) (din' : Dinode)
    : Prop where
  grown : Grown mkfsSb 0 held held' cost (s.scratch inum din) (s'.scratch inum din')
  fresh : s'.Fresh
  freeinode : s'.freeinode = s.freeinode

section

variable {held : Nat → Prop} {b k : Nat}

theorem toNat_freeblock (fresh : s.Fresh) : (UInt32.ofNat s.freeblock).toNat = s.freeblock := by
  have high := fresh.high
  exact UInt32.toNat_ofNat_of_lt' (by rw [UInt32.size]; omega)

/-- The next block is free in the bitmap to come. -/
theorem Fresh.unmarked (fresh : s.Fresh) (room : s.freeblock < 1000)
    : (UInt32.ofNat s.freeblock).toNat < mkfsSb.size
      ∧ marked mkfsSb s.image (UInt32.ofNat s.freeblock).toNat = false := by
  rw [toNat_freeblock fresh, marked_image (by omega)]
  exact ⟨room, by simp⟩

theorem addrOrNext_present {i : Fin 13} (present : din.addrs i ≠ 0)
    : s.addrOrNext din i = (s, din) := by
  rw [addrOrNext, xint_eq, if_neg present]

/-- An address that is not set gets the next block. -/
theorem addrOrNext_absent (w : Working mkfsSb (s.scratch inum din) 0 held)
    (shaped : Shaped s.image din held) (fresh : s.Fresh) {i : Fin 13}
    (absent : ¬ held (addrKey i)) (room : s.freeblock < 1000)
    : Extends inum held (fun j => j = addrKey i ∨ held j) 1 s din (s.addrOrNext din i).1
        (s.addrOrNext din i).2 := by
  have shaped' : Shaped (s.scratch inum din).disk ((s.scratch inum din).icache 0).copy held :=
    shaped
  have zero : din.addrs i = 0 := addr_zero shaped' absent
  have number := toNat_freeblock fresh
  obtain ⟨inside, free⟩ := fresh.unmarked room
  rw [addrOrNext, xint_eq, if_pos zero, xint_eq]
  refine ⟨?_, fresh.next room, rfl⟩
  have grown := Grown.addr w shaped' absent inside free
  rw [number] at grown
  have disk : ({ s.scratch inum din with disk := allocate mkfsSb s.image s.freeblock } : FsState)
      = scratch { s with freeblock := s.freeblock + 1 } inum din := by
    rw [← fresh.image_next room]
    rfl
  change Grown mkfsSb 0 held _ 1 (s.scratch inum din)
    (withSlot { s.scratch inum din with disk := allocate mkfsSb s.image s.freeblock } 0 _) at grown
  rw [disk] at grown
  rw [← scratch_withSlot fun d => { d with addrs := update d.addrs i _ }]
  exact grown

def Taken (s : Mkfs) (b : Nat) : Prop := mkfsSb.dataStart ≤ b ∧ b < 1000 ∧ b < s.freeblock

theorem Taken.ne (taken : s.Taken b) : b ≠ mkfsSb.bmapstart := by
  have low := taken.1
  rw [Superblock.dataStart] at low
  omega

theorem pointer_taken (w : Working mkfsSb (s.scratch inum din) 0 held) (has : held k)
    : s.Taken (pointer s.image din k) := by
  obtain ⟨low, high, mark⟩ := w.mapped.owns.used_of_live (workKeys_self.mpr has)
  simp only [view_self] at low high mark
  have high' : pointer s.image din k < 1000 := high
  change marked mkfsSb s.image (pointer s.image din k) = true at mark
  rw [marked_image (by omega), decide_eq_true_eq] at mark
  exact ⟨low, high', mark⟩

/-- A block that has been taken can be read back. -/
theorem rsect_taken (taken : s.Taken b) : s.rsect b = some (s.image b) := by
  rw [rsect, if_pos taken.2.1, image_of_ne taken.ne]

theorem sectorOf_present (w : Working mkfsSb (s.scratch inum din) 0 held)
    (shaped : Shaped s.image din held) (inside : k < 140) (present : pointer s.image din k ≠ 0)
    : ∃ x, s.sectorOf din k = some (s, din, x) ∧ x.toNat = pointer s.image din k := by
  by_cases direct : k < 12
  · rw [pointer_direct _ _ direct] at present ⊢
    refine ⟨_, ?_, rfl⟩
    rw [sectorOf, dif_pos direct, addrOrNext_present (toNat_ne_zero.mp present)]
    simp only [xint_eq]
  · have indirect : din.addrs 12 ≠ 0 := by
      intro zero
      rw [pointer, dif_neg direct, if_pos inside, if_pos zero] at present
      exact present rfl
    have taken := pointer_taken w (shaped.indirect.mp indirect)
    rw [pointer_indirect] at taken
    rw [pointer_entry _ (by omega) inside indirect] at present ⊢
    have entry := toNat_ne_zero.mp present
    refine ⟨_, ?_, rfl⟩
    rw [sectorOf, dif_neg direct, addrOrNext_present indirect]
    simp only [xint_eq, rsect_taken taken, Option.bind_eq_bind, Option.bind_some, if_neg entry]
    rfl

/-- The indirect block comes with the first block that it points to. -/
theorem indirect_extends (w : Working mkfsSb (s.scratch inum din) 0 (holds k))
    (shaped : Shaped s.image din (holds k)) (fresh : s.Fresh) (low : 12 ≤ k)
    (room : s.freeblock + bmapCost k ≤ 1000)
    : Extends inum (holds k) (fun j => j = 140 ∨ holds k j) (if k = 12 then 1 else 0) s din
        (s.addrOrNext din 12).1 (s.addrOrNext din 12).2 := by
  by_cases whole : k = 12
  · rw [if_pos whole]
    rw [bmapCost, if_pos whole] at room
    have absent : ¬ holds k (addrKey 12) := by
      rw [whole]
      simp [addrKey, holds]
    exact addrOrNext_absent w shaped fresh absent (by omega)
  · have indirect : holds k 140 := by
      rw [holds]
      omega
    rw [if_neg whole, addrOrNext_present (shaped.indirect.mpr indirect)]
    refine ⟨(Grown.refl w shaped).congr fun j => ?_, fresh, rfl⟩
    exact (or_iff_right_of_imp (· ▸ indirect)).symm

/-- The state after a new entry of the indirect block. -/
def withEntry (s : Mkfs) (din : Dinode) (k : Nat) : Mkfs :=
  wsect { s with freeblock := s.freeblock + 1 } (din.addrs 12).toNat
    (overlay (s.image (din.addrs 12).toNat) (4 * (k - 12 : Nat))
      (bytes32 (UInt32.ofNat s.freeblock)))

/-- The next block, in the indirect block. -/
theorem withEntry_extends (w : Working mkfsSb (s.scratch inum din) 0 held)
    (shaped : Shaped s.image din held) (fresh : s.Fresh) (low : 12 ≤ k) (high : k < 140)
    (indirect : held 140) (absent : ¬ held k) (room : s.freeblock < 1000)
    : Extends inum held (fun j => j = k ∨ held j) 1 s din (s.withEntry din k) din := by
  have number := toNat_freeblock fresh
  have shaped' : Shaped (s.scratch inum din).disk ((s.scratch inum din).icache 0).copy held :=
    shaped
  obtain ⟨inside, free⟩ := fresh.unmarked room
  have taken : s.Taken (din.addrs 12).toNat := by
    rw [← pointer_indirect s.image]
    exact pointer_taken w indirect
  have image : (s.withEntry din k).image
      = update (allocate mkfsSb s.image s.freeblock) (din.addrs 12).toNat
          (overlay (allocate mkfsSb s.image s.freeblock (din.addrs 12).toNat) (4 * (k - 12 : Nat))
            (bytes32 (UInt32.ofNat s.freeblock))) := by
    rw [withEntry, image_wsect taken.ne, fresh.image_next room, ← fresh.image_next room,
      image_of_ne taken.ne, image_of_ne taken.ne]
  have grown := Grown.entry w shaped' low high indirect absent inside free
  rw [number] at grown
  refine ⟨?_, (fresh.next room).wsect (Nat.lt_succ_of_lt taken.2.2) _, rfl⟩
  have target : (s.withEntry din k).scratch inum din
      = { s.scratch inum din with disk := (s.withEntry din k).image } := rfl
  rw [target, image]
  exact grown

/-- A turn of `iappend` at the end makes the file one block longer. -/
theorem sectorOf_absent (w : Working mkfsSb (s.scratch inum din) 0 (holds k))
    (shaped : Shaped s.image din (holds k)) (fresh : s.Fresh) (inside : k < 140)
    (room : s.freeblock + bmapCost k ≤ 1000)
    : ∃ s' din' x, s.sectorOf din k = some (s', din', x)
        ∧ Extends inum (holds k) (holds (k + 1)) (bmapCost k) s din s' din'
        ∧ x.toNat = pointer s'.image din' k := by
  by_cases direct : k < 12
  · have place := addrKey_direct direct
    have cost : bmapCost k = 1 := if_neg (by omega)
    have absent : ¬ holds k (addrKey ⟨k, by omega⟩) := by
      rw [place, holds]
      omega
    have more := addrOrNext_absent w shaped fresh absent (by omega)
    rw [place] at more
    refine ⟨_, _, _, dif_pos direct, ?_, ?_⟩
    · rw [cost]
      exact ⟨more.grown.congr fun j => (holds_succ (by omega)).symm, more.fresh, more.freeinode⟩
    · rw [xint_eq, pointer_direct _ _ direct]
  · have more := indirect_extends w shaped fresh (by omega) room
    have cost := bmapCost_eq_succ k
    have missing : ¬ (k = 140 ∨ holds k k) := by
      rw [holds]
      omega
    rw [sectorOf, dif_neg direct]
    generalize s.addrOrNext din 12 = pair at more ⊢
    obtain ⟨mid, din'⟩ := pair
    obtain ⟨grown, fresh', freeinode⟩ := more
    simp only [xint_eq] at grown fresh' freeinode ⊢
    have present : din'.addrs 12 ≠ 0 := grown.shaped.indirect.mpr (Or.inl rfl)
    have taken : mid.Taken (din'.addrs 12).toNat := by
      rw [← pointer_indirect mid.image]
      exact pointer_taken grown.working (Or.inl rfl)
    have zero : load32 (mid.image (din'.addrs 12).toNat) (4 * (k - 12 : Nat)) = 0 :=
      not_not.mp ((grown.shaped.entry (by omega) inside (Or.inl rfl)).not.mpr missing)
    have room' : mid.freeblock < 1000 := by
      have spent : freeCount mkfsSb mid.image + _ = freeCount mkfsSb s.image := grown.spent
      rw [freeCount_image, freeCount_image] at spent
      omega
    have second := withEntry_extends grown.working grown.shaped fresh' (by omega) inside
      (Or.inl rfl) missing room'
    have run : mid.rsect (din'.addrs 12).toNat = some (mid.image (din'.addrs 12).toNat) :=
      rsect_taken taken
    refine ⟨mid.withEntry din' k, din', UInt32.ofNat mid.freeblock, ?_, ⟨?_, second.fresh, ?_⟩, ?_⟩
    · simp only [run, Option.bind_eq_bind, Option.bind_some, zero, if_true, load32_overlay]
      rfl
    · rw [cost]
      refine (grown.trans w second.grown).congr fun j => ?_
      simp only [holds]
      omega
    · exact second.freeinode.trans freeinode
    · rw [pointer_entry _ (by omega) inside present, withEntry, image_wsect taken.ne,
        update_self, load32_overlay]

end

section

variable {len off : Nat} {p : List UInt8}

/-- `sectorOf` of a block of the file or of the first block beyond it. -/
theorem sectorOf_spec (w : Working mkfsSb (s.scratch inum din) 0 (holds len))
    (shaped : Shaped s.image din (holds len)) (fresh : s.Fresh) (inside : off ≤ 512 * len)
    (fits : off / 512 < 140)
    (room : s.freeblock + blockCount (max len (off / 512 + 1)) ≤ 1000 + blockCount len)
    : ∃ s' din' x, s.sectorOf din (off / 512) = some (s', din', x)
        ∧ Written mkfsSb 0 len (max len (off / 512 + 1)) off [] (s.scratch inum din)
          (s'.scratch inum din')
        ∧ s'.Fresh ∧ s'.freeinode = s.freeinode
        ∧ x.toNat = pointer s'.image din' (off / 512) := by
  by_cases old : off / 512 < len
  · have set : pointer s.image din (off / 512) ≠ 0 :=
      (shaped _ (by omega)).mpr (Or.inl old)
    obtain ⟨x, run, there⟩ := sectorOf_present w shaped fits set
    rw [Nat.max_eq_left (by omega)]
    exact ⟨s, din, x, run, .nil w shaped, fresh, rfl, there⟩
  · obtain rfl : len = off / 512 := by omega
    have cost := bmapCost_eq (off / 512)
    rw [Nat.max_eq_right (by omega)] at room ⊢
    obtain ⟨s', din', x, run, more, there⟩ := sectorOf_absent w shaped fresh fits (by omega)
    exact ⟨s', din', x, run, .of_grown more.grown fits inside, more.fresh, more.freeinode, there⟩

/-- The loop stores the bytes behind each other, by induction on how many are left. -/
theorem iappendLoop_spec (w : Working mkfsSb (s.scratch inum din) 0 (holds len))
    (shaped : Shaped s.image din (holds len)) (fresh : s.Fresh) (small : len ≤ 140)
    (inside : off ≤ 512 * len) (fits : off + p.length ≤ 512 * 140)
    (room : s.freeblock + blockCount (max len ((off + p.length + 511) / 512))
      ≤ 1000 + blockCount len)
    : ∃ s' din', s.iappendLoop din off p = some (s', din', off + p.length)
        ∧ Written mkfsSb 0 len (max len ((off + p.length + 511) / 512)) off p (s.scratch inum din)
          (s'.scratch inum din')
        ∧ s'.Fresh ∧ s'.freeinode = s.freeinode := by
  induction size : p.length using Nat.strong_induction_on generalizing s din len off p with
  | _ size ih =>
    subst size
    rw [iappendLoop]
    by_cases done : p = []
    · subst done
      refine ⟨s, din, rfl, ?_, fresh, rfl⟩
      rw [List.length_nil, Nat.max_eq_left (by omega)]
      exact .nil w shaped
    · have some_ := List.length_pos_iff.mpr done
      have more : blockCount (max len (off / 512 + 1))
          ≤ blockCount (max len ((off + p.length + 511) / 512)) := blockCount_mono (by omega)
      obtain ⟨mid, din', x, run, grown, fresh', freeinode, there⟩ :=
        sectorOf_spec w shaped fresh inside (by omega) (by omega)
      rw [dif_neg done, if_pos (by omega), run]
      simp only [Option.bind_eq_bind, Option.bind_some]
      have step : min p.length ((off / 512 + 1) * 512 - off) ≤ p.length
          ∧ 0 < min p.length ((off / 512 + 1) * 512 - off)
          ∧ off % 512 + min p.length ((off / 512 + 1) * 512 - off) ≤ 512 := by omega
      -- `n1` bytes go to the block of `off`
      generalize min p.length ((off / 512 + 1) * 512 - off) = n1 at step
      have has : holds (max len (off / 512 + 1)) (off / 512) := Or.inl (by omega)
      have taken : mid.Taken x.toNat := by
        rw [there]
        exact pointer_taken grown.working has
      rw [rsect_taken taken, Option.bind_some]
      have cells : (p.take n1).length = n1 := List.length_take_of_le step.1
      have place : off - off / 512 * 512 = off % 512 := by omega
      rw [place]
      have stored : Written mkfsSb 0 (max len (off / 512 + 1)) (max len (off / 512 + 1)) off
          (p.take n1) (mid.scratch inum din')
          ((mid.wsect x.toNat (overlay (mid.image x.toNat) (off % 512 : Nat)
            (p.take n1))).scratch inum din') := by
        rw [scratch_wsect taken.ne, there]
        exact .block grown.working grown.shaped (by omega) (by omega) (by omega)
      have clear := fresh'.wsect taken.2.2 (overlay (mid.image x.toNat) (off % 512 : Nat)
        (p.take n1))
      have once := grown.trans w stored
      rw [List.nil_append] at once
      have spent : freeCount mkfsSb (mid.wsect x.toNat _).image + _
          = freeCount mkfsSb s.image + blockCount len := once.spent
      rw [freeCount_image, freeCount_image] at spent
      have high := clear.high
      have high' := fresh.high
      have left : (p.drop n1).length = p.length - n1 := List.length_drop
      have goal : max len ((off + p.length + 511) / 512)
          = max (max len (off / 512 + 1)) ((off + n1 + (p.drop n1).length + 511) / 512) := by
        omega
      obtain ⟨s', last, run', rest, clear', freeinode'⟩ :=
        @ih (p.drop n1).length (by omega) _ _ _ (off + n1) _ once.working once.shaped clear
          (by omega) (by omega) (by omega) (by rw [← goal]; omega) rfl
      refine ⟨s', last, ?_, ?_, clear', freeinode'.trans freeinode⟩
      · rw [run', left]
        congr 3
        omega
      · rw [goal]
        have whole := once.trans w (by rw [cells]; exact rest)
        rw [List.take_append_drop] at whole
        exact whole

end

section

theorem iblock_low (table : inum < 200) : mkfsSb.iblock inum < mkfsSb.bmapstart :=
  mkfsSb.iblock_lt table

theorem rinode_run (table : inum < 200) : s.rinode inum = some (dinodeAt mkfsSb s.image inum) := by
  have low := iblock_low table
  have inside : mkfsSb.iblock inum < 1000 := low.trans (by decide)
  rw [rinode, rsect, if_pos inside, dinodeAt, image_of_ne low.ne]
  rfl

/-- `winode` changes one inode of the image. -/
theorem winode_run (table : inum < 200) (fresh : s.Fresh) (din : Dinode)
    : ∃ s', s.winode inum din = some s'
        ∧ s'.image = storeDinode mkfsSb s.image inum din
        ∧ s'.Fresh ∧ s'.freeblock = s.freeblock ∧ s'.freeinode = s.freeinode := by
  have low := iblock_low table
  have inside : mkfsSb.iblock inum < 1000 := low.trans (by decide)
  have start := fresh.low
  refine ⟨s.wsect (mkfsSb.iblock inum)
    (overlay (s.disk (mkfsSb.iblock inum)) (64 * (inum % 8 : Nat)) din.bytes), ?_, ?_, ?_, rfl, rfl⟩
  · rw [winode, rsect, if_pos inside]
    rfl
  · rw [image_wsect low.ne, storeDinode, image_of_ne low.ne]
  · refine fresh.wsect ?_ _
    rw [Superblock.dataStart] at start
    omega

theorem scratch_cached : Cached (s.scratch inum din) 0 := ⟨by decide, Int.one_pos, rfl⟩

theorem scratch_ok (owned : BlocksOwned mkfsSb s.image) (used : allocated mkfsSb s.image inum)
    : FsOk mkfsSb (s.scratch inum (dinodeAt mkfsSb s.image inum)) := by
  have only : ∀ ip, 0 < ((s.scratch inum (dinodeAt mkfsSb s.image inum)).icache ip).ref →
      ip = 0 := by
    intro ip referenced
    by_contra other
    simp [scratch, other] at referenced
  refine ⟨owned, ?_, fun _ _ _ => rfl, ?_⟩
  · intro ip _ jp _ first_ second _
    rw [only ip first_, only jp second]
  · intro ip cached
    obtain rfl := only ip cached.2.1
    exact ⟨used, rfl⟩

/-- `iappend` is a write at the end of the file, on the image. -/
theorem iappend_spec {p : List UInt8} {size : Nat} (owned : BlocksOwned mkfsSb s.image)
    (fresh : s.Fresh) (used : allocated mkfsSb s.image inum)
    (sized : (dinodeAt mkfsSb s.image inum).size.toNat = size) (some_ : p ≠ [])
    (fits : size + p.length ≤ 71680)
    (room : s.freeblock + blocksFor (size + p.length) ≤ 1000 + blocksFor size)
    : ∃ s' din', s.iappend inum p = some s'
        ∧ Stored mkfsSb 0 size p (s.scratch inum (dinodeAt mkfsSb s.image inum))
          (s'.scratch inum din')
        ∧ s'.Fresh ∧ s'.freeinode = s.freeinode
        ∧ ∀ b < 32, s'.image b = s.image b := by
  subst sized
  set din := dinodeAt mkfsSb s.image inum with here
  have table : inum < 200 := used.1
  have ok : FsOk mkfsSb (s.scratch inum din) := scratch_ok owned used
  have w : Working mkfsSb (s.scratch inum din) 0 (holds din.blocks) := ok.working scratch_cached
  have shaped : Shaped s.image din (holds din.blocks) := ok.shaped scratch_cached
  have longer := List.length_pos_iff.mpr some_
  have blocks : din.blocks = (din.size.toNat + 511) / 512 := rfl
  have small : din.blocks ≤ 140 := ok.small scratch_cached
  have count : max din.blocks ((din.size.toNat + p.length + 511) / 512)
      = (din.size.toNat + p.length + 511) / 512 := by omega
  obtain ⟨mid, din', run, written, fresh', freeinode⟩ :=
    iappendLoop_spec (p := p) w shaped fresh small (by omega : din.size.toNat ≤ 512 * din.blocks)
      (by omega) (by rw [count]; exact room)
  rw [count] at written
  obtain ⟨s', stored, image, fresh'', freeblock, freeinode'⟩ :=
    winode_run table fresh' { din' with size := UInt32.ofNat (din.size.toNat + p.length) }
  have size : (UInt32.ofNat (din.size.toNat + p.length)).toNat = din.size.toNat + p.length :=
    UInt32.toNat_ofNat_of_lt' (by rw [UInt32.size]; omega)
  refine ⟨s', { din' with size := UInt32.ofNat (din.size.toNat + p.length) }, ?_, ?_, fresh'',
    freeinode'.trans freeinode, ?_⟩
  · rw [iappend, rinode_run table]
    simp only [Option.bind_eq_bind, Option.bind_some, xint_eq]
    rw [← here, run]
    exact stored
  · have grows : din.size.toNat < din.size.toNat + p.length := by omega
    have beyond :=
      written.stored_beyond ok scratch_cached le_rfl grows size (by rw [size]) (by omega)
    have target : updated mkfsSb (withSlot (mid.scratch inum din') 0 fun node =>
          { node with
            copy := { node.copy with size := UInt32.ofNat (din.size.toNat + p.length) } }) 0
        = s'.scratch inum { din' with size := UInt32.ofNat (din.size.toNat + p.length) } := by
      rw [scratch_withSlot fun d => { d with size := UInt32.ofNat (din.size.toNat + p.length) },
        updated, scratch, scratch, image]
      rfl
    rw [target] at beyond
    exact beyond
  · intro b low
    have kept : mid.image b = s.image b := written.low b (low.trans (by decide))
    have other : b ≠ mkfsSb.iblock inum := by
      have : 32 ≤ mkfsSb.iblock inum := Nat.le_add_left ..
      omega
    rw [image, storeDinode, update_of_ne other, kept]

end

end Mkfs

end Xv6Net
