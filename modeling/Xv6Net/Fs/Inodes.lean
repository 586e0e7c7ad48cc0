import Xv6Net.Fs.Layout

/-! Blocks and inodes: the parts of `fs.c` below directories, as programs over the blocks that
`bread` returns and the inode cache. A program logs each `log_write`, and the reason before it
panics.
-/

namespace Xv6Net

open Library Memory Function

abbrev nInode : Nat := 50

/-- `T_DIR`, `T_FILE` and `T_DEV`. -/
abbrev tDir : UInt16 := 1
abbrev tFile : UInt16 := 2
abbrev tDev : UInt16 := 3

/-- `MAXFILE * BSIZE`. -/
abbrev maxFileBytes : UInt32 := 71680

/-- `struct inode`: a slot of the inode cache, with a copy of the inode on disk. -/
structure Inode where
  dev : UInt32
  inum : Nat
  ref : Int
  locked : Bool
  valid : Bool
  copy : Dinode

/-- The disk as the buffer cache shows it, and the inode cache. -/
structure FsState where
  disk : Nat → Block
  icache : Nat → Inode

inductive FsPanic where
  | ballocOutOfBlocks
  | freeingFreeBlock
  | iallocNoInodes
  | igetNoInodes
  | ilock
  | ilockNoType
  | iunlock
  | bmapOutOfRange
  | dirlookupNotDir
  | dirlookupRead
  | dirlinkRead
  | dirlink
  | isdirempty
  | unlinkNlink
  | unlinkWritei
  | createDots
  | createDirlink
  | filedup
  | fileclose
  | fileread
  | filewrite
  | shortFilewrite
  | initExiting
deriving DecidableEq

inductive FsEvent where
  | logWrite (blockno : Nat)
  /-- `itrunc` of an inode, with its link count and its references. -/
  | truncate (inum : Nat) (nlink : UInt16) (ref : Int)
  | panic (reason : FsPanic)
deriving DecidableEq

/-- The superblock and the device switch: what `read` and `write` of a device return for a byte
count, if it has them.
-/
structure FsEnv where
  sb : Superblock
  devRead : UInt16 → Option (UInt32 → Int)
  devWrite : UInt16 → Option (UInt32 → Int)

abbrev FsM := Program FsEnv FsState FsEvent

namespace Fs

def panic {α : Type} (reason : FsPanic) : FsM α := do
  Program.emit (.panic reason)
  Program.stop

/-- A process that waits for a sleep lock it holds itself never goes on. -/
def sleepForever {α : Type} : FsM α := Program.stop

def sb : FsM Superblock := do
  let env ← Program.env
  return env.sb

def bread (b : Nat) : FsM Block := do
  let s ← Program.get
  return s.disk b

/-- `bread`, a change of the contents, `log_write` and `brelse`. -/
def updateBlock (b : Nat) (change : Block → Block) : FsM Unit := do
  Program.modify fun s => { s with disk := update s.disk b (change (s.disk b)) }
  Program.emit (.logWrite b)

def inode (ip : Nat) : FsM Inode := do
  let s ← Program.get
  return s.icache ip

def setInode (ip : Nat) (change : Inode → Inode) : FsM Unit :=
  Program.modify fun s =>
    { s with icache := update s.icache ip (change (s.icache ip)) }

def setCopy (ip : Nat) (change : Dinode → Dinode) : FsM Unit :=
  setInode ip fun node => { node with copy := change node.copy }

/-- The contents of a block that has been cleared. -/
def zeroed (data : Block) : Block := overlay data 0 (List.replicate 512 0)

def bzero (bno : Nat) : FsM Unit := updateBlock bno zeroed

/-- The inner loop of `balloc`: the first free block of a block of the bitmap. -/
def scanBits (data : Block) (b size : Nat) : Nat → Nat → Option Nat
  | 0, _ => none
  | fuel + 1, bi =>
    if b + bi < size then
      if Bitmap.get data bi then scanBits data b size fuel (bi + 1) else some bi
    else none

/-- The outer loop of `balloc`. -/
def ballocLoop : Nat → Nat → FsM UInt32
  | 0, _ => panic .ballocOutOfBlocks
  | fuel + 1, b => do
    let sb ← sb
    if b < sb.size then
      let bp ← bread (sb.bblock b)
      match scanBits bp b sb.size 4096 0 with
      | some bi =>
        updateBlock (sb.bblock b) (fun data => Bitmap.set data bi)
        bzero (b + bi)
        return UInt32.ofNat (b + bi)
      | none => ballocLoop fuel (b + 4096)
    else panic .ballocOutOfBlocks

def balloc : FsM UInt32 := do
  let sb ← sb
  ballocLoop (sb.size / 4096 + 1) 0

def bfree (b : UInt32) : FsM Unit := do
  let sb ← sb
  let bp ← bread (sb.bblock b.toNat)
  if Bitmap.get bp (b.toNat % 4096) then
    updateBlock (sb.bblock b.toNat) (fun data => Bitmap.clear data (b.toNat % 4096))
  else panic .freeingFreeBlock

def iupdate (ip : Nat) : FsM Unit := do
  let sb ← sb
  let node ← inode ip
  updateBlock (sb.iblock node.inum)
    (fun data => overlay data (64 * (node.inum % 8 : Nat)) node.copy.bytes)

/-- `iget`: the slot of the inode, or else the first free slot. -/
def iget (dev : UInt32) (inum : Nat) : FsM Nat := do
  let s ← Program.get
  match (List.range nInode).find? (fun ip =>
      (s.icache ip).ref > 0 ∧ (s.icache ip).dev = dev ∧ (s.icache ip).inum = inum) with
  | some ip =>
    setInode ip fun node => { node with ref := node.ref + 1 }
    return ip
  | none =>
    match (List.range nInode).find? (fun ip => (s.icache ip).ref = 0) with
    | some ip =>
      setInode ip fun node => { node with dev, inum, ref := 1, valid := false }
      return ip
    | none => panic .igetNoInodes

/-- The inode that `ialloc` stores. -/
def freshDinode (type : UInt16) : Dinode :=
  { type, major := 0, minor := 0, nlink := 0, size := 0, addrs := fun _ => 0 }

/-- The loop of `ialloc`. -/
def iallocLoop (dev : UInt32) (type : UInt16) : Nat → Nat → FsM Nat
  | 0, _ => panic .iallocNoInodes
  | fuel + 1, inum => do
    let sb ← sb
    if inum < sb.ninodes then
      let bp ← bread (sb.iblock inum)
      if (readDinode bp (64 * (inum % 8 : Nat))).type = 0 then
        updateBlock (sb.iblock inum)
          (fun data => overlay data (64 * (inum % 8 : Nat)) (freshDinode type).bytes)
        iget dev inum
      else iallocLoop dev type fuel (inum + 1)
    else panic .iallocNoInodes

def ialloc (dev : UInt32) (type : UInt16) : FsM Nat := do
  let sb ← sb
  iallocLoop dev type sb.ninodes 1

def idup (ip : Nat) : FsM Nat := do
  setInode ip fun node => { node with ref := node.ref + 1 }
  return ip

def acquiresleep (ip : Nat) : FsM Unit := do
  let node ← inode ip
  if node.locked then sleepForever
  else setInode ip fun node => { node with locked := true }

def releasesleep (ip : Nat) : FsM Unit :=
  setInode ip fun node => { node with locked := false }

def ilock (ip : Nat) : FsM Unit := do
  let node ← inode ip
  if node.ref < 1 then panic .ilock
  else
    acquiresleep ip
    let node ← inode ip
    if node.valid then pure ()
    else
      let sb ← sb
      let bp ← bread (sb.iblock node.inum)
      setInode ip fun node =>
        { node with copy := readDinode bp (64 * (node.inum % 8 : Nat)), valid := true }
      let node ← inode ip
      if node.copy.type = 0 then panic .ilockNoType else pure ()

def iunlock (ip : Nat) : FsM Unit := do
  let node ← inode ip
  if node.locked = false ∨ node.ref < 1 then panic .iunlock
  else releasesleep ip

def setAddr (ip : Nat) (i : Fin 13) (addr : UInt32) : FsM Unit :=
  setCopy ip fun copy => { copy with addrs := update copy.addrs i addr }

/-- `if((addr = ip->addrs[i]) == 0) ip->addrs[i] = addr = balloc(ip->dev)`. -/
def addrOrAlloc (ip : Nat) (i : Fin 13) : FsM UInt32 := do
  let node ← inode ip
  if node.copy.addrs i = 0 then
    let addr ← balloc
    setAddr ip i addr
    return addr
  else return node.copy.addrs i

/-- `bmap`; twelve blocks are direct, and 128 are in the indirect block. -/
def bmap (ip : Nat) (bn : Nat) : FsM UInt32 := do
  if direct : bn < 12 then
    addrOrAlloc ip ⟨bn, Dinode.direct_lt direct⟩
  else if bn - 12 < 128 then
    let addr ← addrOrAlloc ip 12
    let bp ← bread addr.toNat
    let entry := load32 bp (4 * (bn - 12 : Nat))
    if entry = 0 then
      let entry ← balloc
      updateBlock addr.toNat (fun data => overlay data (4 * (bn - 12 : Nat)) (bytes32 entry))
      return entry
    else return entry
  else panic .bmapOutOfRange

/-- The body of the loop of `itrunc` over the direct blocks. -/
def itruncDirect (ip : Nat) (i : Nat) : FsM Unit := do
  let node ← inode ip
  if inside : i < 13 then
    if node.copy.addrs ⟨i, inside⟩ ≠ 0 then
      bfree (node.copy.addrs ⟨i, inside⟩)
      setAddr ip ⟨i, inside⟩ 0

/-- The body of the loop of `itrunc` over the indirect block. -/
def itruncIndirect (addr : UInt32) (j : Nat) : FsM Unit := do
  let a ← bread addr.toNat
  if load32 a (4 * (j : Nat)) ≠ 0 then
    bfree (load32 a (4 * (j : Nat)))

def itrunc (ip : Nat) : FsM Unit := do
  let node ← inode ip
  Program.emit (.truncate node.inum node.copy.nlink node.ref)
  Program.forRange (itruncDirect ip) 0 12
  let node ← inode ip
  if node.copy.addrs 12 ≠ 0 then
    Program.forRange (itruncIndirect (node.copy.addrs 12)) 0 128
    bfree (node.copy.addrs 12)
    setAddr ip 12 0
  setCopy ip fun copy => { copy with size := 0 }
  iupdate ip

def iput (ip : Nat) : FsM Unit := do
  acquiresleep ip
  let node ← inode ip
  if node.valid ∧ node.copy.nlink = 0 ∧ node.ref = 1 then
    itrunc ip
    setCopy ip fun copy => { copy with type := 0 }
    iupdate ip
    setInode ip fun node => { node with valid := false }
  releasesleep ip
  setInode ip fun node => { node with ref := node.ref - 1 }

def iunlockput (ip : Nat) : FsM Unit := do
  iunlock ip
  iput ip

/-- The loop of `readi`, with the offset and the count of the bytes that are left. -/
def readLoop (ip : Nat) : Nat → Nat → Nat → FsM (List UInt8)
  | 0, _, _ => pure []
  | fuel + 1, off, left => do
    if left = 0 then return []
    else
      let addr ← bmap ip (off / 512)
      let bp ← bread addr.toNat
      let m := min left (512 - off % 512)
      let rest ← readLoop ip fuel (off + m) (left - m)
      return slice bp (off % 512 : Nat) m ++ rest

/-- `readi`: what it returns, and the bytes it copies. -/
def readi (ip : Nat) (off n : UInt32) : FsM (Int × List UInt8) := do
  let env ← Program.env
  let node ← inode ip
  if node.copy.type = tDev then
    -- a negative `major` is no smaller than `NDEV` as an unsigned number
    if node.copy.major ≥ 10 then return (-1, [])
    else
      match env.devRead node.copy.major with
      | none => return (-1, [])
      | some read => return (read n, [])
  else if off > node.copy.size ∨ off + n < off then
    return (-1, [])
  else
    let n := if off + n > node.copy.size then node.copy.size - off else n
    let bytes ← readLoop ip n.toNat off.toNat n.toNat
    return (n.toNat, bytes)

/-- The loop of `writei`, with the place in `src`, the offset and the count that is left. -/
def writeLoop (ip : Nat) (src : Int → UInt8) : Nat → Nat → Nat → Nat → FsM Unit
  | 0, _, _, _ => pure ()
  | fuel + 1, tot, off, left => do
    if left = 0 then return ()
    else
      let addr ← bmap ip (off / 512)
      let m := min left (512 - off % 512)
      updateBlock addr.toNat (fun data => overlay data (off % 512 : Nat) (slice src tot m))
      writeLoop ip src fuel (tot + m) (off + m) (left - m)

def writei (ip : Nat) (src : Int → UInt8) (off n : UInt32) : FsM Int := do
  let env ← Program.env
  let node ← inode ip
  if node.copy.type = tDev then
    if node.copy.major ≥ 10 then return -1
    else
      match env.devWrite node.copy.major with
      | none => return -1
      | some write => return write n
  else if off > node.copy.size ∨ off + n < off then
    return -1
  else if off + n > maxFileBytes then
    return -1
  else
    writeLoop ip src n.toNat 0 off.toNat n.toNat
    if n > 0 ∧ off + n > node.copy.size then
      setCopy ip fun copy => { copy with size := off + n }
      iupdate ip
    return n.toNat

end Fs

end Xv6Net
