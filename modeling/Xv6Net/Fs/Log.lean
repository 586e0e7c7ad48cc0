import Xv6Net.Library.Bytes
import Xv6Net.Library.Program
import Xv6Net.Library.Store

/-! The log on disk: how `log.c` records the blocks of a transaction, writes them to the log,
commits with the header and copies them home, and how it recovers after a crash. A program
over the blocks that `bread` returns logs each block that it writes to disk.
-/

namespace Xv6Net

open Library Memory Function

/-- The contents of a disk block, by offset; `BSIZE` is 512. -/
abbrev Block := Int → UInt8

abbrev logSize : Nat := 30

/-- `struct logheader`. -/
structure LogHeader where
  n : Int
  block : Nat → Nat

namespace Log

/-- `log.start` and `log.size`; the log has at least its header block. -/
structure Geometry where
  start : Nat
  size : Nat
  header : 0 < size

/-- The header in memory and the blocks as `bread` returns them. -/
structure Mem where
  lh : LogHeader
  blocks : Nat → Block

def Mem.boot (disk : Nat → Block) : Mem :=
  { lh := { n := 0, block := fun _ => 0 }, blocks := disk }

/-- A program of `log.c`; it logs the block number and the contents of each disk write. -/
abbrev LogM := Program Geometry Mem (Nat × Block)

def bread (blockno : Nat) : LogM Block := do
  let m ← Program.get
  return m.blocks blockno

/-- `bwrite` of a buffer that has these contents. -/
def bwrite (blockno : Nat) (data : Block) : LogM Unit := do
  Program.modify fun m => { m with blocks := update m.blocks blockno data }
  Program.emit (blockno, data)

/-- The body of the loop of `install_trans`. -/
def installBlock (tail : Nat) : LogM Unit := do
  let log ← Program.env
  let m ← Program.get
  let lbuf ← bread (log.start + tail + 1)
  bwrite (m.lh.block tail) lbuf

def installTrans : LogM Unit := do
  let m ← Program.get
  Program.forRange installBlock 0 m.lh.n.toNat

/-- An `int` that is stored in four bytes. -/
def loadInt (data : Block) (offset : Int) : Int :=
  (BitVec.ofNat 32 (load32 data offset).toNat).toInt

def readHead : LogM Unit := do
  let log ← Program.env
  let buf ← bread log.start
  Program.modify fun m =>
    { m with
      lh :=
        { n := loadInt buf 0
          block := fun i =>
            if i < (loadInt buf 0).toNat then (load32 buf (4 + 4 * i)).toNat
            else m.lh.block i } }

/-- The loop of `write_head`, which stores the first block numbers. -/
def headBlocks (hb : Block) (block : Nat → Nat) : Nat → Block
  | 0 => hb
  | i + 1 =>
    overlay (headBlocks hb block i) (4 + 4 * i) (bytes32 (UInt32.ofNat (block i)))

def writeHead : LogM Unit := do
  let log ← Program.env
  let m ← Program.get
  let buf ← bread log.start
  let hb := overlay buf 0 (bytes32 (UInt32.ofInt m.lh.n))
  bwrite log.start (headBlocks hb m.lh.block m.lh.n.toNat)

def clearLog : LogM Unit :=
  Program.modify fun m => { m with lh := { m.lh with n := 0 } }

def recoverFromLog : LogM Unit := do
  readHead
  installTrans
  clearLog
  writeHead

/-- The body of the loop of `write_log`. -/
def logBlock (tail : Nat) : LogM Unit := do
  let log ← Program.env
  let m ← Program.get
  let from_ ← bread (m.lh.block tail)
  bwrite (log.start + tail + 1) from_

def writeLog : LogM Unit := do
  let m ← Program.get
  Program.forRange logBlock 0 m.lh.n.toNat

def commit : LogM Unit := do
  let m ← Program.get
  if m.lh.n > 0 then
    writeLog
    writeHead
    installTrans
    clearLog
    writeHead

end Log

/-- The block number is recorded, unless it is already there. -/
def LogHeader.record (lh : LogHeader) (blockno : Nat) : LogHeader :=
  match (List.range lh.n.toNat).find? (fun i => lh.block i = blockno) with
  | some i => { lh with block := update lh.block i blockno }
  | none =>
    { n := lh.n + 1
      block := update lh.block lh.n.toNat blockno }

namespace Log

/-- A block gets new contents and `log_write` is called. -/
def logWrite (blockno : Nat) (data : Block) : LogM Unit := do
  let log ← Program.env
  let m ← Program.get
  if m.lh.n ≥ logSize ∨ m.lh.n ≥ (log.size : Int) - 1 then
    Program.stop
  else
    Program.modify fun m =>
      { lh := m.lh.record blockno
        blocks := update m.blocks blockno data }

end Log

end Xv6Net
