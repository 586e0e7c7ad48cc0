import Xv6Net.Fs.Log
import Xv6Net.Library.Tally
import Xv6Net.Library.Transition

/-! The buffer cache and the disk driver: `bread`, `bwrite`, `brelse` and the marking of a buffer
by `log_write`, run by any number of processes, with `iderw`, the disk and `ideintr` beside them.
Each stretch under a spinlock is one step, and a process that waits for a sleep lock or for the
disk takes its next step when the condition of its loop lets it go on.
-/

namespace Xv6Net

open Library Transition Function

abbrev fsSize : UInt32 := 1000

structure BlockKey where
  dev : UInt32
  blockno : UInt32
deriving DecidableEq

/-- `struct buf`: `B_VALID` and `B_DIRTY`, the block, the owner of the sleep lock, the references
and the contents. `P` is the number of processes.
-/
structure Buf (P : Nat) where
  valid : Bool
  dirty : Bool
  key : BlockKey
  lock : Option (Fin P)
  refcnt : Int
  data : Block

/-- A command that `idestart` has given to the disk. -/
inductive IdeCommand where
  | read (key : BlockKey)
  | write (key : BlockKey) (data : Block)

/-- The disk is idle, executes a command, or has raised its interrupt, after a read with what `insl`
gets.
-/
inductive IdeState where
  | idle
  | busy (command : IdeCommand)
  | ready (latch : Option Block)

/-- Where a process is: between calls, in `bread` before `acquiresleep` or at the test of
`B_VALID`, in `bwrite` before `iderw`, in the loop of `iderw` (for `bread` of a block or for
`bwrite`), or in `brelse` after `releasesleep`. `N` is the number of buffers.
-/
inductive BufPc (N : Nat) where
  | outside
  | acquiring (key : BlockKey) (b : Fin N)
  | testing (key : BlockKey) (b : Fin N)
  | writing (b : Fin N)
  | waiting (read : Option BlockKey) (b : Fin N)
  | releasing (b : Fin N)
deriving DecidableEq

inductive BufPanic where
  | noBuffers
  | bwrite
  | brelse
  | bufNotLocked
  | nothingToDo
  | disk1NotPresent
  | incorrectBlockno
deriving DecidableEq

/-- The cache, the driver, the disk and the processes. `order` is the list from `head.next` on,
and `got` is what the last `bread` of a process has returned.
-/
structure BufSys (N P : Nat) where
  bufs : Fin N → Buf P
  order : List (Fin N)
  idequeue : List (Fin N)
  ide : IdeState
  disk : BlockKey → Block
  procs : Fin P → BufPc N
  got : Fin P → Option (Fin N)
  panicked : Option BufPanic

inductive BufAction (N P : Nat) where
  | bread (p : Fin P) (key : BlockKey)
  | acquiresleep (p : Fin P)
  | test (p : Fin P)
  | modify (p : Fin P) (b : Fin N) (data : Block)
  | logWrite (p : Fin P) (b : Fin N)
  | bwrite (p : Fin P) (b : Fin N)
  | iderw (p : Fin P)
  | wake (p : Fin P)
  | brelse (p : Fin P) (b : Fin N)
  | release (p : Fin P)
  | disk
  | ideintr

namespace BufSys

variable {N P : Nat}

def setBuf (s : BufSys N P) (b : Fin N) (buf : Buf P) : BufSys N P :=
  { s with bufs := update s.bufs b buf }

def goto (s : BufSys N P) (p : Fin P) (pc : BufPc N) : BufSys N P :=
  { s with procs := update s.procs p pc }

def panic (s : BufSys N P) (reason : BufPanic) : BufSys N P :=
  { s with panicked := some reason }

def command (buf : Buf P) : IdeCommand :=
  if buf.dirty then .write buf.key buf.data else .read buf.key

def idestart (s : BufSys N P) (b : Fin N) : BufSys N P :=
  if (s.bufs b).key.blockno ≥ fsSize then s.panic .incorrectBlockno
  else { s with ide := .busy (command (s.bufs b)) }

/-- `iderw` up to the point where it sleeps. -/
def iderw (s : BufSys N P) (havedisk1 : Bool) (p : Fin P) (b : Fin N)
    (read : Option BlockKey) : BufSys N P :=
  if (s.bufs b).lock ≠ some p then
    s.panic .bufNotLocked
  else if (s.bufs b).valid ∧ ¬ (s.bufs b).dirty then
    s.panic .nothingToDo
  else if (s.bufs b).key.dev ≠ 0 ∧ ¬ havedisk1 then
    s.panic .disk1NotPresent
  else
    let s := goto { s with idequeue := s.idequeue ++ [b] } p (.waiting read b)
    if s.idequeue.head? = some b then s.idestart b else s

def disk_ (s : BufSys N P) : IdeCommand → BufSys N P
  | .read key => { s with ide := .ready (some (s.disk key)) }
  | .write key data =>
    { s with
      disk := update s.disk key data
      ide := .ready none }

def ideintr (s : BufSys N P) (latch : Option Block) : BufSys N P :=
  match s.idequeue with
  | [] => { s with ide := .idle }
  | b :: rest =>
    let buf := s.bufs b
    let data := if buf.dirty then buf.data else latch.getD buf.data
    let s := setBuf { s with idequeue := rest, ide := .idle } b
      { buf with valid := true, dirty := false, data }
    match rest with
    | [] => s
    | next :: _ => s.idestart next

/-- `bget` up to `acquiresleep`: the first buffer with this key, or the last one neither referenced
nor dirty.
-/
def bget (s : BufSys N P) (p : Fin P) (key : BlockKey) : BufSys N P :=
  let s := { s with got := update s.got p none }
  match s.order.find? (fun b => (s.bufs b).key = key) with
  | some b =>
    (s.setBuf b { s.bufs b with refcnt := (s.bufs b).refcnt + 1 }).goto p (.acquiring key b)
  | none =>
    match s.order.reverse.find?
        (fun b => (s.bufs b).refcnt = 0 ∧ (s.bufs b).dirty = false) with
    | some b =>
      (s.setBuf b
        { s.bufs b with key, valid := false, dirty := false, refcnt := 1 }).goto p
          (.acquiring key b)
    | none => s.panic .noBuffers

/-- `bread` returns the buffer. -/
def breadReturn (s : BufSys N P) (p : Fin P) (b : Fin N) : BufSys N P :=
  goto { s with got := update s.got p (some b) } p .outside

/-- The buffer is marked as dirty. -/
def mark (s : BufSys N P) (b : Fin N) : BufSys N P :=
  s.setBuf b { s.bufs b with dirty := true }

/-- The rest of `brelse`, with the lock of the cache. -/
def release (s : BufSys N P) (p : Fin P) (b : Fin N) : BufSys N P :=
  let refcnt := (s.bufs b).refcnt - 1
  let s := s.setBuf b { s.bufs b with refcnt }
  if refcnt = 0 then
    goto { s with order := b :: s.order.erase b } p .outside
  else
    s.goto p .outside

/-- One step; after a panic there is none. A process modifies and logs only buffers that it has
locked.
-/
def step (havedisk1 : Bool) (s : BufSys N P) (action : BufAction N P) : Option (BufSys N P) :=
  if s.panicked.isSome then none
  else
    match action with
    | .bread p key =>
      match s.procs p with
      | .outside => some (s.bget p key)
      | _ => none
    | .acquiresleep p =>
      match s.procs p with
      | .acquiring key b =>
        if (s.bufs b).lock = none then
          some ((s.setBuf b { s.bufs b with lock := some p }).goto p (.testing key b))
        else none
      | _ => none
    | .test p =>
      match s.procs p with
      | .testing key b =>
        if (s.bufs b).valid then some (s.breadReturn p b)
        else some (s.iderw havedisk1 p b (some key))
      | _ => none
    | .modify p b data =>
      if s.procs p = .outside ∧ (s.bufs b).lock = some p then
        some (s.setBuf b { s.bufs b with data })
      else none
    | .logWrite p b =>
      if s.procs p = .outside ∧ (s.bufs b).lock = some p then some (s.mark b) else none
    | .bwrite p b =>
      if s.procs p = .outside then
        if (s.bufs b).lock = some p then some ((s.mark b).goto p (.writing b))
        else some (s.panic .bwrite)
      else none
    | .iderw p =>
      match s.procs p with
      | .writing b => some (s.iderw havedisk1 p b none)
      | _ => none
    | .wake p =>
      match s.procs p with
      | .waiting read b =>
        if (s.bufs b).valid ∧ ¬ (s.bufs b).dirty then
          match read with
          | some _ => some (s.breadReturn p b)
          | none => some (s.goto p .outside)
        else none
      | _ => none
    | .brelse p b =>
      if s.procs p = .outside then
        if (s.bufs b).lock = some p then
          some ((s.setBuf b { s.bufs b with lock := none }).goto p (.releasing b))
        else some (s.panic .brelse)
      else none
    | .release p =>
      match s.procs p with
      | .releasing b => some (s.release p b)
      | _ => none
    | .disk =>
      match s.ide with
      | .busy command => some (s.disk_ command)
      | _ => none
    | .ideintr =>
      match s.ide with
      | .ready latch => some (s.ideintr latch)
      | _ => none

/-- After `binit`, which puts each buffer in front of the ones before it. -/
def fresh (P : Nat) (disk : BlockKey → Block) (data : Fin N → Block) : BufSys N P :=
  { bufs := fun b =>
      { valid := false
        dirty := false
        key := ⟨0, 0⟩
        lock := none
        refcnt := 0
        data := data b }
    order := (List.finRange N).reverse
    idequeue := []
    ide := .idle
    disk
    procs := fun _ => .outside
    got := fun _ => none
    panicked := none }

end BufSys

/-- The flat array of blocks that the cache stands for. Beside it, the buffers modified and not yet
logged or written, the block that a process in `bread` has asked for, and for each `bread` that has
returned that block and its contents in the array with the block and the contents of the buffer.
-/
structure FlatArray (N P : Nat) where
  blocks : BlockKey → Block
  unsaved : Fin N → Bool
  asked : Fin P → Option BlockKey
  reads : List ((BlockKey × Block) × (BlockKey × Block))

namespace FlatArray

variable {N P : Nat}

def ask (h : FlatArray N P) (p : Fin P) (key : BlockKey) : FlatArray N P :=
  { h with asked := update h.asked p (some key) }

def modify (h : FlatArray N P) (b : Fin N) : FlatArray N P :=
  { h with unsaved := update h.unsaved b true }

/-- `log_write` or `bwrite` of a buffer writes its contents to the array. -/
def write (h : FlatArray N P) (b : Fin N) (buf : Buf P) : FlatArray N P :=
  { h with
    blocks := update h.blocks buf.key buf.data
    unsaved := update h.unsaved b false }

/-- A `bread` that has returned a buffer. -/
def returned (h : FlatArray N P) (p : Fin P) (next : BufSys N P) : FlatArray N P :=
  match h.asked p, next.got p with
  | some key, some b =>
    { h with
      asked := update h.asked p none
      reads := h.reads ++ [((key, h.blocks key), ((next.bufs b).key, (next.bufs b).data))] }
  | _, _ => h

end FlatArray

/-- What the calls do to the flat array. -/
def BufSys.note {N P : Nat} (havedisk1 : Bool) (s : BufSys N P) (action : BufAction N P)
    (h : FlatArray N P) : FlatArray N P :=
  match s.step havedisk1 action, action with
  | some next, .bread p key => if next.panicked = none then h.ask p key else h
  | some next, .test p => h.returned p next
  | some next, .wake p => h.returned p next
  | some _, .modify _ b _ => h.modify b
  | some _, .logWrite _ b => h.write b (s.bufs b)
  | some _, .bwrite p b => if (s.bufs b).lock = some p then h.write b (s.bufs b) else h
  | _, _ => h

end Xv6Net
