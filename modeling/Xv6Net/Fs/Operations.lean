import Xv6Net.Fs.Lookup
import Xv6Net.Library.Transition

/-! Sequences of file-system operations: every one keeps block ownership. -/

namespace Xv6Net.Fs

open Library Program Transition

/-- An operation on inodes and on slots of the inode cache, which runs as a whole. -/
inductive FsOp where
  | ialloc (type : UInt16)
  | iget (inum : Nat)
  | idup (ip : Nat)
  | ilock (ip : Nat)
  | iunlock (ip : Nat)
  /-- A change of the fields that `create`, `sys_link` and `sys_unlink` change, and `iupdate`. -/
  | iupdate (ip : Nat) (major minor nlink : UInt16)
  | readi (ip : Nat) (off n : UInt32)
  | writei (ip : Nat) (src : Int → UInt8) (off n : UInt32)
  | dirlink (dp : Nat) (name : List UInt8) (inum : Nat)
  | iput (ip : Nat)

namespace FsOp

def program : FsOp → FsM Unit
  | .ialloc type => do let _ ← Fs.ialloc rootDev type
  | .iget inum => do let _ ← Fs.iget rootDev inum
  | .idup ip => do let _ ← Fs.idup ip
  | .ilock ip => Fs.ilock ip
  | .iunlock ip => Fs.iunlock ip
  | .iupdate ip major minor nlink => do
    setCopy ip fun copy => { copy with major, minor, nlink }
    Fs.iupdate ip
  | .readi ip off n => do let _ ← Fs.readi ip off n
  | .writei ip src off n => do let _ ← Fs.writei ip src off n
  | .dirlink dp name inum => do let _ ← Fs.dirlink dp name inum
  | .iput ip => Fs.iput ip

/-- What the callers see to: a slot is only used by those who have a reference to it, its inode
only once it has been read, and only inodes of the table are locked.
-/
def Allowed (sb : Superblock) (s : FsState) : FsOp → Prop
  | .ialloc _ | .iget _ => True
  | .idup ip | .iunlock ip | .iput ip => ip < nInode ∧ 0 < (s.icache ip).ref
  | .ilock ip => ip < nInode ∧ (s.icache ip).inum < sb.ninodes
  | .iupdate ip _ _ _ | .readi ip _ _ | .writei ip _ _ _ | .dirlink ip _ _ => Cached s ip

instance (s : FsState) (ip : Nat) : Decidable (Cached s ip) :=
  inferInstanceAs (Decidable (_ ∧ _ ∧ _))

instance (sb : Superblock) (s : FsState) : (op : FsOp) → Decidable (op.Allowed sb s)
  | .ialloc _ | .iget _ => isTrue trivial
  | .idup _ | .iunlock _ | .iput _ | .ilock _ => inferInstanceAs (Decidable (_ ∧ _))
  | .iupdate ip _ _ _ | .readi ip _ _ | .writei ip _ _ _ | .dirlink ip _ _ =>
    inferInstanceAs (Decidable (Cached s ip))

end FsOp

/-- An operation that panics, or waits for ever, leaves no state. -/
def step (env : FsEnv) (s : FsState) (op : FsOp) : Option FsState :=
  if op.Allowed env.sb s then
    let out := op.program.run env s
    out.value.map fun _ => out.state
  else none

section

variable {env : FsEnv} {s : FsState} {ip : Nat}

section

variable (fs : FsOk env.sb s)
include fs

/-- A change of the fields that do not say where the contents are, and then `iupdate`. -/
theorem FsOk.relabelled (cached : Cached s ip) {change : Dinode → Dinode}
    (type : (change (s.icache ip).copy).type = (s.icache ip).copy.type)
    (size : (change (s.icache ip).copy).size = (s.icache ip).copy.size)
    (addrs : (change (s.icache ip).copy).addrs = (s.icache ip).copy.addrs)
    : let s' := withSlot s ip fun node => { node with copy := change node.copy }
      FsOk env.sb (updated env.sb s' ip) ∧ Elsewhere env.sb ip s (updated env.sb s' ip) := by
  intro s'
  have slot : s'.icache ip = { s.icache ip with copy := change (s.icache ip).copy } :=
    withSlot_self ..
  have still : Elsewhere env.sb ip s s' := by
    refine ⟨fun jp other => withSlot_of_ne _ other, ?_, .refl⟩
    rw [slot]
  have blocks : (s'.icache ip).copy.blocks = (s.icache ip).copy.blocks := by
    rw [slot, Dinode.blocks, size]
    rfl
  have pointers : ∀ k, pointer s'.disk (s'.icache ip).copy k
      = pointer s.disk (s.icache ip).copy k := by
    intro k
    rw [slot, pointer, pointer, addrs]
    rfl
  refine fs.commit cached still ?_ ?_ ?_ ?_
  · rw [blocks]
    exact (fs.working cached).keep still (fun k _ => pointers k) fun _ _ => rfl
  · intro k last
    rw [blocks, pointers]
    exact fs.shaped cached k last
  · rw [blocks]
    exact fs.small cached
  · rw [slot, type, (fs.synced ip cached).2]
    exact (fs.synced ip cached).1.2

theorem FsOk.withSlot {change : Inode → Inode}
    (inum : (change (s.icache ip)).inum = (s.icache ip).inum)
    (dev : (change (s.icache ip)).dev = (s.icache ip).dev) (referenced : 0 < (s.icache ip).ref)
    (valid : (change (s.icache ip)).valid = (s.icache ip).valid)
    (copy : (change (s.icache ip)).copy = (s.icache ip).copy)
    : FsOk env.sb (withSlot s ip change) := by
  refine fs.slot_changed rfl (fun jp other => withSlot_of_ne _ other) ?_ ?_ (fun _ => referenced) ?_
  · rw [withSlot_self, inum]
  · rw [withSlot_self, dev]
  · rw [withSlot_self, valid, copy]
    exact fun read => ⟨read, rfl⟩

theorem readi_ensures (cached : Cached s ip) (off n : UInt32)
    : Ensures Sound True (readi ip off n) env s fun _ after => FsOk env.sb after := by
  by_cases file : (s.icache ip).copy.type = tDev
  · rw [readi]
    refine .next rfl (inode_next ?_)
    rw [if_pos file]
    refine .ite (fun _ => .pure fs) fun _ => ?_
    split
    · exact .pure fs
    · exact .pure fs
  · exact .of_run (readi_run fs cached file) fs

theorem writei_consistent (cached : Cached s ip) (src : Int → UInt8) (off n : UInt32)
    : Ensures Sound True (writei ip src off n) env s fun _ after => FsOk env.sb after := by
  by_cases file : (s.icache ip).copy.type = tDev
  · rw [writei]
    refine .next rfl (inode_next ?_)
    rw [if_pos file]
    refine .ite (fun _ => .pure fs) fun _ => ?_
    split
    · exact .pure fs
    · exact .pure fs
  · by_cases refused : Refused (s.icache ip).copy off n
    · exact .of_run (writei_refused file refused) fs
    · exact (writei_ensures fs cached file refused).mono (fun _ => trivial)
        fun _ after stored => stored.2.ok

theorem FsOp.ensures (op : FsOp) (allowed : op.Allowed env.sb s)
    : Ensures Sound True op.program env s fun _ after => FsOk env.sb after := by
  cases op with
  | ialloc =>
    refine (ialloc_ensures fs).bind ?_
    rintro ip after ⟨inum, made⟩
    exact .pure made.ok
  | iget =>
    refine (iget_ensures fun _ => ⟨⟨nofun, nofun⟩, trivial⟩).bind fun ip after got => ?_
    exact .pure (got.ok fs)
  | idup ip =>
    have duplicated : Ensures Sound True (Fs.idup ip) env s fun _ after => FsOk env.sb after :=
      setInode_next (.pure (fs.withSlot rfl rfl allowed.2 rfl rfl))
    exact duplicated.bind fun _ after ok => .pure ok
  | ilock =>
    exact (ilock_ensures fs allowed.1 allowed.2).weaken fun _ after locked => locked.ok
  | iunlock =>
    refine inode_next (.ite (fun _ => panic_ensures (by decide) trivial) fun _ => ?_)
    exact setInode_ensures (fs.withSlot rfl rfl allowed.2 rfl rfl)
  | iupdate ip major minor nlink =>
    have relabelled := @FsOk.relabelled env s ip fs allowed
      (fun copy => { copy with major, minor, nlink }) rfl rfl rfl
    exact setInode_next (iupdate_ensures relabelled.1)
  | readi ip off n => exact (readi_ensures fs allowed off n).bind fun _ after ok => .pure ok
  | writei ip src off n =>
    exact (writei_consistent fs allowed src off n).bind fun _ after ok => .pure ok
  | dirlink =>
    refine (dirlink_ensures fs allowed).bind ?_
    rintro r after ⟨-, entered⟩
    refine .pure ?_
    cases entered with
    | refused found dropped => exact dropped.ok
    | stored _ _ stored => exact stored.ok
  | iput =>
    exact (iput_ensures fs allowed.1 allowed.2).mono (fun _ => trivial)
      fun _ after dropped => dropped.ok

end

end

/-- What holds in every state: the blocks are owned, and no allowed operation frees a free block. -/
structure Owning (env : FsEnv) (s : FsState) : Prop where
  owned : BlocksOwned env.sb s.disk
  freed : ∀ op : FsOp, op.Allowed env.sb s → .panic .freeingFreeBlock ∉ (op.program.run env s).log

/-- From a disk whose blocks are owned, with an inode cache without references, every sequence of
operations keeps block ownership, and never frees a free block.
-/
theorem operations_keep_ownership (env : FsEnv) (s : FsState) (owned : BlocksOwned env.sb s.disk)
    (empty : ∀ ip < nInode, (s.icache ip).ref = 0) (ops : List FsOp)
    : Throughout (step env) (Owning env) s ops := by
  have initially : FsOk env.sb s := by
    have none_ : ∀ ip < nInode, ¬ 0 < (s.icache ip).ref := by
      intro ip inside
      rw [empty ip inside]
      decide
    exact ⟨owned, fun ip inside _ _ referenced => absurd referenced (none_ ip inside),
      fun ip inside referenced => absurd referenced (none_ ip inside),
      fun ip cached => absurd cached.2.1 (none_ ip cached.1)⟩
  have kept : ∀ current op next, FsOk env.sb current → step env current op = some next
      → FsOk env.sb next := by
    intro current op next ok taken
    rw [step] at taken
    split at taken
    next allowed =>
      obtain ⟨_, ended, rfl⟩ := Option.map_eq_some_iff.mp taken
      exact (op.ensures ok allowed).ends _ ended
    next => cases taken
  refine (Throughout.invariant initially kept ops).mono fun current ok => ⟨ok.owned, ?_⟩
  intro op allowed member
  exact ((op.ensures ok allowed).logged _ member).1 rfl

def smallEnv : FsEnv := { sb := smallSb, devRead := fun _ => none, devWrite := fun _ => none }

/-- A file is made and written, and freed again with its last reference. -/
def makeAndFree : List FsOp :=
  [.ialloc tFile, .ilock 0, .iupdate 0 0 0 1, .writei 0 (fun _ => 104) 0 2, .iupdate 0 0 0 0,
    .iunlock 0, .iput 0]

set_option maxRecDepth 20000 in
theorem operations_keep_ownership_small
    : (exec (step smallEnv) (unused smallDisk) makeAndFree).isSome = true
        ∧ Throughout (step smallEnv) (Owning smallEnv) (unused smallDisk) makeAndFree :=
  ⟨by decide +kernel,
    operations_keep_ownership smallEnv (unused smallDisk) smallDisk_owned (fun _ _ => rfl)
      makeAndFree⟩

end Xv6Net.Fs
