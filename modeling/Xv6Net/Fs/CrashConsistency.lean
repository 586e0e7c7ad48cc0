import Xv6Net.Fs.BootImage
import Xv6Net.Fs.CrashRecovery
import Xv6Net.Fs.Operations
import Xv6Net.Fs.Reservation

/-! The file system on the log: a crash leaves it as whole operations have left it. -/

namespace Xv6Net.Fs

open Library Transition Store Log Mkfs Program

/-- Every transaction holds what a sequence of operations has changed on the disk. -/
def Commits (env : FsEnv) : FsState → List Writes → Prop
  | _, [] => True
  | s, tx :: rest =>
    ∃ ops next,
      exec (step env) s ops = some next ∧ next.disk = apply s.disk tx ∧ Commits env next rest

/-- The disk after `k` writes of the transactions, crashes in the recovery and a whole recovery. -/
def restarted (g : Geometry) (disk : Nat → Block) (txs : List Writes) (k : Nat) (cuts : List Nat)
    : Nat → Block :=
  recovered g (cuts.foldl (recoverCut g) (apply disk ((diskWrites g (Mem.boot disk) txs).take k)))

variable {env : FsEnv} {s : FsState} {txs : List Writes}

theorem Commits.reached (commits : Commits env s txs) (n : Nat)
    : ∃ ops reached, exec (step env) s ops = some reached
        ∧ reached.disk = apply s.disk (txs.take n).flatten := by
  induction txs generalizing s n with
  | nil => exact ⟨[], s, rfl, by simp⟩
  | cons tx rest ih =>
    cases n with
    | zero => exact ⟨[], s, rfl, rfl⟩
    | succ n =>
      obtain ⟨ops, next, run, disk, later⟩ := commits
      obtain ⟨more, reached, after, same⟩ := ih later n
      refine ⟨ops ++ more, reached, ?_, ?_⟩
      · rw [exec_append, run, Option.bind_some, after]
      · rw [same, disk, List.take_succ_cons, List.flatten_cons, apply_append]

/-- After a crash at any point of the transactions, and any crashes inside the recovery, the blocks
outside the log are those of a state that operations have reached. It has all transactions whose
writes were done.
-/
theorem crash_leaves_operations {g : Geometry} (clear : loadInt (s.disk g.start) 0 = 0)
    (valid : ∀ tx ∈ txs, Transaction g tx) (commits : Commits env s txs) (k : Nat) (cuts : List Nat)
    : ∃ whole ops reached,
        (∀ i ≤ txs.length, (diskWrites g (Mem.boot s.disk) (txs.take i)).length ≤ k → i ≤ whole)
        ∧ exec (step env) s ops = some reached
        ∧ reached.disk = apply s.disk (txs.take whole).flatten
        ∧ ∀ b, Outside g b → restarted g s.disk txs k cuts b = reached.disk b := by
  obtain ⟨-, whole, -, stands, atLeast, -⟩ :=
    transactions_cut (m := Mem.boot s.disk) valid rfl clear k
  obtain ⟨ops, reached, run, disk⟩ := commits.reached whole
  refine ⟨whole, ops, reached, atLeast, run, disk, ?_⟩
  rw [disk]
  exact (stands.crashes cuts).recovered.2

/-- A log of one block before the inodes of `smallDisk`. -/
def oneBlock : Geometry := ⟨0, 2, by decide⟩

/-- The crash comes when the log holds the block of an inode that gets a second link. -/
theorem crash_leaves_operations_link
    : ∃ tx ops reached, Commits smallEnv smallState [tx]
        ∧ exec (step smallEnv) smallState ops = some reached
        ∧ ∀ b, Outside oneBlock b → restarted oneBlock smallDisk [tx] 2 [] b = reached.disk b := by
  have commits : Commits smallEnv smallState [[(2, _)]] :=
    ⟨[.iupdate 0 0 0 2], _, rfl, rfl, trivial⟩
  have valid : ∀ block, Transaction oneBlock [(2, block)] := fun _ =>
    ⟨by simp, by simp [Outside, oneBlock], by simp, by simp, by simp [oneBlock]⟩
  obtain ⟨-, ops, reached, -, run, -, same⟩ := crash_leaves_operations (by decide)
    (List.forall_mem_singleton.mpr (valid _)) commits 2 []
  exact ⟨_, ops, reached, commits, run, same⟩

variable {sb : Superblock} {disk disk' : Nat → Block}

/-- Block ownership says nothing about the blocks before the inodes. -/
theorem BlocksOwned.congr (h : BlocksOwned sb disk)
    (same : ∀ b, sb.inodestart ≤ b → disk' b = disk b)
    : BlocksOwned sb disk' := by
  have fits := sb.inodesFit
  have inodes : dinodeAt sb disk' = dinodeAt sb disk :=
    funext fun i => dinodeAt_congr (same _ (Nat.le_add_left ..))
  have marks : marked sb disk' = marked sb disk :=
    funext fun b => marked_congr (same _ (by rw [Superblock.bblock]; omega))
  have used : allocated sb disk' = allocated sb disk := by
    funext i
    rw [allocated, allocated, inodes]
  have pointers : ∀ i, allocated sb disk i → ∀ k,
      pointer disk' (dinodeAt sb disk i) k = pointer disk (dinodeAt sb disk i) k := by
    intro i used
    refine pointer_congr fun present => same _ ?_
    have data := (h.data i used 140 le_rfl ((pointer_indirect_ne ..).mpr present)).1
    rw [pointer_indirect, Superblock.dataStart] at data
    omega
  obtain ⟨small, set, indirect, data, distinct, bitmap, reserved⟩ := h
  constructor <;> simp only [inodes, marks, used] <;> grind

theorem BlocksOwned.unused_ok (owned : BlocksOwned sb disk) : FsOk sb (unused disk) :=
  ⟨owned, by simp [unused], by simp [unused], by simp [unused, Cached]⟩

theorem FsOk.exec {ops : List FsOp} {next : FsState} (ok : FsOk env.sb s)
    (run : exec (step env) s ops = some next)
    : FsOk env.sb next := by
  refine (Throughout.invariant ok (fun current op after ok taken => ?_) ops).finish run
  obtain ⟨allowed, taken⟩ := Option.ite_none_right_eq_some.mp taken
  obtain ⟨_, ended, rfl⟩ := Option.map_eq_some_iff.mp taken
  exact (op.ensures ok allowed).ends _ ended

/-- On an image of `mkfs`, unless the root directory fills its last block, the operations keep block
ownership, before a crash and after it.
-/
theorem image_crash_safe (files : List InputFile) (names : ∀ file ∈ files, slash ∉ file.name)
    (fits : Fits files) (part : (files.length + 2) % 32 ≠ 0) (env : FsEnv) (sb : env.sb = mkfsSb)
    : ∃ img, mkfs files = some img
        ∧ ∀ txs, (∀ tx ∈ txs, Transaction LogSys.mkfsLog tx) → Commits env (unused img.disk) txs
          → ∀ k cuts ops next,
              exec (step env) (unused (restarted LogSys.mkfsLog img.disk txs k cuts)) ops
                = some next
              → BlocksOwned env.sb next.disk := by
  obtain ⟨made, img, built, catalog, disk, -⟩ := mkfs_spec names fits
  refine ⟨img, built, fun txs valid commits k cuts ops next run => ?_⟩
  have disk : img.disk = made.finished := disk
  have owned : BlocksOwned env.sb img.disk := by
    rw [disk, sb]
    exact catalog.adjusted_owned fits.inodes part
  have clear : loadInt (img.disk 2) 0 = 0 := by
    rw [disk, catalog.low_finished (by decide)]
    decide
  obtain ⟨-, whole, -, stands, -⟩ := transactions_cut (m := Mem.boot img.disk) valid rfl clear k
  obtain ⟨_, reached, ran, same⟩ := commits.reached whole
  have survives : BlocksOwned env.sb (restarted LogSys.mkfsLog img.disk txs k cuts) := by
    refine (owned.unused_ok.exec ran).owned.congr fun b inode => ?_
    rw [same]
    -- the log ends where the inodes start
    rw [sb] at inode
    exact (stands.crashes cuts).recovered.2 b (Or.inr inode)
  exact (survives.unused_ok.exec run).owned

/-- `ialloc` changes one block. -/
theorem iallocLoop_writes {type : UInt16} {fuel inum : Nat}
    : Ensures Sound True (iallocLoop rootDev type fuel inum) env s fun _ after =>
        ∃ b block, after.disk = apply s.disk [(b, block)] := by
  induction fuel generalizing inum with
  | zero => exact panic_ensures (by decide) trivial
  | succ fuel ih =>
    rw [iallocLoop]
    refine sb_next (.ite (fun _ => ?_) fun _ => panic_ensures (by decide) trivial)
    refine bread_next (.ite (fun _ => updateBlock_next ?_) fun _ => ih)
    have sound : Sound (.panic .igetNoInodes) := by simp [Sound]
    exact (iget_ensures fun _ => ⟨sound, trivial⟩).weaken fun _ _ got => ⟨_, _, got.disk⟩

theorem ialloc_writes {type : UInt16} {next : FsState}
    (run : exec (step env) s [.ialloc type] = some next)
    : ∃ b block, next.disk = apply s.disk [(b, block)] := by
  obtain ⟨after, taken, ⟨⟩⟩ := Option.bind_eq_some_iff.mp run
  obtain ⟨-, taken⟩ := Option.ite_none_right_eq_some.mp taken
  obtain ⟨_, ended, rfl⟩ := Option.map_eq_some_iff.mp taken
  have writes : Ensures Sound True (FsOp.program (.ialloc type)) env s fun _ after =>
      ∃ b block, after.disk = apply s.disk [(b, block)] :=
    Ensures.bind (sb_next iallocLoop_writes) fun _ _ disk => .pure disk
  exact writes.ends _ ended

/-- A crash when the log holds the inode that `ialloc` has allocated, another one inside the
recovery, and `ialloc` again after the reboot.
-/
theorem image_crash_safe_ialloc
    : ∃ img tx next, mkfs [hiFile] = some img
        ∧ tx ≠ []
        ∧ Commits bootEnv (unused img.disk) [tx]
        ∧ exec (step bootEnv) (unused (restarted LogSys.mkfsLog img.disk [tx] 2 [1]))
            [.ialloc tFile] = some next
        ∧ BlocksOwned mkfsSb next.disk := by
  obtain ⟨img, built, safe⟩ := image_crash_safe [hiFile] (by decide)
    ⟨by decide, by decide, by decide⟩ (by decide) bootEnv rfl
  -- the image is computed, as far as the two calls read it
  have calls : ((mkfs [hiFile]).bind fun img =>
      (exec (step bootEnv) (unused img.disk) [.ialloc tFile]).bind fun mid =>
        (exec (step bootEnv)
          (unused (restarted LogSys.mkfsLog img.disk [[(32, mid.disk 32)]] 2 [1]))
          [.ialloc tFile]).map fun _ => decide (mid.disk 32 192 ≠ img.disk 32 192))
      = some true := by
    decide +kernel
  rw [built, Option.bind_some] at calls
  obtain ⟨mid, run, calls⟩ := Option.bind_eq_some_iff.mp calls
  obtain ⟨next, later, changed⟩ := Option.map_eq_some_iff.mp calls
  obtain ⟨b, block, disk⟩ := ialloc_writes run
  obtain rfl : b = 32 := by
    by_contra other
    refine of_decide_eq_true changed ?_
    rw [disk]
    exact congrFun (Function.update_of_ne (Ne.symm other) block (unused img.disk).disk) 192
  have whole : mid.disk 32 = block := by
    rw [disk]
    exact Function.update_self 32 block (unused img.disk).disk
  have valid (block : Block) : Transaction LogSys.mkfsLog [(32, block)] := by
    refine ⟨List.nodup_singleton _, List.forall_mem_singleton.mpr (Or.inr ?_),
      List.forall_mem_singleton.mpr ?_, ?_, ?_⟩ <;> simp only [List.length_singleton] <;> decide
  have commits : Commits bootEnv (unused img.disk) [[(32, mid.disk 32)]] :=
    ⟨_, mid, run, whole ▸ disk, trivial⟩
  exact ⟨img, _, next, built, List.cons_ne_nil _ _, commits, later,
    safe _ (List.forall_mem_singleton.mpr (valid _)) commits 2 [1] _ next later⟩

end Xv6Net.Fs
