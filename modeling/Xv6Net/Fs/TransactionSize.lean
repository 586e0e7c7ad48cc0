import Xv6Net.Fs.GroupCommit
import Xv6Net.Fs.InodeCache
import Xv6Net.Fs.SystemCalls

/-! How many blocks `filewrite` logs in one transaction: the data blocks, which may be unaligned,
the blocks of the bitmap for those that are new, the indirect block with its own bit, and the block
of the inode.
-/

namespace Xv6Net

open Library Memory Program Function

def FsEvent.block? : FsEvent → Option Nat
  | .logWrite b => some b
  | _ => none

namespace Fs

/-- The different blocks on which `log_write` is called. -/
def loggedBlocks (log : List FsEvent) : Finset Nat := (log.filterMap FsEvent.block?).toFinset

@[simp]
theorem loggedBlocks_nil : loggedBlocks [] = ∅ := rfl

@[simp]
theorem loggedBlocks_append (log more : List FsEvent)
    : loggedBlocks (log ++ more) = loggedBlocks log ∪ loggedBlocks more := by
  simp [loggedBlocks]

@[simp]
theorem loggedBlocks_logWrite (b : Nat) (log : List FsEvent)
    : loggedBlocks (.logWrite b :: log) = insert b (loggedBlocks log) := by
  simp [loggedBlocks, FsEvent.block?]

def Quiet (event : FsEvent) : Prop := event.block? = none

/-- Programs that do not log add no blocks. -/
theorem loggedBlocks_of_quiet {log : List FsEvent} (quiet : ∀ event ∈ log, Quiet event)
    : loggedBlocks log = ∅ := by
  have none_ : log.filterMap FsEvent.block? = [] := List.filterMap_eq_nil_iff.mpr quiet
  rw [loggedBlocks, none_]
  rfl

section

variable {env : FsEnv} {s : FsState} {ip : Nat}

variable {β : Type} {post : Option β → FsState → List FsEvent → Prop} {b k : Nat}
  {next : Unit → FsM β} {log : List FsEvent}

theorem sb_leaves {next : Superblock → FsM β} (rest : Leaves (next env.sb) env s post)
    : Leaves (sb >>= next) env s post :=
  .next rfl rest

theorem bread_leaves {next : Block → FsM β} (rest : Leaves (next (s.disk b)) env s post)
    : Leaves (bread b >>= next) env s post :=
  .next rfl rest

theorem inode_leaves {next : Inode → FsM β} (rest : Leaves (next (s.icache ip)) env s post)
    : Leaves (inode ip >>= next) env s post :=
  .next rfl rest

theorem setInode_leaves {change : Inode → Inode}
    (rest : Leaves (next ()) env (withSlot s ip change) post)
    : Leaves (setInode ip change >>= next) env s post :=
  .next rfl rest

theorem updateBlock_leaves {change : Block → Block}
    (rest : Leaves (next ()) env
      { s with disk := update s.disk b (change (s.disk b)) }
      fun value after log => post value after (.logWrite b :: log))
    : Leaves (updateBlock b change >>= next) env s post :=
  rest

theorem iupdate_leaves
    (rest : Leaves (next ()) env (updated env.sb s ip) fun value after log =>
      post value after (.logWrite (env.sb.iblock (s.icache ip).inum) :: log))
    : Leaves (iupdate ip >>= next) env s post :=
  rest

theorem panic_leaves {α : Type} {reason : FsPanic} {post : Option α → FsState → List FsEvent → Prop}
    (holds : post none s [.panic reason])
    : Leaves (panic reason : FsM α) env s post :=
  holds

/-- The block that a program returns, if it returns. -/
def newBlock (value : Option UInt32) : Finset Nat := value.elim ∅ fun addr => {addr.toNat}

variable {fuel : Nat} {mid : FsState} {src : Int → UInt8}

/-- `balloc` logs a block of the bitmap and the block that it clears. -/
theorem ballocLoop_leaves
    : Leaves (ballocLoop fuel b) env s fun value after log =>
        after.icache = s.icache ∧ ∃ c, loggedBlocks log ⊆ insert c (newBlock value) := by
  induction fuel generalizing b with
  | zero => exact panic_leaves ⟨rfl, 0, Finset.empty_subset _⟩
  | succ fuel ih =>
    rw [ballocLoop]
    refine sb_leaves (.ite (fun inside => ?_) fun _ => panic_leaves ⟨rfl, 0, Finset.empty_subset _⟩)
    refine bread_leaves ?_
    cases found : scanBits (s.disk (env.sb.bblock b)) b env.sb.size 4096 0 with
    | some bi =>
      obtain ⟨-, high, -⟩ := scanBits_some found
      have fits := env.sb.sizeFits
      have addr : (UInt32.ofNat (b + bi)).toNat = b + bi :=
        UInt32.toNat_ofNat_of_lt' (by rw [UInt32.size]; omega)
      refine updateBlock_leaves (updateBlock_leaves (.pure ⟨rfl, env.sb.bblock b, ?_⟩))
      rw [newBlock, Option.elim_some, addr]
      simp
    | none => exact ih

/-- `balloc` logs a bitmap block and the block that it zeroes. -/
theorem balloc_leaves
    : Leaves balloc env s fun value after log =>
        after.icache = s.icache ∧ ∃ c, loggedBlocks log ⊆ insert c (newBlock value) :=
  .next rfl ballocLoop_leaves

/-- `addrOrAlloc` logs nothing if the pointer is there, and otherwise as `balloc`. -/
theorem addrOrAlloc_leaves {i : Fin 13} (absent : (s.icache ip).copy.addrs i = 0)
    : Leaves (addrOrAlloc ip i) env s fun value after log =>
        (∃ c, loggedBlocks log ⊆ insert c (newBlock value))
        ∧ (∀ addr, value = some addr → (after.icache ip).copy.addrs i = addr)
        ∧ (∀ j, j ≠ i → (after.icache ip).copy.addrs j = (s.icache ip).copy.addrs j)
        ∧ (value = none → after.icache = s.icache) := by
  rw [addrOrAlloc]
  refine inode_leaves ?_
  rw [if_pos absent]
  refine balloc_leaves.bind ?_ ?_
  · rintro after log ⟨slots, blocks⟩
    exact ⟨blocks, by rintro _ ⟨⟩, fun j _ => by rw [slots], fun _ => slots⟩
  · rintro addr after log ⟨slots, blocks⟩
    rw [setAddr, setCopy]
    refine setInode_leaves (.pure ⟨?_, ?_, ?_, by rintro ⟨⟩⟩)
    · rw [List.append_nil]
      exact blocks
    · intro _ same
      rw [← Option.some.inj same, withSlot_self]
      exact update_self ..
    · intro j other
      rw [withSlot_self, ← slots]
      exact update_of_ne other ..

/-- What `bmap` logs: a block of the bitmap and the new block, beside them the indirect block if it
is used, and one more block of the bitmap if the indirect block is new.
-/
inductive BmapLog (ip k : Nat) (s : FsState) (value : Option UInt32) (after : FsState)
    (log : List FsEvent)
    : Prop where
  | direct (c : Nat) (small : k < 12)
      (kept : (after.icache ip).copy.addrs 12 = (s.icache ip).copy.addrs 12)
      (blocks : loggedBlocks log ⊆ insert c (newBlock value))
  | indirect (c : Nat) (present : (s.icache ip).copy.addrs 12 ≠ 0)
      (kept : (after.icache ip).copy.addrs 12 = (s.icache ip).copy.addrs 12)
      (blocks : loggedBlocks log
        ⊆ insert ((s.icache ip).copy.addrs 12).toNat (insert c (newBlock value)))
  | fresh (c c' : Nat) (absent : (s.icache ip).copy.addrs 12 = 0) (large : 12 ≤ k)
      (blocks : loggedBlocks log
        ⊆ insert c' (insert ((after.icache ip).copy.addrs 12).toNat (insert c (newBlock value))))

theorem entry_leaves {addr : UInt32}
    : Leaves (do
        let bp ← bread addr.toNat
        let entry := load32 bp (4 * (k - 12 : Nat))
        if entry = 0 then
          let entry ← balloc
          updateBlock addr.toNat (fun data => overlay data (4 * (k - 12 : Nat)) (bytes32 entry))
          return entry
        else return entry : FsM UInt32) env s fun value after log =>
          after.icache = s.icache
          ∧ ∃ c, loggedBlocks log ⊆ insert addr.toNat (insert c (newBlock value)) := by
  refine bread_leaves (.ite (fun _ => ?_) fun _ => .pure ⟨rfl, 0, Finset.empty_subset _⟩)
  refine balloc_leaves.bind ?_ ?_
  · rintro after log ⟨slots, c, blocks⟩
    exact ⟨slots, c, blocks.trans (Finset.subset_insert ..)⟩
  · rintro entry after log ⟨slots, c, blocks⟩
    refine updateBlock_leaves (.pure ⟨slots, c, ?_⟩)
    rw [loggedBlocks_append, loggedBlocks_logWrite, loggedBlocks_nil]
    exact Finset.union_subset (blocks.trans (Finset.subset_insert ..)) (by simp)

/-- `bmap` allocates at most one block and the indirect block. -/
theorem bmap_leaves
    : Leaves (bmap ip k) env s (BmapLog ip k s) := by
  rw [bmap]
  by_cases direct : k < 12
  · rw [dif_pos direct]
    by_cases absent : (s.icache ip).copy.addrs ⟨k, by omega⟩ = 0
    · refine (addrOrAlloc_leaves absent).weaken ?_
      rintro value after log ⟨⟨c, blocks⟩, -, others, -⟩
      refine .direct c direct (others 12 fun same => ?_) blocks
      have value := congrArg Fin.val same
      simp at value
      omega
    · exact .of_run (addrOrAlloc_present absent) (.direct 0 direct rfl (Finset.empty_subset _))
  · rw [dif_neg direct]
    refine .ite (fun _ => ?_) fun _ => ?_
    · by_cases absent : (s.icache ip).copy.addrs 12 = 0
      · refine (addrOrAlloc_leaves absent).bind ?_ ?_
        · rintro after log ⟨⟨c, blocks⟩, -⟩
          refine .fresh 0 c absent (by omega) (blocks.trans (Finset.insert_subset_insert c ?_))
          exact Finset.empty_subset _
        · rintro addr mid log ⟨⟨c, blocks⟩, set_, -⟩
          refine entry_leaves.weaken ?_
          rintro value after more ⟨slots, c', blocks'⟩
          have there : (after.icache ip).copy.addrs 12 = addr := by rw [slots, set_ addr rfl]
          refine .fresh c' c absent (by omega) ?_
          rw [loggedBlocks_append, there]
          refine Finset.union_subset (blocks.trans ?_) (blocks'.trans (Finset.subset_insert ..))
          refine Finset.insert_subset_insert c ?_
          simp [newBlock]
      · refine .next (addrOrAlloc_present absent) (entry_leaves.weaken ?_)
        rintro value after log ⟨slots, c, blocks⟩
        exact .indirect c absent (by rw [slots]) blocks
    · refine panic_leaves ?_
      by_cases absent : (s.icache ip).copy.addrs 12 = 0
      · exact .fresh 0 0 absent (by omega) (Finset.empty_subset _)
      · exact .indirect 0 absent rfl (Finset.empty_subset _)

/-- The logged blocks that have to do with the indirect block: two at most, and only itself if it is
there.
-/
structure Overhead (ip : Nat) (s : FsState) (base : Finset Nat) : Prop where
  few : base.card ≤ 2
  present : (s.icache ip).copy.addrs 12 ≠ 0 → base = {((s.icache ip).copy.addrs 12).toNat}

theorem Overhead.exists (ip : Nat) (s : FsState) : ∃ base, Overhead ip s base :=
  ⟨_, Nat.le_succ_of_le (Finset.card_singleton _).le, fun _ => rfl⟩

/-- A call of `bmap` before others adds two blocks to what has to do with the indirect block. -/
theorem BmapLog.overhead {value : Option UInt32} {base : Finset Nat}
    (h : BmapLog ip k s value mid log) (held : 12 ≤ k → (mid.icache ip).copy.addrs 12 ≠ 0)
    (later : Overhead ip mid base)
    : ∃ base' c, Overhead ip s base' ∧ base ⊆ base'
      ∧ loggedBlocks log ⊆ base' ∪ insert c (newBlock value) := by
  cases h with
  | direct c small kept blocks =>
    refine ⟨base, c, ⟨later.few, ?_⟩, Finset.Subset.refl _,
      blocks.trans Finset.subset_union_right⟩
    rw [← kept]
    exact later.present
  | indirect c present kept blocks =>
    rw [← kept] at present
    have same := later.present present
    rw [kept] at same
    refine ⟨base, c, ⟨later.few, fun _ => same⟩, Finset.Subset.refl _, ?_⟩
    rw [same, ← Finset.insert_eq]
    exact blocks
  | fresh c c' absent large blocks =>
    have same := later.present (held large)
    refine ⟨insert c' base, c, ⟨?_, fun present => (present absent).elim⟩,
      Finset.subset_insert .., ?_⟩
    · rw [same]
      exact Finset.card_le_two
    · rw [same, Finset.insert_union, ← Finset.insert_eq]
      exact blocks

/-- What `bmap` has logged when it panics. -/
theorem BmapLog.stopped (h : BmapLog ip k s none mid log)
    : ∃ base c, Overhead ip s base ∧ loggedBlocks log ⊆ insert c base := by
  cases h with
  | direct c small kept blocks =>
    obtain ⟨base, overhead⟩ := Overhead.exists ip s
    exact ⟨base, c, overhead, blocks.trans (Finset.insert_subset_insert c (Finset.empty_subset _))⟩
  | indirect c present kept blocks =>
    refine ⟨{((s.icache ip).copy.addrs 12).toNat}, c, ⟨by simp, fun _ => rfl⟩, ?_⟩
    rw [Finset.insert_comm] at blocks
    exact blocks
  | fresh c c' absent large blocks =>
    refine ⟨{c', ((mid.icache ip).copy.addrs 12).toNat}, c,
      ⟨Finset.card_le_two, fun present => (present absent).elim⟩, ?_⟩
    rw [Finset.insert_comm c c', Finset.pair_comm c]
    exact blocks

section

variable {src : Int → UInt8} {fuel tot off left len : Nat}

/-- The blocks in the log of a transfer into `count` blocks. -/
def TransferLog (ip : Nat) (s : FsState) (count : Nat) (log : List FsEvent) : Prop :=
  ∃ base data, Overhead ip s base ∧ data.card ≤ 2 * count ∧ loggedBlocks log ⊆ base ∪ data

theorem TransferLog.nil (ip : Nat) (s : FsState) (count : Nat) : TransferLog ip s count [] := by
  obtain ⟨base, overhead⟩ := Overhead.exists ip s
  exact ⟨base, ∅, overhead, Nat.zero_le _, Finset.empty_subset _⟩

variable {count : Nat}

/-- One block more of a transfer. -/
theorem TransferLog.cons {k : Nat} {addr : UInt32} {mid mid' : FsState} {log more : List FsEvent}
    (mapped : BmapLog ip k s (some addr) mid log)
    (held : 12 ≤ k → (mid.icache ip).copy.addrs 12 ≠ 0) (slots : mid'.icache = mid.icache)
    (rest : TransferLog ip mid' count more)
    : TransferLog ip s (count + 1) (log ++ .logWrite addr.toNat :: more) := by
  obtain ⟨base, data, overhead, few, blocks⟩ := rest
  have overhead : Overhead ip mid base := ⟨overhead.few, slots ▸ overhead.present⟩
  obtain ⟨base', c, overhead', more_, blocks'⟩ := mapped.overhead held overhead
  refine ⟨base', {c, addr.toNat} ∪ data, overhead', ?_, ?_⟩
  · have total := Finset.card_union_le {c, addr.toNat} data
    have two : ({c, addr.toNat} : Finset Nat).card ≤ 2 := Finset.card_le_two
    omega
  · rw [loggedBlocks_append, loggedBlocks_logWrite, ← Finset.union_assoc]
    refine Finset.union_subset (blocks'.trans Finset.subset_union_left)
      (Finset.insert_subset ?_ (blocks.trans ?_))
    · simp
    · exact Finset.union_subset_union (more_.trans Finset.subset_union_left) (Finset.Subset.refl _)

/-- The state of a transfer at an offset of an inode with `len` blocks. -/
structure Transferring (sb : Superblock) (ip len off : Nat) (s : FsState) : Prop where
  working : Working sb s ip (holds len)
  shaped : Shaped s.disk (s.icache ip).copy (holds len)
  small : len ≤ 140
  inside : off ≤ 512 * len

section

variable (h : Transferring env.sb ip len off s)
include h

theorem Transferring.indirect (many : 12 < len)
    : (s.icache ip).copy.addrs 12 ≠ 0 :=
  h.shaped.indirect.mpr (Or.inr ⟨rfl, many⟩)

/-- One pass of the loop: `bmap`, the bytes of the block, and then the rest of the loop. -/
theorem writeLoop_pass {post : Option Unit → FsState → List FsEvent → Prop}
    {mapped : Option UInt32 → FsState → List FsEvent → Prop} (fits : off + left ≤ 512 * 140)
    (some_ : left ≠ 0) (first_ : Leaves (bmap ip (off / 512)) env s mapped)
    (stopped : ∀ mid log, mapped none mid log → post none mid log)
    (rest : ∀ addr mid log mid' len', mapped (some addr) mid log → mid'.icache = mid.icache
      → off / 512 < len' → Transferring env.sb ip len' (off + min left (512 - off % 512)) mid'
      → Leaves (writeLoop ip src fuel (tot + min left (512 - off % 512))
          (off + min left (512 - off % 512)) (left - min left (512 - off % 512))) env mid'
          fun value after more => post value after (log ++ .logWrite addr.toNat :: more))
    : Leaves (writeLoop ip src (fuel + 1) tot off left) env s post := by
  rw [writeLoop, if_neg some_]
  have block := bmap_ensures h.working h.shaped h.inside (by omega)
  refine (first_.ensures block).bind (fun mid log left_ => stopped mid log left_.1) ?_
  rintro addr mid log ⟨left_, ended⟩
  obtain ⟨grown, there⟩ := ended addr rfl
  have bound := h.small
  have step : off % 512 + min left (512 - off % 512) ≤ 512 := by omega
  generalize min left (512 - off % 512) = m at rest step
  refine updateBlock_leaves ?_
  have stored : Written env.sb ip _ _ off (slice src tot m) mid _ :=
    .block grown.working grown.shaped (by omega) (by omega) (by rw [length_slice]; exact step)
  rw [← there] at stored
  refine rest addr mid log _ (max len (off / 512 + 1)) left_ rfl (by omega) ?_
  exact ⟨stored.working, stored.shaped, by omega, by omega⟩

/-- The loop logs two blocks for each one it writes, beside what has to do with the indirect block.
-/
theorem writeLoop_leaves (fits : off + left ≤ 512 * 140)
    (span : left = 0 ∨ off % 512 + left ≤ 512 * count)
    : Leaves (writeLoop ip src fuel tot off left) env s fun _ _ log =>
        TransferLog ip s count log := by
  induction fuel generalizing s len tot off left count with
  | zero => exact .pure (.nil ip s count)
  | succ fuel ih =>
    by_cases done : left = 0
    · rw [writeLoop, if_pos done]
      exact .pure (.nil ip s count)
    · obtain ⟨count, rfl⟩ : ∃ more, count = more + 1 := ⟨count - 1, by omega⟩
      refine writeLoop_pass h fits done bmap_leaves ?_ ?_
      · intro mid log stopped
        obtain ⟨base, c, overhead, blocks⟩ := stopped.stopped
        refine ⟨base, {c}, overhead, by rw [Finset.card_singleton]; omega, ?_⟩
        rw [Finset.union_comm, ← Finset.insert_eq]
        exact blocks
      · intro addr mid log mid' len' mapped slots more h'
        refine (@ih mid' _ _ _ len' count h' (by omega) (by omega)).weaken fun _ _ more_ rest => ?_
        refine .cons mapped (fun large => ?_) slots rest
        rw [← slots]
        exact h'.indirect (by omega)

/-- The first block of the transfer is there, so that nothing else is logged for it. -/
theorem writeLoop_leaves_present (fits : off + left ≤ 512 * 140) (present : off < 512 * len)
    (span : left - min left (512 - off % 512) ≤ 512 * count)
    : Leaves (writeLoop ip src fuel tot off left) env s fun _ _ log =>
        ∃ b more, TransferLog ip s count more
          ∧ loggedBlocks log ⊆ insert b (loggedBlocks more) := by
  cases fuel with
  | zero => exact .pure ⟨0, [], .nil ip s count, Finset.empty_subset _⟩
  | succ =>
    by_cases done : left = 0
    · rw [writeLoop, if_pos done]
      exact .pure ⟨0, [], .nil ip s count, Finset.empty_subset _⟩
    · have small := h.small
      have set_ : pointer s.disk (s.icache ip).copy (off / 512) ≠ 0 :=
        (h.shaped _ (by omega)).mpr (Or.inl (by omega))
      have mapped : ∃ addr, (bmap ip (off / 512)).run env s = ⟨some addr, s, []⟩
          ∧ addr.toNat = pointer s.disk (s.icache ip).copy (off / 512) :=
        bmap_present (by omega) set_
      obtain ⟨addr, run, -⟩ := mapped
      have first_ : Leaves (bmap ip (off / 512)) env s fun value after log =>
          value = some addr ∧ after = s ∧ log = [] := .of_run run ⟨rfl, rfl, rfl⟩
      refine writeLoop_pass h fits done first_ (by rintro _ _ ⟨⟨⟩, -⟩) ?_
      rintro addr' mid log mid' len' ⟨-, rfl, rfl⟩ slots - h'
      refine (@writeLoop_leaves _ _ _ _ _ _ _ _ _ count h' (by omega) (by omega)).weaken
        fun _ _ more rest => ⟨addr'.toNat, more, ?_, ?_⟩
      · obtain ⟨base, data, overhead, few, blocks⟩ := rest
        exact ⟨base, data, ⟨overhead.few, slots ▸ overhead.present⟩, few, blocks⟩
      · rw [List.nil_append, loggedBlocks_logWrite]

end

end

/-- Two blocks for each block of the file, and two for the rest. -/
theorem TransferLog.card_le {count : Nat} (h : TransferLog ip s count log)
    : (loggedBlocks log).card ≤ 2 + 2 * count := by
  obtain ⟨base, data, overhead, few, blocks⟩ := h
  have total := Finset.card_le_card blocks
  have parts := Finset.card_union_le base data
  have two := overhead.few
  omega

/-- A transfer of 1536 bytes: three blocks if it is aligned, and else a fourth, which is there. -/
theorem writeLoop_card_le {len tot off left : Nat}
    (h : Transferring env.sb ip len off s) (fits : off + left ≤ 512 * 140)
    (present : off % 512 ≠ 0 → off < 512 * len) (short : left ≤ 1536)
    : Leaves (writeLoop ip src fuel tot off left) env s fun _ _ log =>
        (loggedBlocks log).card ≤ 9 := by
  by_cases aligned : off % 512 = 0
  · refine (@writeLoop_leaves _ _ _ _ _ _ _ _ _ 3 h fits (by omega)).weaken fun _ _ log all => ?_
    have total := all.card_le
    omega
  · refine (@writeLoop_leaves_present _ _ _ _ _ _ _ _ _ 3 h fits (present aligned)
      (by omega)).weaken ?_
    rintro _ _ log ⟨b, more, all, blocks⟩
    have total := all.card_le
    have larger := Finset.card_le_card blocks
    have one := Finset.card_insert_le b (loggedBlocks more)
    omega

/-- At most four blocks hold 1536 bytes. -/
theorem writei_leaves {off n : UInt32} (ok : FsOk env.sb s)
    (cached : Cached s ip) (short : n.toNat ≤ 1536)
    : Leaves (writei ip src off n) env s fun _ _ log => (loggedBlocks log).card ≤ 10 := by
  by_cases refused : (s.icache ip).copy.type ≠ tDev ∧ Refused (s.icache ip).copy off n
  · exact .of_run (writei_refused refused.1 refused.2) (Nat.zero_le _)
  rw [writei]
  refine .next rfl (inode_leaves (.ite (fun _ => ?_) fun file => ?_))
  · refine .ite (fun _ => .pure (Nat.zero_le _)) fun _ => ?_
    cases env.devWrite (s.icache ip).copy.major with
    | none | some write => exact .pure (Nat.zero_le _)
  · have fits : ¬ Refused (s.icache ip).copy off n := fun outside => refused ⟨file, outside⟩
    obtain ⟨-, passes, passes'⟩ := tests_of_not_refused fits
    rw [if_neg passes, if_neg passes']
    rw [Refused] at fits
    have blocks : (s.icache ip).copy.blocks = ((s.icache ip).copy.size.toNat + 511) / 512 := rfl
    have start : Transferring env.sb ip (s.icache ip).copy.blocks off.toNat s :=
      ⟨ok.working cached, ok.shaped cached, ok.small cached, by omega⟩
    have transfer : Leaves (writeLoop ip src n.toNat 0 off.toNat n.toNat) env s fun _ _ log =>
        (loggedBlocks log).card ≤ 9 := writeLoop_card_le start (by omega) (by omega) short
    refine transfer.bind (fun _ log few => Nat.le_succ_of_le few) fun _ mid log few => ?_
    refine .ite (fun _ => ?_) fun _ => .pure ?_
    · -- `iupdate` logs the block of the inode
      rw [setCopy]
      refine setInode_leaves (iupdate_leaves (.pure ?_))
      rw [loggedBlocks_append, loggedBlocks_logWrite, loggedBlocks_nil, Finset.union_comm]
      exact (Finset.card_insert_le _ _).trans (Nat.succ_le_succ few)
    · rw [List.append_nil]
      exact Nat.le_succ_of_le few

theorem ilock_leaves (ok : FsOk env.sb s) (inside : ip < nInode)
    (table : (s.icache ip).inum < env.sb.ninodes)
    : Leaves (ilock ip) env s fun value after log =>
        loggedBlocks log = ∅ ∧ ∀ a, value = some a → Locked env.sb ip s after := by
  have quiet : Ensures Quiet True (ilock ip) env s _ :=
    ilock_slot (fun _ => ⟨rfl, trivial⟩) (fun _ => trivial)
      (fun referenced valid => (ok.synced ip ⟨inside, referenced, valid⟩).2)
      fun _ => ⟨rfl, trivial⟩
  exact ⟨loggedBlocks_of_quiet quiet.logged, (ilock_ensures ok inside table).ends⟩

theorem iunlock_quiet : Ensures Quiet True (iunlock ip) env s fun _ _ => True := by
  rw [iunlock]
  refine inode_next (.ite (fun _ => panic_halts ⟨rfl, trivial⟩) fun _ => ?_)
  exact setInode_ensures trivial

end

end Fs

namespace SysFile

open Fs

/-- What `filewrite` does from `begin_op` to `end_op`, for `n1` bytes from byte `i` on. -/
def filewriteOp (f : Fin nFile) (addr : Int → UInt8) (i n1 : Nat) : SysM Int := do
  let file := (← Program.get).files f
  beginOp
  onFs (ilock file.ip)
  let r ← onFs (writei file.ip (fun o => addr (i + o)) file.off (UInt32.ofNat n1))
  if r > 0 then
    setFile f fun file => { file with off := file.off + UInt32.ofInt r }
  onFs (iunlock file.ip)
  endOp
  return r

/-- The transactions of the loop of `filewrite`, each with the state in which it starts and its
log. Before each of them the other processes do what `others` says.
-/
def filewriteOps (env : FsEnv) (others : Nat → SysState → SysState) (f : Fin nFile)
    (addr : Int → UInt8) (n : Nat)
    : Nat → Nat → SysState → List (SysState × List FsEvent)
  | 0, _, _ => []
  | fuel + 1, i, s =>
    if i < n then
      let out := (filewriteOp f addr i (min (n - i) 1536)).run env (others i s)
      (others i s, out.log)
        :: if out.value = some ((min (n - i) 1536 : Nat) : Int) then
            filewriteOps env others f addr n fuel (i + min (n - i) 1536) out.state
          else []
    else []

section

variable {env : FsEnv} {s : SysState} {f : Fin nFile} {addr : Int → UInt8} {i n n1 : Nat}

theorem filewriteLoop_succ (fuel : Nat)
    : filewriteLoop f addr n (fuel + 1) i
      = if i < n then do
          let r ← filewriteOp f addr i (min (n - i) 1536)
          if r < 0 then return -1
          else if r ≠ min (n - i) 1536 then panic .shortFilewrite
          else filewriteLoop f addr n fuel (i + min (n - i) 1536)
        else return n := by
  rw [filewriteLoop]
  simp only [filewriteOp, Program.bind_assoc, Program.ite_bind, Program.pure_bind]

/-- The file is open on an inode of the table, and every inode has its blocks up to its size,
without holes.
-/
structure NoHoles (sb : Superblock) (f : Fin nFile) (s : SysState) : Prop where
  ok : FsOk sb s.fs
  slot : (s.files f).ip < nInode
  table : (s.fs.icache (s.files f).ip).inum < sb.ninodes

/-- One operation of `filewrite` fits in what `begin_op` has reserved. -/
theorem filewriteOp_leaves (regular : NoHoles env.sb f s) (short : n1 ≤ 1536)
    : Leaves (filewriteOp f addr i n1) env s fun _ _ log => (loggedBlocks log).card ≤ 10 := by
  rw [filewriteOp]
  refine .next rfl (.next rfl ?_)
  have locking : Leaves (onFs (ilock (s.files f).ip)) env
      { s with outstanding := s.outstanding + 1 } fun value after log =>
        loggedBlocks log = ∅ ∧ ∀ a, value = some a → Locked env.sb (s.files f).ip s.fs after.fs :=
    .focus (ilock_leaves regular.ok regular.slot regular.table)
  refine locking.bind (fun _ log quiet => by rw [quiet.1]; exact Nat.zero_le _) ?_
  rintro _ mid log ⟨quiet, locked⟩
  have locked := locked () rfl
  have count : (UInt32.ofNat n1).toNat ≤ 1536 := by
    rw [UInt32.toNat_ofNat_of_lt' (by rw [UInt32.size]; omega)]
    exact short
  have writing : Leaves (onFs (writei (s.files f).ip (fun o => addr (i + o)) (s.files f).off
      (UInt32.ofNat n1))) env mid fun _ _ log => (loggedBlocks log).card ≤ 10 :=
    .focus (writei_leaves locked.ok locked.cached count)
  refine writing.bind (fun _ more few => ?_) fun r later more few => ?_
  · rw [loggedBlocks_append, quiet, Finset.empty_union]
    exact few
  · have unlocking (current : SysState) : Ensures Quiet True
        (do onFs (iunlock (s.files f).ip); endOp; return r : SysM Int) env current
        fun _ _ => True := by
      have unlocked : Ensures Quiet True (onFs (iunlock (s.files f).ip)) env current
          fun _ _ => True := .focus iunlock_quiet
      exact unlocked.bind fun _ _ _ => .next rfl (.pure trivial)
    have rest : Leaves (if r > 0 then do
          setFile f fun file => { file with off := file.off + UInt32.ofInt r }
          onFs (iunlock (s.files f).ip)
          endOp
          return r
        else do
          onFs (iunlock (s.files f).ip)
          endOp
          return r : SysM Int) env later fun _ _ log => loggedBlocks log = ∅ := by
      refine .ite (fun _ => .next rfl ?_) fun _ => ?_
      · exact loggedBlocks_of_quiet (unlocking _).logged
      · exact loggedBlocks_of_quiet (unlocking _).logged
    refine rest.weaken fun _ _ last silent => ?_
    rw [loggedBlocks_append, loggedBlocks_append, quiet, silent, Finset.empty_union,
      Finset.union_empty]
    exact few

variable {fuel : Nat}

/-- By induction on the fuel, that is on the operations. -/
theorem filewriteOps_fit {others : Nat → SysState → SysState}
    : ∀ op ∈ filewriteOps env others f addr n fuel i s, NoHoles env.sb f op.1
      → (loggedBlocks op.2).card ≤ 10 := by
  induction fuel generalizing i s with
  | zero => exact fun op member => nomatch member
  | succ fuel ih =>
    intro op member regular
    rw [filewriteOps] at member
    split at member
    next more =>
      rcases List.mem_cons.mp member with rfl | later
      · exact filewriteOp_leaves regular (Nat.min_le_right ..)
      · split at later
        next => exact ih op later regular
        next => cases later
    next => cases member

/-- The operations are what the loop logs, in order. -/
theorem filewriteLoop_blocks
    : ((filewriteLoop f addr n fuel i).run env s).log.filterMap FsEvent.block?
      = (filewriteOps env (fun _ => id) f addr n fuel i s).flatMap fun op =>
          op.2.filterMap FsEvent.block? := by
  induction fuel generalizing i s with
  | zero => rfl
  | succ fuel ih =>
    rw [filewriteLoop_succ, filewriteOps]
    split
    next more =>
      simp only [id_eq, List.flatMap_cons]
      rw [run_bind]
      generalize (filewriteOp f addr i (min (n - i) 1536)).run env s = out
      obtain ⟨value, after, log⟩ := out
      cases value with
      | none => simp
      | some r =>
        simp only [andThen_some, after_log, List.filterMap_append]
        congr 1
        by_cases whole : r = (min (n - i) 1536 : Nat)
        · rw [if_neg (by omega), if_neg (not_not_intro whole), ih, if_pos (by rw [whole])]
        · rw [if_neg (fun same => whole (Option.some.inj same))]
          by_cases negative : r < 0
          · rw [if_pos negative]
            rfl
          · rw [if_neg negative, if_pos whole]
            rfl
    next => rfl

end

/-- The transactions of a call of `filewrite`. -/
def filewriteTransactions (env : FsEnv) (others : Nat → SysState → SysState) (f : Fin nFile)
    (addr : Int → UInt8) (n : Int) (s : SysState)
    : List (SysState × List FsEvent) :=
  if (s.files f).writable = true ∧ (s.files f).type = .inode then
    filewriteOps env others f addr n.toNat (n.toNat + 1) 0 s
  else []

theorem filewrite_blocks {env : FsEnv} {s : SysState} {f : Fin nFile} {addr : Int → UInt8}
    {n other : Int}
    : ((filewrite f addr n other).run env s).log.filterMap FsEvent.block?
      = (filewriteTransactions env (fun _ => id) f addr n s).flatMap fun op =>
          op.2.filterMap FsEvent.block? := by
  rw [filewrite, filewriteTransactions]
  simp only [run_bind, run_get, andThen_some, after_nil]
  cases writable : (s.files f).writable with
  | false => rfl
  | true =>
    cases type : (s.files f).type with
    | inode =>
      simp only [Bool.true_eq_false, if_false, and_self, if_true]
      by_cases negative : n < 0
      · rw [if_pos negative, Int.toNat_of_nonpos (Int.le_of_lt negative)]
        rfl
      · rw [if_neg negative]
        exact filewriteLoop_blocks
    | none | pipe | socket => rfl

/-- `filewrite` logs blocks only in its transactions. Whatever the other processes do between them,
a transaction that starts in a consistent file system logs at most `MAXOPBLOCKS` different blocks,
for every offset and length, and for every size of the file system and its bitmap.
-/
theorem filewrite_transactions_fit (env : FsEnv) (f : Fin nFile) (addr : Int → UInt8)
    (n other : Int) (s : SysState)
    : (((filewrite f addr n other).run env s).log.filterMap FsEvent.block?
        = (filewriteTransactions env (fun _ => id) f addr n s).flatMap fun op =>
            op.2.filterMap FsEvent.block?)
      ∧ ∀ others, ∀ op ∈ filewriteTransactions env others f addr n s,
          NoHoles env.sb f op.1 → ((loggedBlocks op.2).card : Int) ≤ maxOpBlocks := by
  refine ⟨filewrite_blocks, fun others op member regular => ?_⟩
  rw [filewriteTransactions] at member
  split at member
  next => exact Int.ofNat_le.mpr (filewriteOps_fit op member regular)
  next => cases member

def openState : SysState :=
  { fs := withSlot smallState 0 fun node => { node with locked := false }
    files := fun _ =>
      { type := .inode, ref := 1, readable := true, writable := true, ip := 0, off := 0 }
    procs := fun _ => { state := .unused, ofile := fun _ => none, cwd := none }
    outstanding := 0 }

theorem openState_noHoles : NoHoles smallSb 0 openState := by
  refine ⟨?_, by decide, by decide⟩
  have slots : ∀ jp, jp ≠ 0 → openState.fs.icache jp = smallState.icache jp :=
    fun jp other => update_of_ne other ..
  exact smallState_ok.slot_changed rfl slots rfl rfl id fun valid => ⟨valid, rfl⟩

/-- The first two bytes of a file take a data block, its bit, and the block of the inode. -/
theorem filewrite_transactions_fit_two_bytes
    : ∃ op ∈ filewriteTransactions
          { sb := smallSb, devRead := fun _ => none, devWrite := fun _ => none } (fun _ => id) 0
          (fun _ => 104) 2 openState,
        loggedBlocks op.2 = {4, 5, 2} ∧ ((loggedBlocks op.2).card : Int) ≤ maxOpBlocks := by
  have fit := (filewrite_transactions_fit
    { sb := smallSb, devRead := fun _ => none, devWrite := fun _ => none } 0 (fun _ => 104) 2 0
    openState).2 (fun _ => id)
  refine ⟨_, List.mem_cons_self .., ?_, fit _ (List.mem_cons_self ..) openState_noHoles⟩
  decide +kernel

end SysFile

end Xv6Net
