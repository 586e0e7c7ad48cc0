import Xv6Net.Fs.Log
import Mathlib.Data.List.Nodup

/-! A crash of the log at any point, also inside the recovery from a crash, leaves whole
transactions: the header on disk decides whether the blocks in the log count, and copying
them home may be repeated.
-/

namespace Xv6Net.Log

open Library Memory Function Store

/-- The blocks that get new contents, each once. -/
abbrev Writes := List (Nat × Block)

def Outside (g : Geometry) (blockno : Nat) : Prop :=
  blockno < g.start ∨ g.start + g.size ≤ blockno

/-- A transaction that `log_write` can record: distinct home blocks, as many as the log has room
for.
-/
structure Transaction (g : Geometry) (tx : Writes) : Prop where
  distinct : (tx.map Prod.fst).Nodup
  outside : ∀ w ∈ tx, Outside g w.1
  number : ∀ w ∈ tx, w.1 < 2 ^ 32
  room : tx.length ≤ logSize
  fits : tx.length < g.size

/-- The calls of `log_write` for a transaction. -/
def logAll : Writes → LogM Unit
  | [] => pure ()
  | (blockno, data) :: rest => do
    logWrite blockno data
    logAll rest

def transactions : List Writes → LogM Unit
  | [] => pure ()
  | tx :: rest => do
    logAll tx
    commit
    transactions rest

def recovery (g : Geometry) (disk : Nat → Block) : Writes :=
  (recoverFromLog.run g (Mem.boot disk)).log

/-- A recovery that is cut off after some of its writes. -/
def recoverCut (g : Geometry) (disk : Nat → Block) (n : Nat) : Nat → Block :=
  apply disk ((recovery g disk).take n)

def recovered (g : Geometry) (disk : Nat → Block) : Nat → Block :=
  apply disk (recovery g disk)

/-- The writes that are in the log on disk, as the header counts them. -/
structure Logged (g : Geometry) (disk : Nat → Block) (tx : Writes) : Prop where
  count : loadInt (disk g.start) 0 = tx.length
  blockno : ∀ (i : Nat) (inside : i < tx.length),
    (load32 (disk g.start) (4 + 4 * i)).toNat = tx[i].1
  contents : ∀ (i : Nat) (inside : i < tx.length), disk (g.start + i + 1) = tx[i].2

theorem load32_headBlocks_count (hb : Block) (block : Nat → Nat) (n : Nat)
    : load32 (headBlocks hb block n) 0 = load32 hb 0 := by
  induction n with
  | zero => rfl
  | succ n ih => rw [headBlocks, load32_overlay_disjoint _ (by left; omega), ih]

variable {i : Nat} {lh : LogHeader} {tx : Writes} {m : Mem} {disk target : Nat → Block}

/-- The header block has the block numbers one after the other. By induction on them. -/
theorem load32_headBlocks (hb : Block) (block : Nat → Nat) {n : Nat} (inside : i < n)
    : load32 (headBlocks hb block n) (4 + 4 * i) = UInt32.ofNat (block i) := by
  induction n with
  | zero => omega
  | succ n ih =>
    rw [headBlocks]
    by_cases last : i = n
    · rw [last, load32_overlay]
    · rw [load32_overlay_disjoint _ (by left; omega), ih (by omega)]

theorem loadInt_of_small {data : Block} {offset : Int} {n : Nat} (small : n < 2 ^ 31)
    (stored : load32 data offset = UInt32.ofNat n)
    : loadInt data offset = n := by
  have value : (UInt32.ofNat n).toNat = n := by
    rw [UInt32.toNat_ofNat', Nat.mod_eq_of_lt (by omega)]
  have bits : (BitVec.ofNat 32 n).toNat = n := by
    rw [BitVec.toNat_ofNat, Nat.mod_eq_of_lt (by omega)]
  rw [loadInt, stored, value, BitVec.toInt_eq_toNat_of_lt (by omega), bits]

theorem ofInt_natCast (n : Nat) : UInt32.ofInt n = UInt32.ofNat n := by
  apply UInt32.toNat_inj.mp
  rw [toNat_ofInt, UInt32.toNat_ofNat']
  omega

/-- The header in memory names the blocks of a transaction. -/
structure Recorded (lh : LogHeader) (tx : Writes) : Prop where
  count : lh.n = tx.length
  blockno : ∀ (i : Nat) (inside : i < tx.length), lh.block i = tx[i].1

/-- What `write_head` stores. -/
def header (buf : Block) (lh : LogHeader) : Block :=
  headBlocks (overlay buf 0 (bytes32 (UInt32.ofInt lh.n))) lh.block lh.n.toNat

/-- The count that `recover_from_log` reads is the length of the transaction. -/
theorem Recorded.header_count (recorded : Recorded lh tx) (room : tx.length ≤ logSize) (buf : Block)
    : loadInt (header buf lh) 0 = tx.length := by
  refine loadInt_of_small (by simp only [logSize] at room; omega) ?_
  rw [header, load32_headBlocks_count, load32_overlay, recorded.count, ofInt_natCast]

theorem Recorded.toNat_n (recorded : Recorded lh tx) : lh.n.toNat = tx.length := by
  rw [recorded.count, Int.toNat_natCast]

/-- The block numbers that it reads are those of the transaction. -/
theorem Recorded.header_blockno (recorded : Recorded lh tx) (number : ∀ w ∈ tx, w.1 < 2 ^ 32)
    (buf : Block) (i : Nat) (inside : i < tx.length)
    : (load32 (header buf lh) (4 + 4 * i)).toNat = tx[i].1 := by
  have small := number tx[i] (List.getElem_mem inside)
  have within : i < lh.n.toNat := recorded.toNat_n ▸ inside
  rw [header, load32_headBlocks _ _ within, recorded.blockno i inside, UInt32.toNat_ofNat',
    Nat.mod_eq_of_lt small]

variable {g : Geometry}

/-- No home block is in the log. -/
theorem ne_of_outside {blockno : Nat} (outside : Outside g blockno) (inside : i + 1 < g.size)
    : g.start + i + 1 ≠ blockno := by
  rcases outside with before | behind
  · omega
  · omega

/-- Where `write_log` puts the contents, from place `i` of the log on. -/
def inLog (g : Geometry) : Nat → Writes → Writes
  | _, [] => []
  | i, w :: rest => (g.start + i + 1, w.2) :: inLog g (i + 1) rest

theorem inLog_eq (tx : Writes) (i : Nat)
    : inLog g i tx = tx.mapIdx fun j w => (g.start + (i + j) + 1, w.2) := by
  induction tx generalizing i with
  | nil => rfl
  | cons w rest ih =>
    rw [inLog, ih, List.mapIdx_cons]
    simp only [Nat.add_assoc, Nat.add_comm 1, Nat.add_zero]

/-- The places of a transaction in the log. -/
theorem inLog_key {key : Nat} (member : key ∈ (inLog g i tx).map Prod.fst)
    : g.start + i < key ∧ key ≤ g.start + i + tx.length := by
  rw [inLog_eq] at member
  obtain ⟨w, listed, rfl⟩ := List.mem_map.mp member
  obtain ⟨j, inside, rfl⟩ := List.mem_mapIdx.mp listed
  constructor <;> simp only <;> omega

theorem inLog_distinct (tx : Writes) (i : Nat) : ((inLog g i tx).map Prod.fst).Nodup := by
  induction tx generalizing i with
  | nil => exact List.nodup_nil
  | cons w rest ih =>
    rw [inLog, List.map_cons, List.nodup_cons]
    refine ⟨fun again => ?_, ih (i + 1)⟩
    have := inLog_key again
    omega

/-- `log_write` of a block that is not in the header yet. -/
theorem Recorded.record (recorded : Recorded lh tx) {blockno : Nat}
    (fresh : blockno ∉ tx.map Prod.fst) (data : Block)
    : Recorded (lh.record blockno) (tx ++ [(blockno, data)]) := by
  have absent : (List.range lh.n.toNat).find? (fun i => lh.block i = blockno) = none := by
    rw [List.find?_eq_none]
    intro i member same
    have inside : i < tx.length := by
      rw [List.mem_range, recorded.toNat_n] at member
      exact member
    rw [decide_eq_true_eq, recorded.blockno i inside] at same
    exact fresh (same ▸ List.mem_map_of_mem (List.getElem_mem inside))
  rw [LogHeader.record, absent]
  refine ⟨?_, fun i inside => ?_⟩
  · simp [recorded.count]
  · simp only [recorded.count, Int.toNat_natCast]
    by_cases last : i = tx.length
    · subst last
      simp
    · have before : i < tx.length := by
        rw [List.length_append, List.length_singleton] at inside
        omega
      rw [update_of_ne last, recorded.blockno i before, List.getElem_append_left before]

/-- The calls of `log_write` for a transaction. By induction on its blocks. -/
theorem logAll_run {done : Writes} (tx : Writes) (recorded : Recorded m.lh done)
    (distinct : ((done ++ tx).map Prod.fst).Nodup) (room : (done ++ tx).length ≤ logSize)
    (fits : (done ++ tx).length < g.size)
    : ∃ lh, Recorded lh (done ++ tx)
      ∧ (logAll tx).run g m = ⟨some (), { lh, blocks := apply m.blocks tx }, []⟩ := by
  induction tx generalizing done m with
  | nil => exact ⟨m.lh, by rw [List.append_nil]; exact recorded, rfl⟩
  | cons w rest ih =>
    obtain ⟨blockno, data⟩ := w
    rw [List.append_cons] at distinct room fits
    have fresh : blockno ∉ done.map Prod.fst := by
      intro again
      rw [List.map_append, List.map_append, List.append_assoc, List.nodup_append] at distinct
      exact distinct.2.2 blockno again blockno List.mem_cons_self rfl
    have small : ¬ (m.lh.n ≥ logSize ∨ m.lh.n ≥ (g.size : Int) - 1) := by
      rw [recorded.count]
      simp only [List.length_append, List.length_singleton, logSize] at room fits ⊢
      omega
    obtain ⟨lh, all, later⟩ := ih
      (m := ⟨m.lh.record blockno, update m.blocks blockno data⟩)
      (recorded.record fresh data) distinct room fits
    have here : (logWrite blockno data).run g m
        = ⟨some (), ⟨m.lh.record blockno, update m.blocks blockno data⟩, []⟩ := by
      simp only [logWrite, run_bind, run_env, run_get, andThen_some, run_ite, if_neg small,
        run_modify, after_mk, List.append_nil]
    refine ⟨lh, ?_, ?_⟩
    · rw [List.append_cons]
      exact all
    · rw [logAll, run_bind, here, andThen_some, later]
      rfl

/-- The disk writes of a commit: the log, the header, the home blocks and the cleared header. -/
def commitWrites (g : Geometry) (buf : Block) (lh : LogHeader) (tx : Writes) : Writes :=
  inLog g 0 tx ++ ((g.start, header buf lh)
    :: (tx ++ [(g.start, header (header buf lh) { lh with n := 0 })]))

theorem Transaction.start_notMem (valid : Transaction g tx)
    : g.start ∉ tx.map Prod.fst := by
  intro member
  obtain ⟨w, inside, same⟩ := List.mem_map.mp member
  have positive := g.header
  rcases valid.outside w inside with before | behind
  · omega
  · omega

theorem start_notMem_inLog (tx : Writes) : g.start ∉ (inLog g 0 tx).map Prod.fst := by
  intro member
  have := inLog_key member
  omega

theorem Transaction.place_notMem (valid : Transaction g tx) (inside : i < tx.length)
    : g.start + i + 1 ∉ tx.map Prod.fst := by
  intro member
  obtain ⟨w, listed, same⟩ := List.mem_map.mp member
  have fits := valid.fits
  exact ne_of_outside (valid.outside w listed) (by omega) same.symm

/-- What is written to the log can be read there. -/
theorem inLog_contents (blocks : Nat → Block) (inside : i < tx.length)
    : apply blocks (inLog g 0 tx) (g.start + i + 1) = tx[i].2 := by
  refine apply_of_mem blocks (inLog_distinct tx 0) ?_
  rw [inLog_eq]
  exact List.mem_mapIdx.mpr ⟨i, inside, by rw [Nat.zero_add]⟩

/-- A loop that copies blocks to others than it reads. -/
theorem copies_run {pass : Nat → LogM Unit} {r : Nat → Nat} {ws : Writes}
    (one : ∀ (j : Nat) (inside : j < ws.length) (blocks : Nat → Block),
      (pass (i + j)).run g { m with blocks }
        = ⟨some (), { m with blocks := update blocks ws[j].1 (blocks (r j)) },
            [(ws[j].1, blocks (r j))]⟩)
    (contents : ∀ (j : Nat) (inside : j < ws.length), m.blocks (r j) = ws[j].2)
    (apart : ∀ j < ws.length, r j ∉ ws.map Prod.fst)
    : (Program.forRange pass i ws.length).run g m
      = ⟨some (), { m with blocks := apply m.blocks ws }, ws⟩ := by
  induction ws generalizing m i r with
  | nil => rfl
  | cons w rest ih =>
    have first_ : (pass i).run g m
        = ⟨some (), { m with blocks := update m.blocks w.1 w.2 }, [(w.1, w.2)]⟩ := by
      have copied := one 0 (Nat.zero_lt_succ _) m.blocks
      rw [contents 0 (Nat.zero_lt_succ _)] at copied
      exact copied
    have later := ih (m := { m with blocks := update m.blocks w.1 w.2 }) (i := i + 1)
      (r := fun j => r (j + 1))
      (fun j inside blocks => by
        rw [show i + 1 + j = i + (j + 1) by omega]
        exact one (j + 1) (Nat.succ_lt_succ inside) blocks)
      (fun j inside => by
        have apart := apart (j + 1) (Nat.succ_lt_succ inside)
        rw [List.map_cons, List.mem_cons, not_or] at apart
        exact (update_of_ne apart.1 ..).trans (contents (j + 1) (Nat.succ_lt_succ inside)))
      (fun j inside again => apart (j + 1) (Nat.succ_lt_succ inside) (.tail _ again))
    rw [List.length_cons, Program.forRange, run_bind, first_, andThen_some, later]
    rfl

section

variable (valid : Transaction g tx) (recorded : Recorded m.lh tx)
include valid recorded

/-- `install_trans` copies the log home, block by block. -/
theorem installTrans_run
    (contents : ∀ (j : Nat) (inside : j < tx.length), m.blocks (g.start + j + 1) = tx[j].2)
    : installTrans.run g m = ⟨some (), { m with blocks := apply m.blocks tx }, tx⟩ := by
  change (Program.forRange installBlock 0 m.lh.n.toNat).run g m = _
  rw [recorded.toNat_n]
  refine copies_run (fun j inside blocks => ?_) contents fun j inside => valid.place_notMem inside
  rw [← recorded.blockno j inside, Nat.zero_add]
  rfl

/-- `write_log` copies the cached blocks to the log. -/
theorem writeLog_run (contents : ∀ (j : Nat) (inside : j < tx.length), m.blocks tx[j].1 = tx[j].2)
    : writeLog.run g m
      = ⟨some (), { m with blocks := apply m.blocks (inLog g 0 tx) }, inLog g 0 tx⟩ := by
  have length : (inLog g 0 tx).length = m.lh.n.toNat := by
    rw [inLog_eq, List.length_mapIdx, recorded.toNat_n]
  change (Program.forRange logBlock 0 m.lh.n.toNat).run g m = _
  rw [← length]
  refine copies_run (r := m.lh.block) (fun j inside blocks => ?_) (fun j inside => ?_) ?_
  · simp only [inLog_eq, List.getElem_mapIdx, Nat.zero_add]
    rfl
  · simp only [inLog_eq, List.length_mapIdx, List.getElem_mapIdx] at inside ⊢
    rw [recorded.blockno j inside, contents j inside]
  · intro j inside member
    rw [inLog_eq, List.length_mapIdx] at inside
    have bounds := inLog_key member
    have fits := valid.fits
    rw [recorded.blockno j inside] at bounds
    rcases valid.outside _ (List.getElem_mem inside) with before | behind <;> omega

end

theorem writeHead_run (m : Mem)
    : writeHead.run g m
      = ⟨some (),
          { m with blocks := update m.blocks g.start (header (m.blocks g.start) m.lh) },
          [(g.start, header (m.blocks g.start) m.lh)]⟩ :=
  rfl

/-- The writes of a commit: the log, the header, the home blocks, the empty header. -/
theorem commit_run (valid : Transaction g tx) (recorded : Recorded m.lh tx) (nonempty : tx ≠ [])
    (contents : ∀ (j : Nat) (inside : j < tx.length), m.blocks tx[j].1 = tx[j].2)
    : commit.run g m
      = ⟨some (),
          { lh := { m.lh with n := 0 }
            blocks := apply m.blocks (commitWrites g (m.blocks g.start) m.lh tx) },
          commitWrites g (m.blocks g.start) m.lh tx⟩ := by
  have positive : m.lh.n > 0 := by
    have := List.length_pos_iff.mpr nonempty
    rw [recorded.count]
    omega
  have logged := writeLog_run valid recorded contents
  let blocks := update (apply m.blocks (inLog g 0 tx)) g.start
    (header (m.blocks g.start) m.lh)
  have installed := installTrans_run (m := { m with blocks }) valid recorded fun j inside =>
    (update_of_ne (by omega) ..).trans (inLog_contents _ inside)
  have kept : apply m.blocks (inLog g 0 tx) g.start = m.blocks g.start :=
    apply_of_notMem _ (start_notMem_inLog tx)
  have again : apply blocks tx g.start = header (m.blocks g.start) m.lh := by
    rw [apply_of_notMem _ valid.start_notMem]
    exact update_self ..
  simp only [commit, run_bind, run_get, andThen_some, run_ite,
    if_pos positive, logged, writeHead_run, kept]
  rw [installed]
  simp only [clearLog, run_modify, andThen_some, again, after_mk, commitWrites, apply_append,
    apply_cons, apply_nil, List.nil_append, List.cons_append]
  rfl

/-- A recovery from this disk gives these home blocks: installing what is in the log does. -/
def Recovers (g : Geometry) (disk target : Nat → Block) : Prop :=
  ∃ tx, Transaction g tx ∧ Logged g disk tx
    ∧ ∀ b, Outside g b → apply disk tx b = target b

theorem Transaction.nil : Transaction g [] :=
  ⟨List.nodup_nil, nofun, nofun, Nat.zero_le _, g.header⟩

theorem Logged.nil (count : loadInt (disk g.start) 0 = 0)
    : Logged g disk [] :=
  ⟨count, nofun, nofun⟩

theorem start_ne_of_outside {b : Nat} (outside : Outside g b) : b ≠ g.start := by
  have positive := g.header
  rcases outside with before | behind
  · omega
  · omega

/-- While the blocks are copied home, the log stays as it is. -/
theorem Logged.home (logged : Logged g disk tx) (valid : Transaction g tx) (n : Nat)
    : Logged g (apply disk (tx.take n)) tx := by
  have part {b : Nat} (other : b ∉ tx.map Prod.fst)
      : apply disk (tx.take n) b = disk b := by
    apply apply_of_notMem
    rw [List.map_take]
    exact fun member => other (List.mem_of_mem_take member)
  constructor
  · rw [part valid.start_notMem]
    exact logged.count
  · rw [part valid.start_notMem]
    exact logged.blockno
  · intro i inside
    rw [part (valid.place_notMem inside)]
    exact logged.contents i inside

theorem header_cleared (buf : Block) (lh : LogHeader)
    : loadInt (header buf { lh with n := 0 }) 0 = 0 := by
  have cleared : Recorded { lh with n := 0 } [] := ⟨rfl, nofun⟩
  exact cleared.header_count (Nat.zero_le _) buf

/-- Recovery of a logged transaction copies it home and clears the header. -/
theorem recovery_eq (logged : Logged g disk tx) (valid : Transaction g tx)
    : ∃ cleared, loadInt cleared 0 = 0 ∧ recovery g disk = tx ++ [(g.start, cleared)] := by
  have number : (loadInt (disk g.start) 0).toNat = tx.length := by
    rw [logged.count, Int.toNat_natCast]
  let m : Mem :=
    { lh :=
        { n := loadInt (disk g.start) 0
          block := fun i =>
            if i < (loadInt (disk g.start) 0).toNat then
              (load32 (disk g.start) (4 + 4 * i)).toNat
            else 0 }
      blocks := disk }
  have read : readHead.run g (Mem.boot disk) = ⟨some (), m, []⟩ := rfl
  have installed : installTrans.run g m
      = ⟨some (), { m with blocks := apply disk tx }, tx⟩ := by
    refine installTrans_run valid ⟨logged.count, fun j inside => ?_⟩ logged.contents
    simp only [m]
    rw [number, if_pos inside, logged.blockno j inside]
  refine ⟨_, header_cleared (apply disk tx g.start) m.lh, ?_⟩
  simp only [recovery, recoverFromLog, run_bind, read, andThen_some]
  rw [installed]
  simp only [clearLog, run_modify, andThen_some, writeHead_run, after_log, List.nil_append]

/-- Installing the log, as far as it gets, does not change what the disk stands for. Witness:
before the header is cleared the home blocks are written again.
-/
theorem Logged.install (logged : Logged g disk tx) (valid : Transaction g tx) {cleared : Block}
    (zero : loadInt cleared 0 = 0) (n : Nat)
    : Recovers g (apply disk ((tx ++ [(g.start, cleared)]).take n))
      (apply disk tx) := by
  rcases Nat.lt_or_ge tx.length n with whole | before
  · rw [List.take_of_length_le (by rw [List.length_append, List.length_singleton]; omega),
      apply_append, apply_cons, apply_nil]
    refine ⟨[], .nil, .nil ?_, fun b outside => ?_⟩
    · rw [update_self]
      exact zero
    · rw [apply_nil, update_of_ne (start_ne_of_outside outside)]
  · rw [List.take_append_of_le_length before]
    refine ⟨tx, valid, logged.home valid n, fun b _ => ?_⟩
    rw [apply_replay]

section

variable (stands : Recovers g disk target)
include stands

theorem Recovers.congr (other : Nat → Block) (same : ∀ b, Outside g b → target b = other b)
    : Recovers g disk other := by
  obtain ⟨tx, valid, logged, gives⟩ := stands
  exact ⟨tx, valid, logged, fun b outside => (gives b outside).trans (same b outside)⟩

/-- If the header is clear, nothing is left to do. -/
theorem Recovers.of_clear (clear : loadInt (disk g.start) 0 = 0) (b : Nat) (outside : Outside g b)
    : disk b = target b := by
  obtain ⟨tx, _, logged, gives⟩ := stands
  have empty : tx = [] := by
    apply List.eq_nil_of_length_eq_zero
    have count := logged.count
    rw [clear] at count
    omega
  subst empty
  exact gives b outside

/-- A crash inside the recovery leaves a disk from which it can start again. -/
theorem Recovers.cut (n : Nat)
    : Recovers g (recoverCut g disk n) target := by
  obtain ⟨tx, valid, logged, same⟩ := stands
  obtain ⟨cleared, zero, writes⟩ := recovery_eq logged valid
  rw [recoverCut, writes]
  exact (logged.install valid zero n).congr target same

theorem Recovers.recovered
    : loadInt (recovered g disk g.start) 0 = 0
      ∧ ∀ b, Outside g b → recovered g disk b = target b := by
  obtain ⟨tx, valid, logged, same⟩ := stands
  obtain ⟨cleared, zero, writes⟩ := recovery_eq logged valid
  rw [Log.recovered, writes, apply_append, apply_cons, apply_nil]
  refine ⟨?_, fun b outside => ?_⟩
  · rw [update_self]
    exact zero
  · rw [update_of_ne (start_ne_of_outside outside)]
    exact same b outside

/-- Any number of crashes inside the recovery. By induction on them. -/
theorem Recovers.crashes (cuts : List Nat)
    : Recovers g (cuts.foldl (recoverCut g) disk) target := by
  induction cuts generalizing disk with
  | nil => exact stands
  | cons n rest ih => exact ih (stands.cut n)

end

/-- A commit that is cut off stands for the old blocks until the header is written, then for the new
ones.
-/
theorem commitWrites_cut (valid : Transaction g tx) (recorded : Recorded lh tx)
    (clear : loadInt (disk g.start) 0 = 0) (n : Nat)
    : let writes := commitWrites g (disk g.start) lh tx
      (n < writes.length ∧ Recovers g (apply disk (writes.take n)) disk)
      ∨ Recovers g (apply disk (writes.take n)) (apply disk tx) := by
  intro writes
  have logKey {b : Nat} (outside : Outside g b) : b ∉ (inLog g 0 tx).map Prod.fst := by
    intro member
    have bounds := inLog_key member
    have fits := valid.fits
    rcases outside with before | behind
    · omega
    · omega
  rcases Nat.lt_or_ge (inLog g 0 tx).length n with headed | unheaded
  · right
    obtain ⟨rest, rfl⟩ := Nat.exists_eq_add_of_lt headed
    let logDisk := update (apply disk (inLog g 0 tx)) g.start
      (header (disk g.start) lh)
    have logged : Logged g logDisk tx := by
      simp only [logDisk]
      constructor
      · rw [update_self]
        exact recorded.header_count valid.room _
      · intro i inside
        rw [update_self]
        exact recorded.header_blockno valid.number _ i inside
      · intro i inside
        rw [update_of_ne (by omega), inLog_contents _ inside]
    have stands := (logged.install valid (header_cleared (header (disk g.start) lh) lh) rest).congr
      (apply disk tx) (fun b outside => by
        apply apply_congr
        right
        simp only [logDisk]
        rw [update_of_ne (start_ne_of_outside outside), apply_of_notMem _ (logKey outside)])
    simp only [writes, commitWrites]
    rw [Nat.add_assoc, List.take_length_add_append, apply_append, List.take_succ_cons, apply_cons]
    exact stands
  · left
    have before {b : Nat} (other : b ∉ (inLog g 0 tx).map Prod.fst)
        : apply disk (writes.take n) b = disk b := by
      simp only [writes, commitWrites]
      rw [List.take_append_of_le_length unheaded]
      apply apply_of_notMem
      rw [List.map_take]
      exact fun member => other (List.mem_of_mem_take member)
    refine ⟨?_, [], .nil, .nil ?_, fun b outside => before (logKey outside)⟩
    · simp only [writes, commitWrites, List.length_append, List.length_cons, List.length_nil]
      omega
    · rw [before (start_notMem_inLog tx)]
      exact clear

/-- What a transaction does between others: memory and disk have the same blocks, and a crash leaves
it undone or done.
-/
structure Transacted (g : Geometry) (m : Mem) (tx : Writes) (lh : LogHeader) (writes : Writes) :
    Prop where
  idle : lh.n = 0
  clear : loadInt (apply m.blocks writes g.start) 0 = 0
  cut : ∀ n, (n < writes.length ∧ Recovers g (apply m.blocks (writes.take n)) m.blocks)
    ∨ Recovers g (apply m.blocks (writes.take n)) (apply m.blocks tx)

theorem Transacted.done {writes : Writes} (transacted : Transacted g m tx lh writes) (b : Nat)
    (outside : Outside g b)
    : apply m.blocks writes b = apply m.blocks tx b := by
  have whole := transacted.cut writes.length
  rw [List.take_length] at whole
  rcases whole with ⟨early, _⟩ | stands
  · exact absurd early (Nat.lt_irrefl _)
  · exact stands.of_clear transacted.clear b outside

/-- A whole transaction, from the first `log_write` to the end of `commit`. -/
theorem transaction_run (valid : Transaction g tx) (idle : m.lh.n = 0)
    (clear : loadInt (m.blocks g.start) 0 = 0)
    : ∃ lh writes, Transacted g m tx lh writes
      ∧ ∀ next : LogM Unit,
        (logAll tx >>= fun _ => commit >>= fun _ => next).run g m
          = (next.run g { lh, blocks := apply m.blocks writes }).after writes := by
  have none : Recorded m.lh [] := ⟨idle, nofun⟩
  obtain ⟨lh, recorded, ran⟩ := logAll_run tx none valid.distinct valid.room valid.fits
  rw [List.nil_append] at recorded
  cases tx with
  | nil =>
    refine ⟨lh, [], ⟨recorded.count, clear, fun n => ?_⟩, fun next => ?_⟩
    · right
      rw [List.take_nil]
      exact ⟨[], .nil, .nil clear, fun _ _ => rfl⟩
    · have empty : ¬ lh.n > 0 := by
        rw [recorded.count]
        decide
      simp only [run_bind, ran, andThen_some, commit, run_get, run_ite, if_neg empty]
      rfl
  | cons w rest =>
    let writes := commitWrites g (m.blocks g.start) lh (w :: rest)
    have start : apply m.blocks (w :: rest) g.start = m.blocks g.start :=
      apply_of_notMem _ valid.start_notMem
    have committed := commit_run (m := ⟨lh, apply m.blocks (w :: rest)⟩) valid recorded
      (List.cons_ne_nil w rest)
      (fun j inside => apply_of_mem _ valid.distinct (List.getElem_mem inside))
    -- the home blocks are part of what is written, so their contents before do not matter
    have blocks : apply (apply m.blocks (w :: rest)) writes
        = apply m.blocks writes := by
      funext b
      apply apply_congr
      by_cases home : b ∈ (w :: rest).map Prod.fst
      · left
        simp only [writes, commitWrites, List.map_append, List.map_cons (l := _ ++ _),
          List.mem_append, List.mem_cons (l := _ ++ _)]
        exact Or.inr (Or.inr (Or.inl home))
      · right
        exact apply_of_notMem _ home
    refine ⟨{ lh with n := 0 }, writes, ⟨rfl, ?_, commitWrites_cut valid recorded clear⟩,
      fun next => ?_⟩
    · simp only [writes, commitWrites]
      rw [apply_append, apply_cons, apply_append, apply_cons, apply_nil, update_self]
      exact header_cleared _ lh
    · simp only [start] at committed
      rw [run_bind, ran, andThen_some, run_bind, committed, andThen_some, after_nil]
      rw [← blocks]

def diskWrites (g : Geometry) (m : Mem) (txs : List Writes) : Writes :=
  ((transactions txs).run g m).log

/-- A crash leaves some number of whole transactions: at least those whose writes are all done, and
at most one whose writes are not.
-/
theorem transactions_cut {txs : List Writes} (valid : ∀ tx ∈ txs, Transaction g tx)
    (idle : m.lh.n = 0) (clear : loadInt (m.blocks g.start) 0 = 0) (k : Nat)
    : ((transactions txs).run g m).value = some ()
      ∧ ∃ whole ≤ txs.length,
        Recovers g (apply m.blocks ((diskWrites g m txs).take k))
          (apply m.blocks (txs.take whole).flatten)
        ∧ (∀ i ≤ txs.length, (diskWrites g m (txs.take i)).length ≤ k → i ≤ whole)
        ∧ (∀ i < txs.length, k < (diskWrites g m (txs.take (i + 1))).length → whole ≤ i + 1) := by
  induction txs generalizing m k with
  | nil =>
    refine ⟨rfl, 0, Nat.le_refl 0, ?_, fun i bound _ => bound, fun i bound => ?_⟩
    · exact ⟨[], .nil, .nil (by simpa [diskWrites, transactions] using clear), fun b _ => by
        simp [diskWrites, transactions]⟩
    · exact absurd bound (Nat.not_lt_zero i)
  | cons tx rest ih =>
    obtain ⟨lh, writes, transacted, ran⟩ := transaction_run (valid tx List.mem_cons_self)
      idle clear
    have later (k : Nat) := ih (m := ⟨lh, apply m.blocks writes⟩)
      (fun other member => valid other (List.mem_cons_of_mem tx member))
      transacted.idle transacted.clear k
    have all (txs : List Writes) : diskWrites g m (tx :: txs)
        = writes ++ diskWrites g ⟨lh, apply m.blocks writes⟩ txs := by
      rw [diskWrites, transactions, ran, after_log]
      rfl
    refine ⟨?_, ?_⟩
    · rw [transactions, ran, after_value]
      exact (later 0).1
    rcases Nat.lt_or_ge k writes.length with inside | behind
    · -- the crash is in the first transaction
      have early {i : Nat} (short : (diskWrites g m ((tx :: rest).take i)).length ≤ k)
          : i = 0 := by
        cases i with
        | zero => rfl
        | succ =>
          rw [List.take_succ_cons, all, List.length_append] at short
          omega
      have writesCut : (diskWrites g m (tx :: rest)).take k = writes.take k := by
        rw [all, List.take_append_of_le_length (Nat.le_of_lt inside)]
      rw [writesCut]
      rcases transacted.cut k with ⟨_, undone⟩ | done
      · refine ⟨0, Nat.zero_le _, undone, fun i _ short => ?_, fun i _ _ => Nat.zero_le _⟩
        exact Nat.le_of_eq (early short)
      · refine ⟨1, Nat.succ_le_succ (Nat.zero_le _), ?_, fun i _ short => ?_, fun i _ _ => ?_⟩
        · rw [List.take_succ_cons, List.take_zero, List.flatten_singleton]
          exact done
        · have := early short
          omega
        · omega
    · -- the first transaction is done, and the crash is in a later one
      obtain ⟨_, whole, bound, stands, atLeast, atMost⟩ := later (k - writes.length)
      have writesCut : apply m.blocks ((diskWrites g m (tx :: rest)).take k)
          = apply (apply m.blocks writes)
            ((diskWrites g ⟨lh, apply m.blocks writes⟩ rest).take (k - writes.length)) := by
        rw [all, List.take_append, List.take_of_length_le behind, apply_append]
      rw [writesCut]
      refine ⟨whole + 1, Nat.succ_le_succ bound, ?_, fun i within short => ?_,
        fun i within long => ?_⟩
      · refine stands.congr _ (fun b outside => ?_)
        rw [List.take_succ_cons, List.flatten_cons, apply_append]
        exact apply_congr (Or.inr (transacted.done b outside))
      · cases i with
        | zero => exact Nat.zero_le _
        | succ i =>
          rw [List.take_succ_cons, all, List.length_append] at short
          exact Nat.succ_le_succ (atLeast i (Nat.le_of_succ_le_succ within) (by omega))
      · cases i with
        | zero =>
          rw [List.take_succ_cons, List.take_zero, all, List.length_append] at long
          have nothing : diskWrites g ⟨lh, apply m.blocks writes⟩ [] = [] := rfl
          rw [nothing, List.length_nil] at long
          omega
        | succ i =>
          rw [List.take_succ_cons, all, List.length_append] at long
          exact Nat.succ_le_succ (atMost i (Nat.lt_of_succ_lt_succ within) (by omega))

/-- After a crash at any point of a sequence of transactions, and any number of crashes inside
the recovery, a recovery leaves the home blocks as whole transactions left them: all those that
were committed and possibly the one that was interrupted. The header is cleared.
-/
theorem log_crash_atomic (g : Geometry) (disk : Nat → Block) (txs : List Writes) (k : Nat)
    (cuts : List Nat) (clear : loadInt (disk g.start) 0 = 0) (valid : ∀ tx ∈ txs, Transaction g tx)
    : let writes (i : Nat) := diskWrites g (Mem.boot disk) (txs.take i)
      let crashed := apply disk ((writes txs.length).take k)
      let final := recovered g (cuts.foldl (recoverCut g) crashed)
      ((transactions txs).run g (Mem.boot disk)).value = some ()
      ∧ loadInt (final g.start) 0 = 0
      ∧ ∃ whole ≤ txs.length,
        (∀ b, Outside g b → final b = apply disk (txs.take whole).flatten b)
        ∧ (∀ i ≤ txs.length, (writes i).length ≤ k → i ≤ whole)
        ∧ (∀ i < txs.length, k < (writes (i + 1)).length → whole ≤ i + 1) := by
  intro writes crashed final
  obtain ⟨returns, whole, bound, stands, atLeast, atMost⟩ :=
    transactions_cut (m := Mem.boot disk) valid rfl clear k
  have whole_writes : writes txs.length = diskWrites g (Mem.boot disk) txs := by
    simp only [writes, List.take_length]
  have stands : Recovers g crashed (apply disk (txs.take whole).flatten) := by
    simp only [crashed, whole_writes]
    exact stands
  obtain ⟨cleared, homes⟩ := (stands.crashes cuts).recovered
  exact ⟨returns, cleared, whole, bound, homes, atLeast, atMost⟩

def smallLog : Geometry :=
  { start := 2, size := 4, header := by decide }

/-- Two transactions on an empty disk and a crash after the third write of the first one, with
two crashes in the recovery.
-/
theorem log_crash_atomic_two_transactions
    : let disk : Nat → Block := fun _ _ => 0
      let txs : List Writes := [[(7, fun _ => 1), (8, fun _ => 2)], [(7, fun _ => 3)]]
      let crashed := apply disk ((diskWrites smallLog (Mem.boot disk) txs).take 3)
      let final := recovered smallLog ([1, 0].foldl (recoverCut smallLog) crashed)
      loadInt (final smallLog.start) 0 = 0
      ∧ ∃ whole ≤ 2, ∀ b, Outside smallLog b
        → final b = apply disk (txs.take whole).flatten b := by
  intro disk txs crashed final
  have clear : loadInt (fun _ => 0) 0 = 0 := by decide
  obtain ⟨_, cleared, whole, bound, homes, _⟩ := log_crash_atomic smallLog disk txs 3 [1, 0] clear
    (by
      intro tx member
      simp only [txs, List.mem_cons, List.not_mem_nil, or_false] at member
      rcases member with rfl | rfl
      · exact ⟨by decide, by simp [Outside, smallLog], by simp, by decide, by decide⟩
      · exact ⟨by decide, by simp [Outside, smallLog], by simp, by decide, by decide⟩)
  exact ⟨cleared, whole, bound, homes⟩

end Xv6Net.Log
