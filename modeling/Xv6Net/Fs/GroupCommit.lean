import Xv6Net.Fs.Log
import Xv6Net.Library.Tally
import Xv6Net.Library.Transition

/-! Concurrent file-system operations on the log: `begin_op`, `log_write` and `end_op` by any
number of processes, and the commit of the last operation that ends, which runs without the
lock. A stretch of code under `log.lock` is one step, and so is each phase of `commit`.
-/

namespace Xv6Net

open Library Transition Function

abbrev maxOpBlocks : Int := 10

def LogHeader.blocks (lh : LogHeader) : Finset Nat :=
  (Finset.range lh.n.toNat).image lh.block

/-- The phases of `commit`, and the end of `end_op` after it. -/
inductive CommitPhase where
  | start
  | writeLog
  | writeHead
  | installTrans
  | clearLog
  | eraseHead
  | finish
deriving DecidableEq

/-- Where a process is: outside of operations, in the loop of `begin_op`, in an operation, in
`log_write` before it has the lock, or in `commit`.
-/
inductive LogPc where
  | outside
  | entering (asleep : Bool)
  | working
  | logging (blockno : Nat)
  | committing (phase : CommitPhase)
deriving DecidableEq

inductive LogPanic where
  | logCommitting
  | tooBigTransaction
  | outsideOfTrans
deriving DecidableEq

/-- The log and its users. -/
structure LogSys (N : Nat) where
  outstanding : Int
  committing : Bool
  mem : Log.Mem
  procs : Fin N → LogPc
  panicked : Option LogPanic

inductive LogAction (N : Nat) where
  | beginOp (p : Fin N)
  | kill (p : Fin N)
  | logWrite (p : Fin N) (blockno : Nat) (data : Block)
  | record (p : Fin N)
  | endOp (p : Fin N)
  | commit (p : Fin N)

namespace LogSys

variable {N : Nat}

def goto (s : LogSys N) (p : Fin N) (pc : LogPc) : LogSys N :=
  { s with procs := update s.procs p pc }

/-- `wakeup(&log)`. -/
def wakeup (s : LogSys N) : LogSys N :=
  { s with
    procs := fun p =>
      match s.procs p with
      | .entering _ => .entering false
      | pc => pc }

def panic (s : LogSys N) (reason : LogPanic) : LogSys N :=
  { s with panicked := some reason }

/-- The loop of `begin_op`, once. -/
def beginOp (s : LogSys N) (p : Fin N) : LogSys N :=
  if s.committing then
    s.goto p (.entering true)
  else if s.mem.lh.n + (s.outstanding + 1) * maxOpBlocks > logSize then
    s.goto p (.entering true)
  else
    goto { s with outstanding := s.outstanding + 1 } p .working

/-- The buffer has been modified and `log_write` makes its tests, without the lock. -/
def logWrite (s : LogSys N) (g : Log.Geometry) (p : Fin N) (blockno : Nat) (data : Block)
    : LogSys N :=
  let s := { s with mem := { s.mem with blocks := update s.mem.blocks blockno data } }
  if s.mem.lh.n ≥ (logSize : Int) ∨ s.mem.lh.n ≥ (g.size : Int) - 1 then
    s.panic .tooBigTransaction
  else if s.outstanding < 1 then
    s.panic .outsideOfTrans
  else
    s.goto p (.logging blockno)

/-- The rest of `log_write`, with the lock. -/
def record (s : LogSys N) (p : Fin N) (blockno : Nat) : LogSys N :=
  goto { s with mem := { s.mem with lh := s.mem.lh.record blockno } } p .working

/-- `end_op` up to the call of `commit`. -/
def endOp (s : LogSys N) (p : Fin N) : LogSys N :=
  let s := { s with outstanding := s.outstanding - 1 }
  if s.committing then
    s.panic .logCommitting
  else if s.outstanding = 0 then
    goto { s with committing := true } p (.committing .start)
  else
    s.wakeup.goto p .outside

/-- A part of `commit` runs, and the process goes on with the next phase. -/
def phase (s : LogSys N) (g : Log.Geometry) (p : Fin N) (part : Log.LogM Unit)
    (next : CommitPhase) : LogSys N :=
  goto { s with mem := (part.run g s.mem).state } p (.committing next)

/-- One phase of `commit`, and the end of `end_op`. -/
def commit (s : LogSys N) (g : Log.Geometry) (p : Fin N) : CommitPhase → LogSys N
  | .start =>
    if s.mem.lh.n > 0 then s.goto p (.committing .writeLog)
    else s.goto p (.committing .finish)
  | .writeLog => s.phase g p Log.writeLog .writeHead
  | .writeHead => s.phase g p Log.writeHead .installTrans
  | .installTrans => s.phase g p Log.installTrans .clearLog
  | .clearLog => s.phase g p Log.clearLog .eraseHead
  | .eraseHead => s.phase g p Log.writeHead .finish
  | .finish => (wakeup { s with committing := false }).goto p .outside

/-- One step of a process; after a panic there is none. -/
def step (g : Log.Geometry) (s : LogSys N) (action : LogAction N) : Option (LogSys N) :=
  if s.panicked.isSome then none
  else
    match action with
    | .beginOp p =>
      match s.procs p with
      | .outside => some (s.beginOp p)
      | .entering false => some (s.beginOp p)
      | _ => none
    | .kill p =>
      match s.procs p with
      | .entering _ => some (s.goto p (.entering false))
      | _ => none
    | .logWrite p blockno data =>
      match s.procs p with
      | .working => some (s.logWrite g p blockno data)
      | _ => none
    | .record p =>
      match s.procs p with
      | .logging blockno => some (s.record p blockno)
      | _ => none
    | .endOp p =>
      match s.procs p with
      | .working => some (s.endOp p)
      | _ => none
    | .commit p =>
      match s.procs p with
      | .committing phase => some (s.commit g p phase)
      | _ => none

/-- After `initlog`: an empty log, no operation. -/
def fresh (N : Nat) (blocks : Nat → Block) : LogSys N :=
  { outstanding := 0
    committing := false
    mem := Log.Mem.boot blocks
    procs := fun _ => .outside
    panicked := none }

end LogSys

/-- What the processes have asked of the log: the block that each has last passed to `log_write`,
the blocks that its operation has logged, the blocks of the operations that have ended since the
last commit, and for each commit its blocks beside the blocks of those operations.
-/
structure LogHistory (N : Nat) where
  asked : Fin N → Nat
  logged : Fin N → Finset Nat
  ended : Finset Nat
  commits : List (Finset Nat × Finset Nat)

namespace LogHistory

variable {N : Nat}

def none : LogHistory N :=
  { asked := fun _ => 0, logged := fun _ => ∅, ended := ∅, commits := [] }

/-- A transaction with these blocks is decided. -/
@[grind]
def commit (h : LogHistory N) (blocks : Finset Nat) : LogHistory N :=
  { h with commits := h.commits ++ [(blocks, h.ended)], ended := ∅ }

end LogHistory

/-- The history is taken from the calls; a transaction is decided when `write_head` writes the
header, or when there is nothing to write.
-/
def LogSys.note {N : Nat} (s : LogSys N) (action : LogAction N) (h : LogHistory N)
    : LogHistory N :=
  match action with
  | .logWrite p blockno _ => { h with asked := update h.asked p blockno }
  | .record p => { h with logged := update h.logged p (insert (h.asked p) (h.logged p)) }
  | .endOp p =>
    { h with
      ended := h.ended ∪ h.logged p
      logged := update h.logged p ∅ }
  | .commit p =>
    match s.procs p with
    | .committing .start => if s.mem.lh.n > 0 then h else h.commit ∅
    | .committing .writeHead => h.commit s.mem.lh.blocks
    | _ => h
  | _ => h

/-- One for an operation between its `begin_op` and its `end_op`. -/
@[grind]
def LogPc.active : LogPc → Int
  | .working => 1
  | .logging _ => 1
  | _ => 0

/-- The header has been written, so the transaction is decided. -/
@[grind]
def CommitPhase.Decided : CommitPhase → Prop
  | .start => False
  | .writeLog => False
  | .writeHead => False
  | _ => True

/-- The header still names the blocks of a decided transaction. -/
@[grind]
def CommitPhase.Installing : CommitPhase → Prop
  | .installTrans => True
  | .clearLog => True
  | _ => False

theorem LogPc.active_nonneg (pc : LogPc) : 0 ≤ pc.active := by
  cases pc <;> simp [active]

variable {lh : LogHeader}

/-- The blocks that the header names. -/
theorem LogHeader.mem_blocks {b : Nat}
    : b ∈ lh.blocks ↔ ∃ i < lh.n.toNat, lh.block i = b := by
  simp [blocks]

/-- `log_write` adds its block to the header, which grows if the block is new. -/
theorem LogHeader.record_eq (size : 0 ≤ lh.n) (blockno : Nat)
    : (lh.record blockno).n = lh.n + (if blockno ∈ lh.blocks then 0 else 1)
      ∧ (lh.record blockno).blocks = insert blockno lh.blocks := by
  rw [record]
  cases search : (List.range lh.n.toNat).find? (fun i => lh.block i = blockno) with
  | some i =>
    have same : lh.block i = blockno := by simpa using List.find?_some search
    have inside : i < lh.n.toNat := List.mem_range.mp (List.mem_of_find?_eq_some search)
    have present : blockno ∈ lh.blocks := mem_blocks.mpr ⟨i, inside, same⟩
    have unchanged : update lh.block i blockno = lh.block := by
      rw [← same, update_eq_self]
    simp only [unchanged, if_pos present, Int.add_zero, Finset.insert_eq_of_mem present, true_and]
  | none =>
    rw [List.find?_eq_none] at search
    have absent : blockno ∉ lh.blocks := by
      intro present
      obtain ⟨i, inside, same⟩ := mem_blocks.mp present
      exact search i (List.mem_range.mpr inside) (decide_eq_true same)
    refine ⟨by simp [absent], ?_⟩
    have grown : (lh.n + 1).toNat = lh.n.toNat + 1 := by omega
    have earlier : (Finset.range lh.n.toNat).image
          (update lh.block lh.n.toNat blockno)
        = lh.blocks := by
      refine Finset.image_congr fun i inside => ?_
      have before : i < lh.n.toNat := by simpa using inside
      rw [update_of_ne (Nat.ne_of_lt before)]
    simp only [blocks] at earlier ⊢
    rw [grown, Finset.range_add_one, Finset.image_insert, update_self, earlier]

theorem LogHeader.n_eq_zero (size : 0 ≤ lh.n) (empty : lh.blocks = ∅)
    : lh.n = 0 := by
  by_contra some_
  have member : lh.block 0 ∈ lh.blocks := mem_blocks.mpr ⟨0, by omega, rfl⟩
  rw [empty] at member
  cases member

theorem LogHeader.blocks_eq_empty (none : lh.n ≤ 0) : lh.blocks = ∅ := by
  have zero : lh.n.toNat = 0 := by omega
  rw [blocks, zero, Finset.range_zero, Finset.image_empty]

theorem Log.writeLog_lh (g : Geometry) (m : Mem) : (writeLog.run g m).state.lh = m.lh := by
  have kept (i : Nat) (state : Mem) (same : state.lh = m.lh)
      : ((logBlock i).run g state).state.lh = m.lh :=
    same
  exact Program.forRange_invariant kept rfl

theorem Log.installTrans_lh (g : Geometry) (m : Mem)
    : (installTrans.run g m).state.lh = m.lh := by
  have kept (i : Nat) (state : Mem) (same : state.lh = m.lh)
      : ((installBlock i).run g state).state.lh = m.lh :=
    same
  exact Program.forRange_invariant kept rfl

namespace LogSys

variable {N : Nat} {g : Log.Geometry} {s s' : LogSys N} {action : LogAction N}

inductive Step (g : Log.Geometry) (s : LogSys N) : LogAction N → LogSys N → Prop where
  | sleep {p : Fin N} (here : s.procs p = .outside ∨ s.procs p = .entering false)
    : Step g s (.beginOp p) (s.goto p (.entering true))
  | wake {p : Fin N} {asleep : Bool} (here : s.procs p = .entering asleep)
    : Step g s (.kill p) (s.goto p (.entering false))
  | allow {p : Fin N} (here : s.procs p = .outside ∨ s.procs p = .entering false)
      (idle : s.committing = false)
      (room : s.mem.lh.n + (s.outstanding + 1) * maxOpBlocks ≤ logSize)
    : Step g s (.beginOp p) (goto { s with outstanding := s.outstanding + 1 } p .working)
  | tooBig {p : Fin N} {blockno : Nat} {data : Block} {blocks : Nat → Block}
      (here : s.procs p = .working)
      (large : s.mem.lh.n ≥ (logSize : Int) ∨ s.mem.lh.n ≥ (g.size : Int) - 1)
    : Step g s (.logWrite p blockno data)
        (panic { s with mem := { s.mem with blocks } } .tooBigTransaction)
  | outsideOfTrans {p : Fin N} {blockno : Nat} {data : Block} {blocks : Nat → Block}
      (here : s.procs p = .working) (none : s.outstanding < 1)
    : Step g s (.logWrite p blockno data)
        (panic { s with mem := { s.mem with blocks } } .outsideOfTrans)
  | test {p : Fin N} {blockno : Nat} {data : Block} {blocks : Nat → Block}
      (here : s.procs p = .working)
    : Step g s (.logWrite p blockno data)
        (goto { s with mem := { s.mem with blocks } } p (.logging blockno))
  | record {p : Fin N} {blockno : Nat} (here : s.procs p = .logging blockno)
    : Step g s (.record p) (s.record p blockno)
  | endWhileCommitting {p : Fin N} (here : s.procs p = .working) (committing : s.committing = true)
    : Step g s (.endOp p)
        (panic { s with outstanding := s.outstanding - 1 } .logCommitting)
  | endLast {p : Fin N} (here : s.procs p = .working) (idle : s.committing = false)
      (last : s.outstanding - 1 = 0)
    : Step g s (.endOp p)
        (goto { s with outstanding := s.outstanding - 1, committing := true } p
          (.committing .start))
  | endOther {p : Fin N} (here : s.procs p = .working) (idle : s.committing = false)
      (others : s.outstanding - 1 ≠ 0)
    : Step g s (.endOp p)
        (goto (wakeup { s with outstanding := s.outstanding - 1 }) p .outside)
  | commit {p : Fin N} {phase : CommitPhase} (here : s.procs p = .committing phase)
    : Step g s (.commit p) (s.commit g p phase)

/-- Every step is one of the cases, with its guards. -/
theorem step_cases (taken : step g s action = some s')
    : s.panicked = none ∧ Step g s action s' := by
  unfold step at taken
  split at taken
  · cases taken
  rename_i running
  refine ⟨by simpa using running, ?_⟩
  cases action <;> grind -linarith [Step, beginOp, logWrite, endOp]

variable {h : LogHistory N} {p : Fin N} {phase : CommitPhase}

/-- `outstanding` counts the operations; while a commit runs there are none, and at other times
the header names the blocks that the operations have logged since the last commit.
-/
structure Inv (s : LogSys N) (h : LogHistory N) : Prop where
  count : s.outstanding = tally LogPc.active s.procs
  quiet : s.committing = true → s.outstanding = 0
  committer : ∀ p phase, s.procs p = .committing phase → s.committing = true
  single : ∀ p q phase phase', s.procs p = .committing phase → s.procs q = .committing phase'
    → p = q
  size : 0 ≤ s.mem.lh.n
  asked : ∀ p blockno, s.procs p = .logging blockno → h.asked p = blockno
  unlogged : ∀ p, (s.procs p).active = 0 → h.logged p = ∅
  blocks : s.committing = false → ∀ b, b ∈ s.mem.lh.blocks ↔ b ∈ h.ended ∨ ∃ p, b ∈ h.logged p
  pending : ∀ p phase, s.procs p = .committing phase → ¬ phase.Installing
    → s.mem.lh.blocks = h.ended
  decided : ∀ p phase, s.procs p = .committing phase → phase.Decided → h.ended = ∅
  idle : s.outstanding = 0 → s.committing = false → h.ended = ∅
  exact_ : ∀ transaction ∈ h.commits, transaction.1 = transaction.2
  calm : ∀ reason, s.panicked = some reason → reason = .tooBigTransaction

/-- While a commit runs no operation does. -/
theorem Inv.inactive (inv : Inv s h) (committing : s.committing = true) (p : Fin N)
    : (s.procs p).active = 0 := by
  have most := le_tally (fun q => (s.procs q).active_nonneg) p
  have least := (s.procs p).active_nonneg
  have none := inv.quiet committing
  rw [inv.count] at none
  omega

theorem Inv.counted (inv : Inv s h) (active : (s.procs p).active = 1)
    : 0 < s.outstanding := by
  have most := le_tally (fun q => (s.procs q).active_nonneg) p
  rw [inv.count]
  omega

theorem Inv.not_committing (inv : Inv s h) (active : (s.procs p).active = 1)
    : s.committing = false := by
  have some_ := inv.counted active
  by_contra committing
  have none := inv.quiet (Bool.eq_true_of_not_eq_false committing)
  omega

@[grind =]
theorem goto_procs (s : LogSys N) (p q : Fin N) (pc : LogPc)
    : (s.goto p pc).procs q = if q = p then pc else s.procs q :=
  update_apply ..

@[grind =]
theorem wakeup_procs (s : LogSys N) (p : Fin N)
    : s.wakeup.procs p = match s.procs p with
      | .entering _ => .entering false
      | pc => pc :=
  rfl

@[grind! .]
theorem wakeup_rest (s : LogSys N)
    : s.wakeup.outstanding = s.outstanding ∧ s.wakeup.committing = s.committing
      ∧ s.wakeup.mem = s.mem ∧ s.wakeup.panicked = s.panicked :=
  ⟨rfl, rfl, rfl, rfl⟩

@[grind =]
theorem wakeup_tally (s : LogSys N)
    : tally LogPc.active s.wakeup.procs = tally LogPc.active s.procs := by
  refine tally_congr fun p => ?_
  simp only [wakeup]
  cases s.procs p <;> rfl

@[grind =]
theorem goto_tally (s : LogSys N) (p : Fin N) (pc : LogPc)
    : tally LogPc.active (s.goto p pc).procs
      = tally LogPc.active s.procs - (s.procs p).active + pc.active :=
  tally_update ..

@[grind! .]
theorem goto_rest (s : LogSys N) (p : Fin N) (pc : LogPc)
    : (s.goto p pc).outstanding = s.outstanding ∧ (s.goto p pc).committing = s.committing
      ∧ (s.goto p pc).mem = s.mem ∧ (s.goto p pc).panicked = s.panicked :=
  ⟨rfl, rfl, rfl, rfl⟩

/-- A process waits in `begin_op`. -/
theorem Inv.entering (inv : Inv s h) (inactive : (s.procs p).active = 0) (asleep : Bool)
    : Inv (s.goto p (.entering asleep)) h := by
  cases inv
  constructor <;> grind -linarith

/-- `begin_op` admits an operation. -/
theorem Inv.allow (inv : Inv s h) (inactive : (s.procs p).active = 0)
    (running : s.committing = false)
    : Inv (goto { s with outstanding := s.outstanding + 1 } p .working) h := by
  have some_ : 0 ≤ s.outstanding := by
    rw [inv.count]
    exact tally_nonneg fun q => (s.procs q).active_nonneg
  cases inv
  constructor <;> grind -linarith

/-- `log_write` logs a block for its operation. -/
theorem Inv.record (inv : Inv s h) {blockno : Nat} (here : s.procs p = .logging blockno)
    : Inv (s.record p blockno) (s.note (.record p) h) := by
  obtain ⟨number, added⟩ := LogHeader.record_eq inv.size blockno
  have active : (s.procs p).active = 1 := by rw [here]; rfl
  have calm_ := inv.not_committing active
  obtain ⟨count, quiet, committer, single, size, asked, unlogged, blocks, pending, decided, idle,
    exact_, calm⟩ := inv
  have logged (b : Nat)
      : (∃ q, b ∈ update h.logged p (insert (h.asked p) (h.logged p)) q)
        ↔ b = blockno ∨ ∃ q, b ∈ h.logged q := by
    simp only [update_apply]
    grind -linarith
  simp only [LogSys.record, note]
  constructor
  case blocks =>
    intro _ b
    simp only [goto, logged, added, Finset.mem_insert, blocks calm_ b]
    grind -linarith
  all_goals grind -linarith

/-- The blocks of an operation that ends are passed on to the blocks of the ended operations. -/
theorem ended_logged (h : LogHistory N) (p : Fin N) (b : Nat)
    : (b ∈ h.ended ∪ h.logged p ∨ ∃ q, b ∈ update h.logged p ∅ q)
      ↔ b ∈ h.ended ∨ ∃ q, b ∈ h.logged q := by
  simp only [update_apply]
  grind -linarith

/-- The last operation ends, and its process goes on with `commit`. -/
theorem Inv.endLast (inv : Inv s h) (here : s.procs p = .working) (last : s.outstanding - 1 = 0)
    : Inv (goto { s with outstanding := s.outstanding - 1, committing := true } p
        (.committing .start)) (s.note (.endOp p) h) := by
  have active : (s.procs p).active = 1 := by rw [here]; rfl
  have calm_ := inv.not_committing active
  obtain ⟨count, quiet, committer, single, size, asked, unlogged, blocks, pending, decided, idle,
    exact_, calm⟩ := inv
  have others (q : Fin N) (other : q ≠ p) : h.logged q = ∅ := by
    have most := le_tally (fun r => ((s.goto p .outside).procs r).active_nonneg) q
    have least := (s.procs q).active_nonneg
    rw [goto_tally, goto_procs, if_neg other, active, ← count] at most
    have zero : LogPc.active .outside = 0 := rfl
    exact unlogged q (by omega)
  have passed : s.mem.lh.blocks = h.ended ∪ h.logged p := by
    ext b
    rw [blocks calm_ b]
    grind -linarith
  simp only [note]
  constructor
  all_goals grind -linarith

/-- An operation ends beside others. -/
theorem Inv.endOther (inv : Inv s h) (here : s.procs p = .working) (others : s.outstanding - 1 ≠ 0)
    : Inv (goto (wakeup { s with outstanding := s.outstanding - 1 }) p .outside)
        (s.note (.endOp p) h) := by
  have active : (s.procs p).active = 1 := by rw [here]; rfl
  have calm_ := inv.not_committing active
  obtain ⟨count, quiet, committer, single, size, asked, unlogged, blocks, pending, decided, idle,
    exact_, calm⟩ := inv
  simp only [note]
  constructor
  case blocks =>
    intro _ b
    exact (blocks calm_ b).trans (ended_logged h p b).symm
  all_goals grind -linarith

/-- `commit` goes on to its next phase, with a header and a history that this phase may have. -/
theorem Inv.advance (inv : Inv s h) (here : s.procs p = .committing phase) {mem : Log.Mem}
    {next : CommitPhase} {h' : LogHistory N} (logged : h'.logged = h.logged) (size : 0 ≤ mem.lh.n)
    (pending : ¬ next.Installing → mem.lh.blocks = h'.ended) (decided : next.Decided → h'.ended = ∅)
    (exact_ : ∀ transaction ∈ h'.commits, transaction.1 = transaction.2)
    : Inv (goto { s with mem } p (.committing next)) h' := by
  have running := inv.committer p phase here
  have inactive := inv.inactive running
  obtain ⟨count, quiet, committer, single, -, -, unlogged, -, -, -, -, -, calm⟩ := inv
  constructor <;> grind -linarith

/-- The commit is over, and operations may start again. -/
theorem Inv.finish (inv : Inv s h) (here : s.procs p = .committing .finish)
    : Inv ((wakeup { s with committing := false }).goto p .outside) h := by
  have running := inv.committer p .finish here
  have inactive := inv.inactive running
  cases inv
  constructor <;> grind -linarith

/-- Each phase writes its blocks; the header and the history change where the transaction is
decided and where the header is cleared.
-/
theorem Inv.commit (inv : Inv s h) (here : s.procs p = .committing phase) (g : Log.Geometry)
    : Inv (s.commit g p phase) (s.note (.commit p) h) := by
  have pending := inv.pending p phase here
  have decided := inv.decided p phase here
  have size := inv.size
  have exact_ := inv.exact_
  cases phase with
  | start =>
    simp only [LogSys.commit, note, here]
    split
    · exact inv.advance here rfl size (fun _ => pending id) nofun exact_
    · have empty := LogHeader.blocks_eq_empty (Int.not_lt.mp ‹_›)
      exact inv.advance here rfl size (fun _ => empty) (fun _ => rfl) (by grind -linarith)
  | writeLog =>
    have same := Log.writeLog_lh g s.mem
    simp only [LogSys.commit, note, here, LogSys.phase]
    exact inv.advance here rfl (by rwa [same]) (fun _ => by rw [same, pending id]) nofun exact_
  | writeHead =>
    simp only [LogSys.commit, note, here, LogSys.phase]
    exact inv.advance here rfl size (fun not => absurd trivial not) (fun _ => rfl)
      (by grind -linarith)
  | installTrans =>
    have same := Log.installTrans_lh g s.mem
    simp only [LogSys.commit, note, here, LogSys.phase]
    exact inv.advance here rfl (by rwa [same]) (fun not => absurd trivial not) decided exact_
  | clearLog =>
    have empty : (Log.clearLog.run g s.mem).state.lh.blocks = ∅ :=
      LogHeader.blocks_eq_empty (Int.le_refl 0)
    simp only [LogSys.commit, note, here, LogSys.phase]
    exact inv.advance here rfl (Int.le_refl 0) (fun _ => by rw [empty, decided trivial])
      decided exact_
  | eraseHead =>
    simp only [LogSys.commit, note, here, LogSys.phase]
    exact inv.advance here rfl size (fun _ => pending id) decided exact_
  | finish =>
    simp only [LogSys.commit, note, here]
    exact inv.finish here

/-- One step keeps the invariant, by its cases. -/
theorem Inv.kept (inv : Inv s h) (taken : Step g s action s') : Inv s' (s.note action h) := by
  have active (p : Fin N) (here : s.procs p = .working) : (s.procs p).active = 1 := by
    rw [here]
    rfl
  cases taken with
  | sleep here => exact inv.entering (by grind -linarith) true
  | wake here => exact inv.entering (by grind -linarith) false
  | allow here idle => exact inv.allow (by grind -linarith) idle
  | tooBig =>
    cases inv
    simp only [note, panic]
    constructor <;> grind -linarith
  | @outsideOfTrans p _ _ _ here =>
    have some_ := inv.counted (active p here)
    omega
  | @test p blockno data blocks here =>
    have mine := active p here
    cases inv
    simp only [note]
    constructor <;> grind -linarith
  | record here => exact inv.record here
  | @endWhileCommitting p here committing =>
    have idle := inv.not_committing (active p here)
    rw [committing] at idle
    cases idle
  | endLast here idle last => exact inv.endLast here last
  | endOther here idle others => exact inv.endOther here others
  | commit here => exact inv.commit here g

theorem Inv.fresh (N : Nat) (blocks : Nat → Block) : Inv (LogSys.fresh N blocks) .none := by
  constructor
  case count => exact (Finset.sum_eq_zero fun _ _ => rfl).symm
  case blocks =>
    intro _ b
    simp [LogSys.fresh, LogHistory.none, LogHeader.blocks, Log.Mem.boot]
  all_goals simp [LogSys.fresh, LogHistory.none, Log.Mem.boot]

/-- The operation of the process is between its `begin_op` and its `end_op`. -/
def InOp (s : LogSys N) (p : Fin N) : Prop :=
  s.procs p = .working ∨ ∃ blockno, s.procs p = .logging blockno

theorem inOp_iff : s.InOp p ↔ (s.procs p).active = 1 := by
  cases here : s.procs p <;> simp [InOp, here, LogPc.active]

/-- A commit does not run beside an operation, `log_write` or an admission, `end_op` does not
panic, and a transaction has the blocks of the operations that ended since the one before it.
-/
structure Whole (g : Log.Geometry) (current : LogSys N × LogHistory N) : Prop where
  alone : (current.1.committing = true ∨ ∃ p phase, current.1.procs p = .committing phase)
    → ∀ q, ¬ current.1.InOp q
  noLogWrite : current.1.committing = true → ∀ q blockno data,
    step g current.1 (.logWrite q blockno data) = none ∧ step g current.1 (.record q) = none
  noAdmission : current.1.committing = true → ∀ q s', step g current.1 (.beginOp q) = some s'
    → ¬ s'.InOp q ∧ s'.outstanding = current.1.outstanding
  noPanic : current.1.panicked ≠ some .logCommitting
  exact_ : ∀ transaction ∈ current.2.commits, transaction.1 = transaction.2

theorem Step.logWrite_inOp {blockno : Nat} {data : Block}
    (taken : Step g s (.logWrite p blockno data) s')
    : s.InOp p := by
  cases taken with
  | tooBig here _ | outsideOfTrans here _ | test here => exact Or.inl here

theorem Step.record_inOp (taken : Step g s (.record p) s') : s.InOp p := by
  cases taken with
  | record here => exact Or.inr ⟨_, here⟩

theorem Inv.whole (inv : Inv s h) : Whole g (s, h) := by
  have alone (committing : s.committing = true) (q : Fin N) : ¬ s.InOp q := by
    rw [inOp_iff, inv.inactive committing q]
    decide
  constructor
  · rintro (committing | ⟨p, phase, here⟩)
    · exact alone committing
    · exact alone (inv.committer p phase here)
  · intro committing q blockno data
    constructor
    · rw [Option.eq_none_iff_forall_ne_some]
      intro s' taken
      exact alone committing q (step_cases taken).2.logWrite_inOp
    · rw [Option.eq_none_iff_forall_ne_some]
      intro s' taken
      exact alone committing q (step_cases taken).2.record_inOp
  · intro committing q s' taken
    cases (step_cases taken).2 with
    | sleep =>
      refine ⟨?_, rfl⟩
      rw [inOp_iff, goto_procs, if_pos rfl]
      decide
    | allow inactive idle =>
      rw [committing] at idle
      cases idle
  · intro is
    cases inv.calm _ is
  · exact inv.exact_

end LogSys

end Xv6Net
