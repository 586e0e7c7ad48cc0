import Xv6Net.Fs.GroupCommit
import Mathlib.Algebra.BigOperators.Ring.Finset

/-! Whether the space that `begin_op` reserves is enough for `log_write`. The header block takes
one of the `log.size` blocks, so that one block less than `LOGSIZE` can be logged, and
`log_write` makes its test also when the block is already in the log.
-/

namespace Xv6Net.LogSys

open Library Transition Function

variable {N : Nat} {g : Log.Geometry} {s s' : LogSys N} {h : LogHistory N} {action : LogAction N}
  {p : Fin N}

/-- An operation calls `log_write` on at most `limit` different blocks. -/
def WithinLimit (limit : Nat) (current : LogSys N × LogHistory N) : LogAction N → Prop
  | .logWrite p blockno _ => (insert blockno (current.2.logged p)).card ≤ limit
  | _ => True

instance (limit : Nat) (current : LogSys N × LogHistory N) (action : LogAction N)
    : Decidable (WithinLimit limit current action) := by
  unfold WithinLimit
  cases action <;> infer_instance

/-- How many blocks the operation of a process may still log, of nine. -/
@[grind]
def spare (place : LogPc × Finset Nat) : Int :=
  if place.1.active = 1 then 9 - place.2.card else 0

@[grind]
def places (s : LogSys N) (h : LogHistory N) (p : Fin N) : LogPc × Finset Nat :=
  (s.procs p, h.logged p)

/-- What is logged and what may still be logged fit in the log. -/
structure Reserved (s : LogSys N) (h : LogHistory N) : Prop where
  inv : Inv s h
  modest : ∀ p, (h.logged p).card ≤ 9
  asked : ∀ p blockno, s.procs p = .logging blockno → (insert blockno (h.logged p)).card ≤ 9
  room : 0 < s.outstanding → s.mem.lh.n + tally spare (places s h) ≤ 28
  calm : s.panicked = none

theorem spare_le (place : LogPc × Finset Nat) : spare place ≤ 9 * place.1.active := by
  obtain ⟨pc, logged⟩ := place
  cases pc <;> simp [spare, LogPc.active]

theorem Inv.empty (inv : Inv s h) (none : s.outstanding = 0) (idle : s.committing = false)
    : s.mem.lh.n = 0 ∧ tally spare (places s h) = 0 := by
  have inactive (p : Fin N) : (s.procs p).active = 0 := by
    have most := le_tally (fun q => (s.procs q).active_nonneg) p
    have least := (s.procs p).active_nonneg
    have count := inv.count
    omega
  constructor
  · apply LogHeader.n_eq_zero inv.size
    ext b
    rw [inv.blocks idle b, inv.idle none idle]
    simp [inv.unlogged _ (inactive _)]
  · refine Finset.sum_eq_zero fun p _ => ?_
    simp [spare, places, inactive]

/-- What a step of one process does to the space that is reserved. -/
theorem tally_places (p : Fin N) (s s' : LogSys N) (h h' : LogHistory N)
    (procs : ∀ q, q ≠ p → (s'.procs q).active = (s.procs q).active)
    (logged : ∀ q, q ≠ p → h'.logged q = h.logged q)
    : tally spare (places s' h')
      = tally spare (places s h) - spare (places s h p) + spare (places s' h' p) := by
  rw [← tally_update]
  refine tally_congr fun q => ?_
  by_cases same : q = p
  · rw [same, update_self]
  · rw [update_of_ne same, spare, spare, places, places, procs q same, logged q same]

/-- Witness: the test of `begin_op` leaves one block for each operation. -/
theorem Reserved.allow (reserved : Reserved s h) (inactive : (s.procs p).active = 0)
    (idle : s.committing = false)
    (room : s.mem.lh.n + (s.outstanding + 1) * maxOpBlocks ≤ logSize)
    : Reserved (goto { s with outstanding := s.outstanding + 1 } p .working) h := by
  have total : tally spare (places s h) ≤ 9 * s.outstanding := by
    rw [reserved.inv.count, tally, tally, Finset.mul_sum]
    exact Finset.sum_le_sum fun q _ => spare_le (places s h q)
  have some_ : 0 ≤ s.outstanding := by
    rw [reserved.inv.count]
    exact tally_nonneg fun q => (s.procs q).active_nonneg
  have empty := reserved.inv.empty
  refine ⟨reserved.inv.allow inactive idle, reserved.modest, ?_, fun _ => ?_, reserved.calm⟩
  · have := reserved.asked
    grind
  · rw [tally_places p s _ h _ (by grind) (by grind)]
    simp only [maxOpBlocks, logSize] at room
    grind

theorem Reserved.record (reserved : Reserved s h) {blockno : Nat}
    (here : s.procs p = .logging blockno)
    : Reserved (s.record p blockno) (s.note (.record p) h) := by
  have active : (s.procs p).active = 1 := by rw [here]; rfl
  have idle := reserved.inv.not_committing active
  have mine := reserved.inv.asked p blockno here
  have modest := reserved.modest
  have asked := reserved.asked
  refine ⟨reserved.inv.record here, fun q => ?_, fun q other => ?_, fun _ => ?_, reserved.calm⟩
  · simp only [note, update_apply]
    grind
  · simp only [note, update_apply, LogSys.record]
    grind
  · have before := reserved.room (reserved.inv.counted active)
    obtain ⟨number, -⟩ := LogHeader.record_eq reserved.inv.size blockno
    -- a block that is new to the log is new to the operation
    have new : blockno ∉ s.mem.lh.blocks → blockno ∉ h.logged p := by
      intro absent old
      exact absent ((reserved.inv.blocks idle blockno).mpr (Or.inr ⟨p, old⟩))
    have fewer := Finset.card_le_card (Finset.subset_insert blockno (h.logged p))
    have card : blockno ∉ h.logged p
        → (insert blockno (h.logged p)).card = (h.logged p).card + 1 :=
      Finset.card_insert_of_notMem
    have was : spare (places s h p) = 9 - (h.logged p).card := if_pos active
    have now : spare (places (s.record p blockno) (s.note (.record p) h) p)
        = 9 - (insert blockno (h.logged p)).card := by
      simp [spare, places, note, LogSys.record, goto_procs, mine, LogPc.active]
    rw [tally_places p s _ h, was, now]
    · change (s.mem.lh.record blockno).n + _ ≤ 28
      rw [number]
      split <;> grind
    · simp only [LogSys.record]
      grind
    · exact fun q other => update_of_ne other ..

theorem Reserved.of_quiet (inv : Inv s' h) (zero : s'.outstanding = 0)
    (modest : ∀ p, (h.logged p).card ≤ 9) (calm : s'.panicked = none)
    : Reserved s' h := by
  refine ⟨inv, modest, fun p blockno here => ?_, fun some_ => ?_, calm⟩
  · have := inv.counted (p := p) (by rw [here]; rfl)
    omega
  · omega

/-- A phase of `commit` concerns neither the counters nor the blocks of operations. -/
theorem commit_rest (s : LogSys N) (g : Log.Geometry) (h : LogHistory N) {phase : CommitPhase}
    (here : s.procs p = .committing phase)
    : (s.note (.commit p) h).logged = h.logged
      ∧ (s.commit g p phase).outstanding = s.outstanding
      ∧ (s.commit g p phase).panicked = s.panicked := by
  cases phase with
  | start => grind [LogSys.commit, note]
  | _ => grind [LogSys.commit, note, LogSys.phase]

theorem Reserved.entering (reserved : Reserved s h) (inactive : (s.procs p).active = 0)
    (asleep : Bool)
    : Reserved (s.goto p (.entering asleep)) h := by
  have asked := reserved.asked
  have room := reserved.room
  have total := tally_places p s (s.goto p (.entering asleep)) h h (by grind) (by grind)
  exact ⟨reserved.inv.entering inactive asleep, reserved.modest, by grind, by grind, reserved.calm⟩

theorem Reserved.test (reserved : Reserved s h) {blockno : Nat} {data : Block}
    {blocks : Nat → Block}
    (here : s.procs p = .working) (within : (insert blockno (h.logged p)).card ≤ 9)
    (inv : Inv (goto { s with mem := { s.mem with blocks } } p (.logging blockno))
      (s.note (.logWrite p blockno data) h))
    : Reserved (goto { s with mem := { s.mem with blocks } } p (.logging blockno))
        (s.note (.logWrite p blockno data) h) := by
  have asked := reserved.asked
  have room := reserved.room
  have total := tally_places p s (goto { s with mem := { s.mem with blocks } } p (.logging blockno))
    h (s.note (.logWrite p blockno data) h) (by grind) (fun _ _ => rfl)
  refine ⟨inv, reserved.modest, ?_, ?_, reserved.calm⟩
  · simp only [note]
    grind
  · simp only [note] at total ⊢
    grind

theorem Reserved.endOther (reserved : Reserved s h) (here : s.procs p = .working)
    (others : s.outstanding - 1 ≠ 0)
    : Reserved (goto (wakeup { s with outstanding := s.outstanding - 1 }) p .outside)
        (s.note (.endOp p) h) := by
  have before := reserved.room (reserved.inv.counted (p := p) (by rw [here]; rfl))
  have modest := reserved.modest
  have asked := reserved.asked
  have total := tally_places p s
    (goto (wakeup { s with outstanding := s.outstanding - 1 }) p .outside) h
    (s.note (.endOp p) h) (by grind) (fun q other => update_of_ne other ..)
  refine ⟨reserved.inv.endOther here others, ?_, ?_, ?_, reserved.calm⟩
  · simp only [note, update_apply]
    grind
  · simp only [note, update_apply]
    grind
  · grind

theorem Reserved.kept (reserved : Reserved s h) (taken : Step g s action s')
    (within : WithinLimit 9 (s, h) action) (size : g.size = logSize)
    : Reserved s' (s.note action h) := by
  have inv := reserved.inv.kept taken
  have modest := reserved.modest
  cases taken with
  | sleep here => exact reserved.entering (by grind) true
  | wake here => exact reserved.entering (by grind) false
  | allow here idle room => exact reserved.allow (by grind) idle room
  | @tooBig p _ _ _ here large =>
    have before := reserved.room (reserved.inv.counted (p := p) (by rw [here]; rfl))
    have spare : 0 ≤ tally spare (places s h) := tally_nonneg (by grind)
    rw [size] at large
    simp only [logSize] at large
    omega
  | @outsideOfTrans p _ _ _ here =>
    have some_ := reserved.inv.counted (p := p) (by rw [here]; rfl)
    omega
  | test here => exact reserved.test here within inv
  | record here => exact reserved.record here
  | @endWhileCommitting p here committing =>
    have idle := reserved.inv.not_committing (p := p) (by rw [here]; rfl)
    rw [committing] at idle
    cases idle
  | @endLast p here idle last =>
    refine .of_quiet inv last (fun q => ?_) reserved.calm
    simp only [note, update_apply]
    grind
  | endOther here idle others => exact reserved.endOther here others
  | @commit p phase here =>
    obtain ⟨same, outstanding, panicked⟩ := s.commit_rest g h here
    have zero := reserved.inv.quiet (reserved.inv.committer p phase here)
    exact .of_quiet inv (outstanding.trans zero) (same ▸ modest) (panicked.trans reserved.calm)

theorem Reserved.fresh (N : Nat) (blocks : Nat → Block) : Reserved (LogSys.fresh N blocks) .none :=
  .of_quiet (Inv.fresh N blocks) rfl (fun _ => Nat.zero_le 9) rfl

/-- `log_write` does not panic in a run whose operations log at most nine blocks each. -/
theorem reservation_suffices (N : Nat) (g : Log.Geometry) (blocks : Nat → Block)
    (actions : List (LogAction N)) (size : g.size = logSize)
    (within : Along (withHistory (step g) note) (WithinLimit 9) (LogSys.fresh N blocks, .none)
      actions)
    : Throughout (withHistory (step g) note)
        (fun current => current.1.panicked ≠ some .tooBigTransaction)
        (LogSys.fresh N blocks, .none) actions := by
  have always : Throughout (withHistory (step g) note) (fun now => Reserved now.1 now.2)
      (LogSys.fresh N blocks, .none) actions :=
    within.invariant (Reserved.fresh N blocks) fun now action next reserved modest taken => by
      obtain ⟨stepped, noted⟩ := withHistory_eq_some taken
      rw [noted]
      exact reserved.kept (step_cases stepped).2 modest size
  refine always.mono fun s reserved is => ?_
  rw [reserved.calm] at is
  cases is

/-- The log that `mkfs` lays out. -/
def mkfsLog : Log.Geometry :=
  { start := 2, size := logSize, header := by decide }

/-- Three operations that each log `count` blocks of their own. -/
def threeOps (count : Nat) : List (LogAction 3) :=
  [.beginOp 0, .beginOp 1, .beginOp 2]
    ++ (List.range count).flatMap (fun i =>
      [0, 1, 2].flatMap fun p => [.logWrite p (100 + 3 * i + p.val) (fun _ => 0), .record p])

set_option maxRecDepth 20000

theorem reservation_suffices_nine
    : Throughout (withHistory (step mkfsLog) note)
        (fun current => current.1.panicked ≠ some .tooBigTransaction)
        (LogSys.fresh 3 fun _ _ => 0, .none) (threeOps 9) :=
  reservation_suffices 3 mkfsLog (fun _ _ => 0) (threeOps 9) rfl (by decide +kernel)

/-- Three operations of ten blocks are admitted together, and the last `log_write` panics. -/
theorem third_operation_panics
    : ¬ ∀ (N : Nat) (g : Log.Geometry) (blocks : Nat → Block) (actions : List (LogAction N)),
        g.size = logSize
        → Along (withHistory (step g) note) (WithinLimit 10) (LogSys.fresh N blocks, .none) actions
        → Throughout (withHistory (step g) note)
          (fun current => current.1.panicked ≠ some .tooBigTransaction)
          (LogSys.fresh N blocks, .none) actions := by
  intro claim
  have always := claim 3 mkfsLog (fun _ _ => 0) (threeOps 10 |>.take 62) rfl (by decide +kernel)
  have ends : (exec (withHistory (step mkfsLog) note) (LogSys.fresh 3 fun _ _ => 0, .none)
      ((threeOps 10).take 62)).map
      (fun current => decide (current.1.panicked ≠ some .tooBigTransaction)) = some false := by
    decide +kernel
  obtain ⟨final, run, wrong⟩ := Option.map_eq_some_iff.mp ends
  exact of_decide_eq_false wrong (always.finish run)

end Xv6Net.LogSys
