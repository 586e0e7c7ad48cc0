import Xv6Net.Net.RxRing
import Xv6Net.Net.TxBuffers
import Mathlib.Data.Nat.Bitwise

/-! The loop of `nicintr` step by step: it reads the register ISR, works through the branches of one
pass and reads ISR again, while the card stores packets and raises causes of interrupts at any time.
Only four of the causes have a branch of their own, and a pass takes one packet out of the ring
before it clears RxOK.
-/

namespace Xv6Net

open Library Transition

/-- The register ISR and what is left of the pass; `none` when `nicintr` is not running. A pass ends
with the next read of ISR.
-/
structure Intr where
  isr : UInt16
  work : Option (List NicEffect)

namespace Intr

/-- `status = nic.regs->ISR`, and the test of the loop. -/
def read (s : Intr) : Intr :=
  { s with work := if s.isr = 0 then none else some (nicintrPass s.isr.toUInt32) }

/-- The next thing that the handler does. `rtl8139_reset` writes 0xff to ISR when the chip has been
reset.
-/
def drive (s : Intr) : Intr :=
  match s.work with
  | none => s
  | some [] => s.read
  | some (.ack bits :: rest) => { isr := s.isr &&& ~~~ bits.toUInt16, work := some rest }
  | some (.reset :: rest) => { s with work := some (.ack 0xff :: rest) }
  | some (.nextTx :: rest) | some (.receive :: rest) => { s with work := some rest }

def raise (s : Intr) (bits : UInt16) : Intr := { s with isr := s.isr ||| bits }

/-- `nicintr` has read ISR for the first time. -/
def enter (isr : UInt16) : Intr := read { isr, work := none }

/-- The card raises causes and the handler goes on, as long as it runs. -/
def next (s : Intr) (bits : UInt16) : Intr :=
  if s.work = none then s else (s.raise bits).drive

/-- The handler with the causes that are raised before each of its steps. -/
def runs (s : Intr) (raises : List UInt16) : Intr := raises.foldl next s

end Intr

/-- `nicintr` returns with ISR = 0 if these causes are raised while it runs, and no others. -/
def NicintrEnds (isr : UInt16) (raises : List UInt16) : Prop :=
  ∃ n, let final := (Intr.enter isr).runs (raises ++ List.replicate n 0)
    final.work = none ∧ final.isr = 0

variable {isr bits mask both : UInt16}

theorem cleared_and {rest : UInt16} (left : ~~~ bits &&& mask = rest)
    : (isr &&& ~~~ bits) &&& mask = isr &&& rest := by
  rw [UInt16.and_assoc, left]

theorem raised_and (isr bits mask : UInt16)
    : (isr ||| bits) &&& mask = (isr &&& mask) ||| (bits &&& mask) :=
  UInt16.toNat_inj.mp (by simpa using Nat.and_or_distrib_right ..)

theorem and_masks_eq_zero {other : UInt16} (none_ : isr &&& mask = 0)
    (noOther : isr &&& other = 0) (join : mask ||| other = both)
    : isr &&& both = 0 := by
  rw [← join, UInt16.and_comm, raised_and, UInt16.and_comm mask, UInt16.and_comm other, none_,
    noOther, UInt16.zero_or]

theorem and_mask_eq_zero (none_ : isr &&& both = 0) (inside : both &&& mask = mask)
    : isr &&& mask = 0 := by
  rw [← inside, ← UInt16.and_assoc, none_, UInt16.zero_and]

theorem and_all (isr : UInt16) : isr &&& 0xffff = isr := by
  apply UInt16.toNat_inj.mp
  rw [UInt16.toNat_and]
  exact Nat.and_two_pow_sub_one_of_lt_two_pow isr.toNat_lt

theorem among_eq_zero {causes : UInt16} (among : bits &&& ~~~ causes = 0)
    (none_ : causes &&& mask = 0)
    : bits &&& mask = 0 := by
  have inside : bits &&& mask &&& causes = 0 := by
    rw [UInt16.and_assoc, UInt16.and_comm mask, none_, UInt16.and_zero]
  have outside : bits &&& mask &&& ~~~ causes = 0 := by
    rw [UInt16.and_assoc, UInt16.and_comm mask, ← UInt16.and_assoc, among, UInt16.zero_and]
  rw [← and_all (bits &&& mask)]
  exact and_masks_eq_zero inside outside UInt16.or_not_self

/-- The number of causes gets smaller when one that is set is cleared. -/
theorem cleared_lt (set_ : isr &&& bits ≠ 0)
    : (isr &&& ~~~ bits).toNat < isr.toNat := by
  refine lt_of_le_of_ne ?_ fun same => set_ ?_
  · rw [UInt16.toNat_and]
    exact Nat.and_le_left
  · have kept : isr &&& ~~~ bits = isr := UInt16.toNat_inj.mp same
    rw [← kept, UInt16.and_assoc]
    simp

theorem cleared_le (isr bits : UInt16) : (isr &&& ~~~ bits).toNat ≤ isr.toNat := by
  rw [UInt16.toNat_and]
  exact Nat.and_le_left

theorem and_bit_eq {status bit : UInt32} (i : Nat) (single : bit.toNat = 2 ^ i)
    (set_ : status &&& bit ≠ 0)
    : status &&& bit = bit := by
  have value : (status &&& bit).toNat = (status.toNat.testBit i).toNat * 2 ^ i := by
    rw [UInt32.toNat_and, single, Nat.and_two_pow]
  apply UInt32.toNat_inj.mp
  cases tested : status.toNat.testBit i with
  | false =>
    rw [tested, Bool.toNat_false, Nat.zero_mul] at value
    exact absurd (UInt32.toNat_inj.mp value) set_
  | true => rw [value, tested, Bool.toNat_true, Nat.one_mul, single]

/-- The pass that the handler makes for a value of ISR. -/
inductive PassOf (isr : UInt16) : List NicEffect → Prop where
  | txOK (set_ : isr &&& 0x0004 ≠ 0) : PassOf isr [.ack txOK, .nextTx]
  | txErr (set_ : isr &&& 0x0008 ≠ 0) : PassOf isr [.ack txErr, .reset]
  | rxOK (set_ : isr &&& 0x0001 ≠ 0) : PassOf isr [.receive, .ack rxOK]
  | rxErr (set_ : isr &&& 0x0002 ≠ 0) : PassOf isr [.ack rxErr, .reset]
  | nothing (tx : isr &&& 0x0004 = 0) (txFailed : isr &&& 0x0008 = 0) (rx : isr &&& 0x0001 = 0)
      (rxFailed : isr &&& 0x0002 = 0) : PassOf isr []

/-- One pass of the loop of `nicintr`, for any status. -/
theorem nicintrPass_spec (isr : UInt16) : PassOf isr (nicintrPass isr.toUInt32) := by
  have test (bit : UInt16) : isr.toUInt32 &&& bit.toUInt32 = 0 ↔ isr &&& bit = 0 := by
    rw [← UInt16.toUInt32_and]
    exact UInt16.toUInt32_inj (b := 0)
  have some_ : txOK ≠ 0 ∧ txErr ≠ 0 ∧ rxOK ≠ 0 ∧ rxErr ≠ 0 := by decide
  have apart : txOK &&& txErr = 0 ∧ txOK &&& rxOK = 0 ∧ txOK &&& rxErr = 0 ∧ txErr &&& rxOK = 0
      ∧ txErr &&& rxErr = 0 ∧ rxOK &&& rxErr = 0 := by decide
  by_cases tx : isr &&& 0x0004 = 0
  · have noTx : isr.toUInt32 &&& txOK = 0 := (test 0x0004).mpr tx
    by_cases txFailed : isr &&& 0x0008 = 0
    · have noTxErr : isr.toUInt32 &&& txErr = 0 := (test 0x0008).mpr txFailed
      by_cases rx : isr &&& 0x0001 = 0
      · have noRx : isr.toUInt32 &&& rxOK = 0 := (test 0x0001).mpr rx
        by_cases rxFailed : isr &&& 0x0002 = 0
        · have noRxErr : isr.toUInt32 &&& rxErr = 0 := (test 0x0002).mpr rxFailed
          have pass : nicintrPass isr.toUInt32 = [] := by
            simp [nicintrPass, noTx, noTxErr, noRx, noRxErr]
          rw [pass]
          exact .nothing tx txFailed rx rxFailed
        · have one : isr.toUInt32 &&& rxErr = rxErr :=
            and_bit_eq 1 rfl (mt (test 0x0002).mp rxFailed)
          have pass : nicintrPass isr.toUInt32 = [.ack rxErr, .reset] := by
            simp [nicintrPass, noTx, noTxErr, noRx, one, some_]
          rw [pass]
          exact .rxErr rxFailed
      · have one : isr.toUInt32 &&& rxOK = rxOK := and_bit_eq 0 rfl (mt (test 0x0001).mp rx)
        have pass : nicintrPass isr.toUInt32 = [.receive, .ack rxOK] := by
          simp [nicintrPass, noTx, noTxErr, one, some_, apart]
        rw [pass]
        exact .rxOK rx
    · have one : isr.toUInt32 &&& txErr = txErr := and_bit_eq 3 rfl (mt (test 0x0008).mp txFailed)
      have pass : nicintrPass isr.toUInt32 = [.ack txErr, .reset] := by
        simp [nicintrPass, noTx, one, some_, apart]
      rw [pass]
      exact .txErr txFailed
  · have one : isr.toUInt32 &&& txOK = txOK := and_bit_eq 2 rfl (mt (test 0x0004).mp tx)
    have pass : nicintrPass isr.toUInt32 = [.ack txOK, .nextTx] := by
      simp [nicintrPass, one, some_, apart]
    rw [pass]
    exact .txOK tx

inductive Shape : List NicEffect → Prop where
  | done : Shape []
  | txAck : Shape [.ack txOK, .nextTx]
  | txNext : Shape [.nextTx]
  | errAck (bit : UInt32) (err : bit = txErr ∨ bit = rxErr) : Shape [.ack bit, .reset]
  | reset : Shape [.reset]
  | resetAck : Shape [.ack 0xff]
  | receive : Shape [.receive, .ack rxOK]
  | rxAck : Shape [.ack rxOK]

theorem PassOf.shape {pass : List NicEffect} (h : PassOf isr pass) : Shape pass := by
  cases h with
  | txOK => exact .txAck
  | txErr => exact .errAck _ (.inl rfl)
  | rxOK => exact .receive
  | rxErr => exact .errAck _ (.inr rfl)
  | nothing => exact .done

/-- The rest of the pass clears the low half of ISR. -/
def clearing : List NicEffect → Bool
  | [] => false
  | .reset :: _ => true
  | .ack bits :: rest => bits == 0xff || clearing rest
  | .nextTx :: rest | .receive :: rest => clearing rest

namespace Intr

variable {s : Intr}

theorem next_of_none (returned : s.work = none) (bits : UInt16) : s.next bits = s :=
  if_pos returned

/-- After the return nothing changes. -/
theorem runs_of_none (returned : s.work = none) (raises : List UInt16) : s.runs raises = s := by
  induction raises with
  | nil => rfl
  | cons bits rest ih =>
    rw [runs, List.foldl_cons, next_of_none returned]
    exact ih

theorem runs_append (s : Intr) (raises more : List UInt16)
    : s.runs (raises ++ more) = (s.runs raises).runs more :=
  List.foldl_append

theorem next_zero (running : s.work ≠ none) : s.next 0 = s.drive := by
  rw [next, if_neg running, raise, UInt16.or_zero]

/-- The handler returns if nothing more is raised. -/
def Returns (s : Intr) : Prop := ∃ n, (s.runs (List.replicate n 0)).work = none

/-- It is enough that the handler returns after one step more. -/
theorem Returns.of_drive (returns : s.drive.Returns) : s.Returns := by
  by_cases running : s.work = none
  · exact ⟨0, running⟩
  · obtain ⟨n, returned⟩ := returns
    refine ⟨n + 1, ?_⟩
    rw [List.replicate_succ, runs, List.foldl_cons, next_zero running]
    exact returned

theorem isr_of_returned (cleared : s.work = none → s.isr = 0) (raises : List UInt16)
    (returned : (s.runs raises).work = none)
    : (s.runs raises).isr = 0 := by
  induction raises generalizing s with
  | nil => exact cleared returned
  | cons bits rest ih =>
    refine ih (fun ended => ?_) returned
    by_cases running : s.work = none
    · rw [next_of_none running]
      exact cleared running
    · rw [next, if_neg running] at ended ⊢
      revert ended
      rw [drive]
      split
      · exact fun ended => absurd ended running
      · rw [read]
        simp only
        split
        · rename_i zero
          exact fun _ => zero
        · exact nofun
      all_goals exact nofun

theorem done_of_drive (running : s.work ≠ none) (ended : s.drive.work = none)
    : s.isr = 0 ∧ s.work = some [] := by
  obtain ⟨isr, work⟩ := s
  cases work with
  | none => exact absurd rfl running
  | some rest =>
    cases rest with
    | nil =>
      refine ⟨?_, rfl⟩
      by_contra nonzero
      simp [drive, read, nonzero] at ended
    | cons effect => cases effect <;> cases ended

/-- The last status that is read is zero. -/
theorem Returns.last (returns : s.Returns) (running : s.work ≠ none)
    : ∃ n, s.runs (List.replicate n 0) = { isr := 0, work := some [] } := by
  obtain ⟨n, returned⟩ := returns
  induction n generalizing s with
  | zero => exact absurd returned running
  | succ n ih =>
    rw [List.replicate_succ, runs, List.foldl_cons, next_zero running] at returned
    by_cases more : s.drive.work = none
    · obtain ⟨isr, work⟩ := s
      obtain ⟨rfl, rfl⟩ := done_of_drive running more
      exact ⟨0, rfl⟩
    · obtain ⟨m, last⟩ := ih more returned
      refine ⟨m + 1, ?_⟩
      rw [List.replicate_succ, runs, List.foldl_cons, next_zero running]
      exact last

end Intr

/-- The bits that the handler cannot clear are not set, or will be cleared by a reset. -/
def Fine (s : Intr) : Prop :=
  s.work = none
  ∨ ∃ rest, s.work = some rest ∧ Shape rest ∧ s.isr &&& 0xff00 = 0
      ∧ (s.isr &&& 0x00f0 = 0 ∨ s.isr &&& 0x000a ≠ 0 ∨ clearing rest = true)

section

variable {s : Intr}

theorem Fine.raise (h : Fine s) {bits : UInt16} (handled : bits &&& 0xfff0 = 0)
    : Fine (s.raise bits) := by
  rcases h with returned | ⟨rest, work, shape, high, low⟩
  · exact .inl returned
  · refine .inr ⟨rest, work, shape, ?_, ?_⟩
    · rw [Intr.raise, raised_and, high, and_mask_eq_zero handled rfl, UInt16.zero_or]
    · rcases low with low | err | clears
      · refine .inl ?_
        rw [Intr.raise, raised_and, low, and_mask_eq_zero handled rfl, UInt16.zero_or]
      · refine .inr (.inl fun zero => err ?_)
        rw [Intr.raise, raised_and] at zero
        exact (UInt16.or_eq_zero_iff.mp zero).1
      · exact .inr (.inr clears)

variable {isr : UInt16}

theorem Fine.ack {bits : UInt32} {before rest : List NicEffect} (high : isr &&& 0xff00 = 0)
    (low : isr &&& 0x00f0 = 0 ∨ isr &&& 0x000a ≠ 0 ∨ clearing before = true) (shape : Shape rest)
    (outside : ~~~ bits.toUInt16 &&& 0xff00 = 0xff00 ∧ ~~~ bits.toUInt16 &&& 0x00f0 = 0x00f0
      ∧ ~~~ bits.toUInt16 &&& 0x000a = 0x000a)
    (clears : clearing before = true → clearing rest = true)
    : Fine { isr := isr &&& ~~~ bits.toUInt16, work := some rest } := by
  refine .inr ⟨rest, rfl, shape, (cleared_and outside.1).trans high, ?_⟩
  simp only [cleared_and outside.2.1, cleared_and outside.2.2]
  exact low.imp_right (Or.imp_right clears)

/-- The handler clears the causes that it has seen. -/
theorem Fine.drive (h : Fine s) : Fine s.drive := by
  rcases h with returned | ⟨rest, work, shape, high, low⟩
  · rw [Intr.drive, returned]
    exact .inl returned
  · obtain ⟨isr, _⟩ := s
    simp only at work high low
    subst work
    cases shape with
    | done =>
      by_cases zero : isr = 0
      · exact .inl (if_pos zero)
      · refine .inr ⟨_, if_neg zero, (nicintrPass_spec isr).shape, high, ?_⟩
        rcases low with low | err | clears
        · exact .inl low
        · exact .inr (.inl err)
        · cases clears
    | txAck => exact Fine.ack high low .txNext (by decide) nofun
    | txNext => exact .inr ⟨[], rfl, .done, high, low⟩
    | errAck bit err =>
      refine .inr ⟨[.reset], rfl, .reset, ?_, .inr (.inr rfl)⟩
      rcases err with rfl | rfl
      · exact (cleared_and (by decide)).trans high
      · exact (cleared_and (by decide)).trans high
    | reset => exact .inr ⟨[.ack 0xff], rfl, .resetAck, high, .inr (.inr rfl)⟩
    | resetAck =>
      refine .inr ⟨[], rfl, .done, (cleared_and (by decide)).trans high, .inl ?_⟩
      exact (cleared_and (by decide : _ = (0 : UInt16))).trans UInt16.and_zero
    | receive => exact .inr ⟨[.ack rxOK], rfl, .rxAck, high, low⟩
    | rxAck => exact Fine.ack high low .done (by decide) nofun

/-- Whatever handled causes are raised meanwhile. By induction on them. -/
theorem Fine.runs (h : Fine s) {raises : List UInt16}
    (handled : ∀ bits ∈ raises, bits &&& 0xfff0 = 0)
    : Fine (s.runs raises) := by
  induction raises generalizing s with
  | nil => exact h
  | cons bits rest ih =>
    obtain ⟨first_, later⟩ := List.forall_mem_cons.mp handled
    refine ih ?_ later
    rw [Intr.next]
    split
    · exact h
    · exact (h.raise first_).drive

theorem isr_eq_zero (handled : isr &&& 0x000f = 0) (low : isr &&& 0x00f0 = 0)
    (high : isr &&& 0xff00 = 0)
    : isr = 0 := by
  rw [← and_all isr]
  exact and_masks_eq_zero (and_masks_eq_zero handled low rfl) high rfl

/-- From the end of a pass the handler returns: every pass clears a bit that is set. -/
theorem Fine.returns_of_done (value : Nat) (size : isr.toNat < value)
    (h : Fine { isr, work := some [] })
    : Intr.Returns { isr, work := some [] } := by
  induction value generalizing isr with
  | zero => cases size
  | succ value ih =>
    by_cases zero : isr = 0
    · exact .of_drive ⟨0, if_pos zero⟩
    · have start : Intr.drive { isr, work := some [] }
          = { isr, work := some (nicintrPass isr.toUInt32) } := by
        simp [Intr.drive, Intr.read, zero]
      have fine := h.drive
      refine .of_drive ?_
      rw [start] at fine ⊢
      have smaller {other : UInt16} (less : other.toNat < isr.toNat) : other.toNat < value := by
        omega
      have pass := nicintrPass_spec isr
      generalize nicintrPass isr.toUInt32 = work at pass fine ⊢
      cases pass with
      | txOK set_ | rxOK set_ =>
        exact .of_drive (.of_drive (ih (smaller (cleared_lt set_)) fine.drive.drive))
      | txErr set_ | rxErr set_ =>
        have less := lt_of_le_of_lt (cleared_le _ 0xff) (cleared_lt set_)
        exact .of_drive (.of_drive (.of_drive (ih (smaller less) fine.drive.drive.drive)))
      | nothing tx txFailed rx rxFailed =>
        obtain ⟨_, same, -, high, low⟩ := h.resolve_left nofun
        cases same
        have errors : isr &&& 0x000a = 0 := and_masks_eq_zero txFailed rxFailed rfl
        rcases low with low | err | clears
        · have handled : isr &&& 0x000f = 0 :=
            and_masks_eq_zero errors (and_masks_eq_zero tx rx rfl) rfl
          exact absurd (isr_eq_zero handled low high) zero
        · exact absurd errors err
        · cases clears

/-- Without new causes it returns. By induction on the causes that are set. -/
theorem Fine.returns (h : Fine s) : s.Returns := by
  obtain ⟨isr, work⟩ := s
  have done {isr : UInt16} (h : Fine { isr, work := some [] }) :=
    h.returns_of_done (isr.toNat + 1) (Nat.lt_succ_self _)
  rcases h with returned | ⟨rest, same, shape, high, low⟩
  · exact ⟨0, returned⟩
  · have fine : Fine { isr, work } := .inr ⟨rest, same, shape, high, low⟩
    simp only at same
    subst same
    cases shape with
    | done => exact done fine
    | txAck | reset | receive => exact .of_drive (.of_drive (done fine.drive.drive))
    | txNext | resetAck | rxAck => exact .of_drive (done fine.drive)
    | errAck => exact .of_drive (.of_drive (.of_drive (done fine.drive.drive.drive)))

end

def Stuck (s : Intr) : Prop :=
  ∃ rest, s.work = some rest ∧ Shape rest
    ∧ (s.isr &&& 0xff00 ≠ 0
      ∨ (s.isr &&& 0x00f0 ≠ 0 ∧ s.isr &&& 0x000a = 0 ∧ clearing rest = false))

section

variable {s : Intr}

variable {isr : UInt16}

/-- Nothing that the handler writes clears the cause. -/
theorem Stuck.ack {bits : UInt32} {before rest : List NicEffect}
    (stuck : isr &&& 0xff00 ≠ 0
      ∨ (isr &&& 0x00f0 ≠ 0 ∧ isr &&& 0x000a = 0 ∧ clearing before = false))
    (shape : Shape rest) (outside : ~~~ bits.toUInt16 &&& 0xff00 = 0xff00)
    (harmless : clearing before = false → ~~~ bits.toUInt16 &&& 0x00f0 = 0x00f0
      ∧ ~~~ bits.toUInt16 &&& 0x000a = 0x000a ∧ clearing rest = false)
    : Stuck { isr := isr &&& ~~~ bits.toUInt16, work := some rest } := by
  refine ⟨rest, rfl, shape, ?_⟩
  rcases stuck with high | ⟨low, noErr, notClearing⟩
  · refine .inl ?_
    simp only [cleared_and outside]
    exact high
  · obtain ⟨lowKept, errKept, still⟩ := harmless notClearing
    refine .inr ?_
    simp only [cleared_and lowKept, cleared_and errKept]
    exact ⟨low, noErr, still⟩

theorem Stuck.read (stuck : isr &&& 0xff00 ≠ 0 ∨ (isr &&& 0x00f0 ≠ 0 ∧ isr &&& 0x000a = 0))
    : Stuck (Intr.enter isr) := by
  have nonzero : isr ≠ 0 := by
    rintro rfl
    rcases stuck with high | ⟨low, -⟩
    · exact high rfl
    · exact low rfl
  have pass := nicintrPass_spec isr
  refine ⟨_, if_neg nonzero, pass.shape, ?_⟩
  rcases stuck with high | ⟨low, noErr⟩
  · exact .inl high
  · refine .inr ⟨low, noErr, ?_⟩
    generalize nicintrPass isr.toUInt32 = work at pass
    cases pass with
    | txErr set_ | rxErr set_ => exact absurd (and_mask_eq_zero noErr rfl) set_
    | _ => rfl

theorem Stuck.drive (h : Stuck s) : Stuck s.drive := by
  obtain ⟨isr, work⟩ := s
  obtain ⟨rest, same, shape, stuck⟩ := h
  simp only at same stuck
  subst same
  cases shape with
  | done => exact Stuck.read (stuck.imp_right fun low => ⟨low.1, low.2.1⟩)
  | txAck => exact Stuck.ack stuck .txNext (by decide) fun _ => by decide
  | txNext => exact ⟨[], rfl, .done, stuck⟩
  | errAck bit err =>
    rcases err with rfl | rfl
    · exact Stuck.ack stuck .reset (by decide) nofun
    · exact Stuck.ack stuck .reset (by decide) nofun
  | reset => exact ⟨[.ack 0xff], rfl, .resetAck, stuck⟩
  | resetAck => exact Stuck.ack stuck .done (by decide) nofun
  | receive => exact ⟨[.ack rxOK], rfl, .rxAck, stuck⟩
  | rxAck => exact Stuck.ack stuck .done (by decide) fun _ => by decide

/-- A cause that is not cleared keeps the loop running. -/
theorem Stuck.not_returns (h : Stuck s) : ¬ s.Returns := by
  rintro ⟨n, returned⟩
  induction n generalizing s with
  | zero =>
    obtain ⟨rest, work, -⟩ := h
    have none_ : s.work = none := returned
    rw [work] at none_
    cases none_
  | succ n ih =>
    have running : s.work ≠ none := by
      obtain ⟨rest, work, -⟩ := h
      rw [work]
      nofun
    refine ih h.drive ?_
    rw [List.replicate_succ, Intr.runs, List.foldl_cons, Intr.next_zero running] at returned
    exact returned

end

theorem never_ends {raises : List UInt16}
    (stuck : Stuck ((Intr.enter isr).runs raises)) (ends : NicintrEnds isr raises)
    : False := by
  obtain ⟨n, returned, -⟩ := ends
  rw [Intr.runs_append] at returned
  exact stuck.not_returns ⟨n, returned⟩

/-- Whatever the card raises among these causes, `nicintr` returns with ISR = 0, exactly if ISR is
zero at once, or the causes that have no branch are not raised while it runs and are not set at the
start, except for those that a reset clears, together with one of the errors that lead to a reset.
-/
theorem nicintr_ends_iff (isr causes : UInt16)
    : (∀ raises : List UInt16, (∀ bits ∈ raises, bits &&& ~~~ causes = 0) → NicintrEnds isr raises)
      ↔ isr = 0
        ∨ (causes &&& 0xfff0 = 0 ∧ isr &&& 0xff00 = 0
          ∧ (isr &&& 0x00f0 ≠ 0 → isr &&& 0x000a ≠ 0)) := by
  constructor
  · intro ends
    by_cases zero : isr = 0
    · exact .inl zero
    · have running : (Intr.enter isr).work ≠ none := by
        rw [Intr.enter, Intr.read]
        simp [zero]
      have high : isr &&& 0xff00 = 0 := by
        by_contra set_
        have stuck : Stuck ((Intr.enter isr).runs []) := Stuck.read (.inl set_)
        exact never_ends stuck (ends [] nofun)
      have low : isr &&& 0x00f0 ≠ 0 → isr &&& 0x000a ≠ 0 := by
        intro set_ noErr
        have stuck : Stuck ((Intr.enter isr).runs []) := Stuck.read (.inr ⟨set_, noErr⟩)
        exact never_ends stuck (ends [] nofun)
      refine .inr ⟨?_, high, low⟩
      -- a cause without a branch that is raised just before the last read of ISR
      by_contra unhandled
      obtain ⟨n, returned, -⟩ := ends [] nofun
      obtain ⟨m, last⟩ := Intr.Returns.last ⟨n, returned⟩ running
      have late : (Intr.enter isr).runs (List.replicate m 0 ++ [causes &&& 0xfff0])
          = Intr.enter (causes &&& 0xfff0) := by
        rw [Intr.runs_append, last]
        change Intr.read { isr := 0 ||| (causes &&& 0xfff0), work := some [] } = _
        rw [UInt16.zero_or]
        rfl
      have stuck : Stuck (Intr.enter (causes &&& 0xfff0)) := by
        have none_ : causes &&& 0xfff0 &&& 0x000f = 0 := by
          rw [UInt16.and_assoc]
          exact UInt16.and_zero
        refine Stuck.read ((Decidable.em _).symm.imp_right fun noHigh => ⟨fun noLow => ?_, ?_⟩)
        · exact unhandled (isr_eq_zero none_ noLow noHigh)
        · exact and_mask_eq_zero none_ rfl
      refine never_ends (late ▸ stuck) (ends _ fun bits member => ?_)
      rcases List.mem_append.mp member with zeros | once
      · rw [List.eq_of_mem_replicate zeros, UInt16.zero_and]
      · rw [List.mem_singleton.mp once, UInt16.and_comm causes, UInt16.and_assoc]
        simp
  · rintro (rfl | ⟨handled, high, low⟩) raises among
    · refine ⟨0, ?_⟩
      have returned : (Intr.enter 0).work = none := rfl
      rw [Intr.runs_of_none returned]
      exact ⟨returned, rfl⟩
    · have fine : Fine (Intr.enter isr) := by
        by_cases zero : isr = 0
        · exact .inl (if_pos zero)
        · refine .inr ⟨_, if_neg zero, (nicintrPass_spec isr).shape, high, ?_⟩
          exact (Decidable.em _).imp_right fun set_ => .inl (low set_)
      obtain ⟨n, returned⟩ :=
        (fine.runs fun bits member => among_eq_zero (among bits member) handled).returns
      rw [← Intr.runs_append] at returned
      refine ⟨n, returned, Intr.isr_of_returned ?_ _ returned⟩
      intro ended
      by_contra nonzero
      have work : (Intr.enter isr).work = some (nicintrPass isr.toUInt32) := if_neg nonzero
      rw [work] at ended
      cases ended

/-- RxOverflow alone is never cleared. -/
theorem rxOverflow_never_ends : ¬ NicintrEnds 0x0010 [] := by
  have stuck : Stuck ((Intr.enter 0x0010).runs []) := Stuck.read (.inr (by decide))
  exact never_ends stuck

end Xv6Net
