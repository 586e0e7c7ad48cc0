import Xv6Net.Library.Scan
import Xv6Net.Tcp.SendWindow

/-! ACK processing in state ESTABLISHED: which packets an acknowledgement removes from the send
window, what it leaves, and how that depends on where the sequence numbers start.
-/

namespace Xv6Net

open Library Memory

namespace TcpConnection

/-- The number that a queued packet ends at, as the loop computes it. -/
def endSeq (tcon : TcpConnection) (ptr : Int) : UInt32 :=
  (tcon.slot ptr).seq + UInt32.ofInt (tcon.slot ptr).size - UInt32.ofNat tcpHeaderMinSize

/-- The packets of the window that the loop removes. -/
def acked (tcon : TcpConnection) (ack : UInt32) : List Int :=
  tcon.window.items.takeWhile fun ptr => decide (tcon.endSeq ptr ≤ ack)

def popFronts : Nat → TcpConnection → TcpConnection
  | 0, tcon => tcon
  | n + 1, tcon => popFronts n (tcon.popFront (getFront tcon.window))

variable {tcon : TcpConnection} {ack : UInt32}

theorem popFront_items (valid : tcon.window.Valid) {ptr : Int} {rest : List Int}
    (items : tcon.window.items = ptr :: rest)
    : getFront tcon.window = ptr
      ∧ (tcon.popFront ptr).window.items = rest
      ∧ (tcon.popFront ptr).window.Valid := by
  obtain ⟨-, left, validAfter⟩ := valid.items_dequeue items
  refine ⟨?_, left, validAfter⟩
  rw [valid.getFront_eq, items]
  rfl

theorem popFronts_items (n : Nat) (valid : tcon.window.Valid) (few : n ≤ tcon.window.items.length)
    : (popFronts n tcon).window.items = tcon.window.items.drop n := by
  induction n generalizing tcon with
  | zero => rfl
  | succ n ih =>
    cases items : tcon.window.items with
    | nil =>
      rw [items] at few
      cases few
    | cons =>
      obtain ⟨front, left, validAfter⟩ := popFront_items valid items
      rw [items, List.length_cons] at few
      rw [popFronts, front, ih validAfter (by rw [left]; omega), left, List.drop_succ_cons]

/-- The loop removes the packets that end by the acknowledged number, up to the first one that
does not.
-/
theorem ackLoop_eq (fuel : Nat) (valid : tcon.window.Valid)
    (enough : tcon.window.items.length ≤ fuel)
    : ackLoop ack fuel tcon = popFronts (tcon.acked ack).length tcon := by
  induction fuel generalizing tcon with
  | zero =>
    have empty : tcon.window.items = [] := List.length_eq_zero_iff.mp (Nat.le_zero.mp enough)
    rw [acked, empty]
    rfl
  | succ fuel ih =>
    rw [ackLoop]
    cases items : tcon.window.items with
    | nil =>
      have empty := valid.empty_iff.mpr items
      simp only [empty, Bool.true_eq_false, false_and, if_false, acked, items]
      rfl
    | cons ptr rest =>
      obtain ⟨front, left, validAfter⟩ := popFront_items valid items
      have nonempty : isQueueEmpty tcon.window = false := by
        rw [← Bool.not_eq_true, valid.empty_iff, items]
        exact List.cons_ne_nil ptr rest
      have shorter : (tcon.popFront ptr).window.items.length ≤ fuel := by
        rw [items, List.length_cons] at enough
        rw [left]
        omega
      by_cases reached : tcon.endSeq ptr ≤ ack
      · have removed : tcon.acked ack = ptr :: (tcon.popFront ptr).acked ack := by
          simp only [acked, items, List.takeWhile_cons, decide_eq_true reached, if_true, left]
          rfl
        rw [removed, List.length_cons, popFronts, front, if_pos ⟨nonempty, reached⟩]
        exact ih validAfter shorter
      · have removed : tcon.acked ack = [] := by
          simp only [acked, items, List.takeWhile_cons, decide_eq_false reached,
            Bool.false_eq_true, if_false]
        rw [removed, front, if_neg (fun both => reached both.2)]
        rfl

def removed (tcon : TcpConnection) (ack : UInt32) : List Int :=
  if ack < tcon.baseSeq ∨ ack > tcon.nextSeq then [] else tcon.acked ack

theorem processAck_eq (tcon : TcpConnection) (ack : UInt32) (valid : tcon.window.Valid)
    : processAck ack tcon = popFronts (tcon.removed ack).length tcon := by
  unfold processAck removed
  split
  · rfl
  · refine ackLoop_eq _ valid ?_
    rw [Queue.length_items]
    exact tcon.window.count_le

theorem removed_initial (tcon : TcpConnection) (ack : UInt32)
    : tcon.removed ack <+: tcon.window.items := by
  unfold removed
  split
  · exact List.nil_prefix
  · exact List.takeWhile_prefix _

theorem processAck_items (tcon : TcpConnection) (ack : UInt32) (valid : tcon.window.Valid)
    : tcon.window.items = tcon.removed ack ++ (processAck ack tcon).window.items := by
  obtain ⟨rest, split⟩ := tcon.removed_initial ack
  rw [processAck_eq tcon ack valid,
    popFronts_items _ valid (tcon.removed_initial ack).length_le, ← split,
    List.drop_left]

/-- A window as `tcp_tx` fills it: pointers to slots, laid end to end from `base_seq` to
`next_seq`.
-/
structure SendWindow (tcon : TcpConnection) : Prop extends tcon.WindowInv where
  slots : ∀ ptr ∈ tcon.window.items, ∃ i < windowLength, ptr = slotPtr i

/-- The number behind the last byte of a queued packet. -/
def lastByte (tcon : TcpConnection) (ptr : Int) : Nat := tcon.seqAt ptr + tcon.payloadAt ptr

/-- Where a list of packets ends that starts at `base`. -/
def endOf (tcon : TcpConnection) (base : Nat) (packets : List Int) : Nat :=
  (packets.getLast?.map tcon.lastByte).getD base

theorem popFronts_base (n : Nat) (inv : tcon.WindowInv) (few : n ≤ tcon.window.items.length)
    : (popFronts n tcon).baseSeq.toNat
      = tcon.endOf tcon.baseSeq.toNat (tcon.window.items.take n) := by
  induction n generalizing tcon with
  | zero => rfl
  | succ n ih =>
    cases items : tcon.window.items with
    | nil =>
      rw [items] at few
      cases few
    | cons ptr rest =>
      obtain ⟨front, -, -⟩ := popFront_items inv.valid items
      obtain ⟨invAfter, left, base⟩ := inv.popFront items
      rw [items, List.length_cons] at few
      rw [popFronts, front, ih invAfter (by rw [left]; omega), left, base,
        List.take_succ_cons, endOf, endOf, List.getLast?_cons]
      cases (rest.take n).getLast? with
      | none => rfl
      | some => rfl

/-- In a contiguous window, exactly the packets are removed that end by the acknowledged
number.
-/
theorem acked_eq_filter (inv : tcon.WindowInv)
    : tcon.acked ack
      = tcon.window.items.filter fun ptr => decide (tcon.lastByte ptr ≤ ack.toNat) := by
  have tests : ∀ ptr ∈ tcon.window.items,
      decide (tcon.endSeq ptr ≤ ack) = decide (tcon.lastByte ptr ≤ ack.toNat) := by
    intro ptr member
    rw [decide_eq_decide, UInt32.le_iff_toNat_le, endSeq, front_end inv member, lastByte]
  rw [acked, Scan.takeWhile_congr tests]
  exact inv.contiguous.takeWhile_eq_filter ack.toNat

/-- `*qp`, for a pointer to one of the slots. -/
def deref (tcon : TcpConnection) (ptr : Int) : Option QueuedPacket :=
  if 1 ≤ ptr ∧ ptr ≤ windowLength then some (tcon.slot ptr) else none

end TcpConnection

/-- The loop of ACK processing that stops with `none` where it would dereference anything but a
pointer to a slot. In the condition, `qp` is used only if the queue is not empty.
-/
def ackLoopChecked (ack : UInt32) : Nat → TcpConnection → Option TcpConnection
  | 0, tcon => some tcon
  | fuel + 1, tcon =>
    if isQueueEmpty tcon.window then
      some tcon
    else do
      let qp ← tcon.deref (getFront tcon.window)
      if ack ≥ qp.seq + UInt32.ofInt qp.size - UInt32.ofNat tcpHeaderMinSize then
        ackLoopChecked ack fuel
          { tcon with
            window := (dequeue tcon.window).2
            baseSeq := tcon.baseSeq + UInt32.ofInt (qp.size - hdrSizeOf qp.pkt 0) }
      else
        some tcon

namespace TcpConnection

variable {tcon : TcpConnection} {ack : UInt32}

theorem ackLoopChecked_eq (fuel : Nat) (valid : tcon.window.Valid)
    (slots : ∀ ptr ∈ tcon.window.items, ∃ i < windowLength, ptr = slotPtr i)
    : ackLoopChecked ack fuel tcon = some (ackLoop ack fuel tcon) := by
  induction fuel generalizing tcon with
  | zero => rfl
  | succ fuel ih =>
    rw [ackLoopChecked, ackLoop]
    cases items : tcon.window.items with
    | nil =>
      have empty := valid.empty_iff.mpr items
      simp only [empty, if_true, Bool.true_eq_false, false_and, if_false]
    | cons ptr rest =>
      obtain ⟨front, left, validAfter⟩ := popFront_items valid items
      have nonempty : isQueueEmpty tcon.window = false := by
        rw [← Bool.not_eq_true, valid.empty_iff, items]
        exact List.cons_ne_nil ptr rest
      rw [items] at slots
      obtain ⟨i, inside, rfl⟩ := slots ptr List.mem_cons_self
      have found : tcon.deref (slotPtr i) = some (tcon.slot (slotPtr i)) := by
        refine if_pos ⟨?_, ?_⟩
        · rw [slotPtr]
          omega
        · rw [slotPtr]
          exact Int.ofNat_le.mpr inside
      have later : ackLoopChecked ack fuel (tcon.popFront (slotPtr i))
          = some (ackLoop ack fuel (tcon.popFront (slotPtr i))) :=
        ih validAfter fun other queued => slots other (List.mem_cons_of_mem _ (left ▸ queued))
      simp only [front, nonempty, Bool.false_eq_true, if_false, found, Option.bind_eq_bind,
        Option.bind_some, true_and]
      split
      · exact later
      · rfl

end TcpConnection

/-- `processAck` with checked dereferences. -/
def processAckChecked (ack : UInt32) (tcon : TcpConnection) : Option TcpConnection :=
  if ack < tcon.baseSeq ∨ ack > tcon.nextSeq then
    some tcon
  else
    ackLoopChecked ack queueSize.toNat tcon

structure AckProcessed (ack : UInt32) (tcon after : TcpConnection) : Prop where
  /-- A number outside of the window changes nothing. -/
  outside : ack < tcon.baseSeq ∨ tcon.nextSeq < ack → after = tcon
  /-- Else the packets whose last byte is acknowledged are removed, all from the front, and the
  others stay in their order.
  -/
  inside : tcon.baseSeq ≤ ack → ack ≤ tcon.nextSeq →
    ∃ removed,
      tcon.window.items = removed ++ after.window.items
      ∧ (∀ ptr ∈ removed, tcon.lastByte ptr ≤ ack.toNat)
      ∧ (∀ ptr ∈ after.window.items, ack.toNat < tcon.lastByte ptr)
      ∧ after.baseSeq.toNat = tcon.endOf tcon.baseSeq.toNat removed
  window : after.SendWindow
  frame : after = { tcon with window := after.window, baseSeq := after.baseSeq }
  /-- No pointer but those to the slots is dereferenced. -/
  pointers : processAckChecked ack tcon = some after

namespace TcpConnection

variable {tcon : TcpConnection} {ack : UInt32}

theorem SendWindow.processAck (window : tcon.SendWindow)
    : AckProcessed ack tcon (processAck ack tcon) := by
  have valid := window.valid
  have items := processAck_items tcon ack valid
  have result := processAck_result ack window.toWindowInv
  refine ⟨?_, ?_, ⟨result.inv, ?_⟩, processAck_frame ack tcon, ?_⟩
  · intro outside
    rw [Xv6Net.processAck, if_pos outside]
  · intro above below
    have within : ¬ (ack < tcon.baseSeq ∨ ack > tcon.nextSeq) := by
      rintro (low | high)
      · exact absurd above (UInt32.not_le.mpr low)
      · exact absurd below (UInt32.not_le.mpr high)
    have gone : tcon.removed ack
        = tcon.window.items.filter fun ptr => decide (tcon.lastByte ptr ≤ ack.toNat) := by
      rw [removed, if_neg within, acked_eq_filter window.toWindowInv]
    refine ⟨tcon.removed ack, items, ?_, ?_, ?_⟩
    · intro ptr member
      rw [gone] at member
      exact of_decide_eq_true (List.mem_filter.mp member).2
    · -- what is left has no packet that the filter would have taken
      have rest : (Xv6Net.processAck ack tcon).window.items.filter
          (fun ptr => decide (tcon.lastByte ptr ≤ ack.toNat)) = [] := by
        have twice := congrArg
          (List.filter fun ptr => decide (tcon.lastByte ptr ≤ ack.toNat)) items
        rw [List.filter_append, gone, List.filter_filter] at twice
        simpa using twice
      intro ptr member
      have missed := List.filter_eq_nil_iff.mp rest ptr member
      simpa using missed
    · rw [processAck_eq tcon ack valid, popFronts_base _ window.toWindowInv
        (tcon.removed_initial ack).length_le,
        ← List.prefix_iff_eq_take.mp (tcon.removed_initial ack)]
  · intro ptr member
    refine window.slots ptr ?_
    rw [items]
    exact List.mem_append_right _ member
  · unfold processAckChecked Xv6Net.processAck
    split
    · rfl
    · exact ackLoopChecked_eq _ valid window.slots

end TcpConnection

/-- An acknowledgement that reaches an established connection with a contiguous window. -/
theorem ack_processing_exact (env : Env) (k : Kernel) (seg size : Int) (srcIp : UInt32)
    (asoc : Nat) (branch : disposition k env.frame seg size srcIp = .ack asoc)
    (window : (k.sockets asoc).tcon.SendWindow)
    : ∃ after,
        ((tcpReceive seg size srcIp).run env k).state = k.setTcon asoc (fun _ => after)
        ∧ AckProcessed (ackNumOf env.frame seg) (k.sockets asoc).tcon after := by
  obtain ⟨extra, -, run⟩ := tcpReceive_run env k seg size srcIp
  refine ⟨processAck (ackNumOf env.frame seg) (k.sockets asoc).tcon, ?_, window.processAck⟩
  rw [run, Kernel.receive, branch]
  rfl

/-- A host with a connection on which ten bytes are not acknowledged yet, and an empty segment
behind them.
-/
def ackHost : Kernel :=
  ((Kernel.boot 1 0 0).withConnection 0 1024 2 80 1 1).setTcon 0 fun tcon =>
    (tcon.queueSegment 0 (fun _ => 0x50) 10).queueSegment 1 (fun _ => 0x50) 0

/-- The segment in which the peer acknowledges the ten bytes. -/
def tenBytesAck : Env :=
  { frame := tcpPack (fun _ => 0) 2 80 1024 1 1 11 tcpFlagAck 20 []
    stale := fun _ => 0
    kalloc := none }

theorem ackHost_window : (ackHost.sockets 0).tcon.SendWindow := by
  have items : (ackHost.sockets 0).tcon.window.items = [slotPtr 0, slotPtr 1] := by decide
  refine ⟨⟨⟨rfl, Or.inr (by decide)⟩, ?_, ?_⟩, ?_⟩
  · rw [items]
    intro ptr member
    rcases List.mem_pair.mp member with rfl | rfl
    · exact ⟨by decide, by decide⟩
    · exact ⟨by decide, by decide⟩
  · rw [items]
    exact ⟨by decide, by decide, rfl⟩
  · rw [items]
    intro ptr member
    rcases List.mem_pair.mp member with rfl | rfl
    · exact ⟨0, by decide, rfl⟩
    · exact ⟨1, by decide, rfl⟩

theorem ack_processing_exact_ten_bytes
    : disposition ackHost tenBytesAck.frame 0 20 2 = .ack 0
      ∧ (ackHost.sockets 0).tcon.SendWindow
      ∧ ∃ after,
          ((tcpReceive 0 20 2).run tenBytesAck ackHost).state
            = ackHost.setTcon 0 (fun _ => after)
          ∧ AckProcessed (ackNumOf tenBytesAck.frame 0) (ackHost.sockets 0).tcon after := by
  have branch : disposition ackHost tenBytesAck.frame 0 20 2 = .ack 0 := by decide +kernel
  exact ⟨branch, ackHost_window,
    ack_processing_exact tenBytesAck ackHost 0 20 2 0 branch ackHost_window⟩

namespace TcpConnection

variable {tcon : TcpConnection} {ack k : UInt32}

/-- The same window with all sequence numbers moved by `k`. -/
def shift (k : UInt32) (tcon : TcpConnection) : TcpConnection :=
  { tcon with
    baseSeq := tcon.baseSeq + k
    nextSeq := tcon.nextSeq + k
    pkts := fun i => { tcon.pkts i with seq := (tcon.pkts i).seq + k } }

/-- The same packets are removed when all numbers are moved by `k`, and `base_seq` is moved
with them.
-/
structure ShiftInvariant (tcon : TcpConnection) (ack k : UInt32) : Prop where
  removed : (processAck (ack + k) (tcon.shift k)).window.items
    = (processAck ack tcon).window.items
  base : (processAck (ack + k) (tcon.shift k)).baseSeq = (processAck ack tcon).baseSeq + k

/-- The number is inside of the window and reaches the end of the first packet. -/
def Acknowledges (tcon : TcpConnection) (ack : UInt32) : Prop :=
  tcon.baseSeq ≤ ack ∧ ack ≤ tcon.nextSeq
  ∧ ∃ ptr ∈ tcon.window.items.head?, tcon.endSeq ptr ≤ ack

/-- Adding `k` carries both numbers past 2^32, or neither. -/
def SameSide (k x y : UInt32) : Prop :=
  2 ^ 32 ≤ x.toNat + k.toNat ↔ 2 ^ 32 ≤ y.toNat + k.toNat

/-- The packets up to the first one that does not end by the acknowledged number. -/
def examined (tcon : TcpConnection) (ack : UInt32) : List Int :=
  tcon.window.items.take ((tcon.acked ack).length + 1)

/-- The numbers that ACK processing compares lie on the same side of the wrap. -/
structure Together (tcon : TcpConnection) (ack k : UInt32) : Prop where
  base : SameSide k tcon.baseSeq ack
  next : SameSide k tcon.nextSeq ack
  ends : ∀ ptr ∈ tcon.examined ack, SameSide k (tcon.endSeq ptr) ack

/-- Comparing two numbers gives the same after a shift if and only if they lie on the same side of
the wrap.
-/
theorem sameSide_iff (k x y : UInt32) : SameSide k x y ↔ (x ≤ y ↔ x + k ≤ y + k) := by
  have smallX := x.toNat_lt
  have smallY := y.toNat_lt
  have smallK := k.toNat_lt
  rw [SameSide, UInt32.le_iff_toNat_le, UInt32.le_iff_toNat_le, UInt32.toNat_add, UInt32.toNat_add]
  omega

theorem SameSide.symm {x y : UInt32} (h : SameSide k x y) : SameSide k y x := Iff.symm h

theorem endSeq_shift (tcon : TcpConnection) (k : UInt32) (ptr : Int)
    : (tcon.shift k).endSeq ptr = tcon.endSeq ptr + k := by
  simp only [endSeq, shift, slot, UInt32.sub_eq_add_neg]
  ac_rfl

theorem popFronts_shift (n : Nat) (tcon : TcpConnection) (k : UInt32)
    : popFronts n (tcon.shift k) = (popFronts n tcon).shift k := by
  induction n generalizing tcon with
  | zero => rfl
  | succ n ih =>
    have front : (tcon.shift k).popFront (getFront (tcon.shift k).window)
        = (tcon.popFront (getFront tcon.window)).shift k := by
      simp only [popFront, shift, slot, UInt32.add_assoc, UInt32.add_comm k]
    rw [popFronts, front, ih, popFronts]

theorem shiftInvariant_iff_length (valid : tcon.window.Valid)
    : ShiftInvariant tcon ack k
      ↔ (tcon.removed ack).length = ((tcon.shift k).removed (ack + k)).length := by
  have few := (tcon.removed_initial ack).length_le
  have few' : ((tcon.shift k).removed (ack + k)).length ≤ tcon.window.items.length :=
    ((tcon.shift k).removed_initial (ack + k)).length_le
  constructor
  · intro invariant
    have same := congrArg List.length invariant.removed
    rw [processAck_eq tcon ack valid, processAck_eq (tcon.shift k) (ack + k) valid,
      popFronts_shift, popFronts_items _ valid few] at same
    have left : ((popFronts ((tcon.shift k).removed (ack + k)).length tcon).shift k).window.items
        = tcon.window.items.drop _ := popFronts_items _ valid few'
    rw [left, List.length_drop, List.length_drop] at same
    omega
  · intro same
    constructor
    · rw [processAck_eq tcon ack valid, processAck_eq (tcon.shift k) (ack + k) valid,
        popFronts_shift, same]
      rfl
    · rw [processAck_eq tcon ack valid, processAck_eq (tcon.shift k) (ack + k) valid,
        popFronts_shift, same]
      rfl

theorem acknowledges_iff (tcon : TcpConnection) (ack : UInt32)
    : tcon.Acknowledges ack ↔ tcon.removed ack ≠ [] := by
  unfold removed Acknowledges acked
  split
  · rename_i outside
    refine iff_of_false ?_ (fun some_ => some_ rfl)
    rintro ⟨above, below, -⟩
    rcases outside with low | high
    · exact absurd above (UInt32.not_le.mpr low)
    · exact absurd below (UInt32.not_le.mpr high)
  · rename_i within
    obtain ⟨above, below⟩ := not_or.mp within
    have first_ : tcon.baseSeq ≤ ack ∧ ack ≤ tcon.nextSeq :=
      ⟨UInt32.not_lt.mp above, UInt32.not_lt.mp below⟩
    cases tcon.window.items with
    | nil => simp
    | cons ptr =>
      by_cases reached : tcon.endSeq ptr ≤ ack
      · simp [reached, first_]
      · simp [reached]

/-- Where a first packet is acknowledged, all packets that the loop finds are removed. -/
theorem Acknowledges.removed_eq (h : tcon.Acknowledges ack)
    : tcon.removed ack = tcon.acked ack := by
  have some_ := (acknowledges_iff tcon ack).mp h
  unfold removed at some_ ⊢
  split
  · rename_i outside
    rw [if_pos outside] at some_
    exact absurd rfl some_
  · rfl

/-- Where both runs acknowledge a packet, they remove as many if and only if the packets they
look at end on the side of the acknowledged number.
-/
theorem acked_length_iff (tcon : TcpConnection) (ack k : UInt32)
    : (tcon.acked ack).length = ((tcon.shift k).acked (ack + k)).length
      ↔ ∀ ptr ∈ tcon.examined ack, SameSide k (tcon.endSeq ptr) ack := by
  have shifted : (tcon.shift k).acked (ack + k)
      = tcon.window.items.takeWhile fun ptr => decide (tcon.endSeq ptr + k ≤ ack + k) :=
    Scan.takeWhile_congr fun ptr _ => by rw [endSeq_shift]
  rw [shifted, acked, Scan.takeWhile_length_eq_iff]
  refine forall_congr' fun ptr => imp_congr Iff.rfl ?_
  rw [decide_eq_decide, sameSide_iff]

theorem head_mem_examined {ptr : Int} (head : ptr ∈ tcon.window.items.head?)
    : ptr ∈ tcon.examined ack := by
  unfold examined
  cases items : tcon.window.items with
  | nil =>
    rw [items] at head
    cases head
  | cons =>
    rw [items] at head
    cases head
    rw [List.take_succ_cons]
    exact List.mem_cons_self

theorem Acknowledges.shift (h : tcon.Acknowledges ack) (together : Together tcon ack k)
    : (tcon.shift k).Acknowledges (ack + k) := by
  obtain ⟨above, below, ptr, head, reached⟩ := h
  refine ⟨((sameSide_iff k _ _).mp together.base).mp above,
    ((sameSide_iff k _ _).mp together.next.symm).mp below, ptr, head, ?_⟩
  rw [endSeq_shift]
  exact ((sameSide_iff k _ _).mp (together.ends ptr (head_mem_examined head))).mp reached

/-- Where the sequence numbers start makes no difference exactly if the acknowledgement reaches
no packet, in either numbering, or the numbers that are compared lie on the same side of the
wrap.
-/
theorem shift_invariant_iff (tcon : TcpConnection) (valid : tcon.window.Valid) (ack k : UInt32)
    : ShiftInvariant tcon ack k
      ↔ (¬ tcon.Acknowledges ack ∧ ¬ (tcon.shift k).Acknowledges (ack + k))
        ∨ (tcon.Acknowledges ack ∧ Together tcon ack k) := by
  rw [shiftInvariant_iff_length valid]
  by_cases acknowledges : tcon.Acknowledges ack
  · by_cases shifted : (tcon.shift k).Acknowledges (ack + k)
    · rw [acknowledges.removed_eq, shifted.removed_eq, acked_length_iff]
      have base : SameSide k tcon.baseSeq ack :=
        (sameSide_iff k _ _).mpr (iff_of_true acknowledges.1 shifted.1)
      have next : SameSide k ack tcon.nextSeq :=
        (sameSide_iff k _ _).mpr (iff_of_true acknowledges.2.1 shifted.2.1)
      constructor
      · intro ends
        exact Or.inr ⟨acknowledges, base, next.symm, ends⟩
      · rintro (⟨absent, -⟩ | ⟨-, together⟩)
        · exact absurd acknowledges absent
        · exact together.ends
    · have none_ : (tcon.shift k).removed (ack + k) = [] :=
        not_not.mp fun some_ => shifted ((acknowledges_iff _ _).mpr some_)
      have some_ := List.length_pos_of_ne_nil ((acknowledges_iff tcon ack).mp acknowledges)
      rw [none_, List.length_nil]
      refine iff_of_false (by omega) ?_
      rintro (⟨absent, -⟩ | ⟨-, together⟩)
      · exact absent acknowledges
      · exact shifted (acknowledges.shift together)
  · have none_ : tcon.removed ack = [] :=
      not_not.mp fun some_ => acknowledges ((acknowledges_iff _ _).mpr some_)
    rw [none_, List.length_nil, eq_comm, List.length_eq_zero_iff]
    constructor
    · intro also
      exact Or.inl ⟨acknowledges, fun shifted => (acknowledges_iff _ _).mp shifted also⟩
    · rintro (⟨-, also⟩ | ⟨acks, -⟩)
      · exact not_not.mp fun some_ => also ((acknowledges_iff _ _).mpr some_)
      · exact absurd acks acknowledges

/-- An acknowledgement of ten bytes, with the numbers one million higher. -/
theorem shift_invariant_iff_ten_bytes
    : (ackHost.sockets 0).tcon.window.Valid
      ∧ (ShiftInvariant (ackHost.sockets 0).tcon 11 1000000
        ↔ (¬ (ackHost.sockets 0).tcon.Acknowledges 11
            ∧ ¬ ((ackHost.sockets 0).tcon.shift 1000000).Acknowledges (11 + 1000000))
          ∨ ((ackHost.sockets 0).tcon.Acknowledges 11
            ∧ Together (ackHost.sockets 0).tcon 11 1000000)) :=
  ⟨ackHost_window.valid, shift_invariant_iff _ ackHost_window.valid 11 1000000⟩

/-- The same window, with the wrap of the sequence numbers between its ends: the acknowledgement
of all of it is taken for one outside.
-/
theorem shift_across_wrap : ¬ ShiftInvariant (ackHost.sockets 0).tcon 11 (-5) := by
  intro invariant
  have bases : (processAck 11 (ackHost.sockets 0).tcon).baseSeq = 11
      ∧ (processAck (11 + -5) ((ackHost.sockets 0).tcon.shift (-5))).baseSeq = -4 := by
    decide +kernel
  have base := invariant.base
  rw [bases.1, bases.2] at base
  exact absurd base (by decide)

end TcpConnection

end Xv6Net
