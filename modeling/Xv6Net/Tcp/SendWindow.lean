import Mathlib.Data.List.Nodup
import Xv6Net.Library.Stream
import Xv6Net.Tcp.Connection

/-! The send window: the queued packets are laid end to end from `base_seq` to `next_seq`,
an acknowledgement removes them from the front, a pass of the send loop adds one at the
end. The slots of `tcon.pkts` are used in turn by one call of `tcp_tx`, from slot 0 on.
-/

namespace Xv6Net

open Library Memory Transition

namespace TcpConnection

def seqAt (tcon : TcpConnection) (ptr : Int) : Nat := (tcon.slot ptr).seq.toNat

def payloadAt (tcon : TcpConnection) (ptr : Int) : Nat :=
  ((tcon.slot ptr).size - tcpHeaderMinSize).toNat

/-- The window holds packets in distinct slots, laid end to end from `base_seq` to
`next_seq`.
-/
structure WindowOk (tcon : TcpConnection) : Prop where
  slots : ∀ ptr ∈ tcon.window.items, ∃ i < windowLength, ptr = slotPtr i
  distinct : tcon.window.items.Nodup
  contiguous
    : Tiles tcon.seqAt tcon.payloadAt tcon.baseSeq.toNat tcon.window.items
        tcon.nextSeq.toNat
  ordered : tcon.baseSeq ≤ tcon.nextSeq

/-- A slot that `tcp_tx` has filled. -/
structure SlotFilled (qp : QueuedPacket) : Prop where
  size : 20 ≤ qp.size
  header : hdrSizeOf qp.pkt 0 = 20

structure WindowInv (tcon : TcpConnection) : Prop where
  valid : tcon.window.Valid
  filled : ∀ ptr ∈ tcon.window.items, SlotFilled (tcon.slot ptr)
  contiguous
    : Tiles tcon.seqAt tcon.payloadAt tcon.baseSeq.toNat tcon.window.items
        tcon.nextSeq.toNat

/-- What ACK processing leaves: packets are removed from the front, up to one that is not
acknowledged.
-/
structure AckResult (ack : UInt32) (tcon result : TcpConnection) : Prop where
  inv : result.WindowInv
  suffix : ∃ n, result.window.items = tcon.window.items.drop n
  upper : result.baseSeq.toNat ≤ max tcon.baseSeq.toNat ack.toNat
  finished
    : tcon.baseSeq ≤ ack
      → ack ≤ tcon.nextSeq
      → ∀ ptr ∈ result.window.items.head?, ack.toNat < tcon.seqAt ptr + tcon.payloadAt ptr

variable {tcon : TcpConnection} {ptr : Int}

theorem WindowInv.of_eq {other : TcpConnection} (inv : tcon.WindowInv)
    (window : other.window = tcon.window) (pkts : other.pkts = tcon.pkts)
    (base : other.baseSeq = tcon.baseSeq) (next : other.nextSeq = tcon.nextSeq)
    : other.WindowInv := by
  have slot : other.slot = tcon.slot := by
    funext ptr
    simp only [TcpConnection.slot, pkts]
  have seqAt : other.seqAt = tcon.seqAt := by
    funext ptr
    simp only [TcpConnection.seqAt, slot]
  have payloadAt : other.payloadAt = tcon.payloadAt := by
    funext ptr
    simp only [TcpConnection.payloadAt, slot]
  obtain ⟨valid, filled, contiguous⟩ := inv
  refine ⟨window ▸ valid, ?_, ?_⟩
  · rw [window, slot]
    exact filled
  · rw [window, base, next, seqAt, payloadAt]
    exact contiguous

/-- The end of a queued segment is computed without a wrap. -/
theorem front_end (inv : tcon.WindowInv) (member : ptr ∈ tcon.window.items)
    : ((tcon.slot ptr).seq + UInt32.ofInt (tcon.slot ptr).size
          - UInt32.ofNat tcpHeaderMinSize).toNat
      = tcon.seqAt ptr + tcon.payloadAt ptr := by
  have filled := (inv.filled ptr member).size
  obtain ⟨-, fits⟩ := inv.contiguous.bounds member
  have bound := tcon.nextSeq.toNat_lt
  simp only [seqAt, payloadAt, tcpHeaderMinSize] at fits ⊢
  rw [UInt32.toNat_sub, UInt32.toNat_add, toNat_ofInt, UInt32.toNat_ofNat']
  omega

/-- What the front packet adds to `base_seq`, as the loop computes it. -/
theorem base_add (inv : tcon.WindowInv) (member : ptr ∈ tcon.window.items)
    (front : tcon.seqAt ptr = tcon.baseSeq.toNat)
    : (tcon.baseSeq
          + UInt32.ofInt ((tcon.slot ptr).size - hdrSizeOf (tcon.slot ptr).pkt 0)).toNat
      = tcon.baseSeq.toNat + tcon.payloadAt ptr := by
  obtain ⟨size, header⟩ := inv.filled ptr member
  obtain ⟨-, fits⟩ := inv.contiguous.bounds member
  have bound := tcon.nextSeq.toNat_lt
  rw [front] at fits
  simp only [payloadAt, tcpHeaderMinSize] at fits ⊢
  rw [UInt32.toNat_add, header, toNat_ofInt]
  omega

/-- The connection after one iteration of the loop of ACK processing. -/
def popFront (tcon : TcpConnection) (ptr : Int) : TcpConnection :=
  { tcon with
    window := (dequeue tcon.window).2
    baseSeq :=
      tcon.baseSeq
        + UInt32.ofInt ((tcon.slot ptr).size - hdrSizeOf (tcon.slot ptr).pkt 0) }

/-- The oldest segment is taken out, and the window starts behind it. -/
theorem WindowInv.popFront (inv : tcon.WindowInv) {rest : List Int}
    (items : tcon.window.items = ptr :: rest)
    : (tcon.popFront ptr).WindowInv
      ∧ (tcon.popFront ptr).window.items = rest
      ∧ (tcon.popFront ptr).baseSeq.toNat = tcon.seqAt ptr + tcon.payloadAt ptr := by
  have member : ptr ∈ tcon.window.items := by
    rw [items]
    exact List.mem_cons_self
  obtain ⟨-, left, valid⟩ := inv.valid.items_dequeue items
  have tiles := inv.contiguous
  rw [items] at tiles
  obtain ⟨front, later⟩ := tiles
  have base := base_add inv member front
  refine ⟨⟨valid, ?_, ?_⟩, left, by rw [front]; exact base⟩
  · intro other queued
    rw [show (tcon.popFront ptr).window.items = rest from left] at queued
    refine inv.filled other ?_
    rw [items]
    exact List.mem_cons_of_mem ptr queued
  · rw [show (tcon.popFront ptr).window.items = rest from left]
    rw [show (tcon.popFront ptr).baseSeq.toNat = _ from base]
    exact later

/-- The loop of ACK processing, with enough iterations for the queue; each one removes the front
packet.
-/
theorem ackLoop_result (ack : UInt32) (fuel : Nat) (inv : tcon.WindowInv)
    (enough : tcon.window.items.length ≤ fuel)
    : AckResult ack tcon (ackLoop ack fuel tcon) := by
  induction fuel generalizing tcon with
  | zero =>
    have none_left : tcon.window.items = [] := by
      apply List.length_eq_zero_iff.mp
      omega
    refine ⟨inv, ⟨0, rfl⟩, by simp [ackLoop], ?_⟩
    intro _ _ ptr queued
    simp [ackLoop, none_left] at queued
  | succ fuel ih =>
    rw [ackLoop]
    cases items : tcon.window.items with
    | nil =>
      have empty := inv.valid.empty_iff.mpr items
      simp only [empty, Bool.true_eq_false, false_and, if_false]
      refine ⟨inv, ⟨0, rfl⟩, by simp, ?_⟩
      intro _ _ ptr queued
      simp [items] at queued
    | cons ptr rest =>
      have front : getFront tcon.window = ptr := by
        rw [inv.valid.getFront_eq, items]
        rfl
      have nonempty : isQueueEmpty tcon.window = false := by
        rw [← Bool.not_eq_true, inv.valid.empty_iff, items]
        exact List.cons_ne_nil ptr rest
      have member : ptr ∈ tcon.window.items := by
        rw [items]
        exact List.mem_cons_self
      simp only [front, nonempty, true_and, ge_iff_le, UInt32.le_iff_toNat_le, front_end inv member]
      split
      · -- the segment at the front is covered, and the loop goes on
        rename_i reached
        obtain ⟨popped, left, base⟩ := inv.popFront items
        have shorter : (tcon.popFront ptr).window.items.length ≤ fuel := by
          rw [items, List.length_cons] at enough
          rw [left]
          omega
        obtain ⟨after, ⟨n, suffix⟩, upper, finished⟩ := ih popped shorter
        refine ⟨after, ⟨n + 1, ?_⟩, ?_, ?_⟩
        · rw [items, List.drop_succ_cons, ← left]
          exact suffix
        · rw [base] at upper
          have tiles := inv.contiguous
          rw [items] at tiles
          have start := tiles.1
          exact le_trans upper (by omega)
        · intro _ below
          refine finished ?_ below
          rw [UInt32.le_iff_toNat_le, base]
          exact reached
      · -- the acknowledgement ends inside it or before, and the loop stops
        rename_i short
        refine ⟨inv, ⟨0, by rw [items]; rfl⟩, by simp, ?_⟩
        intro _ _ other queued
        rw [items] at queued
        cases queued
        omega

/-- An acknowledgement takes out the segments that it covers, and no other. -/
theorem processAck_result (ack : UInt32) (inv : tcon.WindowInv)
    : AckResult ack tcon (processAck ack tcon) := by
  unfold processAck
  split
  · rename_i outside
    refine ⟨inv, ⟨0, rfl⟩, by simp, ?_⟩
    intro above below
    rcases outside with low | high
    · exact absurd above (UInt32.not_le.mpr low)
    · exact absurd below (UInt32.not_le.mpr high)
  · refine ackLoop_result ack _ inv ?_
    rw [Queue.length_items]
    exact tcon.window.count_le

@[simp]
theorem slot_slotPtr (tcon : TcpConnection) (n : Nat)
    : tcon.slot (slotPtr n) = tcon.pkts n := by
  simp [slot, slotPtr]

theorem slot_queueSegment_of_ne (tcon : TcpConnection) (n : Nat) (pkt : Int → UInt8) (size : Nat)
    (positive : 1 ≤ ptr) (other : ptr ≠ slotPtr n)
    : (tcon.queueSegment n pkt size).slot ptr = tcon.slot ptr := by
  have apart : (ptr - 1).toNat ≠ n := by
    intro same
    apply other
    rw [slotPtr]
    omega
  exact Function.update_of_ne apart _ _

/-- A segment of `size` payload bytes is stored in a free slot and queued. -/
theorem WindowInv.queueSegment (inv : tcon.WindowInv) (n : Nat) (pkt : Int → UInt8) (size : Nat)
    (room : isQueueFull tcon.window = false) (pointers : ∀ ptr ∈ tcon.window.items, 1 ≤ ptr)
    (free : slotPtr n ∉ tcon.window.items) (fits : tcon.nextSeq.toNat + size < 2 ^ 32)
    (header : hdrSizeOf pkt 0 = 20)
    : (tcon.queueSegment n pkt size).WindowInv
      ∧ (tcon.queueSegment n pkt size).window.items
        = tcon.window.items ++ [slotPtr n]
      ∧ (tcon.queueSegment n pkt size).nextSeq.toNat = tcon.nextSeq.toNat + size := by
  have items : (tcon.queueSegment n pkt size).window.items
      = tcon.window.items ++ [slotPtr n] := inv.valid.items_enqueue _ room
  have next : (tcon.queueSegment n pkt size).nextSeq.toNat = tcon.nextSeq.toNat + size := by
    simp only [TcpConnection.queueSegment, UInt32.toNat_add, UInt32.toNat_ofNat']
    omega
  have old (ptr : Int) (queued : ptr ∈ tcon.window.items)
      : (tcon.queueSegment n pkt size).slot ptr = tcon.slot ptr := by
    refine tcon.slot_queueSegment_of_ne n pkt size (pointers ptr queued) ?_
    rintro rfl
    exact free queued
  have new : (tcon.queueSegment n pkt size).slot (slotPtr n)
      = { seq := tcon.nextSeq
          size := 20 + size
          pkt := overlay (tcon.pkts n).pkt 0 (slice pkt 0 (20 + size)) } := by
    simp [TcpConnection.queueSegment, slot, slotPtr]
  refine ⟨⟨inv.valid.enqueue_valid _, ?_, ?_⟩, items, next⟩
  · intro ptr queued
    rw [items] at queued
    rcases List.mem_append.mp queued with earlier | last
    · rw [old ptr earlier]
      exact inv.filled ptr earlier
    · rw [List.mem_singleton.mp last, new]
      refine ⟨by simp, ?_⟩
      have same := slice_overlay (tcon.pkts n).pkt 0 (slice pkt 0 (20 + size))
      rw [length_slice] at same
      exact (header_congr same (by omega)).2.2.2.2.1.trans header
  · rw [items, next]
    have tiles : Tiles (tcon.queueSegment n pkt size).seqAt
        (tcon.queueSegment n pkt size).payloadAt tcon.baseSeq.toNat tcon.window.items
        tcon.nextSeq.toNat := by
      refine inv.contiguous.congr fun ptr queued => ?_
      simp only [seqAt, payloadAt, old ptr queued, and_self]
    have begins : (tcon.queueSegment n pkt size).seqAt (slotPtr n) = tcon.nextSeq.toNat := by
      simp only [seqAt, new]
    have longer := tiles.concat begins
    have length : (tcon.queueSegment n pkt size).payloadAt (slotPtr n) = size := by
      simp only [payloadAt, new, tcpHeaderMinSize]
      omega
    rwa [length] at longer

end TcpConnection

/-- The pointers to the last `m` slots used before pass `i` of the send loop. -/
def recentSlots (i m : Nat) : List Int :=
  (List.range' (i - m) m).map fun n => slotPtr (n % 10)

variable {i m : Nat}

theorem recentSlots_drop {n : Nat} (used : m ≤ i) (few : n ≤ m)
    : (recentSlots i m).drop n = recentSlots i (m - n) := by
  rw [recentSlots, ← List.map_drop, List.drop_range', recentSlots]
  congr 2
  omega

theorem recentSlots_concat (used : m ≤ i)
    : recentSlots i m ++ [slotPtr (i % 10)] = recentSlots (i + 1) (m + 1) := by
  simp only [recentSlots, List.range'_concat, List.map_append, List.map_cons, List.map_nil]
  congr 3
  · omega
  · omega

/-- The slots in use are those of the last segments. -/
theorem mem_recentSlots {ptr : Int} (member : ptr ∈ recentSlots i m)
    : ∃ n, i - m ≤ n ∧ n < i - m + m ∧ ptr = slotPtr (n % 10) := by
  obtain ⟨n, inside, rfl⟩ := List.mem_map.mp member
  obtain ⟨low, high⟩ := List.mem_range'_1.mp inside
  exact ⟨n, low, high, rfl⟩

/-- The next slot is free while fewer than ten are in use. -/
theorem next_not_mem_recentSlots (used : m ≤ i) (room : m < 10)
    : slotPtr (i % 10) ∉ recentSlots i m := by
  intro member
  obtain ⟨n, low, high, same⟩ := mem_recentSlots member
  simp only [slotPtr] at same
  omega

theorem recentSlots_nodup (window : m ≤ 10) : (recentSlots i m).Nodup := by
  refine List.Nodup.map_on ?_ List.nodup_range'
  intro a insideA b insideB same
  rw [List.mem_range'_1] at insideA insideB
  simp only [slotPtr] at same
  omega

/-- The next step of the call is a pass of the send loop that sends a segment. -/
def TxCall.Sends (t : TxCall) (tcon : TcpConnection) : Prop :=
  t.phase = .loop ∧ t.i < t.numIter ∧ isQueueFull tcon.window = false

/-- The step does not take the sequence numbers past `2 ^ 32`. -/
def NoWrap (s : Nat) (c : Conn) : ConnAction → Prop
  | .advance _ =>
    ∀ t ∈ c.tx, t.Sends (c.tcon s)
      → (c.tcon s).nextSeq.toNat + t.currentPayloadSize < 2 ^ 32
  | _ => True

/-- A write starts with no packet left in the window. -/
def WritesEmpty (s : Nat) (c : Conn) : ConnAction → Prop
  | .write _ => (c.tcon s).window.items = []
  | _ => True

instance (t : TxCall) (tcon : TcpConnection) : Decidable (t.Sends tcon) :=
  inferInstanceAs (Decidable (_ ∧ _ ∧ _))

instance (s : Nat) (c : Conn) : (action : ConnAction) → Decidable (NoWrap s c action)
  | .advance _ => inferInstanceAs (Decidable (∀ t ∈ c.tx, _ → _))
  | .write _ | .read _ | .wake | .receive .. => isTrue trivial

instance (s : Nat) (c : Conn) : (action : ConnAction) → Decidable (WritesEmpty s c action)
  | .write _ => inferInstanceAs (Decidable (_ = _))
  | .advance _ | .read _ | .wake | .receive .. => isTrue trivial

/-- No packet that is queued before a step is overwritten by it. -/
def KeepsQueued (s : Nat) (c next : Conn) : Prop :=
  ∀ ptr ∈ (c.tcon s).window.items, (next.tcon s).slot ptr = (c.tcon s).slot ptr

/-- The sending side of an established connection between steps. -/
structure SendInv (s : Nat) (c : Conn) : Prop where
  window : (c.tcon s).WindowInv
  recent
    : ∃ i m, m ≤ i ∧ (c.tcon s).window.items = recentSlots i m
        ∧ ∀ t, c.tx = some t → t.i = i ∧ t.windowOffset = i % 10

structure Fresh (s : Nat) (c : Conn) : Prop where
  idle : c.tx = none
  established : (c.tcon s).state = .established
  window : ∃ q, (c.tcon s).window = initQueue q
  agreed : (c.tcon s).baseSeq = (c.tcon s).nextSeq

/-- Two connection records with the same window. -/
structure SameWindow (tcon other : TcpConnection) : Prop where
  window : other.window = tcon.window
  pkts : other.pkts = tcon.pkts
  base : other.baseSeq = tcon.baseSeq
  next : other.nextSeq = tcon.nextSeq

/-- A received segment leaves the window of a socket alone, unless it is an ACK for it. -/
theorem receive_window (k : Kernel) (mem : Int → UInt8) (seg size : Int) (srcIp : UInt32) (s : Nat)
    : SameWindow (k.sockets s).tcon ((k.receive mem seg size srcIp).sockets s).tcon
      ∨ (disposition k mem seg size srcIp = .ack s
        ∧ ((k.receive mem seg size srcIp).sockets s).tcon
          = processAck (ackNumOf mem seg) (k.sockets s).tcon) := by
  rw [receive_sockets]
  split
  · rename_i concerns
    cases d : disposition k mem seg size srcIp with
    | ack =>
      rw [d] at concerns
      cases concerns
      exact Or.inr ⟨rfl, rfl⟩
    | _ => exact Or.inl ⟨rfl, rfl, rfl, rfl⟩
  · exact Or.inl ⟨rfl, rfl, rfl, rfl⟩

namespace SendInv

variable {s : Nat} {c next : Conn}

theorem of_fresh (fresh : Fresh s c) : SendInv s c := by
  obtain ⟨idle, -, ⟨q, window⟩, agreed⟩ := fresh
  have items : (c.tcon s).window.items = [] := by rw [window, items_initQueue]
  refine ⟨⟨by rw [window]; exact initQueue_valid q, ?_, ?_⟩, 0, 0, le_rfl, items, ?_⟩
  · simp [items]
  · rw [items, agreed]
    exact rfl
  · simp [idle]

section

variable (inv : SendInv s c)
include inv

theorem of_same (same : SameWindow (c.tcon s) (next.tcon s))
    (call : ∀ t, next.tx = some t → ∃ t', c.tx = some t' ∧ t'.i = t.i
      ∧ t'.windowOffset = t.windowOffset)
    : SendInv s next := by
  obtain ⟨i, m, used, items, slots⟩ := inv.recent
  refine ⟨inv.window.of_eq same.window same.pkts same.base same.next, i, m, used, ?_, ?_⟩
  · rw [same.window, items]
  · intro t calling
    obtain ⟨t', calling', sameI, sameOffset⟩ := call t calling
    obtain ⟨atI, atSlot⟩ := slots t' calling'
    exact ⟨sameI ▸ atI, sameOffset ▸ atSlot⟩

theorem windowOk : (c.tcon s).WindowOk := by
  obtain ⟨i, m, used, items, -⟩ := inv.recent
  have few : m ≤ 10 := by
    have count := (c.tcon s).window.count_le
    rw [← Queue.length_items, items] at count
    simpa [recentSlots] using count
  refine ⟨?_, ?_, inv.window.contiguous, ?_⟩
  · intro ptr queued
    rw [items] at queued
    obtain ⟨n, -, -, rfl⟩ := mem_recentSlots queued
    exact ⟨n % 10, Nat.mod_lt n (by omega), rfl⟩
  · rw [items]
    exact recentSlots_nodup few
  · rw [UInt32.le_iff_toNat_le]
    exact inv.window.contiguous.le

theorem room_of_empty (empty : (c.tcon s).window.items = [])
    : isQueueFull (c.tcon s).window = false := by
  rw [← Bool.not_eq_true, inv.window.valid.full_iff, empty]
  decide

/-- A new segment is queued in a slot that is not in use. -/
theorem send {t : TxCall} (calling : c.tx = some t) (stale : Int → UInt8) (more : t.i < t.numIter)
    (room : isQueueFull (c.tcon s).window = false)
    (fits : (c.tcon s).nextSeq.toNat + t.currentPayloadSize < 2 ^ 32)
    : SendInv s (c.afterSend s t stale) ∧ KeepsQueued s c (c.afterSend s t stale) := by
  obtain ⟨i, m, used, items, slots⟩ := inv.recent
  obtain ⟨rfl, offset⟩ := slots t calling
  have few : m < 10 := by
    have count := (c.tcon s).window.count_le
    have notFull : (c.tcon s).window.items.length ≠ 10 := by
      rw [Ne, ← inv.window.valid.full_iff, room]
      exact Bool.false_ne_true
    rw [← Queue.length_items] at count
    rw [items] at count notFull
    simp only [recentSlots, List.length_map, List.length_range'] at count notFull
    omega
  have pointers (ptr : Int) (queued : ptr ∈ (c.tcon s).window.items) : 1 ≤ ptr := by
    rw [items] at queued
    obtain ⟨n, -, -, rfl⟩ := mem_recentSlots queued
    simp only [slotPtr]
    omega
  have free : slotPtr t.windowOffset ∉ (c.tcon s).window.items := by
    rw [items, offset]
    exact next_not_mem_recentSlots used few
  have tcon := c.afterSend_tcon s t stale
  obtain ⟨window, after, -⟩ := inv.window.queueSegment t.windowOffset
    (dataPacket stale c.kernel s t.data) t.data.length room pointers free
    (by rw [t.length_data more]; exact fits) (hdrSizeOf_tcpPack ..)
  refine ⟨⟨by rw [tcon]; exact window, t.i + 1, m + 1, by omega, ?_, ?_⟩, ?_⟩
  · rw [tcon, after, items, offset, recentSlots_concat used]
  · rintro t' ⟨⟩
    refine ⟨rfl, ?_⟩
    simp only [offset, windowLength]
    omega
  · intro ptr queued
    rw [tcon]
    refine (c.tcon s).slot_queueSegment_of_ne _ _ _ (pointers ptr queued) ?_
    rintro rfl
    exact free queued

/-- An acknowledgement frees slots from the front. -/
theorem acknowledge {ack : UInt32} (tcon : next.tcon s = processAck ack (c.tcon s))
    (call : next.tx = c.tx)
    : SendInv s next ∧ KeepsQueued s c next := by
  obtain ⟨i, m, used, items, slots⟩ := inv.recent
  obtain ⟨after, ⟨n, suffix⟩, -, -⟩ := TcpConnection.processAck_result ack inv.window
  rw [← tcon] at after suffix
  refine ⟨⟨after, i, m - n, by omega, ?_, by rwa [call]⟩, ?_⟩
  · rcases le_or_gt n m with few | many
    · rw [suffix, items, recentSlots_drop used few]
    · rw [suffix, items, List.drop_eq_nil_of_le (by simp [recentSlots]; omega)]
      simp [recentSlots, Nat.sub_eq_zero_of_le (le_of_lt many)]
  · intro ptr _
    rw [tcon, processAck_frame]
    rfl

theorem keep (same : SameWindow (c.tcon s) (next.tcon s))
    (call : ∀ t, next.tx = some t → ∃ t', c.tx = some t' ∧ t'.i = t.i
      ∧ t'.windowOffset = t.windowOffset)
    : SendInv s next ∧ KeepsQueued s c next := by
  refine ⟨inv.of_same same call, ?_⟩
  intro ptr _
  simp only [TcpConnection.slot, same.pkts]

/-- Every step keeps the window. -/
theorem step {action : ConnAction} {log : List Event} (move : ConnMove s c action next log)
    (bounded : NoWrap s c action) (clear : WritesEmpty s c action)
    : SendInv s next ∧ KeepsQueued s c next := by
  cases move with
  | writeRefused payload | readRefused n | resend stale t calling waiting =>
    exact inv.keep ⟨rfl, rfl, rfl, rfl⟩ fun t calling => ⟨t, calling, rfl, rfl⟩
  | write =>
    have items : (c.tcon s).window.items = [] := clear
    refine ⟨⟨inv.window, 0, 0, le_rfl, items, ?_⟩, fun ptr _ => rfl⟩
    rintro t ⟨⟩
    exact ⟨rfl, rfl⟩
  | send stale t calling phase more room =>
    exact inv.send calling stale more room (bounded t calling ⟨phase, more, room⟩)
  | moveOn stale t calling =>
    refine inv.keep ⟨rfl, rfl, rfl, rfl⟩ fun t' entered => ⟨t, calling, ?_⟩
    simp only at entered
    split at entered
    · cases entered
    · cases entered
      exact ⟨rfl, rfl⟩
  | sleep =>
    refine inv.keep ?_ fun t calling => ⟨t, calling, rfl, rfl⟩
    constructor <;> simp [Conn.tcon, Kernel.setState]
  | read =>
    refine inv.keep ?_ fun t calling => ⟨t, calling, rfl, rfl⟩
    constructor <;> simp [Conn.tcon, Conn.afterRead]
  | wake =>
    refine inv.keep ?_ fun t calling => ⟨t, calling, rfl, rfl⟩
    constructor <;> simp [Conn.tcon, Conn.afterRead, Kernel.setState]
  | receive env seg size srcIp =>
    rcases receive_window c.kernel env.frame seg size srcIp s with same | ⟨-, tcon⟩
    · exact inv.keep same fun t calling => ⟨t, calling, rfl, rfl⟩
    · exact inv.acknowledge tcon rfl

end

end SendInv

/-- The send window is in order in every state of a run in which every write starts with an
empty window, and no queued packet is ever overwritten in it.
-/
theorem sendWindow_in_order (s : Nat) (c : Conn) (actions : List ConnAction)
    (fresh : Fresh s c) (bounded : Along (Conn.step s) (NoWrap s) c actions)
    (clear : Along (Conn.step s) (WritesEmpty s) c actions)
    : Throughout (Conn.step s) (fun c => (c.tcon s).WindowOk) c actions
      ∧ Along (Conn.step s)
          (fun c action => ∀ next, c.step s action = some next → KeepsQueued s c next)
          c actions := by
  have guarded := bounded.and clear
  have kept (c : Conn) (action : ConnAction) (next : Conn) (inv : SendInv s c)
      (guard : NoWrap s c action ∧ WritesEmpty s c action)
      (taken : c.step s action = some next)
      : SendInv s next ∧ KeepsQueued s c next := by
    obtain ⟨log, move⟩ := Conn.step_move taken
    exact inv.step move guard.1 guard.2
  have start := SendInv.of_fresh fresh
  constructor
  · exact (guarded.invariant start fun c action next inv guard taken =>
      (kept c action next inv guard taken).1).mono fun c inv => inv.windowOk
  · exact guarded.strengthen start
      (fun c action next inv guard taken => (kept c action next inv guard taken).1)
      (fun c action inv guard next taken => (kept c action next inv guard taken).2)

/-- A connection with initial sequence number 1 on either side. -/
def freshConn : Conn :=
  .unused ((Kernel.boot 1 0 0).withConnection 0 1024 2 80 1 1)

theorem freshConn_fresh : Fresh 0 freshConn :=
  ⟨rfl, rfl, ⟨.zero, rfl⟩, rfl⟩

/-- A write of two segments, which the peer acknowledges together, and a second write. -/
def twoWrites : List ConnAction :=
  [.write (List.replicate 1461 7), .advance fun _ => 0, .advance fun _ => 0, .advance fun _ => 0,
    .receive ⟨tcpPack (fun _ => 0) 2 80 1024 1 1 1462 tcpFlagAck 20 [], fun _ => 0, none⟩ 0 20 2,
    .advance fun _ => 0, .advance fun _ => 0, .write [8], .advance fun _ => 0]

/-- Witness: two writes. -/
theorem sendWindow_in_order_two_writes
    : (exec (Conn.step 0) freshConn twoWrites).isSome = true
      ∧ Throughout (Conn.step 0) (fun c => (c.tcon 0).WindowOk) freshConn twoWrites
      ∧ Along (Conn.step 0)
          (fun c action => ∀ next, c.step 0 action = some next → KeepsQueued 0 c next)
          freshConn twoWrites :=
  ⟨by decide +kernel,
    sendWindow_in_order 0 freshConn twoWrites freshConn_fresh (by decide +kernel)
      (by decide +kernel)⟩

/-- Two writes of no bytes. The empty segment of the first one needs no acknowledgement, so
`tcp_tx` returns while it is queued, and the second call starts over with the same slot.
-/
def emptyWrites : List ConnAction :=
  [.write [], .advance fun _ => 0, .advance fun _ => 0, .advance fun _ => 0, .write [],
    .advance fun _ => 0]

theorem emptyWrites_share_slot
    : Fresh 0 freshConn
      ∧ Along (Conn.step 0) (NoWrap 0) freshConn emptyWrites
      ∧ ∃ final, exec (Conn.step 0) freshConn emptyWrites = some final
          ∧ (final.tcon 0).window.items = [slotPtr 0, slotPtr 0]
          ∧ ¬ (final.tcon 0).WindowOk := by
  have items : (exec (Conn.step 0) freshConn emptyWrites).map
      (fun final => (final.tcon 0).window.items) = some [slotPtr 0, slotPtr 0] := by
    decide
  obtain ⟨final, run, slots⟩ := Option.map_eq_some_iff.mp items
  refine ⟨freshConn_fresh, by decide, final, run, slots, ?_⟩
  intro ok
  have distinct := ok.distinct
  rw [slots] at distinct
  simp at distinct

end Xv6Net
