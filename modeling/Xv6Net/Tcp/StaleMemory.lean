import Xv6Net.Tcp.Transmit

/-! What a segment tells about memory that was never written. `tcp_pack` writes 20 bytes and
the data behind them, whatever header size it is given; a caller that counts its options in
the header size and passes them as data sends bytes that nobody has written.
-/

namespace Xv6Net

open Library Memory

section

variable (myip : UInt32) (srcPort dstPort : UInt16) (dstIp seqNum ackNum : UInt32)
  (flags hdrSize : UInt8) (data : List UInt8)

/-- The header and the data as `tcp_pack` writes them before it computes the checksum. -/
def blankSegment : List UInt8 :=
  bytes16 (htons srcPort) ++ bytes16 (htons dstPort) ++ bytes32 (htonl seqNum)
    ++ bytes32 (htonl ackNum) ++ [(hdrSize >>> 2) <<< 4] ++ [flags]
    ++ bytes16 (htons (UInt16.ofNat windowSize)) ++ bytes16 0 ++ bytes16 0 ++ data

theorem length_blankSegment
    : (blankSegment srcPort dstPort seqNum ackNum flags hdrSize data).length
      = 20 + data.length := by
  simp only [blankSegment, List.length_append, length_bytes16, length_bytes32,
    List.length_cons, List.length_nil]

theorem tcpPack_eq (packet : Int → UInt8)
    : tcpPack packet myip srcPort dstPort dstIp seqNum ackNum flags hdrSize data
      = (let written := overlay packet 0
          (blankSegment srcPort dstPort seqNum ackNum flags hdrSize data)
        let totalSize := hdrSize.toNat + data.length
        overlay written 16 (bytes16 (checksum written 0 totalSize
          (pseudoIpSum myip dstIp (UInt16.ofNat totalSize))))) := by
  simp only [tcpPack, blankSegment, overlay_append, List.length_append, length_bytes16,
    length_bytes32, List.length_cons, List.length_nil, zero_add, Nat.reduceAdd, Nat.cast_ofNat,
    Nat.cast_add]

theorem slice_tcpPack_stale (short : hdrSize.toNat ≤ 20) (stale other : Int → UInt8)
    : slice (tcpPack stale myip srcPort dstPort dstIp seqNum ackNum flags hdrSize data) 0
        (hdrSize.toNat + data.length)
      = slice (tcpPack other myip srcPort dstPort dstIp seqNum ackNum flags hdrSize data) 0
          (hdrSize.toNat + data.length) := by
  obtain ⟨cells, written⟩
      : ∃ cells, cells = blankSegment srcPort dstPort seqNum ackNum flags hdrSize data := ⟨_, rfl⟩
  have covered : hdrSize.toNat + data.length ≤ cells.length := by
    rw [written, length_blankSegment]
    omega
  have same : slice (overlay stale 0 cells) 0 (hdrSize.toNat + data.length)
      = slice (overlay other 0 cells) 0 (hdrSize.toNat + data.length) := by
    rw [slice_overlay_take stale 0 cells covered, slice_overlay_take other 0 cells covered]
  simp only [tcpPack_eq, ← written, checksum_of_slice_eq same]
  apply slice_congr
  intro i low high
  have cell := eq_of_slice_eq same (i := i.toNat) (by omega)
  rw [Int.toNat_of_nonneg low, zero_add] at cell
  exact overlay_congr cell 16 _

theorem tcpPack_behind_data (stale : Int → UInt8)
    : tcpPack stale myip srcPort dstPort dstIp seqNum ackNum flags hdrSize data
        (20 + data.length)
      = stale (20 + data.length) := by
  have length := length_blankSegment srcPort dstPort seqNum ackNum flags hdrSize data
  simp only [tcpPack_eq]
  rw [overlay_beyond _ (by rw [length_bytes16]; omega), overlay_beyond _ (by rw [length]; omega)]

end

/-- The calls of `tcp.c` that send a segment; `tcp_tx` is taken one step at a time. -/
inductive SegmentCall where
  | syn (s : Nat)
  | synack (s : Nat)
  | ack (s : Nat) (ackNum : UInt32)
  | tx (s : Nat) (t : TxCall)

def SegmentCall.code : SegmentCall → KernelM Unit
  | .syn s => tcpSendSyn s
  | .synack s => tcpSendSynack s
  | .ack s ackNum => tcpSendAck s ackNum
  | .tx s t => do let _ ← tcpTxStep s t

/-- The call passes an option to `tcp_send` as data. -/
def SegmentCall.PassesOption : SegmentCall → Prop
  | .syn _ | .synack _ => True
  | .ack _ _ | .tx _ _ => False

/-- What the call sends, and the state it leaves, are the same for any two contents of the
packet on the stack.
-/
def SegmentCall.Determined (c : SegmentCall) (env : Env) (k : Kernel) : Prop :=
  ∀ stale other,
    c.code.run { env with stale := stale } k = c.code.run { env with stale := other } k

variable (env : Env) (k : Kernel)

theorem tcpSend_stale (srcPort dstPort : UInt16) (dstIp seqNum ackNum : UInt32) (flags : UInt8)
    {hdrSize : UInt8} (data : List UInt8) (short : hdrSize.toNat ≤ 20) (stale other : Int → UInt8)
    : (tcpSend srcPort dstPort dstIp seqNum ackNum flags hdrSize data).run
        { env with stale := stale } k
      = (tcpSend srcPort dstPort dstIp seqNum ackNum flags hdrSize data).run
          { env with stale := other } k := by
  simp only [tcpSend, run_bind, run_env, run_get, run_emit, andThen_some]
  rw [slice_tcpPack_stale k.myip srcPort dstPort dstIp seqNum ackNum flags hdrSize data short
    stale other]

theorem tcpSend_leaks (srcPort dstPort : UInt16) (dstIp seqNum ackNum : UInt32)
    (flags : UInt8) {hdrSize : UInt8} (data : List UInt8) (long : 20 < hdrSize.toNat)
    {stale other : Int → UInt8} (differ : stale (20 + data.length) ≠ other (20 + data.length))
    : ((tcpSend srcPort dstPort dstIp seqNum ackNum flags hdrSize data).run
        { env with stale := stale } k).log
      ≠ ((tcpSend srcPort dstPort dstIp seqNum ackNum flags hdrSize data).run
          { env with stale := other } k).log := by
  intro same
  have payload : slice (tcpPack stale k.myip srcPort dstPort dstIp seqNum ackNum flags hdrSize
      data) 0 (hdrSize.toNat + data.length)
      = slice (tcpPack other k.myip srcPort dstPort dstIp seqNum ackNum flags hdrSize data) 0
          (hdrSize.toNat + data.length) := by
    injection same with head _
    injection head
  have cell := eq_of_slice_eq payload (i := 20 + data.length) (by omega)
  simp only [zero_add, Nat.cast_add, Nat.cast_ofNat, tcpPack_behind_data] at cell
  exact differ cell

theorem tcpTxSend_stale (s : Nat) (t : TxCall) (sending : t.i < t.numIter)
    (stale other : Int → UInt8)
    : (tcpTxSend s t).run { env with stale := stale } k
      = (tcpTxSend s t).run { env with stale := other } k := by
  have same : slice (dataPacket stale k s t.data) 0 (20 + t.data.length)
      = slice (dataPacket other k s t.data) 0 (20 + t.data.length) :=
    slice_tcpPack_stale k.myip (k.sockets s).port (k.sockets s).tcon.dstPort
      (k.sockets s).tcon.dstAddr (k.sockets s).tcon.nextSeq 0 0 20 t.data le_rfl stale other
  simp only [tcpTxSend_run _ k s t sending, dataEvent, TcpConnection.queueSegment, same]

/-- The steps of `tcp_tx` that do not build a packet have no memory to depend on. -/
theorem tcpTxStep_stale (s : Nat) (t : TxCall) (stale other : Int → UInt8)
    : (tcpTxStep s t).run { env with stale := stale } k
      = (tcpTxStep s t).run { env with stale := other } k := by
  simp only [tcpTxStep, run_bind, run_get, andThen_some]
  cases phase : t.phase with
  | loop =>
    simp only [run_ite]
    split
    · split
      · rename_i sending _
        simp only [run_bind, tcpTxSend_stale env k s t sending stale other, run_pure]
      · rfl
    · rfl
  | full | last => simp only [run_ite, run_bind, tcpTxResend_run, run_pure]
  | returned => rfl

/-- Every byte that a call sends is determined by its arguments and the kernel state exactly
if the call does not pass an option.
-/
theorem segmentCall_determined_iff (c : SegmentCall)
    : c.Determined env k ↔ ¬ c.PassesOption := by
  have header : 20 < (UInt8.ofNat tcpHeaderMinSize + 4).toNat := by decide
  have differ : (fun _ : Int => (0 : UInt8)) (20 + (tcpMssOption.length : Int))
      ≠ (fun _ : Int => (1 : UInt8)) (20 + (tcpMssOption.length : Int)) := by decide
  cases c with
  | syn s | synack s =>
    refine iff_of_false (fun determined => ?_) (not_not_intro trivial)
    have same := congrArg Outcome.log (determined (fun _ => 0) (fun _ => 1))
    exact tcpSend_leaks env k _ _ _ _ _ _ tcpMssOption header differ same
  | ack =>
    refine iff_of_true (fun stale other => ?_) not_false
    simp only [SegmentCall.code, tcpSendAck, run_bind, run_get, andThen_some]
    rw [tcpSend_stale env k _ _ _ _ _ _ _ (by decide) stale other]
    rfl
  | tx s t =>
    refine iff_of_true (fun stale other => ?_) not_false
    simp only [SegmentCall.code, run_bind, tcpTxStep_stale env k s t stale other, run_pure]

/-- The SYN with which a socket of a freshly booted host connects ends with four bytes of the
kernel stack.
-/
theorem syn_sends_stack
    : ¬ (SegmentCall.syn 0).Determined
        { frame := fun _ => 0, stale := fun _ => 0, kalloc := none }
        (Kernel.boot 0xc0a80202 0xffffff00 0xc0a80201) := by
  intro determined
  have same := congrArg Outcome.log (determined (fun _ => 0) (fun _ => 1))
  exact tcpSend_leaks _ _ _ _ _ _ _ _ tcpMssOption (by decide) (by decide) same

end Xv6Net
