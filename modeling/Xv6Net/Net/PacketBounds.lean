import Xv6Net.Net.ArpCache
import Xv6Net.Net.Receive

/-! What a received frame can make the kernel read. Each layer trusts the length fields of
the one below: the reads stay inside the frame exactly when the IP total length fits the
frame and the TCP header fits the IP payload.
-/

namespace Xv6Net

open Library Memory

/-- Bytes are read inside a frame of `len` bytes, no length is negative, and what `ip_send` gets
fits a datagram.
-/
def Event.Safe (len : Nat) : Event → Prop
  | .read addr count => ∀ i : Nat, i < count → 0 ≤ addr + i ∧ addr + i < len
  | .length n => 0 ≤ n
  | .ipSend _ payload _ _ _ => payload.length ≤ maxTransportPayloadSize
  | _ => True

/-- `tlen` of the IP header, in a frame that begins at address 0. -/
def tlenOf (frame : Int → UInt8) : Nat := (htons (load16 frame 16)).toNat

/-- `src_ip` of the IP header. -/
def srcIpOf (frame : Int → UInt8) : UInt32 := htonl (load32 frame 26)

/-- `arp_add` finds the address neither cached nor requested, and no entry to replace. -/
def ArpFull (k : Kernel) (ip : UInt32) : Prop :=
  arpSearch k ip = none ∧ arpRequested k ip = none ∧ arpFree k = none ∧ arpOldest k = none

/-- The frame holds a datagram that passes the header checks, and the sender can be added to the ARP
cache.
-/
def DatagramAccepted (k : Kernel) (frame : Int → UInt8) : Prop :=
  htons (load16 frame 12) = ethernetTypeIp
  ∧ frame 14 >>> 4 = 4
  ∧ frame 22 ≠ 0
  ∧ checksum frame 14 20 0 = 0
  ∧ ¬ (srcIpOf frame &&& k.gateway = k.myip &&& k.gateway ∧ ArpFull k (srcIpOf frame))

/-- The segment carries in-order data for an established connection, and the passive socket
of its port does not take it as a request.
-/
def CarriesData (k : Kernel) (mem : Int → UInt8) (seg size : Int) (srcIp : UInt32) : Prop :=
  Admitted k mem seg size srcIp
  ∧ (∀ psoc,
      (k.ports (dstPortOf mem seg).toNat).passiveSocket = some psoc
      → ¬ ((k.sockets psoc).tcon.state = .listen
          ∧ flagsOf mem seg &&& tcpFlagSyn ≠ 0
          ∧ isQueueFull (k.sockets psoc).waitqueue = false))
  ∧ ∃ asoc,
      (k.ports (dstPortOf mem seg).toNat).activeSocket = some asoc
      ∧ (k.sockets asoc).tcon.dstAddr = srcIp
      ∧ (k.sockets asoc).tcon.dstPort = srcPortOf mem seg
      ∧ (k.sockets asoc).tcon.state = .established
      ∧ flagsOf mem seg &&& tcpFlagAck = 0
      ∧ (k.sockets asoc).tcon.ackSent = seqNumOf mem seg

/-- The IP payload fits the frame where it is read as a whole, and the TCP header fits the
IP payload where data are taken from behind it.
-/
def PayloadFits (k : Kernel) (frame : Int → UInt8) (len : Nat) : Prop :=
  (frame 23 = ipProtocolIcmp
    → 20 ≤ tlenOf frame ∧ (frame 34 = icmpTypeEcho → tlenOf frame + 14 ≤ len))
  ∧ (frame 23 = ipProtocolTcp
    → 20 ≤ tlenOf frame
      ∧ tlenOf frame + 14 ≤ len
      ∧ (CarriesData k frame 34 (tlenOf frame - 20) (srcIpOf frame)
        → hdrSizeOf frame 34 ≤ tlenOf frame - 20))

/-- The length fields agree with each other and with the length of the frame. -/
def LengthsConsistent (k : Kernel) (frame : Int → UInt8) (len : Nat) : Prop :=
  DatagramAccepted k frame → PayloadFits k frame len

theorem disposition_inOrder_iff (k : Kernel) (mem : Int → UInt8) (seg size : Int) (srcIp : UInt32)
    : (∃ asoc, disposition k mem seg size srcIp = .inOrder asoc)
      ↔ CarriesData k mem seg size srcIp := by
  constructor
  · rintro ⟨asoc, inOrder⟩
    have justified := disposition_justified k mem seg size srcIp
    rw [inOrder] at justified
    obtain ⟨active, addr, port, established, data, next⟩ := justified
    refine ⟨?_, ?_, asoc, active, addr, port, established, data, next⟩
    · by_contra rejected
      simp [disposition, rejected] at inOrder
    · intro psoc passive taken
      unfold disposition at inOrder
      split at inOrder
      · simp [passive, passiveDisposition, taken] at inOrder
      · cases inOrder
  · rintro ⟨admitted, notTaken, asoc, active, addr, port, established, data, next⟩
    have there : activeDisposition k mem seg srcIp asoc = .inOrder asoc := by
      simp [activeDisposition, addr, port, established, data, next]
    refine ⟨asoc, ?_⟩
    simp only [disposition, if_pos admitted, active]
    cases passive : (k.ports (dstPortOf mem seg).toNat).passiveSocket with
    | none => exact there
    | some psoc => simp only [passiveDisposition, if_neg (notTaken psoc passive), data, there,
        ne_eq, not_true_eq_false, and_false, if_false]

variable {env : Env} {k : Kernel} {len : Nat}

theorem safe_read_iff (addr : Int) (count : Nat)
    : (Event.read addr count).Safe len ↔ count = 0 ∨ (0 ≤ addr ∧ addr + count ≤ len) := by
  constructor
  · intro safe
    rcases Nat.eq_zero_or_pos count with none_ | some_
    · exact Or.inl none_
    · have first := safe 0 some_
      have last := safe (count - 1) (by omega)
      exact Or.inr (by omega)
  · rintro (none_ | inside) i below
    · omega
    · omega

theorem safe_ipSend_iff (protocol : UInt8) (payload : List UInt8) (srcIp dstIp : UInt32)
    (size : Int)
    : (Event.ipSend protocol payload srcIp dstIp size).Safe len
      ↔ payload.length ≤ maxTransportPayloadSize :=
  Iff.rfl

@[simp]
theorem logged_rxLoad8 (addr : Int)
    : Program.Logged (Event.Safe len) (rxLoad8 addr) env k ↔ 0 ≤ addr ∧ addr + 1 ≤ len := by
  simp [Program.Logged, safe_read_iff]

@[simp]
theorem logged_rxLoad16 (addr : Int)
    : Program.Logged (Event.Safe len) (rxLoad16 addr) env k ↔ 0 ≤ addr ∧ addr + 2 ≤ len := by
  simp [Program.Logged, safe_read_iff]

@[simp]
theorem logged_rxLoad32 (addr : Int)
    : Program.Logged (Event.Safe len) (rxLoad32 addr) env k ↔ 0 ≤ addr ∧ addr + 4 ≤ len := by
  simp [Program.Logged, safe_read_iff]

@[simp]
theorem logged_rxBytes (addr n : Int)
    : Program.Logged (Event.Safe len) (rxBytes addr n) env k
      ↔ (Event.read addr (moveCount n)).Safe len := by
  simp [Program.Logged]

@[simp]
theorem logged_rxChecksum (data length : Int) (start : UInt32)
    : Program.Logged (Event.Safe len) (rxChecksum data length start) env k
      ↔ (Event.read data length.toNat).Safe len := by
  simp [Program.Logged]

theorem moveCount_of_nonneg {n : Int} (low : 0 ≤ n) (high : n < 2 ^ 32)
    : moveCount n = n.toNat := by
  rw [moveCount, Int.emod_eq_of_lt low high]

/-- What a segment inside the frame makes `tcp_receive` log, by its disposition. -/
theorem effectLog_safe {size : Int} (long : 60 ≤ len) (low : 0 ≤ size)
    (fits : size + 34 ≤ len) (high : size < 65536) (d : Disposition)
    : (∀ entry ∈ effectLog env k 34 size d, entry.Safe len)
      ↔ ((∃ asoc, d = .inOrder asoc) → hdrSizeOf env.frame 34 ≤ size) := by
  have whole := moveCount_of_nonneg low (by omega)
  have packet : (Event.read 34 (moveCount size)).Safe len := by
    rw [safe_read_iff, whole]
    omega
  have field (addr : Int) (count : Nat) (inside : 0 ≤ addr ∧ addr + count ≤ 60)
      : (Event.read addr count).Safe len :=
    (safe_read_iff addr count).mpr (by omega)
  have reply (stale : Int → UInt8) (s : Nat) (ack : UInt32)
      : (ackEvent stale k s ack).Safe len := by
    simp [ackEvent, Event.Safe, maxTransportPayloadSize]
  cases d with
  | inOrder =>
    have header : 0 ≤ hdrSizeOf env.frame 34 := Int.natCast_nonneg _
    simp only [effectLog, List.forall_mem_cons, List.not_mem_nil, false_imp_iff,
      implies_true, and_true, Disposition.inOrder.injEq, exists_eq', true_imp_iff]
    constructor
    · rintro ⟨-, -, nonneg, -⟩
      exact sub_nonneg.mp nonneg
    · intro within
      refine ⟨field _ _ (by omega), field _ _ (by omega), sub_nonneg.mpr within, ?_,
        trivial, field _ _ (by omega), reply ..⟩
      rw [safe_read_iff, moveCount_of_nonneg (by omega) (by omega)]
      omega
  | dropped => simp [effectLog]
  | request => simpa [effectLog] using ⟨trivial, packet⟩
  | handshakeAck =>
    simpa [effectLog] using ⟨field 42 4 (by omega), field 38 4 (by omega)⟩
  | synReply => simpa [effectLog] using ⟨packet, trivial⟩
  | ack => simpa [effectLog] using field 42 4 (by omega)
  | outOfOrder =>
    simpa [effectLog] using ⟨field 46 1 (by omega), field 38 4 (by omega), reply ..⟩

/-- `tcp_receive` on the payload of a datagram reads its checksum range, and the data that
follow a header of the length the segment claims.
-/
theorem logged_tcpReceive {size : Int} (srcIp : UInt32) (long : 60 ≤ len) (low : 0 ≤ size)
    (high : size < 65536)
    : Program.Logged (Event.Safe len) (tcpReceive 34 size srcIp) env k
      ↔ size + 34 ≤ len
        ∧ (CarriesData k env.frame 34 size srcIp → hdrSizeOf env.frame 34 ≤ size) := by
  obtain ⟨extra, header, run⟩ := tcpReceive_run env k 34 size srcIp
  have extraSafe : ∀ entry ∈ extra, entry.Safe len := by
    rcases header with rfl | rfl
    · simp
    · simp only [List.mem_singleton, forall_eq, safe_read_iff]
      omega
  have common : (∀ entry ∈ [.read (34 + 2) 2, .read (34 + 13) 1, .read 34 size.toNat] ++ extra,
      Event.Safe len entry) ↔ size + 34 ≤ len := by
    rw [List.forall_mem_append, and_iff_left extraSafe]
    simp only [List.forall_mem_cons, List.not_mem_nil, false_imp_iff, implies_true, and_true,
      safe_read_iff]
    omega
  rw [← disposition_inOrder_iff]
  simp only [Program.Logged, run, receiveLog]
  rw [List.forall_mem_append, common]
  exact and_congr_right fun fits => effectLog_safe long low fits high _

/-- `icmp_receive` copies the whole payload of an echo request, and hands it to `ip_send`. -/
theorem logged_icmpReceive {size : Int} (srcIp : UInt32) (long : 60 ≤ len)
    (short : len ≤ 1514) (low : 0 ≤ size) (high : size < 65536)
    : Program.Logged (Event.Safe len) (icmpReceive 34 size srcIp) env k
      ↔ (env.frame 34 = icmpTypeEcho → size + 34 ≤ len) := by
  have whole := moveCount_of_nonneg low (by omega)
  have copied : Program.Logged (Event.Safe len) (icmpSendEchoReply 34 size srcIp) env k
      ↔ size + 34 ≤ len := by
    simp only [icmpSendEchoReply, Program.Logged, run_bind, run_env, run_get, run_emit, rxBytes_run,
      andThen_some, after_mk, List.singleton_append, List.nil_append, List.forall_mem_cons,
      List.not_mem_nil, false_imp_iff, implies_true, and_true, safe_read_iff, safe_ipSend_iff,
      length_slice, whole, maxTransportPayloadSize]
    omega
  have field : 0 ≤ (34 : Int) + 6 ∧ (34 : Int) + 6 + 2 ≤ len := by omega
  have type : 0 ≤ (34 : Int) ∧ (34 : Int) + 1 ≤ len := by omega
  simp only [icmpReceive, Program.logged_bind, logged_rxLoad8, rxLoad8_run, Option.some.injEq,
    forall_eq', Program.logged_ite, copied, logged_rxLoad16, rxLoad16_run, field, type,
    Program.logged_modify, Program.logged_pure, implies_true, and_true, true_and]

/-- `arp_add` panics with a full cache, and otherwise changes the cache and the processes that
waited.
-/
theorem arpAdd_run (env : Env) (k : Kernel) (ip : UInt32) (mac : Int)
    : (ArpFull k ip ∧ (arpAdd ip mac).run env k = ⟨none, k, []⟩)
      ∨ (¬ ArpFull k ip
        ∧ ∃ arp procs log,
            (log = [] ∨ log = [.read mac 6])
            ∧ (arpAdd ip mac).run env k = ⟨some (), { k with arp, procs }, log⟩) := by
  have spec := arpAdd_spec k ip env mac
  generalize (arpAdd ip mac).run env k = out at spec ⊢
  cases spec with
  | cached i found =>
    exact Or.inr ⟨fun full => by simp [full.1] at found, k.arp, k.procs, [], Or.inl rfl, rfl⟩
  | answered i searched waited =>
    exact Or.inr ⟨fun full => by simp [full.2.1] at waited, _, _, _, Or.inr rfl, rfl⟩
  | stored i searched waited taken =>
    refine Or.inr ⟨fun full => ?_, _, _, _, Or.inr rfl, rfl⟩
    simp [Kernel.arpTaken, full.2.2.1, full.2.2.2] at taken
  | full searched waited taken =>
    exact Or.inl ⟨⟨searched, waited, Option.or_eq_none_iff.mp taken⟩, rfl⟩

section

variable (long : 60 ≤ len)
include long

theorem logged_ipDeliver (short : len ≤ 1514)
    : Program.Logged (Event.Safe len) (ipDeliver 14 (len - 14)) env k
      ↔ PayloadFits k env.frame len := by
  have bound : tlenOf env.frame < 65536 := UInt16.toNat_lt _
  have length (n : Int) : (Event.length n).Safe len ↔ 0 ≤ n := Iff.rfl
  have icmp : 0 ≤ (tlenOf env.frame : Int) - 20
        ∧ Program.Logged (Event.Safe len)
            (icmpReceive 34 (tlenOf env.frame - 20) (srcIpOf env.frame)) env k
      ↔ 20 ≤ tlenOf env.frame
        ∧ (env.frame 34 = icmpTypeEcho → tlenOf env.frame + 14 ≤ len) := by
    rw [and_congr_right fun low => logged_icmpReceive _ long short low (by omega)]
    exact and_congr (by omega) (imp_congr_right fun _ => by omega)
  have tcp : 0 ≤ (tlenOf env.frame : Int) - 20
        ∧ Program.Logged (Event.Safe len)
            (tcpReceive 34 (tlenOf env.frame - 20) (srcIpOf env.frame)) env k
      ↔ 20 ≤ tlenOf env.frame
        ∧ tlenOf env.frame + 14 ≤ len
        ∧ (CarriesData k env.frame 34 (tlenOf env.frame - 20) (srcIpOf env.frame)
          → hdrSizeOf env.frame 34 ≤ tlenOf env.frame - 20) := by
    rw [and_congr_right fun low => logged_tcpReceive _ long low (by omega)]
    exact and_congr (by omega) (and_congr_left fun _ => by omega)
  have text : (Event.read 34 (moveCount ((len : Int) - 14 - 20))).Safe len := by
    rw [safe_read_iff, moveCount_of_nonneg (by omega) (by omega)]
    omega
  have room : 0 ≤ (len : Int) - 14 - 20 := by omega
  have header : (24 : Int) ≤ len ∧ (18 : Int) ≤ len ∧ (30 : Int) ≤ len := by omega
  have distinct : env.frame 23 = ipProtocolTcp → ¬ env.frame 23 = ipProtocolIcmp := by
    intro isTcp isIcmp
    rw [isTcp] at isIcmp
    exact absurd isIcmp (by decide)
  rw [PayloadFits, ← icmp, ← tcp]
  simp only [ipDeliver, Program.logged_bind, Program.logged_ite, logged_rxLoad8, logged_rxLoad16,
    logged_rxLoad32, logged_rxBytes, rxLoad8_run, rxLoad16_run, rxLoad32_run, Program.logged_emit,
    run_emit, Option.some.injEq, forall_eq', Int.reduceAdd, Int.reduceLE, Program.logged_pure,
    length, text, room, header, ipHdrSize, implies_true, and_true, true_and, forall_const]
  exact and_congr_right' ⟨fun h isTcp => h (distinct isTcp) isTcp, fun h _ => h⟩

theorem logged_arpReceive
    : Program.Logged (Event.Safe len) (arpReceive 14) env k := by
  have haddr : (Event.read 22 (moveCount haddrSize)).Safe len :=
    (safe_read_iff ..).mpr (by simp only [haddrSize, moveCount]; omega)
  have fields : (22 : Int) ≤ len ∧ (42 : Int) ≤ len ∧ (32 : Int) ≤ len := by omega
  simp only [arpReceive, arpReply, Program.logged_bind, Program.logged_ite, logged_rxLoad16,
    logged_rxLoad32, logged_rxBytes, rxLoad16_run, rxLoad32_run, rxBytes_run, Option.some.injEq,
    forall_eq', Int.reduceAdd, Int.reduceLE, Program.logged_pure, Program.logged_emit,
    Program.logged_get, run_get, haddr, fields, implies_true, and_true, true_and]
  refine ⟨fun _ _ => trivial, fun _ _ => ?_⟩
  cases arpRequested k (htonl (load32 env.frame 28)) with
  | none => simp
  | some => simp [Program.logged_bind, haddr]

theorem logged_arpAdd (ip : UInt32)
    : Program.Logged (Event.Safe len) (arpAdd ip 6) env k := by
  rcases arpAdd_run env k ip 6 with ⟨-, run⟩ | ⟨-, arp, procs, log, read, run⟩
  · simp [Program.Logged, run]
  · rcases read with rfl | rfl
    · simp [Program.Logged, run]
    · simp [Program.Logged, run, safe_read_iff]
      omega

/-- The header checks of `ip_receive` stay inside the frame; what follows them depends on
the length fields.
-/
theorem logged_ipReceive (short : len ≤ 1514) (isIp : htons (load16 env.frame 12) = ethernetTypeIp)
    : Program.Logged (Event.Safe len) (ipReceive 14 (len - 14) 6) env k
      ↔ LengthsConsistent k env.frame len := by
  have header : (15 : Int) ≤ len ∧ (23 : Int) ≤ len ∧ (30 : Int) ≤ len := by omega
  have summed : (Event.read 14 ipHdrSize.toNat).Safe len :=
    (safe_read_iff ..).mpr (by simp only [ipHdrSize]; omega)
  -- what the ARP cache learns does not concern the transport protocols
  have learned : Program.Logged (Event.Safe len) (arpAdd (srcIpOf env.frame) 6) env k
        ∧ (∀ a : Unit, ((arpAdd (srcIpOf env.frame) 6).run env k).value = some a
          → Program.Logged (Event.Safe len) (ipDeliver 14 (len - 14)) env
              ((arpAdd (srcIpOf env.frame) 6).run env k).state)
      ↔ (¬ ArpFull k (srcIpOf env.frame) → PayloadFits k env.frame len) := by
    rw [and_iff_right (logged_arpAdd long _)]
    rcases arpAdd_run env k (srcIpOf env.frame) 6 with
      ⟨full, run⟩ | ⟨room, arp, procs, log, -, run⟩
    · simp [run, full]
    · simp only [run, forall_const, room, not_false_eq_true, logged_ipDeliver long short]
      rfl
  simp only [ipReceive, Program.logged_bind, Program.logged_ite, logged_rxLoad8,
    logged_rxLoad32, logged_rxChecksum, rxLoad8_run, rxLoad32_run, rxChecksum_run,
    Option.some.injEq, forall_eq', Int.reduceAdd, Int.reduceLE, Program.logged_pure,
    Program.logged_get, run_get, header, summed, implies_true, true_and]
  change (_ → _ → _ → (_ → Program.Logged (Event.Safe len) (arpAdd (srcIpOf env.frame) 6) env k
        ∧ (∀ a : Unit, ((arpAdd (srcIpOf env.frame) 6).run env k).value = some a
          → Program.Logged (Event.Safe len) (ipDeliver 14 (len - 14)) env
              ((arpAdd (srcIpOf env.frame) 6).run env k).state)) ∧ _) ↔ _
  rw [learned, logged_ipDeliver long short]
  constructor
  · rintro safe ⟨-, version, alive, sum, learns⟩
    obtain ⟨onLink, offLink⟩ := safe (not_not.mpr version) alive (not_not.mpr sum)
    by_cases near : srcIpOf env.frame &&& k.gateway = k.myip &&& k.gateway
    · exact onLink near fun full => learns ⟨near, full⟩
    · exact offLink near
  · intro fits version alive sum
    have accepted (learns : ¬ (srcIpOf env.frame &&& k.gateway = k.myip &&& k.gateway
        ∧ ArpFull k (srcIpOf env.frame))) : DatagramAccepted k env.frame :=
      ⟨isIp, not_not.mp version, alive, not_not.mp sum, learns⟩
    exact ⟨fun _ room => fits (accepted fun both => room both.2),
      fun far => fits (accepted fun both => far both.1)⟩

theorem logged_etherReceive (short : len ≤ 1514)
    : Program.Logged (Event.Safe len) (etherReceive 0 len) env k
      ↔ LengthsConsistent k env.frame len := by
  have type : (14 : Int) ≤ len := by omega
  simp only [etherReceive, Program.logged_bind, Program.logged_ite, logged_rxLoad16,
    rxLoad16_run, Option.some.injEq, forall_eq', zero_add, Int.reduceAdd, Int.reduceLE, type,
    logged_arpReceive long, Program.logged_pure, implies_true, and_true, true_and]
  by_cases isIp : htons (load16 env.frame 12) = ethernetTypeIp
  · simp only [isIp, true_imp_iff]
    exact logged_ipReceive long short isIp
  · simp only [isIp, false_imp_iff, true_iff]
    exact fun accepted => absurd accepted.1 isIp

end

theorem packetOK_length {rxStatus rxSize pktLength : UInt32}
    (accepted : packetOK rxStatus rxSize pktLength = true)
    : 60 ≤ pktLength.toNat ∧ pktLength.toNat ≤ 1514 := by
  simp only [packetOK] at accepted
  split at accepted
  · split at accepted
    · cases accepted
    · rename_i bounds
      simpa [UInt32.lt_iff_toNat_lt, and_comm] using bounds
  · cases accepted

/-- Receiving a frame that the card accepts reads inside the frame, computes lengths that are
not negative and sends datagrams that fit, exactly when the length fields are consistent.
-/
theorem receive_in_bounds_iff (rxStatus rxSize pktLength : UInt32) (env : Env) (k : Kernel)
    (accepted : packetOK rxStatus rxSize pktLength = true)
    : Program.Logged (Event.Safe pktLength.toNat) (etherReceive 0 pktLength.toNat) env k
      ↔ LengthsConsistent k env.frame pktLength.toNat := by
  obtain ⟨long, short⟩ := packetOK_length accepted
  exact logged_etherReceive long short

/-- The first bytes of an echo request from 192.168.2.3 in a shortest frame, with this total length
and header checksum.
-/
def echoRequest (tlen checksum : UInt16) : Env :=
  let bytes := List.replicate 12 0 ++ [0x08, 0x00, 0x45, 0x00] ++ bytes16 (htons tlen)
    ++ [0, 0, 0, 0, 0x40, 0x01] ++ bytes16 (htons checksum)
    ++ [0xc0, 0xa8, 0x02, 0x03, 0xc0, 0xa8, 0x02, 0x02, 0x08]
  { frame := overlay (fun _ => 0) 0 bytes, stale := fun _ => 0, kalloc := none }

/-- A request whose total length is that of the frame is answered safely. -/
theorem receive_in_bounds_ping
    : packetOK 1 64 60 = true
      ∧ Program.Logged (Event.Safe 60) (etherReceive 0 60) (echoRequest 46 0xf579)
          (Kernel.boot 0xc0a80202 0xffffff00 0xc0a80201) := by
  refine ⟨by decide, (receive_in_bounds_iff 1 64 60 _ _ (by decide)).mpr fun _ => ?_⟩
  exact ⟨fun _ => ⟨by decide +kernel, fun _ => by decide +kernel⟩,
    fun isTcp => absurd isTcp (by decide +kernel)⟩

/-- A request of 60 bytes that claims 1500 is copied from behind the frame. -/
theorem longEcho_reads_outside
    : packetOK 1 64 60 = true
      ∧ ¬ Program.Logged (Event.Safe 60) (etherReceive 0 60) (echoRequest 1500 0xefcb)
          (Kernel.boot 0xc0a80202 0xffffff00 0xc0a80201) := by
  refine ⟨by decide, fun safe => ?_⟩
  have consistent : LengthsConsistent _ _ 60 :=
    (logged_etherReceive (by decide) (by decide)).mp safe
  have fits := (consistent ⟨by decide +kernel, by decide +kernel, by decide +kernel,
    by decide +kernel, fun both => absurd both.2.2.2.1 (by decide)⟩).1
    (by decide +kernel)
  exact absurd (fits.2 (by decide +kernel)) (by decide +kernel)

end Xv6Net
