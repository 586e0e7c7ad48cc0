import Xv6Net.Kernel.State

/-! Building and sending a segment: `tcp_pack`, `tcp_send` and the callers of `tcp.c` that
send SYN, SYN-ACK and ACK segments. A packet is the memory of its `struct tcp_packet`; the
layout of the header is that of `struct tcp_hdr`.
-/

namespace Xv6Net

open Library Memory

abbrev ipProtocolTcp : UInt8 := 0x06

/-- `(ip & 0xffff) + ((ip >> 16) & 0xffff)`. -/
def addrSum (ip : UInt32) : UInt32 :=
  (ip &&& (0xffff : UInt32)) + ((ip >>> 16) &&& (0xffff : UInt32))

/-- The pseudo-header sum that `tcp_pack` and `tcp_receive` start the checksum from. -/
def pseudoIpSum (myip dstIp : UInt32) (size : UInt16) : UInt32 :=
  addrSum myip + addrSum dstIp + (htons ipProtocolTcp.toUInt16).toUInt32
    + (htons size).toUInt32

/-- `tcp_pack`, on a packet whose previous contents are `packet`. The data are the
`data_size` bytes at the `data` pointer.
-/
def tcpPack (packet : Int → UInt8) (myip : UInt32) (srcPort dstPort : UInt16)
    (dstIp seqNum ackNum : UInt32) (flags hdrSize : UInt8) (data : List UInt8)
    : Int → UInt8 :=
  let totalSize := hdrSize.toNat + data.length
  let packet := overlay packet 0 (bytes16 (htons srcPort))
  let packet := overlay packet 2 (bytes16 (htons dstPort))
  let packet := overlay packet 4 (bytes32 (htonl seqNum))
  let packet := overlay packet 8 (bytes32 (htonl ackNum))
  let packet := overlay packet 12 [(hdrSize >>> 2) <<< 4]
  let packet := overlay packet 13 [flags]
  let packet := overlay packet 14 (bytes16 (htons (UInt16.ofNat windowSize)))
  let packet := overlay packet 16 (bytes16 0)
  let packet := overlay packet 18 (bytes16 0)
  let packet := overlay packet 20 data
  let sum := checksum packet 0 totalSize (pseudoIpSum myip dstIp (UInt16.ofNat totalSize))
  overlay packet 16 (bytes16 sum)

def tcpSend (srcPort dstPort : UInt16) (dstIp seqNum ackNum : UInt32)
    (flags hdrSize : UInt8) (data : List UInt8)
    : KernelM Unit := do
  let env ← Program.env
  let k ← Program.get
  let packet := tcpPack env.stale k.myip srcPort dstPort dstIp seqNum ackNum flags hdrSize data
  let totalSize := hdrSize.toNat + data.length
  Program.emit (.ipSend ipProtocolTcp (slice packet 0 totalSize) k.myip dstIp totalSize)

/-- The bytes of the `struct tcp_mss_option` that SYN and SYN-ACK segments carry. -/
def tcpMssOption : List UInt8 :=
  [2, 4] ++ bytes16 (htons (UInt16.ofNat mss))

def tcpSendSyn (s : Nat) : KernelM Unit := do
  let socket := (← Program.get).sockets s
  tcpSend socket.port socket.tcon.dstPort socket.tcon.dstAddr initialSeq 0 tcpFlagSyn
    (UInt8.ofNat tcpHeaderMinSize + 4) tcpMssOption
  Program.modify (·.setTcon s fun tcon =>
    { tcon with baseSeq := initialSeq + 1, nextSeq := initialSeq + 1 })

def tcpSendSynack (s : Nat) : KernelM Unit := do
  let socket := (← Program.get).sockets s
  tcpSend socket.port socket.tcon.dstPort socket.tcon.dstAddr initialSeq
    (socket.tcon.seqReceived + 1) (tcpFlagSyn ||| tcpFlagAck)
    (UInt8.ofNat tcpHeaderMinSize + 4) tcpMssOption
  Program.modify (·.setTcon s fun tcon =>
    { tcon with
      ackSent := socket.tcon.seqReceived + 1
      baseSeq := initialSeq + 1
      nextSeq := initialSeq + 1 })

def tcpSendAck (s : Nat) (ack : UInt32) : KernelM Unit := do
  let socket := (← Program.get).sockets s
  tcpSend socket.port socket.tcon.dstPort socket.tcon.dstAddr (socket.tcon.nextSeq - 1) ack
    tcpFlagAck (UInt8.ofNat tcpHeaderMinSize) []
  Program.modify (·.setTcon s fun tcon => { tcon with ackSent := ack })

/-- `htons(header.src_port)` of the segment at `seg`. -/
def srcPortOf (mem : Int → UInt8) (seg : Int) : UInt16 := htons (load16 mem seg)

/-- `htons(header.dst_port)`. -/
def dstPortOf (mem : Int → UInt8) (seg : Int) : UInt16 := htons (load16 mem (seg + 2))

/-- `htonl(header.seq_num)`. -/
def seqNumOf (mem : Int → UInt8) (seg : Int) : UInt32 := htonl (load32 mem (seg + 4))

/-- `htonl(header.ack_num)`. -/
def ackNumOf (mem : Int → UInt8) (seg : Int) : UInt32 := htonl (load32 mem (seg + 8))

/-- `header.offset >> 2`, the header length in bytes. -/
def hdrSizeOf (mem : Int → UInt8) (seg : Int) : Int := ((mem (seg + 12)) >>> 2).toNat

/-- `header.flags`. -/
def flagsOf (mem : Int → UInt8) (seg : Int) : UInt8 := mem (seg + 13)

theorem header_congr {mem other : Int → UInt8} {p q : Int} {n : Nat}
    (same : slice mem p n = slice other q n) (long : 20 ≤ n)
    : srcPortOf mem p = srcPortOf other q
      ∧ dstPortOf mem p = dstPortOf other q
      ∧ seqNumOf mem p = seqNumOf other q
      ∧ ackNumOf mem p = ackNumOf other q
      ∧ hdrSizeOf mem p = hdrSizeOf other q
      ∧ flagsOf mem p = flagsOf other q := by
  have cell (i : Nat) (inside : i < 20) : mem (p + i) = other (q + i) :=
    eq_of_slice_eq same (by omega)
  have word16 (i : Nat) (inside : i + 2 ≤ 20) : load16 mem (p + i) = load16 other (q + i) :=
    load16_of_slice_eq same i (by omega)
  have word32 (i : Nat) (inside : i + 4 ≤ 20) : load32 mem (p + i) = load32 other (q + i) :=
    load32_of_slice_eq same i (by omega)
  refine ⟨?_, congrArg htons (word16 2 (by omega)), congrArg htonl (word32 4 (by omega)),
    congrArg htonl (word32 8 (by omega)), ?_, cell 13 (by omega)⟩
  · have first := word16 0 (by omega)
    rw [Nat.cast_zero, add_zero, add_zero] at first
    exact congrArg htons first
  · exact congrArg (fun byte : UInt8 => ((byte >>> 2).toNat : Int)) (cell 12 (by omega))

section

variable (packet : Int → UInt8) (myip : UInt32) (srcPort dstPort : UInt16)
  (dstIp seqNum ackNum : UInt32) (flags hdrSize : UInt8) (data : List UInt8)

@[simp]
theorem srcPortOf_tcpPack
    : srcPortOf
        (tcpPack packet myip srcPort dstPort dstIp seqNum ackNum flags hdrSize data) 0
      = srcPort := by
  simp (disch := simp) only [srcPortOf, tcpPack, load16_overlay_disjoint, load16_overlay,
    htons_htons]

@[simp]
theorem dstPortOf_tcpPack
    : dstPortOf
        (tcpPack packet myip srcPort dstPort dstIp seqNum ackNum flags hdrSize data) 0
      = dstPort := by
  simp (disch := simp) only [dstPortOf, tcpPack, zero_add, load16_overlay_disjoint,
    load16_overlay, htons_htons]

@[simp]
theorem seqNumOf_tcpPack
    : seqNumOf
        (tcpPack packet myip srcPort dstPort dstIp seqNum ackNum flags hdrSize data) 0
      = seqNum := by
  simp (disch := simp) only [seqNumOf, tcpPack, zero_add, load32_overlay_disjoint,
    load32_overlay, htonl_htonl]

@[simp]
theorem ackNumOf_tcpPack
    : ackNumOf
        (tcpPack packet myip srcPort dstPort dstIp seqNum ackNum flags hdrSize data) 0
      = ackNum := by
  simp (disch := simp) only [ackNumOf, tcpPack, zero_add, load32_overlay_disjoint,
    load32_overlay, htonl_htonl]

@[simp]
theorem flagsOf_tcpPack
    : flagsOf
        (tcpPack packet myip srcPort dstPort dstIp seqNum ackNum flags hdrSize data) 0
      = flags := by
  simp [flagsOf, tcpPack, overlay, bytes16]

/-- The header length of a segment without options is decoded as the 20 bytes it has. -/
@[simp]
theorem hdrSizeOf_tcpPack
    : hdrSizeOf (tcpPack packet myip srcPort dstPort dstIp seqNum ackNum flags 20 data) 0
      = 20 := by
  simp [hdrSizeOf, tcpPack, overlay, bytes16]

theorem slice_tcpPack_data
    : slice (tcpPack packet myip srcPort dstPort dstIp seqNum ackNum flags hdrSize data) 20
        data.length
      = data := by
  have behind (mem : Int → UInt8) (v : UInt16)
      : slice (overlay mem 16 (bytes16 v)) 20 data.length = slice mem 20 data.length :=
    slice_congr fun i low _ => overlay_beyond mem (by simp; omega)
  simp only [tcpPack, behind, slice_overlay]

theorem addrSum_toNat_le (ip : UInt32) : (addrSum ip).toNat ≤ 131070 := by
  have low : ip.toNat &&& 65535 ≤ 65535 := Nat.and_le_right
  have high : ip.toNat >>> 16 &&& 65535 ≤ 65535 := Nat.and_le_right
  simp only [addrSum, UInt32.toNat_add, UInt32.toNat_and, UInt32.toNat_shiftRight,
    UInt32.reduceToNat, Nat.reduceMod]
  omega

theorem pseudoIpSum_toNat_lt (ip other : UInt32) (size : UInt16)
    : (pseudoIpSum ip other size).toNat < 2 ^ 19 := by
  have first := addrSum_toNat_le ip
  have second := addrSum_toNat_le other
  have third := (htons size).toNat_lt
  have fourth := (htons ipProtocolTcp.toUInt16).toNat_lt
  simp only [pseudoIpSum, UInt32.toNat_add, UInt16.toNat_toUInt32]
  omega

theorem pseudoIpSum_comm (ip other : UInt32) (size : UInt16)
    : pseudoIpSum ip other size = pseudoIpSum other ip size := by
  rw [pseudoIpSum, pseudoIpSum, UInt32.add_comm (addrSum ip)]

/-- A packed segment that reaches to the end of its checksum field has a checksum of zero. -/
theorem checksum_tcpPack_of_field (long : 18 ≤ hdrSize.toNat + data.length)
    : checksum (tcpPack packet myip srcPort dstPort dstIp seqNum ackNum flags hdrSize data) 0
        ((hdrSize.toNat + data.length : Nat) : Int)
        (pseudoIpSum myip dstIp (UInt16.ofNat (hdrSize.toNat + data.length)))
      = 0 := by
  refine checksum_fill (m := 8) _ 0 (by omega) (by omega) (pseudoIpSum_toNat_lt ..) ?_
  simp (disch := simp) only [Nat.cast_ofNat, zero_add, Int.reduceMul, load16_overlay_disjoint,
    load16_overlay]

theorem checksum_tcpPack (long : 20 ≤ hdrSize.toNat)
    : checksum (tcpPack packet myip srcPort dstPort dstIp seqNum ackNum flags hdrSize data) 0
        ((hdrSize.toNat + data.length : Nat) : Int)
        (pseudoIpSum dstIp myip (UInt16.ofNat (hdrSize.toNat + data.length)))
      = 0 := by
  rw [pseudoIpSum_comm]
  exact checksum_tcpPack_of_field packet myip srcPort dstPort dstIp seqNum ackNum flags hdrSize
    data (by omega)

end

end Xv6Net
