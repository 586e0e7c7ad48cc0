import Xv6Net.Net.Learning
import Xv6Net.Net.PacketBounds
import Xv6Net.Net.Send
import Xv6Net.Tcp.Connection

/-! A packet on its way through the layers: what `ip_send`, `ether_send` and `rtl8139_send`
wrap around a segment, `ether_receive` and `ip_receive` take off again. Only the ARP cache of
the receiver can stand between them: `arp_add` panics when every entry is waited for.
-/

namespace Xv6Net

open Library Memory

/-- `ip_receive` does not add the source to the ARP cache, or finds a place for it. -/
def CanLearn (k : Kernel) (srcIp : UInt32) : Prop :=
  ¬ (srcIp &&& k.gateway = k.myip &&& k.gateway ∧ ArpFull k srcIp)

/-- The bytes at `ipDgram` are a datagram that `ip_send` has built. -/
structure Stored (mem : Int → UInt8) (ipDgram : Int) (protocol : UInt8) (buffer : List UInt8)
    (srcIp : UInt32)
    : Prop where
  header : HeaderOk mem ipDgram
  protocol : mem (ipDgram + 9) = protocol
  size : (htons (load16 mem (ipDgram + 2))).toNat - ipHdrSize = buffer.length
  srcIp : htonl (load32 mem (ipDgram + 12)) = srcIp
  payload : slice mem (ipDgram + 20) buffer.length = buffer

variable {mem : Int → UInt8} {ipDgram frame : Int} {buffer segment : List UInt8}
  {srcIp dstIp : UInt32}

variable {id : UInt16} {protocol : UInt8} {mac : List UInt8}

theorem stored_of_ipDatagram {pkt : Int → UInt8} (fits : buffer.length ≤ maxTransportPayloadSize)
    (same : slice mem ipDgram (20 + buffer.length)
      = ipDatagram pkt id protocol buffer srcIp dstIp)
    : Stored mem ipDgram protocol buffer srcIp := by
  obtain ⟨version, ttl, kind, tlen, source⟩ := fields_ipPack pkt id protocol buffer srcIp dstIp
  have cell (i : Nat) (inside : i < 20)
      : mem (ipDgram + i) = ipPack pkt id protocol buffer srcIp dstIp (0 + i) :=
    eq_of_slice_eq same (by omega)
  have start := cell 0 (by omega)
  have eighth := cell 8 (by omega)
  have ninth := cell 9 (by omega)
  have second := load16_of_slice_eq same 2 (by omega)
  have twelfth := load32_of_slice_eq same 12 (by omega)
  simp only [Nat.cast_zero, add_zero] at start
  simp only [Nat.cast_ofNat, zero_add] at eighth ninth second twelfth
  have header : slice mem ipDgram 20
      = slice (ipPack pkt id protocol buffer srcIp dstIp) 0 20 := by
    have whole := congrArg (List.take 20) same
    rwa [ipDatagram, take_slice, take_slice, Nat.min_eq_left (by omega)] at whole
  refine ⟨⟨?_, ?_, ?_⟩, ?_, ?_, ?_, ?_⟩
  · rw [start, version]
    decide
  · rw [eighth, ttl]
    decide
  · exact (checksum_of_slice_eq (n := 20) header 0).trans
      (checksum_ipPack pkt id protocol buffer srcIp dstIp)
  · rw [ninth, kind]
  · simp only [maxTransportPayloadSize] at fits
    rw [second, tlen, htons_htons, UInt16.toNat_ofNat', Nat.mod_eq_of_lt (by omega)]
    simp only [ipHdrSize]
    omega
  · rw [twelfth, source, htonl_htonl]
  · have rest := congrArg (List.drop 20) same
    rw [ipDatagram, drop_slice, drop_slice] at rest
    exact rest.trans (slice_ipPack_payload pkt id protocol buffer srcIp dstIp)

theorem stored_of_ipFrame {buffers : SendBuffers} {destMac : List UInt8}
    {wire : List UInt8} (macSize : mac.length = 6)
    (destSize : destMac.length = 6) (fits : buffer.length ≤ maxTransportPayloadSize)
    (sent : ipFrame buffers mac destMac id protocol buffer srcIp dstIp = some wire)
    (same : slice mem frame wire.length = wire)
    : htons (load16 mem (frame + 12)) = ethernetTypeIp
      ∧ Stored mem (frame + 14) protocol buffer srcIp := by
  rw [ipFrame_eq buffers id protocol srcIp dstIp macSize destSize fits] at sent
  obtain rfl := Option.some.inj sent
  -- the parts of the frame, from the outside in
  have inner := ((slice_eq_append_iff ..).mp same).2
  rw [destSize] at inner
  have framed := ((slice_eq_append_iff ..).mp inner).2
  rw [macSize] at framed
  obtain ⟨type, body⟩ := (slice_eq_append_iff ..).mp framed
  have datagram := ((slice_eq_append_iff ..).mp body).1
  simp only [length_bytes16, Nat.cast_ofNat, add_assoc, Int.reduceAdd] at type datagram
  rw [length_ipDatagram] at datagram
  exact ⟨by rw [load16_of_slice type, htons_htons], stored_of_ipDatagram fits datagram⟩

variable (env : Env) (k : Kernel)

theorem Learned.canLearn {k next : Kernel} (learned : Learned k srcIp mac next)
    : CanLearn k srcIp := by
  rintro ⟨near, searched, waited, free, oldest⟩
  cases learned with
  | ignored foreign => exact foreign near
  | cached i _ found => simp [searched] at found
  | answered i _ _ requested => simp [waited] at requested
  | stored i _ _ _ taken => simp [Kernel.arpTaken, free, oldest] at taken

/-- A datagram that passes the header checks is delivered, once its source was added to the
ARP cache; with a full cache the kernel stops.
-/
theorem ipReceive_run (dsize rxMac : Int) (header : HeaderOk env.frame ipDgram)
    (source : htonl (load32 env.frame (ipDgram + 12)) = srcIp)
    : (CanLearn k srcIp
        ∧ ∃ arp procs reads,
            OnlyReads reads
            ∧ (ipReceive ipDgram dsize rxMac).run env k
              = ((ipDeliver ipDgram dsize).run env { k with arp, procs }).after reads)
      ∨ (¬ CanLearn k srcIp ∧ ((ipReceive ipDgram dsize rxMac).run env k).value = none) := by
  subst source
  have spec := ipReceive_spec env k ipDgram dsize rxMac
  generalize (ipReceive ipDgram dsize rxMac).run env k = out at spec ⊢
  cases spec with
  | rejected bad => exact absurd header bad
  | full _ near searched waited taken =>
    refine Or.inr ⟨fun can => can ⟨near, searched, waited, ?_⟩, rfl⟩
    exact Option.or_eq_none_iff.mp taken
  | delivered _ next learned reads only =>
    obtain ⟨arp, procs, same⟩ := learned.frame
    exact Or.inl ⟨learned.canLearn, arp, procs, reads, only, by rw [same]⟩

theorem ipDeliver_tcp (dsize : Int) (stored : Stored env.frame ipDgram ipProtocolTcp buffer srcIp)
    : ∃ earlier,
        (ipDeliver ipDgram dsize).run env k
        = ((tcpReceive (ipDgram + 20) buffer.length srcIp).run env k).after earlier := by
  have notIcmp : ¬ ipProtocolTcp = ipProtocolIcmp := by decide
  simp only [ipDeliver, run_bind, run_ite, run_emit, rxLoad8_run, rxLoad16_run, rxLoad32_run,
    andThen_some, stored.protocol, if_neg notIcmp, if_true, stored.size, stored.srcIp, after_after]
  exact ⟨_, rfl⟩

/-- `ether_receive` of the frame passes the header tests of `ip_receive` and goes on as
`tcp_receive` of this segment, which passes its checksum test. Before that only the ARP cache has
changed, and processes that waited for it.
-/
def SegmentArrives (env : Env) (k : Kernel) (frame len : Int) (segment : List UInt8)
    (srcIp : UInt32)
    : Prop :=
  HeaderOk env.frame (frame + 14)
  ∧ ∃ seg arp procs earlier,
      (etherReceive frame len).run env k
      = ((tcpReceive seg segment.length srcIp).run env { k with arp, procs }).after earlier
      ∧ slice env.frame seg segment.length = segment
      ∧ checksum env.frame seg segment.length
          (pseudoIpSum k.myip srcIp (UInt16.ofInt segment.length))
        = 0

theorem not_segmentArrives_of_stopped {len : Int}
    (stopped : ((etherReceive frame len).run env k).value = none)
    : ¬ SegmentArrives env k frame len segment srcIp := by
  rintro ⟨-, seg, arp, procs, earlier, same, -⟩
  obtain ⟨extra, -, returned⟩ := tcpReceive_run env { k with arp, procs } seg segment.length srcIp
  rw [same, returned] at stopped
  exact absurd stopped (by simp)

/-- A segment that `tcp_send` has built passes the checksum test of the host it is for,
wherever it is stored.
-/
theorem checksum_of_tcpPack {packet : Int → UInt8} {seg : Int} {myip : UInt32}
    {srcPort dstPort : UInt16} {seqNum ackNum : UInt32} {flags hdrSize : UInt8} {data : List UInt8}
    (long : 20 ≤ hdrSize.toNat + data.length)
    (built : segment
      = slice (tcpPack packet myip srcPort dstPort dstIp seqNum ackNum flags hdrSize data) 0
          (hdrSize.toNat + data.length)) (stored : slice mem seg segment.length = segment)
    : checksum mem seg segment.length (pseudoIpSum dstIp myip (UInt16.ofInt segment.length))
      = 0 := by
  have size : segment.length = hdrSize.toNat + data.length := by
    rw [built, length_slice]
  have word : UInt16.ofInt segment.length = UInt16.ofNat segment.length := by
    apply UInt16.toNat_inj.mp
    rw [UInt16.ofInt, UInt16.toNat_ofNat', UInt16.toNat_ofNat']
    omega
  rw [word, pseudoIpSum_comm, checksum_of_slice_eq (stored.trans (built.trans (by rw [size]))),
    size]
  exact checksum_tcpPack_of_field packet myip srcPort dstPort dstIp seqNum ackNum flags hdrSize
    data (by omega)

theorem segmentArrives_of_stored (len : Int)
    (isIp : htons (load16 env.frame (frame + 12)) = ethernetTypeIp)
    (stored : Stored env.frame (frame + 14) ipProtocolTcp segment srcIp)
    (valid : checksum env.frame (frame + 14 + 20) segment.length
      (pseudoIpSum k.myip srcIp (UInt16.ofInt segment.length)) = 0)
    : SegmentArrives env k frame len segment srcIp ↔ CanLearn k srcIp := by
  have framed : (etherReceive frame len).run env k
      = ((ipReceive (frame + 14) (len - 14) (frame + 6)).run env k).after
          [.read (frame + 12) 2] := by
    simp only [etherReceive, run_bind, rxLoad16_run, andThen_some, isIp, if_true]
  rcases ipReceive_run env k (len - 14) (frame + 6) stored.header stored.srcIp with
    ⟨can, arp, procs, reads, -, received⟩ | ⟨cannot, stopped⟩
  · obtain ⟨more, delivered⟩ := ipDeliver_tcp env { k with arp, procs } (len - 14) stored
    rw [received, delivered, after_after, after_after] at framed
    exact iff_of_true
      ⟨stored.header, frame + 14 + 20, arp, procs, _, framed, stored.payload, valid⟩ can
  · refine iff_of_false (not_segmentArrives_of_stopped env k ?_) cannot
    rw [framed, after_value, stopped]

/-- Every segment of up to 1480 bytes that `tcp_send` builds for a host arrives there exactly
when that host can add the sender to its ARP cache or does not try to.
-/
theorem segment_arrives_iff (a : Kernel) (sender : Env) (srcPort dstPort : UInt16)
    (dstIp seqNum ackNum : UInt32) (flags hdrSize : UInt8) (data : List UInt8)
    (buffers : SendBuffers) (destMac : List UInt8) (id : UInt16)
    (macSize : a.mac.length = 6) (destSize : destMac.length = 6)
    (long : 20 ≤ hdrSize.toNat + data.length) (short : hdrSize.toNat + data.length ≤ 1480)
    : ∃ segment wire,
        ((tcpSend srcPort dstPort dstIp seqNum ackNum flags hdrSize data).run sender a).log
          = [.ipSend ipProtocolTcp segment a.myip dstIp segment.length]
        ∧ segment.length = hdrSize.toNat + data.length
        ∧ ipFrame buffers a.mac destMac id ipProtocolTcp segment a.myip dstIp = some wire
        ∧ ∀ (env : Env) (k : Kernel) (frame : Int),
            k.myip = dstIp
            → slice env.frame frame wire.length = wire
            → (SegmentArrives env k frame wire.length segment a.myip
              ↔ CanLearn k a.myip) := by
  obtain ⟨segment, built⟩ : ∃ segment, segment
      = slice (tcpPack sender.stale a.myip srcPort dstPort dstIp seqNum ackNum flags hdrSize data)
          0 (hdrSize.toNat + data.length) := ⟨_, rfl⟩
  have size : segment.length = hdrSize.toNat + data.length := by
    rw [built, length_slice]
  have fits : segment.length ≤ maxTransportPayloadSize := size.le.trans short
  have framed := ipFrame_eq buffers id ipProtocolTcp a.myip dstIp macSize destSize fits
  refine ⟨segment, _, ?_, size, framed, ?_⟩
  · rw [size, built]
    rfl
  · intro env k frame addressed same
    obtain ⟨isIp, stored⟩ := stored_of_ipFrame macSize destSize fits framed same
    have valid := checksum_of_tcpPack long built stored.payload
    rw [← addressed] at valid
    exact segmentArrives_of_stored env k _ isIp stored valid

set_option maxRecDepth 20000

def senderHost : Kernel := Kernel.boot 0xc0a80204 0xffffff00 0xc0a80201

/-- 192.168.2.2, where ten processes wait for the addresses of hosts that do not answer. -/
def waitingHost : Kernel :=
  { Kernel.boot 0xc0a80202 0xffffff00 0xc0a80201 with
    arp := fun i =>
      { ip := 0xc0a80210 + UInt32.ofNat i, mac := [], validUntil := 0, status := .requested } }

/-- Memory that holds zeros before a packet is built in it or a frame is stored in it. -/
def blankMemory : Env :=
  { frame := fun _ => 0, stale := fun _ => 0, kalloc := none }

def blankBuffers : SendBuffers :=
  { pkt := fun _ => 0, frame := fun _ => 0, txBuffer := fun _ => 0 }

/-- An acknowledgement of the sender is lost with the host that it was sent to. -/
theorem full_cache_stops_segment
    : ∃ segment wire,
        ((tcpSend 1 80 0xc0a80202 1 1 tcpFlagAck 20 []).run blankMemory senderHost).log
          = [.ipSend ipProtocolTcp segment 0xc0a80204 0xc0a80202 segment.length]
        ∧ ipFrame blankBuffers senderHost.mac (List.replicate 6 1) 0 ipProtocolTcp segment
            0xc0a80204 0xc0a80202
          = some wire
        ∧ ¬ SegmentArrives { blankMemory with frame := memoryOf wire } waitingHost 0 wire.length
            segment 0xc0a80204 :=
  ⟨_, _, rfl, rfl, not_segmentArrives_of_stopped _ _ (by decide +kernel)⟩

/-- The host at which nobody waits receives the segment. -/
theorem segment_arrives_at_boot
    : ∃ segment wire,
        ((tcpSend 1 80 0xc0a80202 1 1 tcpFlagAck 20 []).run blankMemory senderHost).log
          = [.ipSend ipProtocolTcp segment 0xc0a80204 0xc0a80202 segment.length]
        ∧ ipFrame blankBuffers senderHost.mac (List.replicate 6 1) 0 ipProtocolTcp segment
            0xc0a80204 0xc0a80202
          = some wire
        ∧ SegmentArrives { blankMemory with frame := memoryOf wire }
            (Kernel.boot 0xc0a80202 0xffffff00 0xc0a80201) 0 wire.length segment 0xc0a80204 := by
  obtain ⟨segment, wire, sent, -, framed, arrives⟩ := segment_arrives_iff senderHost blankMemory
    1 80 0xc0a80202 1 1 tcpFlagAck 20 [] blankBuffers (List.replicate 6 1) 0 rfl rfl (by decide)
    (by decide)
  refine ⟨segment, wire, sent, framed, ?_⟩
  refine (arrives _ _ 0 rfl (slice_memoryOf wire)).mpr fun full => ?_
  exact absurd full.2.2.2.1 (by decide)

end Xv6Net
