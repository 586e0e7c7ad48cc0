import Xv6Net.Net.Encapsulation

/-! ICMP echo: the request that `icmp_send_echo_request` builds, the reply that
`icmp_send_echo_reply` makes of any request, and what a ping leaves at the host that sent it.
-/

namespace Xv6Net

open Library Memory

abbrev icmpPacketSize : Nat := 64

abbrev icmpHdrSize : Nat := 8

/-- `ICMP_PAYLOAD_PATTERN`, the letter A. -/
def icmpPayloadPattern : UInt8 := 0x41

def icmpSendEchoRequest (dstIp : UInt32) (seqNo : UInt16) : KernelM Unit := do
  let env ← Program.env
  let k ← Program.get
  let buffer := overlay env.stale 0 (List.replicate icmpPacketSize 0)
  let buffer := overlay buffer 0 [icmpTypeEcho]
  let buffer := overlay buffer 1 [0]
  let buffer := overlay buffer 2 (bytes16 0)
  let buffer := overlay buffer 4 (bytes16 (htons 1))
  let buffer := overlay buffer 6 (bytes16 (htons seqNo))
  let buffer := fill icmpPayloadPattern buffer icmpHdrSize (icmpPacketSize - icmpHdrSize)
  let buffer := overlay buffer 2 (bytes16 (checksum buffer 0 icmpPacketSize 0))
  Program.emit (.ipSend ipProtocolIcmp (slice buffer 0 icmpPacketSize) k.myip dstIp icmpPacketSize)

/-- What the far end reads in a request of this sequence number. -/
structure EchoRequest (seqNo : UInt16) (request : List UInt8) : Prop where
  length : request.length = icmpPacketSize
  type : request[0]? = some icmpTypeEcho
  seqNo : (request.drop 6).take 2 = bytes16 (htons seqNo)

theorem icmpSendEchoRequest_run (env : Env) (k : Kernel) (dstIp : UInt32) (seqNo : UInt16)
    : ∃ request,
        (icmpSendEchoRequest dstIp seqNo).run env k
          = ⟨some (), k, [.ipSend ipProtocolIcmp request k.myip dstIp icmpPacketSize]⟩
        ∧ EchoRequest seqNo request := by
  exact ⟨_, rfl, length_slice .., rfl, rfl⟩

/-- The reply is the request but for the type and a checksum that is right again. -/
structure EchoReply (request reply : List UInt8) : Prop where
  length : reply.length = request.length
  type : reply[0]? = some icmpTypeEchoReply
  rest : ∀ i, i ≠ 0 → i ≠ 2 → i ≠ 3 → reply[i]? = request[i]?
  checksum : checksum (memoryOf reply) 0 reply.length 0 = 0

/-- A log ends with the only packet that it hands to `ip_send`. -/
def Answers (log : List Event) (sent : Event) : Prop :=
  ∃ earlier, earlier.filterMap Event.datagram = [] ∧ log = earlier ++ [sent]

variable {log : List Event} {icmpPkt : Int} {packet : List UInt8}

theorem Answers.after {earlier : List Event} {sent : Event} (answers : Answers log sent)
    (quiet : earlier.filterMap Event.datagram = [])
    : Answers (earlier ++ log) sent := by
  obtain ⟨reads, none_, rfl⟩ := answers
  refine ⟨earlier ++ reads, ?_, (List.append_assoc ..).symm⟩
  rw [List.filterMap_append, quiet, none_, List.append_nil]

theorem OnlyReads.quiet (only : OnlyReads log)
    : log.filterMap Event.datagram = [] := by
  rw [List.filterMap_eq_nil_iff]
  intro event member
  obtain ⟨addr, count, rfl⟩ := only event member
  rfl

variable {request reply : List UInt8} {seqNo : UInt16} {ipDgram : Int} {srcIp dstIp : UInt32}

/-- The buffer of `icmp_send_echo_reply` is a reply to what was copied into it. -/
theorem echoReply_of_buffer {stale blank buffer : Int → UInt8} (long : 8 ≤ request.length)
    (blanked : blank
      = overlay (overlay (overlay stale 0 request) 0 [icmpTypeEchoReply]) 2 (bytes16 0))
    (summed : buffer = overlay blank 2 (bytes16 (checksum blank 0 request.length 0)))
    : EchoReply request (slice buffer 0 request.length) := by
  have type : buffer 0 = icmpTypeEchoReply := by
    rw [summed, blanked, overlay_before _ _ (by omega), overlay_before _ _ (by omega)]
    rfl
  have kept (i : Nat) (other : i ≠ 0) (low : i ≠ 2) (high : i ≠ 3)
      : buffer i = overlay stale 0 request i := by
    rw [summed, blanked]
    rcases Nat.lt_or_ge i 2 with code | behind
    · rw [overlay_before _ _ (by omega), overlay_before _ _ (by omega),
        overlay_beyond _ (by rw [List.length_singleton]; omega)]
    · rw [overlay_beyond _ (by rw [length_bytes16]; omega),
        overlay_beyond _ (by rw [length_bytes16]; omega),
        overlay_beyond _ (by rw [List.length_singleton]; omega)]
  have zero : checksum buffer 0 request.length 0 = 0 := by
    rw [summed]
    refine checksum_fill (m := 1) blank 0 le_rfl (by omega) (by decide) ?_
    rw [blanked]
    exact load16_overlay ..
  refine ⟨length_slice .., ?_, fun i other low high => ?_, ?_⟩
  · rw [getElem?_slice _ _ (by omega)]
    exact congrArg some type
  · by_cases inside : i < request.length
    · have copied := getElem?_slice (overlay stale 0 request) 0 inside
      rw [slice_overlay] at copied
      rw [getElem?_slice _ _ inside, copied, zero_add, kept i other low high]
    · rw [List.getElem?_eq_none (by rw [length_slice]; omega), List.getElem?_eq_none (by omega)]
  · have whole := slice_memoryOf (slice buffer 0 request.length)
    rw [length_slice] at whole ⊢
    rw [checksum_of_slice_eq whole, zero]

variable (env : Env) (k : Kernel)

/-- `icmp_receive` answers every echo request of a size that a datagram can have. -/
theorem icmpReceive_request (srcIp : UInt32) (long : 8 ≤ request.length)
    (short : request.length ≤ 1480) (stored : slice env.frame icmpPkt request.length = request)
    (echo : request[0]? = some icmpTypeEcho)
    : ∃ reads reply,
        (icmpReceive icmpPkt request.length srcIp).run env k
          = ⟨some (), k,
              reads ++ [.ipSend ipProtocolIcmp reply k.myip srcIp request.length]⟩
        ∧ OnlyReads reads
        ∧ EchoReply request reply := by
  have type : env.frame icmpPkt = icmpTypeEcho := by
    have cell := cell_of_slice stored echo
    rwa [Nat.cast_zero, add_zero] at cell
  have count : moveCount request.length = request.length := by
    rw [moveCount_of_nonneg (by omega) (by omega)]
    rfl
  simp only [icmpReceive, icmpSendEchoReply, run_bind, run_ite, run_env, run_get, run_emit,
    rxLoad8_run, rxBytes_run, andThen_some, type, if_true, count, stored]
  refine ⟨[.read icmpPkt 1, .read icmpPkt request.length], _, rfl, ?_,
    echoReply_of_buffer long rfl rfl⟩
  simp [OnlyReads]

theorem icmpReceive_reply (srcIp : UInt32) (stored : slice env.frame icmpPkt reply.length = reply)
    (echo : reply[0]? = some icmpTypeEchoReply)
    (numbered : (reply.drop 6).take 2 = bytes16 (htons seqNo))
    : ((icmpReceive icmpPkt reply.length srcIp).run env k).value = some ()
      ∧ ((icmpReceive icmpPkt reply.length srcIp).run env k).state
        = { k with
            icmpEchoReplyReceived := 1
            icmpReplyPktInfo := { size := reply.length, srcIp, seqNo } } := by
  have type : env.frame icmpPkt = icmpTypeEchoReply := by
    have cell := cell_of_slice stored echo
    rwa [Nat.cast_zero, add_zero] at cell
  have number : htons (load16 env.frame (icmpPkt + 6)) = seqNo := by
    have field := load16_of_cells stored numbered
    rw [Nat.cast_ofNat] at field
    rw [field, htons_htons]
  have notRequest : ¬ icmpTypeEchoReply = icmpTypeEcho := by decide
  simp only [icmpReceive, run_bind, run_ite, run_modify, rxLoad8_run,
    rxLoad16_run, andThen_some, type, if_neg notRequest, if_true, number]
  exact ⟨rfl, rfl⟩

/-- `ip_receive` is given a datagram that carries this ICMP packet. -/
def IcmpArrives (ipDgram : Int) (packet : List UInt8) (srcIp dstIp : UInt32) : Prop :=
  ∃ pkt id,
    slice env.frame ipDgram (20 + packet.length)
    = ipDatagram pkt id ipProtocolIcmp packet srcIp dstIp

theorem ipDeliver_icmp (dsize : Int) (stored : Stored env.frame ipDgram ipProtocolIcmp packet srcIp)
    : ∃ earlier,
        (ipDeliver ipDgram dsize).run env k
          = ((icmpReceive (ipDgram + 20) packet.length srcIp).run env k).after earlier
        ∧ earlier.filterMap Event.datagram = [] := by
  simp only [ipDeliver, run_bind, run_ite, run_emit, rxLoad8_run, rxLoad16_run, rxLoad32_run,
    andThen_some, stored.protocol, if_true, stored.size, stored.srcIp, after_after]
  exact ⟨_, rfl, rfl⟩

/-- The packet is handed to `icmp_receive`, unless the kernel stops before. -/
theorem ipReceive_icmp (dsize rxMac : Int) (short : packet.length ≤ 1480)
    (arrives : IcmpArrives env ipDgram packet srcIp dstIp)
    : slice env.frame (ipDgram + 20) packet.length = packet
      ∧ ((CanLearn k srcIp
          ∧ ∃ arp procs earlier,
              (ipReceive ipDgram dsize rxMac).run env k
                = ((icmpReceive (ipDgram + 20) packet.length srcIp).run env
                    { k with arp, procs }).after earlier
              ∧ earlier.filterMap Event.datagram = [])
        ∨ (¬ CanLearn k srcIp
          ∧ ((ipReceive ipDgram dsize rxMac).run env k).value = none)) := by
  obtain ⟨pkt, id, same⟩ := arrives
  have stored := stored_of_ipDatagram short same
  refine ⟨stored.payload, ?_⟩
  rcases ipReceive_run env k dsize rxMac stored.header stored.srcIp with
    ⟨can, arp, procs, reads, only, received⟩ | stopped
  · obtain ⟨more, delivered, quiet⟩ := ipDeliver_icmp env { k with arp, procs } dsize stored
    rw [delivered, after_after] at received
    refine Or.inl ⟨can, arp, procs, reads ++ more, received, ?_⟩
    rw [List.filterMap_append, only.quiet, quiet, List.append_nil]
  · exact Or.inr stopped

theorem ipReceive_request (dsize rxMac : Int) (long : 8 ≤ request.length)
    (short : request.length ≤ 1480) (echo : request[0]? = some icmpTypeEcho)
    (arrives : IcmpArrives env ipDgram request srcIp dstIp)
    : (((ipReceive ipDgram dsize rxMac).run env k).value = some () ↔ CanLearn k srcIp)
      ∧ (CanLearn k srcIp
        → ∃ reply,
            Answers ((ipReceive ipDgram dsize rxMac).run env k).log
              (.ipSend ipProtocolIcmp reply k.myip srcIp request.length)
            ∧ EchoReply request reply) := by
  obtain ⟨stored, ⟨can, arp, procs, earlier, received, quiet⟩ | ⟨cannot, stopped⟩⟩ :=
    ipReceive_icmp env k dsize rxMac short arrives
  · obtain ⟨reads, reply, run, only, answer⟩ :=
      icmpReceive_request env { k with arp, procs } srcIp long short stored echo
    rw [received, run]
    refine ⟨iff_of_true rfl can, fun _ => ⟨reply, ?_, answer⟩⟩
    have answers : Answers (reads ++ [.ipSend ipProtocolIcmp reply k.myip srcIp request.length])
        (.ipSend ipProtocolIcmp reply k.myip srcIp request.length) := ⟨reads, only.quiet, rfl⟩
    exact answers.after quiet
  · rw [stopped]
    exact ⟨iff_of_false nofun cannot, fun can => absurd can cannot⟩

theorem ipReceive_reply (dsize rxMac : Int) (short : reply.length ≤ 1480)
    (echo : reply[0]? = some icmpTypeEchoReply)
    (numbered : (reply.drop 6).take 2 = bytes16 (htons seqNo))
    (arrives : IcmpArrives env ipDgram reply srcIp dstIp)
    : (((ipReceive ipDgram dsize rxMac).run env k).value = some () ↔ CanLearn k srcIp)
      ∧ (CanLearn k srcIp
        → ((ipReceive ipDgram dsize rxMac).run env k).state.icmpEchoReplyReceived = 1
          ∧ ((ipReceive ipDgram dsize rxMac).run env k).state.icmpReplyPktInfo
            = { size := reply.length, srcIp, seqNo }) := by
  obtain ⟨stored, ⟨can, arp, procs, earlier, received, -⟩ | ⟨cannot, stopped⟩⟩ :=
    ipReceive_icmp env k dsize rxMac short arrives
  · obtain ⟨returns, state⟩ :=
      icmpReceive_reply env { k with arp, procs } srcIp stored echo numbered
    rw [received, after_value, after_state, returns, state]
    exact ⟨iff_of_true rfl can, fun _ => ⟨rfl, rfl⟩⟩
  · rw [stopped]
    exact ⟨iff_of_false nofun cannot, fun can => absurd can cannot⟩

theorem EchoReply.numbered (answer : EchoReply request reply) (sent : EchoRequest seqNo request)
    : (reply.drop 6).take 2 = bytes16 (htons seqNo) := by
  have same : reply.drop 6 = request.drop 6 := by
    apply List.ext_getElem?
    intro i
    rw [List.getElem?_drop, List.getElem?_drop]
    exact answer.rest (6 + i) (by omega) (by omega) (by omega)
  rw [same, sent.seqNo]

/-- A ping that is handled at both ends is noted with the number it was sent with; and the
reply to any echo request differs from it in the type and the checksum only. A host handles
what it receives unless its ARP cache is full of addresses that are waited for.
-/
theorem icmp_echo_round_trip
    : (∀ (a : Kernel) (sender : Env) (dstIp : UInt32) (seqNo : UInt16),
        ∃ request,
          ((icmpSendEchoRequest dstIp seqNo).run sender a).log
            = [.ipSend ipProtocolIcmp request a.myip dstIp 64]
          ∧ ∀ (receiver : Env) (b : Kernel) (ipDgram dsize rxMac : Int),
              IcmpArrives receiver ipDgram request a.myip dstIp
              → (((ipReceive ipDgram dsize rxMac).run receiver b).value = some ()
                  ↔ CanLearn b a.myip)
                ∧ (((ipReceive ipDgram dsize rxMac).run receiver b).value = some ()
                  → ∃ reply,
                      Answers ((ipReceive ipDgram dsize rxMac).run receiver b).log
                        (.ipSend ipProtocolIcmp reply b.myip a.myip 64)
                      ∧ ∀ (home : Env) (later : Kernel) (ipDgram dsize rxMac : Int),
                          IcmpArrives home ipDgram reply b.myip a.myip
                          → (((ipReceive ipDgram dsize rxMac).run home later).value = some ()
                              ↔ CanLearn later b.myip)
                            ∧ (((ipReceive ipDgram dsize rxMac).run home later).value = some ()
                              → ((ipReceive ipDgram dsize rxMac).run home
                                    later).state.icmpEchoReplyReceived
                                  = 1
                                ∧ ((ipReceive ipDgram dsize rxMac).run home
                                      later).state.icmpReplyPktInfo
                                  = { size := 64, srcIp := b.myip, seqNo })))
      ∧ ∀ (env : Env) (k : Kernel) (icmpPkt : Int) (srcIp : UInt32) (request : List UInt8),
          8 ≤ request.length
          → request.length ≤ 1480
          → slice env.frame icmpPkt request.length = request
          → request[0]? = some icmpTypeEcho
          → ∃ reply,
              Answers ((icmpReceive icmpPkt request.length srcIp).run env k).log
                (.ipSend ipProtocolIcmp reply k.myip srcIp request.length)
              ∧ EchoReply request reply := by
  refine ⟨fun a sender dstIp seqNo => ?_, fun env k icmpPkt srcIp request long short at_ echo => ?_⟩
  · obtain ⟨request, run, sent⟩ := icmpSendEchoRequest_run sender a dstIp seqNo
    have size : request.length = 64 := sent.length
    refine ⟨request, by rw [run]; rfl, fun receiver b ipDgram dsize rxMac arrives => ?_⟩
    obtain ⟨handles, answers⟩ := ipReceive_request receiver b dsize rxMac (by omega) (by omega)
      sent.type arrives
    refine ⟨handles, fun handled => ?_⟩
    obtain ⟨reply, answered, answer⟩ := answers (handles.mp handled)
    rw [size] at answered
    have back : reply.length = 64 := answer.length.trans size
    refine ⟨reply, answered, fun home later ipDgram dsize rxMac arrives => ?_⟩
    obtain ⟨handles, noted⟩ := ipReceive_reply home later dsize rxMac (by omega) answer.type
      (answer.numbered sent) arrives
    rw [back] at noted
    exact ⟨handles, fun handled => noted (handles.mp handled)⟩
  · obtain ⟨reads, reply, run, only, answer⟩ :=
      icmpReceive_request env k srcIp long short at_ echo
    rw [run]
    exact ⟨reply, ⟨reads, only.quiet, rfl⟩, answer⟩

set_option maxRecDepth 20000

/-- 192.168.2.4 pings 192.168.2.2, and notes the answer to its seventh request; a request of
nine bytes is answered too.
-/
theorem icmp_echo_round_trip_at_boot
    : ∃ request reply,
        ((icmpSendEchoRequest 0xc0a80202 7).run blankMemory senderHost).log
          = [.ipSend ipProtocolIcmp request 0xc0a80204 0xc0a80202 64]
        ∧ (∃ receiver : Env,
            IcmpArrives receiver 0 request 0xc0a80204 0xc0a80202
            ∧ Answers
                ((ipReceive 0 84 (-8)).run receiver
                  (Kernel.boot 0xc0a80202 0xffffff00 0xc0a80201)).log
                (.ipSend ipProtocolIcmp reply 0xc0a80202 0xc0a80204 64))
        ∧ (∃ home : Env,
            IcmpArrives home 0 reply 0xc0a80202 0xc0a80204
            ∧ ((ipReceive 0 84 (-8)).run home senderHost).state.icmpReplyPktInfo
              = { size := 64, srcIp := 0xc0a80202, seqNo := 7 })
        ∧ ∃ odd, EchoReply [8, 0, 0, 0, 0, 0, 0, 0, 255] odd := by
  have arrives (packet : List UInt8) (srcIp dstIp : UInt32)
      : IcmpArrives
          { blankMemory with
            frame := memoryOf (ipDatagram blankBuffers.pkt 0 ipProtocolIcmp packet srcIp dstIp) }
          0 packet srcIp dstIp := by
    refine ⟨blankBuffers.pkt, 0, ?_⟩
    rw [← length_ipDatagram blankBuffers.pkt 0 ipProtocolIcmp packet srcIp dstIp]
    exact slice_memoryOf _
  have learns (myip srcIp : UInt32)
      : CanLearn (Kernel.boot myip 0xffffff00 0xc0a80201) srcIp := by
    intro full
    have free : arpFree (Kernel.boot myip 0xffffff00 0xc0a80201) = some 0 := rfl
    exact absurd full.2.2.2.1 (by rw [free]; nofun)
  obtain ⟨request, sent, there⟩ := icmp_echo_round_trip.1 senderHost blankMemory 0xc0a80202 7
  obtain ⟨handles, answered⟩ := there _ (Kernel.boot 0xc0a80202 0xffffff00 0xc0a80201) 0 84 (-8)
    (arrives request 0xc0a80204 0xc0a80202)
  obtain ⟨reply, answers, back⟩ := answered (handles.mpr (learns _ _))
  obtain ⟨handled, noted⟩ := back _ senderHost 0 84 (-8) (arrives reply 0xc0a80202 0xc0a80204)
  obtain ⟨odd, -, answer⟩ := icmp_echo_round_trip.2
    { blankMemory with frame := memoryOf [8, 0, 0, 0, 0, 0, 0, 0, 255] } senderHost 0 0xc0a80202
    [8, 0, 0, 0, 0, 0, 0, 0, 255] (by decide) (by decide) (slice_memoryOf _) rfl
  exact ⟨request, reply, sent, ⟨_, arrives .., answers⟩,
    ⟨_, arrives .., (noted (handled.mpr (learns _ _))).2⟩, odd, answer⟩

end Xv6Net
