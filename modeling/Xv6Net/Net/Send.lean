import Xv6Net.Net.Receive

/-! The send path below the transport protocols: the datagram that `ip_send` builds, the
frame that `ether_send` puts around it and the copy that `rtl8139_send` hands to the card. A
structure on the stack is the memory of its previous contents, overwritten field by field in
the order of the source.
-/

namespace Xv6Net

open Library Memory

abbrev initialTtl : UInt8 := 64

/-- The `struct ip_packet` of `ip_send`, whose previous contents are `pkt`. The `size` bytes
at the `buffer` pointer are `buffer`; `id` is the value of the counter.
-/
def ipPack (pkt : Int → UInt8) (id : UInt16) (protocol : UInt8) (buffer : List UInt8)
    (srcIp dstIp : UInt32)
    : Int → UInt8 :=
  let pkt := overlay pkt 0 [((4 : UInt8) <<< 4) ||| 5]
  let pkt := overlay pkt 1 [0]
  let pkt := overlay pkt 2 (bytes16 (htons (UInt16.ofNat (20 + buffer.length))))
  let pkt := overlay pkt 4 (bytes16 (htons id))
  let pkt := overlay pkt 6 (bytes16 (htons 0x4000))
  let pkt := overlay pkt 8 [initialTtl]
  let pkt := overlay pkt 9 [protocol]
  let pkt := overlay pkt 12 (bytes32 (htonl srcIp))
  let pkt := overlay pkt 16 (bytes32 (htonl dstIp))
  let pkt := overlay pkt 10 (bytes16 0)
  let pkt := overlay pkt 10 (bytes16 (checksum pkt 0 ipHdrSize 0))
  overlay pkt 20 buffer

/-- The `IP_HDR_SIZE + size` bytes that `ip_send` hands to `ether_send`. -/
def ipDatagram (pkt : Int → UInt8) (id : UInt16) (protocol : UInt8) (buffer : List UInt8)
    (srcIp dstIp : UInt32)
    : List UInt8 :=
  slice (ipPack pkt id protocol buffer srcIp dstIp) 0 (20 + buffer.length)

abbrev ethernetPayloadSizeMax : Nat := 1500

abbrev ethZlen : Nat := 60

/-- The bytes that `ether_send` hands to `rtl8139_send`; `none` if the payload is too long. The
array on the stack held `frame`.
-/
def etherSend (frame : Int → UInt8) (mac destMac : List UInt8) (type : UInt16)
    (payload : List UInt8)
    : Option (List UInt8) :=
  if payload.length > ethernetPayloadSizeMax then
    none
  else
    let frame := overlay frame 0 destMac
    let frame := overlay frame 6 mac
    let frame := overlay frame 12 (bytes16 (htons type))
    let frame := overlay frame 14 payload
    some (slice frame 0 (14 + payload.length))

/-- The bytes that the card is told to send by `rtl8139_send`, from a transmit buffer whose
previous contents are `txBuffer`; `none` if there is nothing to send.
-/
def rtl8139Send (txBuffer : Int → UInt8) (packet : List UInt8) : Option (List UInt8) :=
  if packet.length = 0 then
    none
  else
    let txBuffer := overlay txBuffer 0 packet
    let txBuffer := fill 0 txBuffer packet.length (ethZlen - packet.length)
    some (slice txBuffer 0 (max packet.length ethZlen))

/-- What is on the stack and in the transmit buffer when a packet is sent. -/
structure SendBuffers where
  pkt : Int → UInt8
  frame : Int → UInt8
  txBuffer : Int → UInt8

/-- The frame on the wire for a call of `ip_send` whose destination has the hardware address
`destMac`.
-/
def ipFrame (buffers : SendBuffers) (mac destMac : List UInt8) (id : UInt16)
    (protocol : UInt8) (buffer : List UInt8) (srcIp dstIp : UInt32)
    : Option (List UInt8) :=
  (etherSend buffers.frame mac destMac ethernetTypeIp
    (ipDatagram buffers.pkt id protocol buffer srcIp dstIp)).bind
    (rtl8139Send buffers.txBuffer)

theorem rtl8139Send_eq (txBuffer : Int → UInt8) {packet : List UInt8} (some_ : packet ≠ [])
    : rtl8139Send txBuffer packet
      = some (packet ++ List.replicate (ethZlen - packet.length) 0) := by
  have nonempty : packet.length ≠ 0 := fun empty => some_ (List.length_eq_zero_iff.mp empty)
  have length : max packet.length ethZlen
      = (packet ++ List.replicate (ethZlen - packet.length) 0).length := by
    rw [List.length_append, List.length_replicate]
    omega
  have padded : fill 0 (overlay txBuffer 0 packet) packet.length (ethZlen - packet.length)
      = overlay txBuffer 0 (packet ++ List.replicate (ethZlen - packet.length) 0) := by
    rw [fill_eq_overlay, overlay_append, zero_add]
  simp only [rtl8139Send, if_neg nonempty, padded, length, slice_overlay]

theorem etherSend_eq (frame : Int → UInt8) {mac destMac : List UInt8} (type : UInt16)
    {payload : List UInt8} (macSize : mac.length = 6) (destSize : destMac.length = 6)
    (fits : payload.length ≤ ethernetPayloadSizeMax)
    : etherSend frame mac destMac type payload
      = some (destMac ++ (mac ++ (bytes16 (htons type) ++ payload))) := by
  rw [etherSend, if_neg (by omega)]
  have joined : overlay frame 0 (destMac ++ (mac ++ (bytes16 (htons type) ++ payload)))
      = overlay (overlay (overlay (overlay frame 0 destMac) 6 mac) 12 (bytes16 (htons type))) 14
          payload := by
    simp only [overlay_append, destSize, macSize, length_bytes16, Nat.cast_ofNat, zero_add,
      Int.reduceAdd]
  have length : 14 + payload.length
      = (destMac ++ (mac ++ (bytes16 (htons type) ++ payload))).length := by
    simp only [List.length_append, destSize, macSize, length_bytes16]
    omega
  simp only [← joined, length, slice_overlay]

section

variable (pkt : Int → UInt8) (id : UInt16) (protocol : UInt8) (buffer : List UInt8)
  (srcIp dstIp : UInt32)

/-- The header fields that `ip_receive` reads, as `ip_send` has written them. -/
theorem fields_ipPack
    : ipPack pkt id protocol buffer srcIp dstIp 0 = 0x45
      ∧ ipPack pkt id protocol buffer srcIp dstIp 8 = initialTtl
      ∧ ipPack pkt id protocol buffer srcIp dstIp 9 = protocol
      ∧ load16 (ipPack pkt id protocol buffer srcIp dstIp) 2
        = htons (UInt16.ofNat (20 + buffer.length))
      ∧ load32 (ipPack pkt id protocol buffer srcIp dstIp) 12 = htonl srcIp := by
  refine ⟨?_, ?_, ?_, ?_, ?_⟩
  · simp [ipPack, overlay, bytes16]
    decide
  · simp [ipPack, overlay, bytes16]
  · simp [ipPack, overlay, bytes16]
  · simp (disch := simp) only [ipPack, load16_overlay_disjoint, load16_overlay]
  · simp (disch := simp) only [ipPack, load32_overlay_disjoint, load32_overlay]

theorem checksum_ipPack
    : checksum (ipPack pkt id protocol buffer srcIp dstIp) 0 ipHdrSize 0 = 0 := by
  have header (mem : Int → UInt8)
      : checksum (overlay mem 20 buffer) 0 ipHdrSize 0 = checksum mem 0 ipHdrSize 0 :=
    checksum_of_slice_eq (n := 20) (slice_overlay_before mem buffer (by omega)) 0
  rw [ipPack, header]
  refine checksum_fill (m := 5) (n := 20) _ 0 (by omega) (by omega) (by decide) ?_
  exact load16_overlay ..

theorem slice_ipPack_payload
    : slice (ipPack pkt id protocol buffer srcIp dstIp) 20 buffer.length = buffer :=
  slice_overlay _ 20 buffer

theorem length_ipDatagram
    : (ipDatagram pkt id protocol buffer srcIp dstIp).length = 20 + buffer.length :=
  length_slice ..

end

/-- A datagram that fits a frame is sent behind the Ethernet header and padded with zeros. -/
theorem ipFrame_eq (buffers : SendBuffers) {mac destMac : List UInt8} (id : UInt16)
    (protocol : UInt8) {buffer : List UInt8} (srcIp dstIp : UInt32) (macSize : mac.length = 6)
    (destSize : destMac.length = 6) (fits : buffer.length ≤ maxTransportPayloadSize)
    : ipFrame buffers mac destMac id protocol buffer srcIp dstIp
      = some (destMac ++ (mac ++ (bytes16 (htons ethernetTypeIp)
          ++ (ipDatagram buffers.pkt id protocol buffer srcIp dstIp
            ++ List.replicate (ethZlen - (34 + buffer.length)) 0)))) := by
  have size := length_ipDatagram buffers.pkt id protocol buffer srcIp dstIp
  have total : (destMac ++ (mac ++ (bytes16 (htons ethernetTypeIp)
      ++ ipDatagram buffers.pkt id protocol buffer srcIp dstIp))).length
      = 34 + buffer.length := by
    simp only [List.length_append, destSize, macSize, length_bytes16, size]
    omega
  have room : (ipDatagram buffers.pkt id protocol buffer srcIp dstIp).length
      ≤ ethernetPayloadSizeMax := by
    simp only [maxTransportPayloadSize, ethernetPayloadSizeMax] at fits ⊢
    omega
  rw [ipFrame, etherSend_eq _ _ macSize destSize room, Option.bind_some, rtl8139Send_eq _
    (by simp [bytes16]), total]
  simp only [List.append_assoc]

end Xv6Net
