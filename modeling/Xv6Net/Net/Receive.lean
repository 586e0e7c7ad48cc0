import Xv6Net.Net.Arp

/-! The receive path above the card: `rtl8139_packetOK`, `ether_receive`, `ip_receive` and
`icmp_receive`. A frame is the memory from its first byte on, and each layer is handed the
address at which its part begins. Messages on the console are left out.
-/

namespace Xv6Net

open Library Memory

abbrev ipProtocolIcmp : UInt8 := 0x01

abbrev icmpTypeEcho : UInt8 := 8

abbrev icmpTypeEchoReply : UInt8 := 0

/-- `icmp_send_echo_reply`. What the array on the stack holds behind the copied bytes is not
determined.
-/
def icmpSendEchoReply (requestPkt size : Int) (sourceIp : UInt32) : KernelM Unit := do
  let env ← Program.env
  let k ← Program.get
  let bytes ← rxBytes requestPkt size
  let buffer := overlay env.stale 0 bytes
  let buffer := overlay buffer 0 [icmpTypeEchoReply]
  let buffer := overlay buffer 2 (bytes16 0)
  let buffer := overlay buffer 2 (bytes16 (checksum buffer 0 size 0))
  Program.emit (.ipSend ipProtocolIcmp (slice buffer 0 (moveCount size)) k.myip sourceIp size)

def icmpReceive (icmpPkt size : Int) (srcIp : UInt32) : KernelM Unit := do
  let type ← rxLoad8 icmpPkt
  if type = icmpTypeEcho then
    icmpSendEchoReply icmpPkt size srcIp
  else if type = icmpTypeEchoReply then
    let seqNo := htons (← rxLoad16 (icmpPkt + 6))
    Program.modify fun k =>
      { k with icmpEchoReplyReceived := 1, icmpReplyPktInfo := { size, srcIp, seqNo } }
  else
    pure ()

abbrev ipHdrSize : Int := 20

abbrev maxTransportPayloadSize : Nat := 1480

/-- The transport protocol of a datagram is handed what follows the header, with the length
that the header claims; the text of an unknown protocol is copied to be printed.
-/
def ipDeliver (ipDgram dsize : Int) : KernelM Unit := do
  let protocol ← rxLoad8 (ipDgram + 9)
  if protocol = ipProtocolIcmp then
    let size := (htons (← rxLoad16 (ipDgram + 2))).toNat - ipHdrSize
    Program.emit (.length size)
    icmpReceive (ipDgram + 20) size (htonl (← rxLoad32 (ipDgram + 12)))
  else if protocol = ipProtocolTcp then
    let size := (htons (← rxLoad16 (ipDgram + 2))).toNat - ipHdrSize
    Program.emit (.length size)
    tcpReceive (ipDgram + 20) size (htonl (← rxLoad32 (ipDgram + 12)))
  else
    Program.emit (.length (dsize - ipHdrSize))
    let _ ← rxBytes (ipDgram + 20) (dsize - ipHdrSize)

/-- `ip_receive`; the hardware address of the sender is at `rxMac`. -/
def ipReceive (ipDgram dsize rxMac : Int) : KernelM Unit := do
  if (← rxLoad8 ipDgram) >>> 4 ≠ 4 then
    pure ()
  else if (← rxLoad8 (ipDgram + 8)) = 0 then
    pure ()
  else if (← rxChecksum ipDgram ipHdrSize 0) ≠ 0 then
    pure ()
  else
    let k ← Program.get
    let srcIp := htonl (← rxLoad32 (ipDgram + 12))
    if srcIp &&& k.gateway = k.myip &&& k.gateway then
      arpAdd (htonl (← rxLoad32 (ipDgram + 12))) rxMac
      ipDeliver ipDgram dsize
    else
      ipDeliver ipDgram dsize

/-- `ether_receive`, on a frame of `pktSize` bytes without its checksum. -/
def etherReceive (frame pktSize : Int) : KernelM Unit := do
  let type := htons (← rxLoad16 (frame + 12))
  if type = ethernetTypeIp then
    ipReceive (frame + 14) (pktSize - 14) (frame + 6)
  else if type = ethernetTypeArp then
    arpReceive (frame + 14)
  else
    pure ()

/-- `rtl8139_packetOK`, which does not look at `rx_size`. -/
def packetOK (rxStatus _rxSize pktLength : UInt32) : Bool :=
  let badPacket := rxStatus &&& 0x10 ≠ 0 ∨ rxStatus &&& 0x08 ≠ 0 ∨ rxStatus &&& 0x04 ≠ 0
    ∨ rxStatus &&& 0x02 ≠ 0
  if ¬ badPacket ∧ rxStatus &&& 0x01 ≠ 0 then
    if pktLength > 1514 ∨ pktLength < 60 then false else true
  else
    false

end Xv6Net
