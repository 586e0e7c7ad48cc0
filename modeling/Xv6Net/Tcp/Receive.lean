import Xv6Net.Tcp.Segment

/-! `tcp_receive`: the segment is looked up in the port table and handed to the passive or
the active socket of its port. The reads of the received packet are logged; what the
segment does to the kernel state is summed up by its disposition, so that later proofs do
not go through the branches again.
-/

namespace Xv6Net

open Library Memory

/-- The `int` length of a `memmove`, converted to the `uint` it is declared as. -/
def moveCount (n : Int) : Nat := (n % 2 ^ 32).toNat

def rxLoad8 (addr : Int) : KernelM UInt8 := do
  Program.emit (.read addr 1)
  let env ← Program.env
  pure (env.frame addr)

def rxLoad16 (addr : Int) : KernelM UInt16 := do
  Program.emit (.read addr 2)
  let env ← Program.env
  pure (load16 env.frame addr)

def rxLoad32 (addr : Int) : KernelM UInt32 := do
  Program.emit (.read addr 4)
  let env ← Program.env
  pure (load32 env.frame addr)

/-- The source of a `memmove` of `n` bytes out of the packet. -/
def rxBytes (addr n : Int) : KernelM (List UInt8) := do
  Program.emit (.read addr (moveCount n))
  let env ← Program.env
  pure (slice env.frame addr (moveCount n))

/-- `checksum` over `length` bytes of the packet. -/
def rxChecksum (data length : Int) (start : UInt32) : KernelM UInt16 := do
  Program.emit (.read data length.toNat)
  let env ← Program.env
  pure (checksum env.frame data length start)

/-- The pointer `&requests[i]` as the queue stores it; 0 is the null pointer. -/
def requestPtr (i : Nat) : Int := i + 1

/-- The pointer `&tcon.pkts[i]` as the queue stores it; 0 is the null pointer. -/
def slotPtr (i : Nat) : Int := i + 1

/-- The slot of `tcon.pkts` that a stored pointer refers to. -/
def TcpConnection.slot (tcon : TcpConnection) (ptr : Int) : QueuedPacket :=
  tcon.pkts (ptr - 1).toNat

/-- The index with which the search loop of the LISTEN branch ends: it stops at the first
entry whose `client_ip` is not zero.
-/
def requestIndex (requests : Nat → TcpRequest) : Nat :=
  ((List.range maxPendingRequests).find? (fun i => (requests i).clientIp ≠ 0)).getD
    maxPendingRequests

/-- The LISTEN branch: the request is stored and queued, and `accept` is woken up. -/
def tcpReceiveRequest (psoc port : Nat) (seg size : Int) (dstIp : UInt32) : KernelM Unit := do
  let i := requestIndex (← Program.get).requests
  Program.emit (.requestStore i)
  let packet ← rxBytes seg size
  Program.modify fun k =>
    { k with
      requests := Function.update k.requests i
        { clientIp := dstIp
          requestPacket := overlay (k.requests i).requestPacket 0 packet } }
  Program.modify (·.setSocket psoc fun socket =>
    { socket with waitqueue := enqueue socket.waitqueue (requestPtr i) })
  if ((← Program.get).sockets psoc).state = .wait then
    Program.modify (·.wakeup (.port port))
  else
    pure ()

/-- The SYNACK_SENT branch. The source port is read before the addresses are compared; the
source skips that read when they differ.
-/
def tcpReceiveHandshakeAck (psoc port : Nat) (seg : Int) (dstIp : UInt32) : KernelM Unit := do
  let tcon := ((← Program.get).sockets psoc).tcon
  let srcPort := htons (← rxLoad16 seg)
  if tcon.dstAddr ≠ dstIp ∨ tcon.dstPort ≠ srcPort then
    pure ()
  else
    let ackReceived := htonl (← rxLoad32 (seg + 8))
    let seqReceived := htonl (← rxLoad32 (seg + 4))
    Program.modify (·.setTcon psoc fun tcon => { tcon with ackReceived, seqReceived })
    Program.modify (·.wakeup (.port port))

/-- The `while` loop of ACK processing. The queue shrinks with every iteration, so its capacity
bounds them.
-/
def ackLoop (ack : UInt32) : Nat → TcpConnection → TcpConnection
  | 0, tcon => tcon
  | fuel + 1, tcon =>
    let qp := tcon.slot (getFront tcon.window)
    if isQueueEmpty tcon.window = false
        ∧ ack ≥ qp.seq + UInt32.ofInt qp.size - UInt32.ofNat tcpHeaderMinSize then
      ackLoop ack fuel
        { tcon with
          window := (dequeue tcon.window).2
          baseSeq := tcon.baseSeq + UInt32.ofInt (qp.size - hdrSizeOf qp.pkt 0) }
    else
      tcon

def processAck (ack : UInt32) (tcon : TcpConnection) : TcpConnection :=
  if ack < tcon.baseSeq ∨ ack > tcon.nextSeq then
    tcon
  else
    ackLoop ack queueSize.toNat tcon

/-- A segment without ACK in state ESTABLISHED: in-order data are appended, anything is
answered with an ACK.
-/
def tcpReceiveData (asoc port : Nat) (seg size : Int) : KernelM Unit := do
  let rxHdrSize : Int := ((← rxLoad8 (seg + 12)) >>> 2).toNat
  let socket := (← Program.get).sockets asoc
  if socket.tcon.ackSent = htonl (← rxLoad32 (seg + 4)) then
    Program.emit (.length (size - rxHdrSize))
    let data ← rxBytes (seg + rxHdrSize) (size - rxHdrSize)
    Program.emit (.bufferCopy asoc socket.end_ (size - rxHdrSize))
    Program.modify (·.setSocket asoc fun socket =>
      { socket with
        buffer := overlay socket.buffer socket.end_ data
        end_ := socket.end_ + (size - rxHdrSize) })
    if socket.state = .wait then
      Program.modify (·.wakeup (.port port))
    else
      pure ()
    let seqReceived := htonl (← rxLoad32 (seg + 4))
    Program.modify (·.setTcon asoc fun tcon => { tcon with seqReceived })
    tcpSendAck asoc (seqReceived + UInt32.ofInt (size - rxHdrSize))
  else
    tcpSendAck asoc socket.tcon.ackSent

/-- The part of `tcp_receive` that concerns the active socket of the port. -/
def tcpReceiveActive (asoc port : Nat) (flags : UInt8) (seg size : Int) (dstIp : UInt32)
    : KernelM Unit := do
  let tcon := ((← Program.get).sockets asoc).tcon
  let srcPort := htons (← rxLoad16 seg)
  if tcon.dstAddr ≠ dstIp ∨ tcon.dstPort ≠ srcPort then
    pure ()
  else if tcon.state = .synSent ∧ flags &&& tcpFlagAck ≠ 0 then
    let packet ← rxBytes seg size
    Program.emit (.bufferCopy asoc 0 size)
    Program.modify (·.setSocket asoc fun socket =>
      { socket with buffer := overlay socket.buffer 0 packet })
    Program.modify (·.wakeup (.port port))
  else if tcon.state = .established then
    if flags &&& tcpFlagAck ≠ 0 then
      let ack := htonl (← rxLoad32 (seg + 8))
      Program.modify (·.setTcon asoc (processAck ack))
    else
      tcpReceiveData asoc port seg size
  else
    pure ()

def tcpReceive (seg size : Int) (dstIp : UInt32) : KernelM Unit := do
  let port := (htons (← rxLoad16 (seg + 2))).toNat
  let flags ← rxLoad8 (seg + 13)
  let k ← Program.get
  let sum ← rxChecksum seg size (pseudoIpSum k.myip dstIp (UInt16.ofInt size))
  if sum ≠ 0 then
    pure ()
  else if nPorts ≤ port then
    pure ()
  else if (k.ports port).pid = -1 then
    pure ()
  else
    match (k.ports port).passiveSocket, (k.ports port).activeSocket with
    | none, none => pure ()
    | none, some asoc => tcpReceiveActive asoc port flags seg size dstIp
    | some psoc, active =>
      let socket := k.sockets psoc
      if socket.tcon.state = .listen ∧ flags &&& tcpFlagSyn ≠ 0
          ∧ isQueueFull socket.waitqueue = false then
        tcpReceiveRequest psoc port seg size dstIp
      else if socket.tcon.state = .synackSent ∧ flags &&& tcpFlagAck ≠ 0 then
        tcpReceiveHandshakeAck psoc port seg dstIp
      else
        match active with
        | none => pure ()
        | some asoc => tcpReceiveActive asoc port flags seg size dstIp

end Xv6Net
