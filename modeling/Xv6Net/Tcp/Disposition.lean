import Xv6Net.Tcp.Receive

/-! What a received segment does, said once: its disposition is a pure function of the
kernel state and the segment, and determines the state `tcp_receive` leaves and the
segments it sends.
-/

namespace Xv6Net

open Library Memory Function Kernel

/-- The branch of `tcp_receive` that a segment takes, with the socket it concerns. -/
inductive Disposition where
  | dropped
  | request (psoc : Nat)
  | handshakeAck (psoc : Nat)
  | synReply (asoc : Nat)
  | ack (asoc : Nat)
  | inOrder (asoc : Nat)
  | outOfOrder (asoc : Nat)
  deriving DecidableEq, Repr

/-- The disposition of a segment that reaches the active socket of its port. -/
def activeDisposition (k : Kernel) (mem : Int → UInt8) (seg : Int) (srcIp : UInt32) (asoc : Nat)
    : Disposition :=
  let tcon := (k.sockets asoc).tcon
  if tcon.dstAddr ≠ srcIp ∨ tcon.dstPort ≠ srcPortOf mem seg then
    .dropped
  else if tcon.state = .synSent ∧ flagsOf mem seg &&& tcpFlagAck ≠ 0 then
    .synReply asoc
  else if tcon.state = .established then
    if flagsOf mem seg &&& tcpFlagAck ≠ 0 then
      .ack asoc
    else if tcon.ackSent = seqNumOf mem seg then
      .inOrder asoc
    else
      .outOfOrder asoc
  else
    .dropped

/-- The disposition of a segment that reaches the passive socket of its port; `later` is
what happens when that socket does not take it.
-/
def passiveDisposition (k : Kernel) (mem : Int → UInt8) (seg : Int) (srcIp : UInt32)
    (psoc : Nat) (later : Disposition)
    : Disposition :=
  let socket := k.sockets psoc
  if socket.tcon.state = .listen ∧ flagsOf mem seg &&& tcpFlagSyn ≠ 0
      ∧ isQueueFull socket.waitqueue = false then
    .request psoc
  else if socket.tcon.state = .synackSent ∧ flagsOf mem seg &&& tcpFlagAck ≠ 0 then
    if socket.tcon.dstAddr ≠ srcIp ∨ socket.tcon.dstPort ≠ srcPortOf mem seg then
      .dropped
    else
      .handshakeAck psoc
  else
    later

/-- The tests of `tcp_receive` that come before any socket is looked at. -/
def Admitted (k : Kernel) (mem : Int → UInt8) (seg size : Int) (srcIp : UInt32) : Prop :=
  checksum mem seg size (pseudoIpSum k.myip srcIp (UInt16.ofInt size)) = 0
  ∧ (dstPortOf mem seg).toNat < nPorts
  ∧ (k.ports (dstPortOf mem seg).toNat).pid ≠ -1

instance (k : Kernel) (mem : Int → UInt8) (seg size : Int) (srcIp : UInt32)
    : Decidable (Admitted k mem seg size srcIp) :=
  inferInstanceAs (Decidable (_ ∧ _ ∧ _))

def disposition (k : Kernel) (mem : Int → UInt8) (seg size : Int) (srcIp : UInt32)
    : Disposition :=
  if Admitted k mem seg size srcIp then
    let port := k.ports (dstPortOf mem seg).toNat
    let active := match port.activeSocket with
      | none => .dropped
      | some asoc => activeDisposition k mem seg srcIp asoc
    match port.passiveSocket with
    | none => active
    | some psoc => passiveDisposition k mem seg srcIp psoc active
  else
    .dropped

/-- The ACK segment that `tcp_send_ack(s, ack)` hands to `ip_send`. -/
def ackEvent (stale : Int → UInt8) (k : Kernel) (s : Nat) (ack : UInt32) : Event :=
  let socket := k.sockets s
  .ipSend ipProtocolTcp
    (slice
      (tcpPack stale k.myip socket.port socket.tcon.dstPort socket.tcon.dstAddr
        (socket.tcon.nextSeq - 1) ack tcpFlagAck 20 [])
      0 20)
    k.myip socket.tcon.dstAddr 20

/-- The state after in-order data: appended to the buffer and acknowledged. -/
def Kernel.appendData (k : Kernel) (asoc port : Nat) (data : List UInt8) (n : Int) (seq : UInt32)
    : Kernel :=
  let k' := k.setSocket asoc fun socket =>
    { socket with buffer := overlay socket.buffer socket.end_ data, end_ := socket.end_ + n }
  let k' := if (k.sockets asoc).state = .wait then k'.wakeup (.port port) else k'
  k'.setTcon asoc fun tcon =>
    { tcon with seqReceived := seq, ackSent := seq + UInt32.ofInt n }

/-- The state after a connection request was stored and queued. -/
def Kernel.queueRequest (k : Kernel) (psoc port : Nat) (srcIp : UInt32) (packet : List UInt8)
    : Kernel :=
  let i := requestIndex k.requests
  let k' := { k with
    requests := update k.requests i
      { clientIp := srcIp, requestPacket := overlay (k.requests i).requestPacket 0 packet } }
  let k' := k'.setSocket psoc fun socket =>
    { socket with waitqueue := enqueue socket.waitqueue (requestPtr i) }
  if (k.sockets psoc).state = .wait then k'.wakeup (.port port) else k'

/-- What a segment does to the kernel state, at the port it was sent to. -/
def Kernel.effect (k : Kernel) (mem : Int → UInt8) (seg size : Int) (srcIp : UInt32) (port : Nat)
    : Disposition → Kernel
  | .dropped => k
  | .request psoc => k.queueRequest psoc port srcIp (slice mem seg (moveCount size))
  | .handshakeAck psoc =>
    (k.setTcon psoc fun tcon =>
      { tcon with
        ackReceived := ackNumOf mem seg
        seqReceived := seqNumOf mem seg }).wakeup (.port port)
  | .synReply asoc =>
    (k.setSocket asoc fun socket =>
      { socket with
        buffer := overlay socket.buffer 0 (slice mem seg (moveCount size)) }).wakeup
      (.port port)
  | .ack asoc => k.setTcon asoc (processAck (ackNumOf mem seg))
  | .inOrder asoc =>
    let n := size - hdrSizeOf mem seg
    k.appendData asoc port (slice mem (seg + hdrSizeOf mem seg) (moveCount n)) n
      (seqNumOf mem seg)
  | .outOfOrder _ => k

/-- What a segment makes `tcp_receive` log, after the tests that every segment passes
through.
-/
def effectLog (env : Env) (k : Kernel) (seg size : Int) : Disposition → List Event
  | .dropped => []
  | .request _ => [.requestStore (requestIndex k.requests), .read seg (moveCount size)]
  | .handshakeAck _ => [.read (seg + 8) 4, .read (seg + 4) 4]
  | .synReply asoc => [.read seg (moveCount size), .bufferCopy asoc 0 size]
  | .ack _ => [.read (seg + 8) 4]
  | .inOrder asoc =>
    let n := size - hdrSizeOf env.frame seg
    [.read (seg + 12) 1, .read (seg + 4) 4, .length n,
      .read (seg + hdrSizeOf env.frame seg) (moveCount n),
      .bufferCopy asoc (k.sockets asoc).end_ n, .read (seg + 4) 4,
      ackEvent env.stale k asoc (seqNumOf env.frame seg + UInt32.ofInt n)]
  | .outOfOrder asoc =>
    [.read (seg + 12) 1, .read (seg + 4) 4,
      ackEvent env.stale k asoc (k.sockets asoc).tcon.ackSent]

/-- Everything that `tcp_receive` logs; the source port is read only by some branches, which
is `extra`.
-/
def receiveLog (env : Env) (k : Kernel) (seg size : Int) (srcIp : UInt32) (extra : List Event)
    : List Event :=
  [.read (seg + 2) 2, .read (seg + 13) 1, .read seg size.toNat] ++ extra
    ++ effectLog env k seg size (disposition k env.frame seg size srcIp)

def Disposition.target : Disposition → Option Nat
  | .dropped => none
  | .request psoc | .handshakeAck psoc => some psoc
  | .synReply asoc | .ack asoc | .inOrder asoc | .outOfOrder asoc => some asoc

/-- What a segment does to the socket it concerns; `i` is the index of the request that a
SYN is stored at.
-/
def Disposition.onSocket (mem : Int → UInt8) (seg size : Int) (i : Nat) (socket : Socket)
    : Disposition → Socket
  | .dropped | .outOfOrder _ => socket
  | .request _ => { socket with waitqueue := enqueue socket.waitqueue (requestPtr i) }
  | .handshakeAck _ =>
    { socket with
      tcon := { socket.tcon with
        ackReceived := ackNumOf mem seg
        seqReceived := seqNumOf mem seg } }
  | .synReply _ =>
    { socket with buffer := overlay socket.buffer 0 (slice mem seg (moveCount size)) }
  | .ack _ => { socket with tcon := processAck (ackNumOf mem seg) socket.tcon }
  | .inOrder _ =>
    let n := size - hdrSizeOf mem seg
    { socket with
      buffer := overlay socket.buffer socket.end_
        (slice mem (seg + hdrSizeOf mem seg) (moveCount n))
      end_ := socket.end_ + n
      tcon := { socket.tcon with
        seqReceived := seqNumOf mem seg
        ackSent := seqNumOf mem seg + UInt32.ofInt n } }

/-- What the tests of `tcp_receive` have established when a segment is disposed of so. -/
def Disposition.Justified (k : Kernel) (mem : Int → UInt8) (seg : Int) (srcIp : UInt32)
    : Disposition → Prop
  | .dropped => True
  | .request psoc =>
    (k.ports (dstPortOf mem seg).toNat).passiveSocket = some psoc
    ∧ (k.sockets psoc).tcon.state = .listen
    ∧ flagsOf mem seg &&& tcpFlagSyn ≠ 0
    ∧ isQueueFull (k.sockets psoc).waitqueue = false
  | .handshakeAck psoc =>
    (k.ports (dstPortOf mem seg).toNat).passiveSocket = some psoc
    ∧ (k.sockets psoc).tcon.state = .synackSent
    ∧ flagsOf mem seg &&& tcpFlagAck ≠ 0
    ∧ (k.sockets psoc).tcon.dstAddr = srcIp
    ∧ (k.sockets psoc).tcon.dstPort = srcPortOf mem seg
  | .synReply asoc =>
    (k.ports (dstPortOf mem seg).toNat).activeSocket = some asoc
    ∧ (k.sockets asoc).tcon.dstAddr = srcIp
    ∧ (k.sockets asoc).tcon.dstPort = srcPortOf mem seg
    ∧ (k.sockets asoc).tcon.state = .synSent
    ∧ flagsOf mem seg &&& tcpFlagAck ≠ 0
  | .ack asoc =>
    (k.ports (dstPortOf mem seg).toNat).activeSocket = some asoc
    ∧ (k.sockets asoc).tcon.dstAddr = srcIp
    ∧ (k.sockets asoc).tcon.dstPort = srcPortOf mem seg
    ∧ (k.sockets asoc).tcon.state = .established
    ∧ flagsOf mem seg &&& tcpFlagAck ≠ 0
  | .inOrder asoc =>
    (k.ports (dstPortOf mem seg).toNat).activeSocket = some asoc
    ∧ (k.sockets asoc).tcon.dstAddr = srcIp
    ∧ (k.sockets asoc).tcon.dstPort = srcPortOf mem seg
    ∧ (k.sockets asoc).tcon.state = .established
    ∧ flagsOf mem seg &&& tcpFlagAck = 0
    ∧ (k.sockets asoc).tcon.ackSent = seqNumOf mem seg
  | .outOfOrder asoc =>
    (k.ports (dstPortOf mem seg).toNat).activeSocket = some asoc
    ∧ (k.sockets asoc).tcon.dstAddr = srcIp
    ∧ (k.sockets asoc).tcon.dstPort = srcPortOf mem seg
    ∧ (k.sockets asoc).tcon.state = .established
    ∧ flagsOf mem seg &&& tcpFlagAck = 0
    ∧ (k.sockets asoc).tcon.ackSent ≠ seqNumOf mem seg

/-- The state that `tcp_receive` leaves. -/
def Kernel.receive (k : Kernel) (mem : Int → UInt8) (seg size : Int) (srcIp : UInt32)
    : Kernel :=
  k.effect mem seg size srcIp (dstPortOf mem seg).toNat (disposition k mem seg size srcIp)

variable (env : Env) (k : Kernel)

@[simp]
theorem rxLoad8_run (addr : Int)
    : (rxLoad8 addr).run env k = ⟨some (env.frame addr), k, [.read addr 1]⟩ := by
  simp [rxLoad8]

@[simp]
theorem rxLoad16_run (addr : Int)
    : (rxLoad16 addr).run env k = ⟨some (load16 env.frame addr), k, [.read addr 2]⟩ := by
  simp [rxLoad16]

@[simp]
theorem rxLoad32_run (addr : Int)
    : (rxLoad32 addr).run env k = ⟨some (load32 env.frame addr), k, [.read addr 4]⟩ := by
  simp [rxLoad32]

@[simp]
theorem rxBytes_run (addr n : Int)
    : (rxBytes addr n).run env k
      = ⟨some (slice env.frame addr (moveCount n)), k, [.read addr (moveCount n)]⟩ := by
  simp [rxBytes]

@[simp]
theorem rxChecksum_run (data length : Int) (start : UInt32)
    : (rxChecksum data length start).run env k
      = ⟨some (checksum env.frame data length start), k, [.read data length.toNat]⟩ := by
  simp [rxChecksum]

theorem tcpSendAck_run (s : Nat) (ack : UInt32)
    : (tcpSendAck s ack).run env k
      = ⟨some (), k.setTcon s (fun tcon => { tcon with ackSent := ack }),
          [ackEvent env.stale k s ack]⟩ := by
  simp [tcpSendAck, tcpSend, ackEvent]
  rfl

theorem tcpReceiveData_inOrder (asoc port : Nat) (seg size : Int)
    (inOrder : (k.sockets asoc).tcon.ackSent = seqNumOf env.frame seg)
    : (tcpReceiveData asoc port seg size).run env k
      = ⟨some (),
          k.appendData asoc port
            (slice env.frame (seg + hdrSizeOf env.frame seg)
              (moveCount (size - hdrSizeOf env.frame seg)))
            (size - hdrSizeOf env.frame seg) (seqNumOf env.frame seg),
          [.read (seg + 12) 1, .read (seg + 4) 4, .length (size - hdrSizeOf env.frame seg),
            .read (seg + hdrSizeOf env.frame seg)
              (moveCount (size - hdrSizeOf env.frame seg)),
            .bufferCopy asoc (k.sockets asoc).end_ (size - hdrSizeOf env.frame seg),
            .read (seg + 4) 4,
            ackEvent env.stale k asoc
              (seqNumOf env.frame seg + UInt32.ofInt (size - hdrSizeOf env.frame seg))]⟩ := by
  have same : (k.sockets asoc).tcon.ackSent = htonl (load32 env.frame (seg + 4)) := inOrder
  -- the ACK is built from fields that appending the data leaves alone
  by_cases waiting : (k.sockets asoc).state = .wait
  · simp [tcpReceiveData, same, waiting, run_ite, tcpSendAck_run, appendData, hdrSizeOf, seqNumOf]
    simp [ackEvent, setTcon]
  · simp [tcpReceiveData, same, waiting, run_ite, tcpSendAck_run, appendData, hdrSizeOf, seqNumOf]
    simp [ackEvent, setTcon]

/-- Data out of order are answered with the last ACK again; nothing else changes. -/
theorem tcpReceiveData_outOfOrder (asoc port : Nat) (seg size : Int)
    (outOfOrder : (k.sockets asoc).tcon.ackSent ≠ seqNumOf env.frame seg)
    : (tcpReceiveData asoc port seg size).run env k
      = ⟨some (), k,
          [.read (seg + 12) 1, .read (seg + 4) 4,
            ackEvent env.stale k asoc (k.sockets asoc).tcon.ackSent]⟩ := by
  have differs : ¬ (k.sockets asoc).tcon.ackSent = htonl (load32 env.frame (seg + 4)) :=
    outOfOrder
  have unchanged : k.setTcon asoc (fun tcon =>
      { tcon with ackSent := (k.sockets asoc).tcon.ackSent }) = k := by
    simp [setTcon, setSocket]
  simp [tcpReceiveData, differs, run_ite, tcpSendAck_run, unchanged]

/-- The part of `tcp_receive` for the active socket does what its disposition says. -/
theorem tcpReceiveActive_run (asoc port : Nat) (seg size : Int) (srcIp : UInt32)
    : (tcpReceiveActive asoc port (flagsOf env.frame seg) seg size srcIp).run env k
      = ⟨some (),
          k.effect env.frame seg size srcIp port
            (activeDisposition k env.frame seg srcIp asoc),
          .read seg 2
            :: effectLog env k seg size (activeDisposition k env.frame seg srcIp asoc)⟩ := by
  have port' : htons (load16 env.frame seg) = srcPortOf env.frame seg := rfl
  simp only [tcpReceiveActive, activeDisposition, run_bind, run_get,
    andThen_some, rxLoad16_run, run_ite, after_nil, port']
  by_cases foreign : (k.sockets asoc).tcon.dstAddr ≠ srcIp
      ∨ (k.sockets asoc).tcon.dstPort ≠ srcPortOf env.frame seg
  · simp only [if_pos foreign]
    rfl
  simp only [if_neg foreign]
  by_cases reply : (k.sockets asoc).tcon.state = .synSent
      ∧ flagsOf env.frame seg &&& tcpFlagAck ≠ 0
  · simp only [if_pos reply]
    simp [effect, effectLog]
  simp only [if_neg reply]
  by_cases established : (k.sockets asoc).tcon.state = .established
  · simp only [if_pos established]
    by_cases acknowledges : flagsOf env.frame seg &&& tcpFlagAck ≠ 0
    · simp only [if_pos acknowledges]
      simp [effect, effectLog, ackNumOf]
    simp only [if_neg acknowledges]
    by_cases inOrder : (k.sockets asoc).tcon.ackSent = seqNumOf env.frame seg
    · rw [if_pos inOrder, tcpReceiveData_inOrder env k asoc port seg size inOrder]
      rfl
    · rw [if_neg inOrder, tcpReceiveData_outOfOrder env k asoc port seg size inOrder]
      rfl
  · simp only [if_neg established]
    rfl

theorem tcpReceiveRequest_run (psoc port : Nat) (seg size : Int) (srcIp : UInt32)
    : (tcpReceiveRequest psoc port seg size srcIp).run env k
      = ⟨some (), k.effect env.frame seg size srcIp port (.request psoc),
          effectLog env k seg size (.request psoc)⟩ := by
  by_cases waiting : (k.sockets psoc).state = .wait
  · simp [tcpReceiveRequest, effect, queueRequest, effectLog, run_ite, waiting]
  · simp [tcpReceiveRequest, effect, queueRequest, effectLog, run_ite, waiting]

/-- The SYNACK_SENT branch records the numbers of an ACK from the expected client. -/
theorem tcpReceiveHandshakeAck_run (psoc port : Nat) (seg size : Int) (srcIp : UInt32)
    : (tcpReceiveHandshakeAck psoc port seg srcIp).run env k
      = ⟨some (),
          k.effect env.frame seg size srcIp port
            (if (k.sockets psoc).tcon.dstAddr ≠ srcIp
                ∨ (k.sockets psoc).tcon.dstPort ≠ srcPortOf env.frame seg then
              .dropped
            else
              .handshakeAck psoc),
          .read seg 2
            :: effectLog env k seg size
                (if (k.sockets psoc).tcon.dstAddr ≠ srcIp
                    ∨ (k.sockets psoc).tcon.dstPort ≠ srcPortOf env.frame seg then
                  .dropped
                else
                  .handshakeAck psoc)⟩ := by
  have port' : htons (load16 env.frame seg) = srcPortOf env.frame seg := rfl
  simp only [tcpReceiveHandshakeAck, run_bind, run_get,
    andThen_some, rxLoad16_run, run_ite, after_nil, port']
  by_cases foreign : (k.sockets psoc).tcon.dstAddr ≠ srcIp
      ∨ (k.sockets psoc).tcon.dstPort ≠ srcPortOf env.frame seg
  · simp only [if_pos foreign]
    rfl
  · simp only [if_neg foreign]
    simp [effect, effectLog, ackNumOf, seqNumOf]

/-- `tcp_receive` runs to its end, leaves the state its disposition says, and logs the reads of the
tests, possibly that of the source port, and what the disposition says.
-/
theorem tcpReceive_run (seg size : Int) (srcIp : UInt32)
    : ∃ extra : List Event,
        (extra = [] ∨ extra = [.read seg 2])
        ∧ (tcpReceive seg size srcIp).run env k
          = ⟨some (), k.receive env.frame seg size srcIp,
              receiveLog env k seg size srcIp extra⟩ := by
  have flags : env.frame (seg + 13) = flagsOf env.frame seg := rfl
  have port : htons (load16 env.frame (seg + 2)) = dstPortOf env.frame seg := rfl
  simp only [tcpReceive, run_bind, run_get, andThen_some, rxLoad8_run, rxLoad16_run, rxChecksum_run,
    run_ite, after_after, flags, port, Kernel.receive, receiveLog, disposition]
  by_cases valid : checksum env.frame seg size
      (pseudoIpSum k.myip srcIp (UInt16.ofInt size)) = 0
  · by_cases inside : nPorts ≤ (dstPortOf env.frame seg).toNat
    · have rejected : ¬ Admitted k env.frame seg size srcIp := by
        rintro ⟨-, low, -⟩
        omega
      refine ⟨[], Or.inl rfl, ?_⟩
      simp only [valid, ne_eq, not_true_eq_false, if_false, if_pos inside, if_neg rejected]
      rfl
    by_cases closed : (k.ports (dstPortOf env.frame seg).toNat).pid = -1
    · have rejected : ¬ Admitted k env.frame seg size srcIp := by
        rintro ⟨-, -, open_⟩
        exact open_ closed
      refine ⟨[], Or.inl rfl, ?_⟩
      simp only [valid, ne_eq, not_true_eq_false, if_false, if_neg inside, if_pos closed,
        if_neg rejected]
      rfl
    have admitted : Admitted k env.frame seg size srcIp :=
      ⟨valid, not_le.mp inside, closed⟩
    simp only [valid, ne_eq, not_true_eq_false, if_false, if_neg inside, if_neg closed,
      if_pos admitted]
    cases passive : (k.ports (dstPortOf env.frame seg).toNat).passiveSocket with
    | none =>
      cases active : (k.ports (dstPortOf env.frame seg).toNat).activeSocket with
      | none => exact ⟨[], Or.inl rfl, rfl⟩
      | some =>
        refine ⟨[.read seg 2], Or.inr rfl, ?_⟩
        simp only [tcpReceiveActive_run, after_mk]
        rfl
    -- a listener takes requests and the last ACK of a handshake
    | some psoc =>
      simp only [passiveDisposition, run_ite]
      by_cases request : (k.sockets psoc).tcon.state = .listen
          ∧ flagsOf env.frame seg &&& tcpFlagSyn ≠ 0
          ∧ isQueueFull (k.sockets psoc).waitqueue = false
      · refine ⟨[], Or.inl rfl, ?_⟩
        simp only [if_pos request, tcpReceiveRequest_run, after_mk]
        rfl
      simp only [if_neg request]
      by_cases handshake : (k.sockets psoc).tcon.state = .synackSent
          ∧ flagsOf env.frame seg &&& tcpFlagAck ≠ 0
      · refine ⟨[.read seg 2], Or.inr rfl, ?_⟩
        simp only [if_pos handshake, tcpReceiveHandshakeAck_run env k psoc _ seg size srcIp,
          after_mk]
        rfl
      simp only [if_neg handshake]
      cases active : (k.ports (dstPortOf env.frame seg).toNat).activeSocket with
      | none => exact ⟨[], Or.inl rfl, rfl⟩
      | some =>
        refine ⟨[.read seg 2], Or.inr rfl, ?_⟩
        simp only [tcpReceiveActive_run, after_mk]
        rfl
  · have rejected : ¬ Admitted k env.frame seg size srcIp := fun admitted => valid admitted.1
    refine ⟨[], Or.inl rfl, ?_⟩
    simp only [ne_eq, valid, not_false_eq_true, if_true, if_neg rejected]
    rfl

variable (mem : Int → UInt8) (seg size : Int) (srcIp : UInt32)

theorem activeDisposition_justified (asoc : Nat)
    (active : (k.ports (dstPortOf mem seg).toNat).activeSocket = some asoc)
    : (activeDisposition k mem seg srcIp asoc).Justified k mem seg srcIp := by
  unfold activeDisposition
  simp only
  split
  · trivial
  · rename_i known
    obtain ⟨addr, port⟩ := not_or.mp known
    simp only [ne_eq, not_not] at addr port
    split
    · rename_i reply
      exact ⟨active, addr, port, reply⟩
    · split
      · rename_i established
        split
        · rename_i acknowledges
          exact ⟨active, addr, port, established, acknowledges⟩
        · rename_i data
          simp only [ne_eq, not_not] at data
          split
          · rename_i inOrder
            exact ⟨active, addr, port, established, data, inOrder⟩
          · rename_i outOfOrder
            exact ⟨active, addr, port, established, data, outOfOrder⟩
      · trivial

theorem passiveDisposition_justified (psoc : Nat)
    {later : Disposition} (passive : (k.ports (dstPortOf mem seg).toNat).passiveSocket = some psoc)
    (justified : later.Justified k mem seg srcIp)
    : (passiveDisposition k mem seg srcIp psoc later).Justified k mem seg srcIp := by
  unfold passiveDisposition
  simp only
  split
  · rename_i request
    exact ⟨passive, request⟩
  · split
    · rename_i handshake
      split
      · trivial
      · rename_i known
        obtain ⟨addr, port⟩ := not_or.mp known
        simp only [ne_eq, not_not] at addr port
        exact ⟨passive, handshake.1, handshake.2, addr, port⟩
    · exact justified

theorem disposition_justified
    : (disposition k mem seg size srcIp).Justified k mem seg srcIp := by
  unfold disposition
  split
  · have active
        : (match (k.ports (dstPortOf mem seg).toNat).activeSocket with
            | none => Disposition.dropped
            | some asoc => activeDisposition k mem seg srcIp asoc).Justified k mem seg
              srcIp := by
      cases registered : (k.ports (dstPortOf mem seg).toNat).activeSocket with
      | none => trivial
      | some asoc => exact activeDisposition_justified k mem seg srcIp asoc registered
    simp only
    cases registered : (k.ports (dstPortOf mem seg).toNat).passiveSocket with
    | none => exact active
    | some psoc => exact passiveDisposition_justified k mem seg srcIp psoc registered active
  · trivial

theorem receive_sockets (s : Nat)
    : (k.receive mem seg size srcIp).sockets s
      = if (disposition k mem seg size srcIp).target = some s then
          (disposition k mem seg size srcIp).onSocket mem seg size
            (requestIndex k.requests) (k.sockets s)
        else
          k.sockets s := by
  unfold Kernel.receive
  cases disposition k mem seg size srcIp with
  | dropped => rfl
  | request psoc =>
    by_cases same : psoc = s
    · subst same
      by_cases waiting : (k.sockets psoc).state = .wait <;>
        simp [effect, queueRequest, Disposition.target, Disposition.onSocket, waiting, setSocket]
    · by_cases waiting : (k.sockets psoc).state = .wait <;>
        simp [effect, queueRequest, Disposition.target, waiting, same,
          setSocket, update_of_ne (Ne.symm same)]
  | handshakeAck psoc =>
    by_cases same : psoc = s
    · subst same
      simp [effect, Disposition.target, Disposition.onSocket, setTcon_sockets]
    · simp [effect, Disposition.target, same, setTcon_sockets, update_of_ne (Ne.symm same)]
  | synReply asoc =>
    by_cases same : asoc = s
    · subst same
      simp [effect, Disposition.target, Disposition.onSocket]
    · simp [effect, Disposition.target, same, update_of_ne (Ne.symm same)]
  | ack asoc =>
    by_cases same : asoc = s
    · subst same
      simp [effect, Disposition.target, Disposition.onSocket, setTcon_sockets]
    · simp [effect, Disposition.target, same, setTcon_sockets, update_of_ne (Ne.symm same)]
  | inOrder asoc =>
    by_cases same : asoc = s
    · subst same
      by_cases waiting : (k.sockets asoc).state = .wait <;>
        simp [effect, appendData, Disposition.target, Disposition.onSocket, waiting, setTcon]
    · by_cases waiting : (k.sockets asoc).state = .wait <;>
        simp [effect, appendData, Disposition.target, waiting, same,
          setTcon, update_of_ne (Ne.symm same)]
  | outOfOrder => simp [effect, Disposition.onSocket]

/-- ACK processing changes nothing but the window and `base_seq`. -/
theorem ackLoop_frame (ack : UInt32) (fuel : Nat) (tcon : TcpConnection)
    : ackLoop ack fuel tcon
      = { tcon with
          window := (ackLoop ack fuel tcon).window
          baseSeq := (ackLoop ack fuel tcon).baseSeq } := by
  induction fuel generalizing tcon with
  | zero => rfl
  | succ fuel ih =>
    simp only [ackLoop]
    split
    · exact ih _
    · rfl

theorem processAck_frame (ack : UInt32) (tcon : TcpConnection)
    : processAck ack tcon
      = { tcon with
          window := (processAck ack tcon).window
          baseSeq := (processAck ack tcon).baseSeq } := by
  unfold processAck
  split
  · rfl
  · exact ackLoop_frame ack _ tcon

/-- The fields of a socket that say what it is connected to. -/
structure SameEndpoint (socket other : Socket) : Prop where
  addr : other.addr = socket.addr
  port : other.port = socket.port
  tcpState : other.tcon.state = socket.tcon.state
  dstAddr : other.tcon.dstAddr = socket.tcon.dstAddr
  dstPort : other.tcon.dstPort = socket.tcon.dstPort

/-- No segment changes what a socket is connected to, or the state of its connection. -/
theorem receive_endpoint (s : Nat)
    : SameEndpoint (k.sockets s) ((k.receive mem seg size srcIp).sockets s) := by
  rw [receive_sockets]
  split
  · cases disposition k mem seg size srcIp with
    | ack =>
      simp only [Disposition.onSocket]
      rw [processAck_frame]
      exact ⟨rfl, rfl, rfl, rfl, rfl⟩
    | _ => exact ⟨rfl, rfl, rfl, rfl, rfl⟩
  · exact ⟨rfl, rfl, rfl, rfl, rfl⟩

@[simp]
theorem receive_state (s : Nat)
    : ((k.receive mem seg size srcIp).sockets s).state = (k.sockets s).state := by
  rw [receive_sockets]
  split
  · cases disposition k mem seg size srcIp <;> rfl
  · rfl

theorem receive_frame
    : ∃ sockets requests procs,
        k.receive mem seg size srcIp = { k with sockets, requests, procs } := by
  unfold Kernel.receive
  cases disposition k mem seg size srcIp with
  | request =>
    simp only [effect, queueRequest]
    split <;> exact ⟨_, _, _, rfl⟩
  | inOrder =>
    simp only [effect, appendData]
    split <;> exact ⟨_, _, _, rfl⟩
  | _ => exact ⟨_, _, _, rfl⟩

@[simp]
theorem receive_ports
    : (k.receive mem seg size srcIp).ports = k.ports := by
  obtain ⟨sockets, requests, procs, same⟩ := receive_frame k mem seg size srcIp
  rw [same]

@[simp]
theorem receive_myip
    : (k.receive mem seg size srcIp).myip = k.myip := by
  obtain ⟨sockets, requests, procs, same⟩ := receive_frame k mem seg size srcIp
  rw [same]

@[simp]
theorem receive_files
    : (k.receive mem seg size srcIp).files = k.files := by
  obtain ⟨sockets, requests, procs, same⟩ := receive_frame k mem seg size srcIp
  rw [same]

/-- The segment makes `tcp_receive` call `wakeup`. -/
def Disposition.Wakes (k : Kernel) : Disposition → Prop
  | .dropped | .ack _ | .outOfOrder _ => False
  | .request s | .inOrder s => (k.sockets s).state = .wait
  | .handshakeAck _ | .synReply _ => True

/-- The processes that sleep at the port of a segment that wakes them go on; no other is changed. -/
theorem receive_procs
    : ((disposition k mem seg size srcIp).Wakes k
        ∧ (k.receive mem seg size srcIp).procs
          = (k.wakeup (.port (dstPortOf mem seg).toNat)).procs)
      ∨ (¬ (disposition k mem seg size srcIp).Wakes k
        ∧ (k.receive mem seg size srcIp).procs = k.procs) := by
  unfold Kernel.receive
  cases disposition k mem seg size srcIp with
  | request psoc =>
    by_cases waiting : (k.sockets psoc).state = .wait
    · exact Or.inl ⟨waiting, by simp only [effect, queueRequest, if_pos waiting]; rfl⟩
    · exact Or.inr ⟨waiting, by simp only [effect, queueRequest, if_neg waiting]; rfl⟩
  | inOrder asoc =>
    by_cases waiting : (k.sockets asoc).state = .wait
    · exact Or.inl ⟨waiting, by simp only [effect, appendData, if_pos waiting]; rfl⟩
    · exact Or.inr ⟨waiting, by simp only [effect, appendData, if_neg waiting]; rfl⟩
  | handshakeAck psoc | synReply asoc => exact Or.inl ⟨trivial, rfl⟩
  | dropped | ack asoc | outOfOrder asoc => exact Or.inr ⟨id, rfl⟩

end Xv6Net
