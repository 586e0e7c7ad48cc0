import Xv6Net.Library.StreamTransfer
import Xv6Net.Tcp.ReceiveBuffer

/-! Two hosts with one connection between them, over a network that may lose, duplicate,
delay and reorder segments. Each direction of the connection refines the transfer of a
stream, so that what one side reads is a beginning of what the other side sent.
-/

namespace Xv6Net

open Library Memory Transition Function Kernel

inductive Side where
  | left | right
  deriving DecidableEq, Repr

def Side.peer : Side → Side
  | .left => .right
  | .right => .left

@[simp]
theorem Side.peer_peer (x : Side) : x.peer.peer = x := by
  cases x <;> rfl

theorem Side.peer_ne (x : Side) : x.peer ≠ x := by
  cases x <;> decide

/-- The addresses, ports and sockets of the two ends of a connection. -/
structure Link where
  ip : Side → UInt32
  port : Side → UInt16
  socket : Side → Nat
  distinct : ip .left ≠ ip .right

def Link.endpoint (l : Link) (x : Side) : Endpoint :=
  { ip := l.ip x, port := l.port x, peerIp := l.ip x.peer, peerPort := l.port x.peer }

theorem Link.ip_injective (l : Link) {x y : Side} (same : l.ip x = l.ip y) : x = y := by
  have distinct := l.distinct
  cases x <;> cases y <;> first | rfl | exact absurd same distinct | exact absurd same.symm distinct

/-- The hosts, and every datagram ever handed to `ip_send`: the network can deliver each at any
time, any number of times, or never.
-/
structure Net where
  host : Side → Conn
  wire : List Datagram

structure NetAction where
  side : Side
  action : ConnAction

/-- A received packet is one that was sent to this host. -/
def Net.Genuine (n : Net) (x : Side) : ConnAction → Prop
  | .receive env seg size srcIp =>
    0 ≤ size
    ∧ ({ srcIp
         dstIp := (n.host x).kernel.myip
         bytes := slice env.frame seg size.toNat } : Datagram) ∈ n.wire
  | _ => True

instance (n : Net) (x : Side) : (action : ConnAction) → Decidable (n.Genuine x action)
  | .receive .. => inferInstanceAs (Decidable (_ ∧ _))
  | .write _ | .advance _ | .read _ | .wake => isTrue trivial

def Net.step (l : Link) (n : Net) (a : NetAction) : Option Net :=
  if n.Genuine a.side a.action then
    ((n.host a.side).act (l.socket a.side) a.action).map fun (c, log) =>
      { host := update n.host a.side c
        wire := n.wire ++ log.filterMap Event.datagram }
  else
    none

/-- The bytes that the passes of `tcp_tx` of one side have sent, in sequence order. -/
def Net.stream (n : Net) (x : Side) : List UInt8 :=
  ((n.host x).sent.map Segment.data).flatten

def Net.tcon (l : Link) (n : Net) (x : Side) : TcpConnection :=
  (n.host x).tcon (l.socket x)

/-- A write has a length that is no multiple of `MSS`. -/
def PartialWrite : ConnAction → Prop
  | .write payload => payload.length % mss ≠ 0
  | _ => True

instance : (action : ConnAction) → Decidable (PartialWrite action)
  | .write _ => inferInstanceAs (Decidable (_ ≠ _))
  | .advance _ | .read _ | .wake | .receive .. => isTrue trivial

/-- The steps of the runs considered: no sequence number passes `2 ^ 32` and no write length
is a multiple of `MSS`.
-/
def Net.Bounded (l : Link) (n : Net) (a : NetAction) : Prop :=
  NoWrap (l.socket a.side) (n.host a.side) a.action ∧ PartialWrite a.action

instance (l : Link) (n : Net) (a : NetAction) : Decidable (n.Bounded l a) :=
  inferInstanceAs (Decidable (_ ∧ _))

structure HostInv (s : Nat) (e : Endpoint) (c : Conn) : Prop where
  registered : Registered c.kernel s e
  send : SendInv s c
  call : ∀ t, c.tx = some t → t.Ok ∧ t.payload.length % mss ≠ 0
  positive : ∀ ptr ∈ (c.tcon s).window.items, 0 < (c.tcon s).payloadAt ptr
  idle : c.tx = none → (c.tcon s).window.items = []
  reader : ∀ n, c.reader = some n → 0 ≤ n

variable {s : Nat} {e : Endpoint} {more : List Datagram} {flow : Side → Flow UInt8}

theorem HostInv.empty_of_acknowledged {c : Conn} (inv : HostInv s e c)
    (done : (c.tcon s).baseSeq = (c.tcon s).nextSeq)
    : (c.tcon s).window.items = [] := by
  have tiles := inv.send.window.contiguous
  cases items : (c.tcon s).window.items with
  | nil => rfl
  | cons ptr =>
    have positive := inv.positive ptr (by simp [items])
    rw [items, done] at tiles
    have bound := tiles.2.le
    omega

/-- A piece of a payload whose length is no multiple of `MSS` is not empty. -/
theorem TxCall.length_data_pos {t : TxCall} (more : t.i < t.numIter)
    (partly : t.payload.length % mss ≠ 0)
    : 0 < t.data.length := by
  rw [t.length_data more]
  simp only [currentPayloadSize, mss] at partly ⊢
  split <;> omega

/-- A step that leaves the window alone keeps what is known about the queued packets. -/
theorem HostInv.keep {c next : Conn} (inv : HostInv s e c) (registered : Registered next.kernel s e)
    (send : SendInv s next) (same : SameWindow (c.tcon s) (next.tcon s))
    (call : ∀ t, next.tx = some t → t.Ok ∧ t.payload.length % mss ≠ 0)
    (idle : next.tx = none → (c.tcon s).window.items = [])
    (reader : ∀ n, next.reader = some n → 0 ≤ n)
    : HostInv s e next := by
  refine ⟨registered, send, call, ?_, ?_, reader⟩
  · intro ptr queued
    rw [same.window] at queued
    simpa only [TcpConnection.payloadAt, TcpConnection.slot, same.pkts]
      using inv.positive ptr queued
  · intro stopped
    rw [same.window]
    exact idle stopped

/-- One side alone, for any segment that comes in. -/
theorem HostInv.step {c next : Conn} {action : ConnAction} {log : List Event} (inv : HostInv s e c)
    (move : ConnMove s c action next log) (bounded : NoWrap s c action)
    (partly : PartialWrite action)
    : HostInv s e next := by
  have registered := inv.registered.step move
  have send : SendInv s next := by
    by_cases unchanged : next = c
    · exact unchanged ▸ inv.send
    · refine (inv.send.step move bounded ?_).1
      cases move with
      | writeRefused => exact absurd rfl unchanged
      | write payload idle => exact inv.idle idle
      | _ => trivial
  cases move with
  | writeRefused | readRefused | resend => exact inv
  | write payload =>
    refine inv.keep registered send ⟨rfl, rfl, rfl, rfl⟩ ?_ (by rintro ⟨⟩) inv.reader
    rintro t ⟨⟩
    exact ⟨TxCall.start_ok payload, partly⟩
  | send stale t calling phase more room =>
    obtain ⟨-, partial'⟩ := inv.call t calling
    have kept := (inv.send.send calling stale more room
      (bounded t calling ⟨phase, more, room⟩)).2
    refine ⟨registered, send, ?_, ?_, by rintro ⟨⟩, inv.reader⟩
    · rintro t' ⟨⟩
      exact ⟨.send more _, partial'⟩
    · -- the new segment is not empty, nor were the ones before it
      intro ptr queued
      have items := inv.send.window.valid.items_enqueue (slotPtr t.windowOffset) room
      rw [Conn.afterSend_tcon] at queued
      simp only [TcpConnection.queueSegment] at queued
      rw [items] at queued
      rcases List.mem_append.mp queued with earlier | last
      · simpa only [TcpConnection.payloadAt, kept ptr earlier]
          using inv.positive ptr earlier
      · rw [List.mem_singleton.mp last, TcpConnection.payloadAt, Conn.afterSend_tcon,
          TcpConnection.slot_slotPtr]
        have positive := TxCall.length_data_pos more partial'
        simp [TcpConnection.queueSegment, positive]
  | moveOn stale t calling phase allowed =>
    obtain ⟨ok, partial'⟩ := inv.call t calling
    refine inv.keep registered send ⟨rfl, rfl, rfl, rfl⟩ ?_ ?_ inv.reader
    · intro t' entered
      simp only at entered
      split at entered
      · cases entered
      · rename_i going
        cases entered
        exact ⟨ok.moveOn allowed going, partial'⟩
    · intro stopped
      simp only at stopped
      split at stopped
      · -- the call returns when everything is acknowledged
        rename_i returned
        subst returned
        exact inv.empty_of_acknowledged (ok.returns allowed).2
      · cases stopped
  | sleep n sized =>
    refine inv.keep registered send ?_ inv.call inv.idle ?_
    · constructor <;> simp [Conn.tcon, setState]
    · rintro m ⟨⟩
      exact sized
  | read =>
    refine inv.keep registered send ?_ inv.call inv.idle (by rintro _ ⟨⟩)
    constructor <;> simp [Conn.tcon, Conn.afterRead]
  | wake =>
    refine inv.keep registered send ?_ inv.call inv.idle (by rintro _ ⟨⟩)
    constructor <;> simp [Conn.tcon, Conn.afterRead, setState]
  | receive env seg size srcIp =>
    rcases receive_window c.kernel env.frame seg size srcIp s with same | ⟨-, tcon⟩
    · exact inv.keep registered send same inv.call inv.idle inv.reader
    · -- an acknowledgement only takes segments out
      obtain ⟨-, ⟨n, suffix⟩, -, -⟩ := TcpConnection.processAck_result
        (ackNumOf env.frame seg) inv.send.window
      refine ⟨registered, send, inv.call, ?_, ?_, inv.reader⟩
      · intro ptr queued
        rw [Conn.tcon, tcon] at queued ⊢
        rw [Conn.tcon] at suffix
        rw [suffix] at queued
        rw [processAck_frame]
        exact inv.positive ptr (List.mem_of_mem_drop queued)
      · intro stopped
        rw [Conn.tcon, tcon]
        rw [Conn.tcon] at suffix
        rw [suffix, ← Conn.tcon, inv.idle stopped, List.drop_nil]

/-- The sender of a flow, with the data segments it has put on the wire. Stream position 0 has
sequence number 1; a SYN of the handshake has number 0.
-/
structure Sending (l : Link) (x : Side) (wire : List Datagram) (c : Conn) (f : Flow UInt8)
    : Prop where
  stream : (c.sent.map Segment.data).flatten = f.stream
  sequence
    : Tiles (fun segment : Segment => segment.seq.toNat)
        (fun segment => segment.data.length) 1 c.sent (c.tcon (l.socket x)).nextSeq.toNat
  next : (c.tcon (l.socket x)).nextSeq.toNat = 1 + f.stream.length
  base : (c.tcon (l.socket x)).baseSeq.toNat ≤ 1 + f.acked
  segments
    : ∀ d ∈ wire, d.srcIp = l.ip x → flagsOf (memoryOf d.bytes) 0 &&& tcpFlagAck = 0
        → seqNumOf (memoryOf d.bytes) 0 = initialSeq
          ∨ (hdrSizeOf (memoryOf d.bytes) 0 = 20
            ∧ ∃ position, (seqNumOf (memoryOf d.bytes) 0).toNat = 1 + position
              ∧ (position, d.bytes.drop 20) ∈ f.blocks)
  queued
    : ∀ ptr ∈ (c.tcon (l.socket x)).window.items,
        ({ srcIp := l.ip x
           dstIp := l.ip x.peer
           bytes := slice ((c.tcon (l.socket x)).slot ptr).pkt 0
             ((c.tcon (l.socket x)).slot ptr).size.toNat } : Datagram) ∈ wire

/-- The receiver of a flow, with the ACK segments it has put on the wire. -/
structure Receiving (l : Link) (x : Side) (wire : List Datagram) (c : Conn) (f : Flow UInt8)
    : Prop where
  end_ : (c.kernel.sockets (l.socket x)).end_ = f.received.length
  ackSent : (c.tcon (l.socket x)).ackSent.toNat = 1 + f.received.length
  buffer : slice (c.kernel.sockets (l.socket x)).buffer 0 f.received.length = f.received
  lower : 0 ≤ (c.kernel.sockets (l.socket x)).offset
  behind : (c.kernel.sockets (l.socket x)).offset ≤ f.received.length
  returned
    : c.returned = f.received.take (c.kernel.sockets (l.socket x)).offset.toNat
  acks
    : ∀ d ∈ wire, d.srcIp = l.ip x → flagsOf (memoryOf d.bytes) 0 &&& tcpFlagAck ≠ 0
        → ∃ ack ∈ f.acks, (ackNumOf (memoryOf d.bytes) 0).toNat = 1 + ack

/-- Every datagram on the wire is a segment of the connection. -/
def Addressed (l : Link) (wire : List Datagram) : Prop :=
  ∀ d ∈ wire, 20 ≤ d.bytes.length
    ∧ ∃ x : Side, d.srcIp = l.ip x ∧ d.dstIp = l.ip x.peer
      ∧ dstPortOf (memoryOf d.bytes) 0 = l.port x.peer

variable {l : Link} {x : Side} {wire : List Datagram} {c next : Conn} {f : Flow UInt8}
  {action : ConnAction} {log : List Event}

theorem Sending.wire_append (sending : Sending l x wire c f)
    (foreign : ∀ d ∈ more, d.srcIp = l.ip x.peer)
    : Sending l x (wire ++ more) c f := by
  refine ⟨sending.stream, sending.sequence, sending.next, sending.base, ?_, ?_⟩
  · intro d member source
    rcases List.mem_append.mp member with earlier | new
    · exact sending.segments d earlier source
    · exact absurd (l.ip_injective ((foreign d new).symm.trans source)) x.peer_ne
  · intro ptr member
    exact List.mem_append_left more (sending.queued ptr member)

theorem Receiving.wire_append (receiving : Receiving l x wire c f)
    (foreign : ∀ d ∈ more, d.srcIp = l.ip x.peer)
    : Receiving l x (wire ++ more) c f := by
  obtain ⟨end_, ackSent, buffer, lower, behind, returned, acks⟩ := receiving
  refine ⟨end_, ackSent, buffer, lower, behind, returned, ?_⟩
  intro d member source
  rcases List.mem_append.mp member with earlier | new
  · exact acks d earlier source
  · exact absurd (l.ip_injective ((foreign d new).symm.trans source)) x.peer_ne

section

variable {s : Nat} {e : Endpoint}

def dataDatagram (stale : Int → UInt8) (k : Kernel) (s : Nat) (data : List UInt8) : Datagram :=
  { srcIp := k.myip
    dstIp := (k.sockets s).tcon.dstAddr
    bytes := slice (dataPacket stale k s data) 0 (20 + data.length) }

theorem datagrams_send (stale : Int → UInt8) (k : Kernel) (s : Nat) (data : List UInt8)
    : [dataEvent stale k s data].filterMap Event.datagram = [dataDatagram stale k s data] :=
  rfl

/-- What is sent can be read back from the datagram. -/
theorem dataDatagram_carries (registered : Registered c.kernel s e) (stale : Int → UInt8)
    (data : List UInt8)
    : (dataDatagram stale c.kernel s data).Carries e.port e.peerPort (c.tcon s).nextSeq 0 0
        data := by
  have carried := carries_tcpPack stale c.kernel.myip (c.kernel.sockets s).tcon.dstAddr
    (c.kernel.sockets s).port (c.kernel.sockets s).tcon.dstPort
    (c.kernel.sockets s).tcon.nextSeq 0 0 data
  rw [registered.port, registered.dstPort] at carried
  simpa only [dataDatagram, dataPacket, Conn.tcon, registered.port, registered.dstPort]
    using carried

variable {d : Datagram}

theorem datagrams_resend (registered : Registered c.kernel s e) (window : (c.tcon s).WindowInv)
    (sent : d ∈ (resendLog c.kernel s).filterMap Event.datagram)
    : ∃ ptr ∈ (c.tcon s).window.items,
        d = { srcIp := e.ip
              dstIp := e.peerIp
              bytes := slice ((c.tcon s).slot ptr).pkt 0
                ((c.tcon s).slot ptr).size.toNat } := by
  simp only [resendLog] at sent
  split at sent
  · rename_i queued
    simp only [List.filterMap_cons, Event.datagram, List.filterMap_nil, List.mem_singleton] at sent
    refine ⟨getFront (c.tcon s).window, ?_, ?_⟩
    · have front := window.valid.getFront_eq
      cases items : (c.tcon s).window.items with
      | nil =>
        rw [items] at front
        exact absurd front queued
      | cons =>
        rw [front, items]
        exact List.mem_cons_self
    · rw [sent, registered.myip, registered.dstAddr]
      rfl
  · simp at sent

/-- Whatever `tcp_receive` sends for the connection is an ACK with the number that it leaves
in `ack_sent`.
-/
theorem datagrams_receive (registered : Registered c.kernel s e) {env : Env} {seg size : Int}
    {srcIp : UInt32} {extra : List Event} (header : extra = [] ∨ extra = [.read seg 2])
    (port : dstPortOf env.frame seg = e.port)
    (sent : d ∈ (receiveLog env c.kernel seg size srcIp extra).filterMap Event.datagram)
    : d.srcIp = e.ip ∧ d.dstIp = e.peerIp
      ∧ d.Carries e.port e.peerPort ((c.tcon s).nextSeq - 1)
          ((c.kernel.receive env.frame seg size srcIp).sockets s).tcon.ackSent tcpFlagAck
          [] := by
  have logged : d ∈ (effectLog env c.kernel seg size
      (disposition c.kernel env.frame seg size srcIp)).filterMap Event.datagram := by
    rcases header with rfl | rfl <;> simpa [receiveLog, Event.datagram] using sent
  have justified := disposition_justified c.kernel env.frame seg size srcIp
  have carried (ack : UInt32) := carries_tcpPack env.stale c.kernel.myip
    (c.kernel.sockets s).tcon.dstAddr (c.kernel.sockets s).port
    (c.kernel.sockets s).tcon.dstPort ((c.kernel.sockets s).tcon.nextSeq - 1) ack tcpFlagAck []
  rw [receive_sockets]
  cases kind : disposition c.kernel env.frame seg size srcIp with
  | inOrder asoc | outOfOrder asoc =>
    rw [kind] at justified logged
    have same : asoc = s := by
      have active := justified.1
      rw [port, registered.active] at active
      exact (Option.some.inj active).symm
    subst same
    simp only [effectLog, ackEvent, List.filterMap_cons, Event.datagram,
      List.filterMap_nil, List.mem_singleton] at logged
    subst logged
    refine ⟨registered.myip, registered.dstAddr, ?_⟩
    simp only [Disposition.target, if_true, Disposition.onSocket, ← registered.port,
      ← registered.dstPort]
    exact carried _
  | _ =>
    rw [kind] at logged
    simp [effectLog, Event.datagram] at logged

end

theorem Sending.keep (sending : Sending l x wire c f) (sent : next.sent = c.sent)
    (same : SameWindow (c.tcon (l.socket x)) (next.tcon (l.socket x)))
    (old : ∀ d ∈ more, d ∈ wire ∨ flagsOf (memoryOf d.bytes) 0 &&& tcpFlagAck ≠ 0)
    : Sending l x (wire ++ more) next f := by
  refine ⟨by rw [sent]; exact sending.stream, ?_, ?_, ?_, ?_, ?_⟩
  · rw [sent, same.next]
    exact sending.sequence
  · rw [same.next]
    exact sending.next
  · rw [same.base]
    exact sending.base
  · intro d member source data
    rcases List.mem_append.mp member with earlier | new
    · exact sending.segments d earlier source data
    · rcases old d new with known | acknowledges
      · exact sending.segments d known source data
      · exact absurd data acknowledges
  · intro ptr member
    rw [same.window] at member
    simp only [TcpConnection.slot, same.pkts]
    exact List.mem_append_left more (sending.queued ptr member)

theorem Sending.stays (sending : Sending l x wire c f)
    : ∃ f', (f' = f ∨ Flow.Step f f') ∧ f'.received = f.received ∧ f'.acks = f.acks
        ∧ Sending l x wire c f' :=
  ⟨f, Or.inl rfl, rfl, rfl, sending⟩

section

variable (inv : HostInv (l.socket x) (l.endpoint x) c) (sending : Sending l x wire c f)
include inv sending

/-- A new segment extends the stream. -/
theorem Sending.send {t : TxCall} (calling : c.tx = some t) (stale : Int → UInt8)
    (more : t.i < t.numIter) (room : isQueueFull (c.tcon (l.socket x)).window = false)
    (fits : (c.tcon (l.socket x)).nextSeq.toNat + t.currentPayloadSize < 2 ^ 32)
    : Sending l x (wire ++ [dataDatagram stale c.kernel (l.socket x) t.data])
        (c.afterSend (l.socket x) t stale)
        { f with
          stream := f.stream ++ t.data
          blocks := insert (f.stream.length, t.data) f.blocks } := by
  have registered := inv.registered
  have kept := (inv.send.send calling stale more room fits).2
  have tcon := c.afterSend_tcon (l.socket x) t stale
  have carried := dataDatagram_carries registered stale t.data
  have next : ((c.afterSend (l.socket x) t stale).tcon (l.socket x)).nextSeq.toNat
      = (c.tcon (l.socket x)).nextSeq.toNat + t.data.length := by
    rw [tcon]
    simp only [TcpConnection.queueSegment, UInt32.toNat_add, UInt32.toNat_ofNat',
      t.length_data more]
    omega
  refine ⟨?_, ?_, ?_, ?_, ?_, ?_⟩
  · simp [Conn.afterSend, ← sending.stream]
  · rw [next]
    exact sending.sequence.concat rfl
  · rw [next, sending.next, List.length_append]
    omega
  · rw [tcon]
    exact sending.base
  · intro d member source data
    rcases List.mem_append.mp member with earlier | new
    · rcases sending.segments d earlier source data with syn | ⟨header, position, number, block⟩
      · exact Or.inl syn
      · exact Or.inr ⟨header, position, number, Set.mem_insert_of_mem _ block⟩
    · rw [List.mem_singleton.mp new]
      refine Or.inr ⟨carried.header, f.stream.length, ?_, ?_⟩
      · rw [carried.seq]
        exact sending.next
      · rw [carried.data]
        exact Set.mem_insert _ _
  · intro ptr member
    rw [tcon] at member
    have items := inv.send.window.valid.items_enqueue (slotPtr t.windowOffset) room
    simp only [TcpConnection.queueSegment] at member
    rw [items] at member
    rcases List.mem_append.mp member with earlier | last
    · rw [kept ptr earlier]
      exact List.mem_append_left _ (sending.queued ptr earlier)
    · refine List.mem_append_right _ (List.mem_singleton.mpr ?_)
      rw [List.mem_singleton.mp last, tcon, TcpConnection.slot_slotPtr]
      simp only [TcpConnection.queueSegment, update_self, dataDatagram,
        registered.myip, registered.dstAddr]
      congr 1
      have stored := slice_overlay ((c.tcon (l.socket x)).pkts t.windowOffset).pkt 0
        (slice (dataPacket stale c.kernel (l.socket x) t.data) 0 (20 + t.data.length))
      rw [length_slice] at stored
      exact stored

/-- An acknowledgement of the receiver moves the sender forward, no further than the receiver is. -/
theorem Sending.acknowledge (next : Conn) {number : UInt32} (sent : next.sent = c.sent)
    (tcon : next.tcon (l.socket x) = processAck number (c.tcon (l.socket x))) {ack : Nat}
    (numbered : number.toNat = 1 + ack)
    : ∃ acked ≤ max f.acked ack, Sending l x wire next { f with acked } := by
  obtain ⟨-, ⟨n, suffix⟩, upper, -⟩ := TcpConnection.processAck_result number inv.send.window
  have base := sending.base
  have frame := processAck_frame number (c.tcon (l.socket x))
  rw [← tcon] at suffix upper frame
  refine ⟨(next.tcon (l.socket x)).baseSeq.toNat - 1, by omega, ?_⟩
  refine ⟨by rw [sent]; exact sending.stream, ?_, ?_, ?_, sending.segments, ?_⟩
  · rw [sent, frame]
    exact sending.sequence
  · rw [frame]
    exact sending.next
  · simp only
    omega
  · intro ptr member
    rw [suffix] at member
    rw [frame]
    exact sending.queued ptr (List.mem_of_mem_drop member)

/-- Every step of the sender of a flow is a step of the transfer, or leaves it alone. -/
theorem Sending.step (move : ConnMove (l.socket x) c action next log)
    (bounded : NoWrap (l.socket x) c action) (arrives
      : ∀ env seg size srcIp, action = .receive env seg size srcIp
          → dstPortOf env.frame seg = l.port x
            ∧ (disposition c.kernel env.frame seg size srcIp = .ack (l.socket x)
              → ∃ ack ∈ f.acks, (ackNumOf env.frame seg).toNat = 1 + ack))
    : ∃ f', (f' = f ∨ Flow.Step f f') ∧ f'.received = f.received ∧ f'.acks = f.acks
        ∧ Sending l x (wire ++ log.filterMap Event.datagram) next f' := by
  cases move with
  | writeRefused | readRefused | write | moveOn =>
    exact Sending.stays (sending.keep rfl ⟨rfl, rfl, rfl, rfl⟩ (List.forall_mem_nil _))
  | send stale t calling phase more room =>
    exact ⟨_, Or.inr (.send f t.data), rfl, rfl,
      sending.send inv calling stale more room (bounded t calling ⟨phase, more, room⟩)⟩
  | resend =>
    refine Sending.stays (sending.keep rfl ⟨rfl, rfl, rfl, rfl⟩ ?_)
    intro d sent
    obtain ⟨ptr, queued, rfl⟩ := datagrams_resend inv.registered inv.send.window sent
    exact Or.inl (sending.queued ptr queued)
  | sleep =>
    refine Sending.stays (sending.keep rfl ?_ (List.forall_mem_nil _))
    constructor <;> simp [Conn.tcon, setState]
  | read =>
    refine Sending.stays (sending.keep rfl ?_ (List.forall_mem_nil _))
    constructor <;> simp [Conn.tcon, Conn.afterRead]
  | wake =>
    refine Sending.stays (sending.keep rfl ?_ (List.forall_mem_nil _))
    constructor <;> simp [Conn.tcon, Conn.afterRead, setState]
  | receive env seg size srcIp extra header =>
    obtain ⟨port, numbered⟩ := arrives env seg size srcIp rfl
    have old (d : Datagram) (sent : d ∈ (receiveLog env c.kernel seg size srcIp
        extra).filterMap Event.datagram)
        : d ∈ wire ∨ flagsOf (memoryOf d.bytes) 0 &&& tcpFlagAck ≠ 0 := by
      obtain ⟨-, -, carried⟩ := datagrams_receive inv.registered header port sent
      rw [carried.flags]
      exact Or.inr (by decide)
    rcases receive_window c.kernel env.frame seg size srcIp (l.socket x) with
      same | ⟨kind, tcon⟩
    · exact Sending.stays (sending.keep rfl same old)
    · obtain ⟨ack, sent, number⟩ := numbered kind
      obtain ⟨acked, upper, after⟩ := sending.acknowledge inv
        { c with kernel := c.kernel.receive env.frame seg size srcIp } rfl tcon number
      exact ⟨_, Or.inr (.acknowledge f ack acked sent upper), rfl, rfl,
        after.keep rfl ⟨rfl, rfl, rfl, rfl⟩ old⟩

end

structure SameReceiver (socket other : Socket) : Prop where
  end_ : other.end_ = socket.end_
  buffer : other.buffer = socket.buffer
  offset : other.offset = socket.offset
  ackSent : other.tcon.ackSent = socket.tcon.ackSent

section

variable (receiving : Receiving l x wire c f)
include receiving

/-- A step that appends nothing to the buffer keeps the receiving side of a flow. -/
theorem Receiving.keep (next : Conn)
    (same : SameReceiver (c.kernel.sockets (l.socket x)) (next.kernel.sockets (l.socket x)))
    (returned : next.returned = c.returned)
    (old : ∀ d ∈ more, d ∈ wire ∨ flagsOf (memoryOf d.bytes) 0 &&& tcpFlagAck = 0)
    : Receiving l x (wire ++ more) next f := by
  obtain ⟨end_, buffer, offset, ackSent⟩ := same
  refine ⟨end_.trans receiving.end_, by rw [Conn.tcon, ackSent]; exact receiving.ackSent,
    by rw [buffer]; exact receiving.buffer, by rw [offset]; exact receiving.lower,
    by rw [offset]; exact receiving.behind, by rw [returned, offset]; exact receiving.returned,
    ?_⟩
  intro d member source acknowledges
  rcases List.mem_append.mp member with earlier | new
  · exact receiving.acks d earlier source acknowledges
  · rcases old d new with known | data
    · exact receiving.acks d known source acknowledges
    · exact absurd data acknowledges

/-- What `socketread` returns is the next part of what was received. -/
theorem Receiving.read {n : Int} (sized : 0 ≤ n)
    : Receiving l x wire (c.afterRead (l.socket x) n) f := by
  obtain ⟨end_, ackSent, buffer, lower, behind, returned, acks⟩ := receiving
  have window := (c.tcon (l.socket x)).ackSent.toNat_lt
  obtain ⟨offset, start⟩ : ∃ m : Nat, (c.kernel.sockets (l.socket x)).offset = m :=
    Int.eq_ofNat_of_zero_le lower
  obtain ⟨count, counted⟩ : ∃ m : Nat, (c.kernel.sockets (l.socket x)).readCount n = m
      ∧ offset + m ≤ f.received.length := by
    have bounds : 0 ≤ (c.kernel.sockets (l.socket x)).readCount n
        ∧ (c.kernel.sockets (l.socket x)).readCount n ≤ f.received.length - offset := by
      simp only [Socket.readCount, end_, start]
      split <;> omega
    exact ⟨((c.kernel.sockets (l.socket x)).readCount n).toNat, by omega, by omega⟩
  have bytes : slice (c.kernel.sockets (l.socket x)).buffer offset (moveCount count)
      = (f.received.drop offset).take count := by
    have whole : moveCount count = count := by
      simp only [moveCount]
      omega
    have rest := drop_slice (c.kernel.sockets (l.socket x)).buffer 0 offset
      (f.received.length - offset)
    rw [show offset + (f.received.length - offset) = f.received.length by omega, buffer,
      zero_add] at rest
    rw [whole, rest, take_slice, Nat.min_eq_left (by omega)]
  refine ⟨?_, ?_, ?_, ?_, ?_, ?_, acks⟩
  · simpa [Conn.afterRead] using end_
  · simpa [Conn.afterRead, Conn.tcon] using ackSent
  · simpa [Conn.afterRead] using buffer
  · simp only [Conn.afterRead, setSocket_sockets, update_self]
    omega
  · simp only [Conn.afterRead, setSocket_sockets, update_self]
    omega
  · simp only [Conn.afterRead, setSocket_sockets, update_self, returned, start,
      counted.1, bytes, Int.toNat_natCast]
    rw [← Nat.cast_add, Int.toNat_natCast, List.take_add]

theorem Receiving.confirm (next : Conn)
    (same : SameReceiver (c.kernel.sockets (l.socket x)) (next.kernel.sockets (l.socket x)))
    (returned : next.returned = c.returned) (numbered
      : ∀ d ∈ more, ackNumOf (memoryOf d.bytes) 0 = (next.tcon (l.socket x)).ackSent)
    : Receiving l x (wire ++ more) next
        { f with acks := insert f.received.length f.acks } := by
  have kept : Receiving l x (wire ++ []) next f := receiving.keep next same returned nofun
  rw [List.append_nil] at kept
  refine ⟨kept.end_, kept.ackSent, kept.buffer, kept.lower, kept.behind, kept.returned, ?_⟩
  intro d member source acknowledges
  rcases List.mem_append.mp member with earlier | new
  · obtain ⟨ack, known, number⟩ := receiving.acks d earlier source acknowledges
    exact ⟨ack, Set.mem_insert_of_mem _ known, number⟩
  · refine ⟨f.received.length, Set.mem_insert _ _, ?_⟩
    rw [numbered d new]
    exact kept.ackSent

/-- A segment in order extends what was received. -/
theorem Receiving.accept {env : Env} {seg size : Int} {srcIp : UInt32}
    (inOrder : disposition c.kernel env.frame seg size srcIp = .inOrder (l.socket x))
    {block : List UInt8} (length : size - hdrSizeOf env.frame seg = block.length)
    (bytes : slice env.frame (seg + hdrSizeOf env.frame seg) block.length = block)
    (fits : 1 + f.received.length + block.length < 2 ^ 32) (numbered
      : ∀ d ∈ more, ackNumOf (memoryOf d.bytes) 0
          = ((c.kernel.receive env.frame seg size srcIp).sockets (l.socket x)).tcon.ackSent)
    : Receiving l x (wire ++ more)
        { c with kernel := c.kernel.receive env.frame seg size srcIp }
        { f with
          received := f.received ++ block
          acks := insert (f.received.length + block.length) f.acks } := by
  obtain ⟨end_, ackSent, buffer, lower, behind, returned, acks⟩ := receiving
  have justified := disposition_justified c.kernel env.frame seg size srcIp
  rw [inOrder] at justified
  have number : (c.tcon (l.socket x)).ackSent = seqNumOf env.frame seg :=
    justified.2.2.2.2.2
  have whole : moveCount (block.length : Int) = block.length := by
    simp only [moveCount]
    omega
  have socket : (c.kernel.receive env.frame seg size srcIp).sockets (l.socket x)
      = { c.kernel.sockets (l.socket x) with
          buffer := overlay (c.kernel.sockets (l.socket x)).buffer f.received.length block
          end_ := f.received.length + block.length
          tcon := { (c.kernel.sockets (l.socket x)).tcon with
            seqReceived := seqNumOf env.frame seg
            ackSent := seqNumOf env.frame seg + UInt32.ofInt block.length } } := by
    rw [receive_sockets, inOrder]
    simp only [Disposition.target, if_true, Disposition.onSocket, length, end_, whole, bytes]
  have reached : ((c.kernel.receive env.frame seg size srcIp).sockets
      (l.socket x)).tcon.ackSent.toNat = 1 + (f.received.length + block.length) := by
    rw [socket]
    simp only [UInt32.toNat_add, toNat_ofInt, ← number, ackSent]
    omega
  refine ⟨?_, ?_, ?_, ?_, ?_, ?_, ?_⟩
  · simp only [socket, List.length_append, Nat.cast_add]
  · simpa only [Conn.tcon, List.length_append] using reached
  · simp only [socket, List.length_append]
    rw [slice_append, slice_overlay_before _ _ (by omega), buffer, zero_add, slice_overlay]
  · simpa only [socket] using lower
  · simp only [socket, List.length_append]
    omega
  · simp only [socket]
    rw [returned, List.take_append_of_le_length (by omega)]
  · intro d member source acknowledges
    rcases List.mem_append.mp member with earlier | new
    · obtain ⟨ack, known, same⟩ := acks d earlier source acknowledges
      exact ⟨ack, Set.mem_insert_of_mem _ known, same⟩
    · refine ⟨_, Set.mem_insert _ _, ?_⟩
      rw [numbered d new]
      exact reached

end

theorem receive_sameReceiver {k : Kernel} {mem : Int → UInt8} {seg size : Int} {srcIp : UInt32}
    (established : (k.sockets s).tcon.state = .established)
    (other : disposition k mem seg size srcIp ≠ .inOrder s)
    : SameReceiver (k.sockets s) ((k.receive mem seg size srcIp).sockets s) := by
  have justified := disposition_justified k mem seg size srcIp
  rw [receive_sockets]
  split
  · rename_i concerns
    cases kind : disposition k mem seg size srcIp with
    | inOrder =>
      rw [kind] at concerns
      cases concerns
      exact absurd kind other
    | synReply =>
      rw [kind] at concerns justified
      cases concerns
      have waiting := justified.2.2.2.1
      rw [established] at waiting
      cases waiting
    | ack =>
      simp only [Disposition.onSocket]
      rw [processAck_frame]
      exact ⟨rfl, rfl, rfl, rfl⟩
    | _ => exact ⟨rfl, rfl, rfl, rfl⟩
  · exact ⟨rfl, rfl, rfl, rfl⟩

/-- The transfer may stay where it is. -/
theorem Receiving.stays (receiving : Receiving l x wire c f)
    : ∃ f', (f' = f ∨ Flow.Step f f') ∧ f'.stream = f.stream ∧ f'.acked = f.acked
        ∧ f'.blocks = f.blocks
        ∧ Receiving l x wire c f' :=
  ⟨f, Or.inl rfl, rfl, rfl, rfl, receiving⟩

/-- Every step of the receiver of a flow is a step of the transfer, or leaves it alone. -/
theorem Receiving.step (inv : HostInv (l.socket x) (l.endpoint x) c)
    {own : Flow UInt8} (sending : Sending l x wire c own) (receiving : Receiving l x wire c f)
    (move : ConnMove (l.socket x) c action next log) (arrives
      : ∀ env seg size srcIp, action = .receive env seg size srcIp
          → dstPortOf env.frame seg = l.port x
            ∧ (disposition c.kernel env.frame seg size srcIp = .inOrder (l.socket x)
              → ∃ block, (f.received.length, block) ∈ f.blocks
                  ∧ size - hdrSizeOf env.frame seg = block.length
                  ∧ slice env.frame (seg + hdrSizeOf env.frame seg) block.length = block
                  ∧ 1 + f.received.length + block.length < 2 ^ 32))
    : ∃ f', (f' = f ∨ Flow.Step f f') ∧ f'.stream = f.stream ∧ f'.acked = f.acked
        ∧ f'.blocks = f.blocks
        ∧ Receiving l x (wire ++ log.filterMap Event.datagram) next f' := by
  cases move with
  | writeRefused | readRefused | write | moveOn =>
    exact Receiving.stays (receiving.keep _ ⟨rfl, rfl, rfl, rfl⟩ rfl (List.forall_mem_nil _))
  | send stale t =>
    refine Receiving.stays (receiving.keep _ ?_ rfl ?_)
    · constructor <;>
        simp [Conn.afterSend, setTcon_sockets, TcpConnection.queueSegment]
    · intro d sent
      rw [datagrams_send, List.mem_singleton] at sent
      rw [sent, (dataDatagram_carries inv.registered stale t.data).flags]
      exact Or.inr (by decide)
  | resend =>
    refine Receiving.stays (receiving.keep _ ⟨rfl, rfl, rfl, rfl⟩ rfl ?_)
    intro d sent
    obtain ⟨ptr, queued, rfl⟩ := datagrams_resend inv.registered inv.send.window sent
    exact Or.inl (sending.queued ptr queued)
  | sleep =>
    refine Receiving.stays (receiving.keep _ ?_ rfl (List.forall_mem_nil _))
    constructor <;> simp [setState]
  | read n sized =>
    refine Receiving.stays ?_
    simp only [List.filterMap_cons, Event.datagram, List.filterMap_nil, List.append_nil]
    exact receiving.read sized
  | wake n sleeping =>
    refine Receiving.stays ?_
    have same : SameReceiver (c.kernel.sockets (l.socket x))
        ((c.kernel.setState (l.socket x) .connected).sockets (l.socket x)) := by
      constructor <;> simp [setState]
    have woken : Receiving l x (wire ++ []) _ f :=
      receiving.keep { c with kernel := c.kernel.setState (l.socket x) .connected } same rfl
        (List.forall_mem_nil _)
    rw [List.append_nil] at woken
    simp only [List.filterMap_cons, Event.datagram, List.filterMap_nil, List.append_nil]
    exact woken.read (inv.reader n sleeping)
  | receive env seg size srcIp extra header =>
    obtain ⟨port, data⟩ := arrives env seg size srcIp rfl
    have numbered (d : Datagram) (sent : d ∈ (receiveLog env c.kernel seg size srcIp
        extra).filterMap Event.datagram)
        : ackNumOf (memoryOf d.bytes) 0
          = ((c.kernel.receive env.frame seg size srcIp).sockets
              (l.socket x)).tcon.ackSent := by
      obtain ⟨-, -, carried⟩ := datagrams_receive inv.registered header port sent
      exact carried.ack
    by_cases inOrder : disposition c.kernel env.frame seg size srcIp = .inOrder (l.socket x)
    · obtain ⟨block, known, length, bytes, fits⟩ := data inOrder
      exact ⟨_, Or.inr (.accept f block known), rfl, rfl, rfl,
        receiving.accept inOrder length bytes fits numbered⟩
    · have same := receive_sameReceiver inv.registered.state inOrder
      exact ⟨_, Or.inr (.confirm f), rfl, rfl, rfl,
        receiving.confirm { c with kernel := c.kernel.receive env.frame seg size srcIp } same
          rfl numbered⟩

/-- Both directions of the connection refine a transfer that is sound. -/
structure NetInv (l : Link) (n : Net) (flow : Side → Flow UInt8) : Prop where
  host : ∀ x, HostInv (l.socket x) (l.endpoint x) (n.host x)
  addressed : Addressed l n.wire
  sending : ∀ x, Sending l x n.wire (n.host x) (flow x)
  receiving : ∀ x, Receiving l x n.wire (n.host x) (flow x.peer)
  sound : ∀ x, (flow x).Sound

variable {f' : Flow UInt8} {a : NetAction}

theorem Sending.congr (sending : Sending l x wire c f)
    (stream : f'.stream = f.stream) (acked : f'.acked = f.acked) (blocks : f'.blocks = f.blocks)
    : Sending l x wire c f' := by
  obtain ⟨bytes, sequence, number, base, segments, queued⟩ := sending
  rw [← stream] at bytes number
  rw [← acked] at base
  rw [← blocks] at segments
  exact ⟨bytes, sequence, number, base, segments, queued⟩

theorem Receiving.congr (receiving : Receiving l x wire c f)
    (received : f'.received = f.received) (acks : f'.acks = f.acks)
    : Receiving l x wire c f' := by
  obtain ⟨end_, ackSent, buffer, lower, behind, returned, numbers⟩ := receiving
  rw [← received] at end_ ackSent buffer behind returned
  rw [← acks] at numbers
  exact ⟨end_, ackSent, buffer, lower, behind, returned, numbers⟩

/-- What a host sends is addressed to its peer. -/
theorem emitted_addressed (inv : HostInv (l.socket x) (l.endpoint x) c)
    (sending : Sending l x wire c f) (move : ConnMove (l.socket x) c action next log)
    (port : ∀ env seg size srcIp, action = .receive env seg size srcIp
      → dstPortOf env.frame seg = l.port x)
    {d : Datagram} (sent : d ∈ log.filterMap Event.datagram)
    : d.srcIp = l.ip x
      ∧ (d ∈ wire
        ∨ (20 ≤ d.bytes.length ∧ d.dstIp = l.ip x.peer
          ∧ dstPortOf (memoryOf d.bytes) 0 = l.port x.peer)) := by
  cases move with
  | writeRefused | readRefused | write | moveOn | sleep => cases sent
  | send stale t =>
    rw [datagrams_send, List.mem_singleton] at sent
    have carried := dataDatagram_carries inv.registered stale t.data
    subst sent
    refine ⟨inv.registered.myip, Or.inr ⟨?_, inv.registered.dstAddr, carried.dstPort⟩⟩
    rw [carried.length]
    omega
  | resend =>
    obtain ⟨ptr, queued, rfl⟩ := datagrams_resend inv.registered inv.send.window sent
    exact ⟨rfl, Or.inl (sending.queued ptr queued)⟩
  | read n sized | wake n sleeping => simp [Event.datagram] at sent
  | receive env seg size srcIp extra header =>
    obtain ⟨src, dst, carried⟩ := datagrams_receive inv.registered header
      (port env seg size srcIp rfl) sent
    refine ⟨src, Or.inr ⟨?_, dst, carried.dstPort⟩⟩
    rw [carried.length]
    omega

variable {n : Net}

/-- What a host receives was sent to its port by the other side: an ACK does not exceed what
the other side has received, and in-order data are the next block of the other side's stream.
-/
theorem NetInv.arrives (inv : NetInv l n flow) (genuine : n.Genuine x action) (env : Env)
    (seg size : Int) (srcIp : UInt32) (received : action = .receive env seg size srcIp)
    : dstPortOf env.frame seg = l.port x
      ∧ (disposition (n.host x).kernel env.frame seg size srcIp = .ack (l.socket x)
        → ∃ ack ∈ (flow x).acks, (ackNumOf env.frame seg).toNat = 1 + ack)
      ∧ (disposition (n.host x).kernel env.frame seg size srcIp = .inOrder (l.socket x)
        → ∃ block, ((flow x.peer).received.length, block) ∈ (flow x.peer).blocks
            ∧ size - hdrSizeOf env.frame seg = block.length
            ∧ slice env.frame (seg + hdrSizeOf env.frame seg) block.length = block
            ∧ 1 + (flow x.peer).received.length + block.length < 2 ^ 32) := by
  subst received
  obtain ⟨sized, member⟩ := genuine
  obtain ⟨long, y, source, target, port⟩ := inv.addressed _ member
  simp only [length_slice] at long source target port
  have side : y = x.peer := by
    rw [(inv.host x).registered.myip] at target
    have same : x = y.peer := l.ip_injective target
    rw [same, Side.peer_peer]
  subst side
  rw [Side.peer_peer] at port target
  have stored := slice_memoryOf (slice env.frame seg size.toNat)
  rw [length_slice] at stored
  obtain ⟨-, dst, number, reply, header, flags⟩ := header_congr stored long
  have justified := disposition_justified (n.host x).kernel env.frame seg size srcIp
  refine ⟨dst.symm.trans port, ?_, ?_⟩
  · intro kind
    rw [kind] at justified
    have receiver := inv.receiving x.peer
    rw [Side.peer_peer] at receiver
    obtain ⟨ack, known, numbered⟩ := receiver.acks _ member source
      (by rw [flags]; exact justified.2.2.2.2)
    exact ⟨ack, known, by rw [← reply]; exact numbered⟩
  · intro kind
    rw [kind] at justified
    have receiver := inv.receiving x
    have expected : (seqNumOf env.frame seg).toNat = 1 + (flow x.peer).received.length := by
      rw [← justified.2.2.2.2.2]
      exact receiver.ackSent
    rcases (inv.sending x.peer).segments _ member source
        (by rw [flags]; exact justified.2.2.2.2.1) with syn | ⟨short, position, numbered, block⟩
    · -- a SYN has number 0, and position 0 has number 1
      have zero : (seqNumOf env.frame seg).toNat = 0 := by
        rw [← number, syn]
        rfl
      omega
    · rw [number] at numbered
      rw [header] at short
      obtain rfl : position = (flow x.peer).received.length := by omega
      have length : ((slice env.frame seg size.toNat).drop 20).length = size.toNat - 20 := by
        rw [List.length_drop, length_slice]
      have inside := ((inv.sound x.peer).blocks _ _ block).end_le
        (inv.sound x.peer).received.length_le
      have top := (inv.sending x.peer).next
      have bound := ((n.host x.peer).tcon (l.socket x.peer)).nextSeq.toNat_lt
      refine ⟨_, block, ?_, ?_, by omega⟩
      · rw [length, short]
        omega
      · have tail := drop_slice env.frame seg 20 (size.toNat - 20)
        rw [show 20 + (size.toNat - 20) = size.toNat by omega] at tail
        rw [length, short, tail]
        rfl

/-- A step of the net is a move of one host on a genuine segment. -/
theorem Net.step_move {next : Net} (taken : n.step l a = some next)
    : n.Genuine a.side a.action
      ∧ ∃ c log, ConnMove (l.socket a.side) (n.host a.side) a.action c log
          ∧ next = { host := update n.host a.side c
                     wire := n.wire ++ log.filterMap Event.datagram } := by
  unfold Net.step at taken
  split at taken
  · rename_i genuine
    obtain ⟨⟨c, log⟩, acted, rfl⟩ := Option.map_eq_some_iff.mp taken
    exact ⟨genuine, c, log, Conn.act_move acted, rfl⟩
  · cases taken

/-- Every step of the network is a step of the transfers: the host that takes it is the sender of
one flow and the receiver of the other.
-/
theorem NetInv.step {next : Net} (inv : NetInv l n flow) (bounded : n.Bounded l a)
    (taken : n.step l a = some next)
    : ∃ flow', NetInv l next flow' := by
  obtain ⟨genuine, c, log, move, rfl⟩ := Net.step_move taken
  obtain ⟨x, action⟩ := a
  obtain ⟨noWrap, partly⟩ := bounded
  simp only at genuine move noWrap partly ⊢
  have arrives := inv.arrives genuine
  have port (env : Env) (seg size : Int) (srcIp : UInt32)
      (received : action = .receive env seg size srcIp)
      : dstPortOf env.frame seg = l.port x :=
    (arrives env seg size srcIp received).1
  have emitted {d : Datagram} (sent : d ∈ log.filterMap Event.datagram) :=
    emitted_addressed (inv.host x) (inv.sending x) move port sent
  obtain ⟨out, outStep, outReceived, outAcks, outgoing⟩ := (inv.sending x).step (inv.host x) move
    noWrap fun env seg size srcIp received =>
      ⟨port env seg size srcIp received, (arrives env seg size srcIp received).2.1⟩
  obtain ⟨in_, inStep, inStream, inAcked, inBlocks, incoming⟩ := (inv.receiving x).step
    (inv.host x) (inv.sending x) move fun env seg size srcIp received =>
      ⟨port env seg size srcIp received, (arrives env seg size srcIp received).2.2⟩
  have sound (f f' : Flow UInt8) (step : f' = f ∨ Flow.Step f f') (before : f.Sound)
      : f'.Sound := by
    rcases step with rfl | step
    · exact before
    · exact before.step step
  have other (y : Side) (different : y ≠ x) : y = x.peer := by
    cases x <;> cases y <;> first | rfl | exact absurd rfl different
  have foreign (d : Datagram) (sent : d ∈ log.filterMap Event.datagram)
      : d.srcIp = l.ip x.peer.peer := by
    rw [Side.peer_peer]
    exact (emitted sent).1
  -- the host sends on its own flow and receives on the other
  refine ⟨fun y => if y = x then out else in_, ?_, ?_, ?_, ?_, ?_⟩
  · intro y
    by_cases same : y = x
    · subst same
      simpa using (inv.host y).step move noWrap partly
    · simpa [update_of_ne same] using inv.host y
  · intro d member
    rcases List.mem_append.mp member with earlier | sent
    · exact inv.addressed d earlier
    · obtain ⟨source, known | ⟨long, target, port⟩⟩ := emitted sent
      · exact inv.addressed d known
      · exact ⟨long, x, source, target, port⟩
  · intro y
    by_cases same : y = x
    · subst same
      simpa using outgoing
    · obtain rfl := other y same
      simp only [update_of_ne same, if_neg same]
      exact ((inv.sending x.peer).congr inStream inAcked inBlocks).wire_append foreign
  · intro y
    by_cases same : y = x
    · subst same
      simpa [y.peer_ne] using incoming
    · obtain rfl := other y same
      simp only [update_of_ne same, Side.peer_peer, if_true]
      have receiver := inv.receiving x.peer
      rw [Side.peer_peer] at receiver
      exact (receiver.congr outReceived outAcks).wire_append foreign
  · intro y
    by_cases same : y = x
    · subst same
      simpa using sound _ _ outStep (inv.sound y)
    · simpa [same] using sound _ _ inStep (inv.sound x.peer)

/-- Two hosts right after their handshake. Segments of the handshake may still be in flight.
-/
structure Connected (l : Link) (n : Net) : Prop where
  registered : ∀ x, Registered (n.host x).kernel (l.socket x) (l.endpoint x)
  fresh : ∀ x, Fresh (l.socket x) (n.host x)
  empty : ∀ x, EmptyBuffer (l.socket x) (n.host x)
  nextSeq : ∀ x, (n.tcon l x).nextSeq = initialSeq + 1
  ackSent : ∀ x, (n.tcon l x).ackSent = initialSeq + 1
  sent : ∀ x, (n.host x).sent = []
  returned : ∀ x, (n.host x).returned = []
  addressed : Addressed l n.wire
  handshake
    : ∀ d ∈ n.wire,
        (flagsOf (memoryOf d.bytes) 0 &&& tcpFlagAck = 0
          → seqNumOf (memoryOf d.bytes) 0 = initialSeq)
        ∧ (flagsOf (memoryOf d.bytes) 0 &&& tcpFlagAck ≠ 0
          → ackNumOf (memoryOf d.bytes) 0 = initialSeq + 1)

theorem NetInv.of_connected (connected : Connected l n)
    : NetInv l n fun _ => { Flow.start with acks := insert 0 ∅ } := by
  refine ⟨?_, connected.addressed, ?_, ?_, ?_⟩
  · intro x
    have fresh := connected.fresh x
    have items : ((n.host x).tcon (l.socket x)).window.items = [] := by
      obtain ⟨q, window⟩ := fresh.window
      rw [window, items_initQueue]
    refine ⟨connected.registered x, SendInv.of_fresh fresh, ?_, ?_, fun _ => items, ?_⟩
    · simp [fresh.idle]
    · simp [items]
    · simp [(connected.empty x).reader]
  · intro x
    have next : ((n.host x).tcon (l.socket x)).nextSeq = 1 := connected.nextSeq x
    have items : ((n.host x).tcon (l.socket x)).window.items = [] := by
      obtain ⟨q, window⟩ := (connected.fresh x).window
      rw [window, items_initQueue]
    refine ⟨by simp [connected.sent x, Flow.start], ?_, by rw [next]; rfl, ?_, ?_, ?_⟩
    · rw [connected.sent x, next]
      rfl
    · rw [(connected.fresh x).agreed, next]
      decide
    · intro d member _ data
      exact Or.inl ((connected.handshake d member).1 data)
    · simp [items]
  · intro x
    have empty := connected.empty x
    have ackSent : ((n.host x).tcon (l.socket x)).ackSent = 1 := connected.ackSent x
    refine ⟨by simp [Flow.start, empty.end_], by rw [ackSent]; rfl, rfl,
      by rw [empty.offset], by simp [Flow.start, empty.offset], ?_, ?_⟩
    · simp [connected.returned x, Flow.start]
    · intro d member _ acknowledges
      refine ⟨0, Set.mem_insert _ _, ?_⟩
      rw [(connected.handshake d member).2 acknowledges]
      rfl
  · intro x
    exact Flow.start_sound.step (.confirm Flow.start)

/-- The bytes that a side has read are a beginning of what the other side has sent, and the
segments that were sent follow each other in the sequence space.
-/
def Net.InOrder (l : Link) (n : Net) : Prop :=
  ∀ x : Side,
    (n.host x.peer).returned <+: n.stream x
    ∧ Tiles (fun segment : Segment => segment.seq.toNat)
        (fun segment => segment.data.length) 1 (n.host x).sent (n.tcon l x).nextSeq.toNat

/-- The other side has appended every byte that this side has sent. -/
structure Net.Appended (l : Link) (n : Net) (x : Side) : Prop where
  end_ : ((n.host x.peer).kernel.sockets (l.socket x.peer)).end_ = (n.stream x).length
  bytes
    : slice ((n.host x.peer).kernel.sockets (l.socket x.peer)).buffer 0 (n.stream x).length
      = n.stream x
  number : (n.tcon l x.peer).ackSent = (n.tcon l x).nextSeq

/-- What was received is a part of what was sent, from its start. -/
theorem NetInv.inOrder (inv : NetInv l n flow)
    : n.InOrder l := by
  intro x
  have sender := inv.sending x
  have receiver := inv.receiving x.peer
  rw [Side.peer_peer] at receiver
  refine ⟨?_, sender.sequence⟩
  rw [receiver.returned, Net.stream, sender.stream]
  exact (List.take_prefix _ _).trans (inv.sound x).received

theorem NetInv.appended (inv : NetInv l n flow) (done : (n.tcon l x).baseSeq = (n.tcon l x).nextSeq)
    : n.Appended l x := by
  have sender := inv.sending x
  have receiver := inv.receiving x.peer
  rw [Side.peer_peer] at receiver
  have sound := inv.sound x
  have next : (n.tcon l x).nextSeq.toNat = 1 + (flow x).stream.length := sender.next
  have base : (n.tcon l x).baseSeq.toNat ≤ 1 + (flow x).acked := sender.base
  have complete : (flow x).received = (flow x).stream := by
    apply sound.complete
    have lower := sound.acked
    have upper := sound.received.length_le
    rw [done] at base
    omega
  have stream : n.stream x = (flow x).received := by
    rw [complete]
    exact sender.stream
  refine ⟨by rw [stream]; exact receiver.end_, by rw [stream]; exact receiver.buffer, ?_⟩
  apply UInt32.toNat_inj.mp
  rw [next, ← complete]
  exact receiver.ackSent

/-- Reliable delivery: in every run from the handshake on, what a side reads is a beginning of
what the other side sends, and whenever a call of `tcp_tx` returns, the other side has
appended everything sent so far.
-/
theorem reliable_delivery (l : Link) (n : Net) (actions : List NetAction)
    (connected : Connected l n) (bounded : Along (Net.step l) (Net.Bounded l) n actions)
    : Throughout (Net.step l) (Net.InOrder l) n actions
      ∧ Along (Net.step l)
          (fun n a => ∀ next, n.step l a = some next → (n.host a.side).tx.isSome
            → (next.host a.side).tx = none → next.Appended l a.side)
          n actions := by
  have initially : ∃ flow, NetInv l n flow := ⟨_, NetInv.of_connected connected⟩
  have kept (n : Net) (a : NetAction) (next : Net) (inv : ∃ flow, NetInv l n flow)
      (guard : n.Bounded l a) (taken : n.step l a = some next) : ∃ flow, NetInv l next flow := by
    obtain ⟨flow, inv⟩ := inv
    exact inv.step guard taken
  constructor
  · exact (bounded.invariant initially kept).mono fun n ⟨flow, inv⟩ => inv.inOrder
  · refine bounded.strengthen initially kept fun n a inv guard next taken calling returned => ?_
    obtain ⟨flow', inv'⟩ := kept n a next inv guard taken
    obtain ⟨flow, inv⟩ := inv
    apply inv'.appended
    obtain ⟨-, c, log, move, rfl⟩ := Net.step_move taken
    simp only [Net.tcon, update_self] at returned ⊢
    obtain ⟨t, running, allowed, same⟩ := move.returns calling returned
    rw [same]
    exact (((inv.host a.side).call t running).1.returns allowed).2

/-- Hosts 1 and 2, connected by port 1024 of the first and port 80 of the second. -/
def oneLink : Link where
  ip
    | .left => 1
    | .right => 2
  port
    | .left => 1024
    | .right => 80
  socket _ := 0
  distinct := by decide

def oneNet : Net where
  host
    | .left => .unused ((Kernel.boot 1 0 0).withConnection 0 1024 2 80 1 1)
    | .right => .unused ((Kernel.boot 2 0 0).withConnection 0 80 1 1024 1 1)
  wire := []

theorem oneNet_connected : Connected oneLink oneNet where
  registered
    | .left => ⟨rfl, by decide, by decide, rfl, nofun, rfl, rfl, rfl, rfl⟩
    | .right => ⟨rfl, by decide, by decide, rfl, nofun, rfl, rfl, rfl, rfl⟩
  fresh
    | .left => ⟨rfl, rfl, ⟨.zero, rfl⟩, rfl⟩
    | .right => ⟨rfl, rfl, ⟨.zero, rfl⟩, rfl⟩
  empty
    | .left => ⟨rfl, rfl, rfl, rfl⟩
    | .right => ⟨rfl, rfl, rfl, rfl⟩
  nextSeq
    | .left | .right => rfl
  ackSent
    | .left | .right => rfl
  sent
    | .left | .right => rfl
  returned
    | .left | .right => rfl
  addressed := nofun
  handshake := nofun

/-- One byte is written, sent, received and read, its ACK comes back, and `tcp_tx` returns. -/
def oneByteRun : List NetAction :=
  [⟨.left, .write [7]⟩, ⟨.left, .advance fun _ => 0⟩,
    ⟨.right, .receive
      ⟨tcpPack (fun _ => 0) 1 1024 80 2 1 0 0 20 [7], fun _ => 0, none⟩ 0 21 1⟩,
    ⟨.right, .read 5⟩,
    ⟨.left, .receive
      ⟨tcpPack (fun _ => 0) 2 80 1024 1 0 2 tcpFlagAck 20 [], fun _ => 0, none⟩ 0 20 2⟩,
    ⟨.left, .advance fun _ => 0⟩, ⟨.left, .advance fun _ => 0⟩]

/-- Witness: one byte from left to right, with its acknowledgement. -/
theorem reliable_delivery_one_byte
    : ((exec (Net.step oneLink) oneNet oneByteRun).map fun n =>
          ((n.host .right).returned, (n.host .left).tx.isNone)) = some ([7], true)
      ∧ Throughout (Net.step oneLink) (Net.InOrder oneLink) oneNet oneByteRun
      ∧ Along (Net.step oneLink)
          (fun n a => ∀ next, n.step oneLink a = some next → (n.host a.side).tx.isSome
            → (next.host a.side).tx = none → next.Appended oneLink a.side)
          oneNet oneByteRun :=
  ⟨by decide, reliable_delivery oneLink oneNet oneByteRun oneNet_connected (by decide)⟩

end Xv6Net
