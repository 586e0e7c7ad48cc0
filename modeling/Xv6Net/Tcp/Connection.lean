import Xv6Net.Library.Transition
import Xv6Net.Tcp.Transmit

/-! One established connection of a host in use: a writer in `socketwrite`, a reader in
`socketread`, and segments that arrive at any time. The history fields record the segments
that `tcp_tx` has sent, without its resends, and the bytes that `socketread` has returned.
-/

namespace Xv6Net

open Library Memory Kernel

structure Segment where
  seq : UInt32
  data : List UInt8
  deriving DecidableEq, Repr

/-- A transport segment with the addresses that `ip_send` puts on it. -/
structure Datagram where
  srcIp : UInt32
  dstIp : UInt32
  bytes : List UInt8
  deriving DecidableEq, Repr

/-- The memory that holds the bytes from address 0 on. -/
def memoryOf (bytes : List UInt8) : Int → UInt8 := overlay (fun _ => 0) 0 bytes

/-- The datagram that an event puts on the wire. -/
def Event.datagram : Event → Option Datagram
  | .ipSend _ payload srcIp dstIp _ => some { srcIp, dstIp, bytes := payload }
  | _ => none

/-- The data segment of a datagram without TCP options. -/
def Datagram.segment (d : Datagram) : Segment :=
  { seq := seqNumOf (memoryOf d.bytes) 0, data := d.bytes.drop tcpHeaderMinSize }

/-- The number of bytes that `socketread` takes out of the buffer. -/
def Socket.readCount (socket : Socket) (size : Int) : Int :=
  let maxbytes := socket.end_ - socket.offset
  if maxbytes ≥ size then size else maxbytes

/-- The part of `socketread` behind its wait: the bytes are copied to the caller. -/
def socketreadCopy (s : Nat) (size : Int) : KernelM (List UInt8) := do
  let socket := (← Program.get).sockets s
  let bytes := socket.readCount size
  let data := slice socket.buffer socket.offset (moveCount bytes)
  Program.emit (.copyOut s data)
  Program.modify (·.setSocket s fun socket => { socket with offset := socket.offset + bytes })
  pure data

def Kernel.setState (k : Kernel) (s : Nat) (state : SocketState) : Kernel :=
  k.setSocket s fun socket => { socket with state }

structure Conn where
  kernel : Kernel
  /-- The call of `tcp_tx` in progress. -/
  tx : Option TxCall
  /-- The size asked for by the `socketread` that sleeps for data. -/
  reader : Option Int
  /-- The segments that `tcp_tx` has sent, oldest first. -/
  sent : List Segment
  /-- The bytes that `socketread` has returned. -/
  returned : List UInt8

inductive ConnAction where
  /-- The writer calls `socketwrite`. -/
  | write (payload : List UInt8)
  /-- The next step of `tcp_tx`. -/
  | advance (stale : Int → UInt8)
  /-- The reader calls `read`, which rejects a negative size before `socketread`. -/
  | read (n : Int)
  /-- The sleeping reader goes on. -/
  | wake
  /-- `tcp_receive` runs on the `size` bytes at `seg` of the received packet. -/
  | receive (env : Env) (seg size : Int) (srcIp : UInt32)

/-- The socket that a handshake leaves, with the sequence numbers it agreed on. -/
def Socket.connected (addr : UInt32) (port : UInt16) (dstAddr : UInt32) (dstPort : UInt16)
    (seq ack : UInt32)
    : Socket :=
  { Socket.zero with
    addr, port
    state := .connected
    allocated := true
    tcon := { TcpConnection.zero with
      state := .established
      dstAddr, dstPort
      window := initQueue .zero
      baseSeq := seq
      nextSeq := seq
      ackSent := ack } }

/-- The host with socket `s` connected as the active socket of its port. -/
def Kernel.withConnection (k : Kernel) (s : Nat) (port : UInt16) (dstAddr : UInt32)
    (dstPort : UInt16) (seq ack : UInt32)
    : Kernel :=
  (k.setSocket s fun _ => .connected k.myip port dstAddr dstPort seq ack).setPort port.toNat
    fun _ => { pid := 1, activeSocket := some s, passiveSocket := none }

namespace Conn

/-- What is left of the reader's call once there is data, or a spurious wakeup. -/
def finishRead (s : Nat) (c : Conn) (n : Int) : Option (Conn × List Event) :=
  let out := (socketreadCopy s n).run ⟨fun _ => 0, fun _ => 0, none⟩ c.kernel
  out.value.map fun data =>
    ({ c with kernel := out.state, reader := none, returned := c.returned ++ data }, out.log)

/-- One step of the connection of socket `s`, with what it logs; `none` if the action is not
possible now.
-/
def act (s : Nat) (c : Conn) : ConnAction → Option (Conn × List Event)
  | .write payload =>
    if c.tx.isSome then
      none
    else if (c.kernel.sockets s).tcon.state ≠ .established then
      some (c, [])
    else
      some ({ c with tx := some (.start payload) }, [])
  | .advance stale =>
    match c.tx with
    | none => none
    | some t =>
      let out := (tcpTxStep s t).run ⟨fun _ => 0, stale, none⟩ c.kernel
      out.value.map fun t' =>
        ({ c with
            kernel := out.state
            tx := if t'.phase = .returned then none else some t'
            sent :=
              if t'.i = t.i then c.sent
              else c.sent ++ (out.log.filterMap Event.datagram).map Datagram.segment },
          out.log)
  | .read n =>
    let socket := c.kernel.sockets s
    if c.reader.isSome then
      none
    else if n < 0 ∨ socket.tcon.state ≠ .established then
      some (c, [])
    else if socket.offset = socket.end_ then
      some ({ c with kernel := c.kernel.setState s .wait, reader := some n }, [])
    else
      c.finishRead s n
  | .wake =>
    match c.reader with
    | none => none
    | some n => Conn.finishRead s { c with kernel := c.kernel.setState s .connected } n
  | .receive env seg size srcIp =>
    let out := (tcpReceive seg size srcIp).run env c.kernel
    some ({ c with kernel := out.state }, out.log)

def step (s : Nat) (c : Conn) (action : ConnAction) : Option Conn :=
  (c.act s action).map Prod.fst

def tcon (s : Nat) (c : Conn) : TcpConnection := (c.kernel.sockets s).tcon

def unused (kernel : Kernel) : Conn :=
  { kernel, tx := none, reader := none, sent := [], returned := [] }

/-- The connection after the reader's call has returned. -/
def afterRead (s : Nat) (c : Conn) (n : Int) : Conn :=
  let socket := c.kernel.sockets s
  { c with
    kernel := c.kernel.setSocket s fun socket =>
      { socket with offset := socket.offset + socket.readCount n }
    reader := none
    returned :=
      c.returned ++ slice socket.buffer socket.offset (moveCount (socket.readCount n)) }

/-- The connection after a pass of the send loop. -/
def afterSend (s : Nat) (c : Conn) (t : TxCall) (stale : Int → UInt8) : Conn :=
  { c with
    kernel := c.kernel.setTcon s fun tcon =>
      tcon.queueSegment t.windowOffset (dataPacket stale c.kernel s t.data) t.data.length
    tx := some { t with
      i := t.i + 1
      windowOffset := (t.windowOffset + 1) % windowLength
      phase := .full }
    sent := c.sent ++ [{ seq := (c.tcon s).nextSeq, data := t.data }] }

end Conn

/-- Everything that a step of a connection can do, with the connection it leaves and what
it logs.
-/
inductive ConnMove (s : Nat) (c : Conn) : ConnAction → Conn → List Event → Prop where
  | writeRefused (payload : List UInt8) : ConnMove s c (.write payload) c []
  | readRefused (n : Int) : ConnMove s c (.read n) c []
  | write (payload : List UInt8) (idle : c.tx = none)
      : ConnMove s c (.write payload) { c with tx := some (.start payload) } []
  | send (stale : Int → UInt8) (t : TxCall) (calling : c.tx = some t)
      (phase : t.phase = .loop) (more : t.i < t.numIter)
      (room : isQueueFull (c.tcon s).window = false)
      : ConnMove s c (.advance stale) (c.afterSend s t stale)
          [dataEvent stale c.kernel s t.data]
  | resend (stale : Int → UInt8) (t : TxCall) (calling : c.tx = some t)
      (waiting : t.Waits (c.tcon s))
      : ConnMove s c (.advance stale) c (resendLog c.kernel s)
  | moveOn (stale : Int → UInt8) (t : TxCall) (calling : c.tx = some t) (phase : TxPhase)
      (allowed : t.CanEnter (c.tcon s) phase)
      : ConnMove s c (.advance stale)
          { c with tx := if phase = .returned then none else some { t with phase } } []
  | sleep (n : Int) (sized : 0 ≤ n)
      (atEnd : (c.kernel.sockets s).offset = (c.kernel.sockets s).end_)
      : ConnMove s c (.read n)
          { c with kernel := c.kernel.setState s .wait, reader := some n } []
  | read (n : Int) (sized : 0 ≤ n)
      : ConnMove s c (.read n) (c.afterRead s n)
          [.copyOut s (slice (c.kernel.sockets s).buffer (c.kernel.sockets s).offset
            (moveCount ((c.kernel.sockets s).readCount n)))]
  | wake (n : Int) (sleeping : c.reader = some n)
      : ConnMove s c .wake
          (Conn.afterRead s { c with kernel := c.kernel.setState s .connected } n)
          [.copyOut s (slice (c.kernel.sockets s).buffer (c.kernel.sockets s).offset
            (moveCount ((c.kernel.sockets s).readCount n)))]
  | receive (env : Env) (seg size : Int) (srcIp : UInt32) (extra : List Event)
      (header : extra = [] ∨ extra = [.read seg 2])
      : ConnMove s c (.receive env seg size srcIp)
          { c with kernel := c.kernel.receive env.frame seg size srcIp }
          (receiveLog env c.kernel seg size srcIp extra)

/-- A datagram without TCP options, by what its receiver decodes. -/
structure Datagram.Carries (d : Datagram) (srcPort dstPort : UInt16) (seq ack : UInt32)
    (flags : UInt8) (data : List UInt8)
    : Prop where
  length : d.bytes.length = 20 + data.length
  srcPort : srcPortOf (memoryOf d.bytes) 0 = srcPort
  dstPort : dstPortOf (memoryOf d.bytes) 0 = dstPort
  seq : seqNumOf (memoryOf d.bytes) 0 = seq
  ack : ackNumOf (memoryOf d.bytes) 0 = ack
  flags : flagsOf (memoryOf d.bytes) 0 = flags
  header : hdrSizeOf (memoryOf d.bytes) 0 = 20
  data : d.bytes.drop 20 = data

theorem slice_memoryOf (bytes : List UInt8) : slice (memoryOf bytes) 0 bytes.length = bytes :=
  slice_overlay _ 0 bytes

theorem carries_tcpPack (packet : Int → UInt8) (srcIp dstIp : UInt32)
    (srcPort dstPort : UInt16) (seq ack : UInt32) (flags : UInt8) (data : List UInt8)
    : Datagram.Carries
        { srcIp, dstIp
          bytes := slice
            (tcpPack packet srcIp srcPort dstPort dstIp seq ack flags 20 data) 0
            (20 + data.length) }
        srcPort dstPort seq ack flags data := by
  have same := slice_memoryOf
    (slice (tcpPack packet srcIp srcPort dstPort dstIp seq ack flags 20 data) 0
      (20 + data.length))
  rw [length_slice] at same
  obtain ⟨src, dst, number, reply, header, flag⟩ := header_congr same (by omega)
  refine ⟨length_slice .., src.trans (srcPortOf_tcpPack ..), dst.trans (dstPortOf_tcpPack ..),
    number.trans (seqNumOf_tcpPack ..), reply.trans (ackNumOf_tcpPack ..),
    flag.trans (flagsOf_tcpPack ..), header.trans (hdrSizeOf_tcpPack ..), ?_⟩
  rw [drop_slice]
  exact slice_tcpPack_data ..

namespace Conn

/-- The datagram of a pass carries the next sequence number and the piece of the payload. -/
theorem segment_dataEvent (stale : Int → UInt8) (k : Kernel) (s : Nat) (data : List UInt8)
    : ([dataEvent stale k s data].filterMap Event.datagram).map Datagram.segment
      = [{ seq := (k.sockets s).tcon.nextSeq, data }] := by
  have carried := carries_tcpPack stale k.myip (k.sockets s).tcon.dstAddr (k.sockets s).port
    (k.sockets s).tcon.dstPort (k.sockets s).tcon.nextSeq 0 0 data
  simp [dataEvent, dataPacket, Event.datagram, Datagram.segment, carried.seq, carried.data]

theorem afterSend_tcon (s : Nat) (c : Conn) (t : TxCall) (stale : Int → UInt8)
    : (c.afterSend s t stale).tcon s
      = (c.tcon s).queueSegment t.windowOffset (dataPacket stale c.kernel s t.data)
          t.data.length := by
  simp [afterSend, tcon, setTcon_sockets]

theorem finishRead_eq (s : Nat) (c : Conn) (n : Int)
    : c.finishRead s n
      = some (c.afterRead s n,
          [.copyOut s (slice (c.kernel.sockets s).buffer (c.kernel.sockets s).offset
            (moveCount ((c.kernel.sockets s).readCount n)))]) := by
  simp [finishRead, socketreadCopy, afterRead]
  rfl

theorem act_move {s : Nat} {c next : Conn} {action : ConnAction} {log : List Event}
    (taken : c.act s action = some (next, log))
    : ConnMove s c action next log := by
  cases action with
  | write payload =>
    simp only [act] at taken
    split at taken
    · cases taken
    · rename_i idle
      split at taken
      · cases taken
        exact .writeRefused payload
      · cases taken
        exact .write payload (by simpa using idle)
  | advance stale =>
    simp only [act] at taken
    cases calling : c.tx with
    | none => simp [calling] at taken
    | some t =>
      simp only [calling] at taken
      have move := tcpTxStep_move ⟨fun _ => 0, stale, none⟩ c.kernel s t
      generalize (tcpTxStep s t).run ⟨fun _ => 0, stale, none⟩ c.kernel = out
        at move taken
      cases move with
      | send phase more room =>
        simp only [Option.map_some, Option.some.injEq, Prod.mk.injEq, segment_dataEvent] at taken
        obtain ⟨rfl, rfl⟩ := taken
        simpa [afterSend, tcon] using ConnMove.send stale t calling phase more room
      | resend waiting =>
        have running : t.phase ≠ .returned := by
          rcases waiting with ⟨phase, -⟩ | ⟨phase, -⟩ <;> simp [phase]
        simp only [Option.map_some, Option.some.injEq, Prod.mk.injEq, if_neg running,
          if_true] at taken
        obtain ⟨rfl, rfl⟩ := taken
        have same : { c with tx := some t } = c := by rw [← calling]
        rw [same]
        exact .resend stale t calling waiting
      | moveOn phase allowed =>
        simp only [Option.map_some, Option.some.injEq, Prod.mk.injEq, if_true]
          at taken
        obtain ⟨rfl, rfl⟩ := taken
        exact .moveOn stale t calling phase allowed
  | read n =>
    simp only [act] at taken
    split at taken
    · cases taken
    · split at taken
      · cases taken
        exact .readRefused n
      · rename_i accepted
        obtain ⟨sized, -⟩ := not_or.mp accepted
        split at taken
        · rename_i atEnd
          cases taken
          exact .sleep n (by omega) atEnd
        · rw [finishRead_eq] at taken
          cases taken
          exact .read n (by omega)
  | wake =>
    simp only [act] at taken
    cases sleeping : c.reader with
    | none => simp [sleeping] at taken
    | some n =>
      simp only [sleeping, finishRead_eq] at taken
      cases taken
      simpa [setState, Socket.readCount, sleeping]
        using ConnMove.wake n sleeping
  | receive env seg size srcIp =>
    obtain ⟨extra, header, run⟩ := tcpReceive_run env c.kernel seg size srcIp
    simp only [act, run] at taken
    cases taken
    exact .receive env seg size srcIp extra header

end Conn

variable {s : Nat} {c next : Conn} {action : ConnAction}

theorem Conn.step_move (taken : c.step s action = some next)
    : ∃ log, ConnMove s c action next log := by
  obtain ⟨⟨after, log⟩, acted, rfl⟩ := Option.map_eq_some_iff.mp taken
  exact ⟨log, act_move acted⟩

/-- The step in which a call of `tcp_tx` returns changes nothing else. -/
theorem ConnMove.returns {log : List Event}
    (move : ConnMove s c action next log) (calling : c.tx.isSome) (returned : next.tx = none)
    : ∃ t, c.tx = some t ∧ t.CanEnter (c.tcon s) .returned ∧ next.tcon s = c.tcon s := by
  obtain ⟨t, running⟩ := Option.isSome_iff_exists.mp calling
  have unfinished (same : next.tx = c.tx) : False := by
    rw [same, running] at returned
    cases returned
  cases move with
  | moveOn stale t' calling' phase allowed =>
    simp only at returned
    split at returned
    · rename_i final
      subst final
      exact ⟨t', calling', allowed, rfl⟩
    · cases returned
  | write | send => cases returned
  | writeRefused | readRefused | resend | sleep | read | wake | receive =>
    exact (unfinished rfl).elim

/-- One end of a connection: the addresses and ports of this host and of its peer. -/
structure Endpoint where
  ip : UInt32
  port : UInt16
  peerIp : UInt32
  peerPort : UInt16

/-- Socket `s` is the established active socket of its port; a passive socket beside it
listens.
-/
structure Registered (k : Kernel) (s : Nat) (e : Endpoint) : Prop where
  myip : k.myip = e.ip
  inRange : e.port.toNat < nPorts
  owned : (k.ports e.port.toNat).pid ≠ -1
  active : (k.ports e.port.toNat).activeSocket = some s
  passive
    : ∀ psoc, (k.ports e.port.toNat).passiveSocket = some psoc
        → (k.sockets psoc).tcon.state = .listen
  port : (k.sockets s).port = e.port
  state : (k.sockets s).tcon.state = .established
  dstAddr : (k.sockets s).tcon.dstAddr = e.peerIp
  dstPort : (k.sockets s).tcon.dstPort = e.peerPort

namespace Registered

variable {k next : Kernel} {s : Nat} {e : Endpoint}

/-- Registration looks at the port table and at what the sockets are connected to. -/
theorem of_same (registered : Registered k s e) (myip : next.myip = k.myip)
    (ports : next.ports = k.ports) (sockets : ∀ i, SameEndpoint (k.sockets i) (next.sockets i))
    : Registered next s e where
  myip := myip.trans registered.myip
  inRange := registered.inRange
  owned := by
    rw [ports]
    exact registered.owned
  active := by
    rw [ports]
    exact registered.active
  passive := by
    rw [ports]
    intro psoc listening
    rw [(sockets psoc).tcpState]
    exact registered.passive psoc listening
  port := (sockets s).port.trans registered.port
  state := (sockets s).tcpState.trans registered.state
  dstAddr := (sockets s).dstAddr.trans registered.dstAddr
  dstPort := (sockets s).dstPort.trans registered.dstPort

theorem setSocket (registered : Registered k s e) (i : Nat) {f : Socket → Socket}
    (same : SameEndpoint (k.sockets i) (f (k.sockets i)))
    : Registered (k.setSocket i f) s e := by
  refine registered.of_same rfl rfl fun other => ?_
  by_cases changed : other = i
  · subst changed
    simpa using same
  · rw [setSocket_sockets, Function.update_of_ne changed]
    exact ⟨rfl, rfl, rfl, rfl, rfl⟩

theorem step {c after : Conn} {action : ConnAction} {log : List Event}
    (registered : Registered c.kernel s e) (move : ConnMove s c action after log)
    : Registered after.kernel s e := by
  cases move with
  | writeRefused | readRefused | write | resend | moveOn => exact registered
  | send =>
    simp only [Conn.afterSend, setTcon]
    refine registered.setSocket s ?_
    exact ⟨rfl, rfl, rfl, rfl, rfl⟩
  | sleep =>
    simp only [setState]
    refine registered.setSocket s ?_
    exact ⟨rfl, rfl, rfl, rfl, rfl⟩
  | read =>
    simp only [Conn.afterRead]
    refine registered.setSocket s ?_
    exact ⟨rfl, rfl, rfl, rfl, rfl⟩
  | wake =>
    simp only [Conn.afterRead, setState, setSocket_setSocket]
    refine registered.setSocket s ?_
    exact ⟨rfl, rfl, rfl, rfl, rfl⟩
  | receive env seg size srcIp =>
    exact registered.of_same (receive_myip ..) (receive_ports ..)
      fun other => receive_endpoint c.kernel env.frame seg size srcIp other

/-- A segment without SYN for the port of a registered socket goes to that socket. -/
theorem disposition_eq (registered : Registered k s e) {mem : Int → UInt8}
    {seg size : Int} {srcIp : UInt32}
    (valid : checksum mem seg size (pseudoIpSum e.ip srcIp (UInt16.ofInt size)) = 0)
    (dst : dstPortOf mem seg = e.port) (noSyn : flagsOf mem seg &&& tcpFlagSyn = 0)
    : disposition k mem seg size srcIp = activeDisposition k mem seg srcIp s := by
  have admitted : Admitted k mem seg size srcIp := by
    refine ⟨?_, ?_, ?_⟩
    · rw [registered.myip]
      exact valid
    · rw [dst]
      exact registered.inRange
    · rw [dst]
      exact registered.owned
  simp only [disposition, if_pos admitted, dst, registered.active]
  cases passive : (k.ports e.port.toNat).passiveSocket with
  | none => rfl
  | some psoc =>
    have listening := registered.passive psoc passive
    simp [passiveDisposition, listening, noSyn]

end Registered

end Xv6Net
