import Xv6Net.Tcp.Disposition

/-! `tcp_tx` as a sequence of steps between which segments may be received: one pass of the
send loop, a resend of the front packet of the window, and the tests that lead from one to
the other.
-/

namespace Xv6Net

open Library Memory

/-- Where `tcp_tx` is: at the head of its loop, in the inner loop that waits for room in the
window, in the one that waits for the last acknowledgement, or done.
-/
inductive TxPhase where
  | loop | full | last | returned
  deriving DecidableEq, Repr

/-- The arguments and local variables of a call of `tcp_tx`. -/
structure TxCall where
  payload : List UInt8
  i : Nat
  windowOffset : Nat
  phase : TxPhase

namespace TxCall

def start (payload : List UInt8) : TxCall :=
  { payload, i := 0, windowOffset := 0, phase := .loop }

/-- `num_iter`. -/
def numIter (t : TxCall) : Nat := t.payload.length / mss + 1

/-- `current_payload_size`. -/
def currentPayloadSize (t : TxCall) : Nat :=
  if t.i = t.payload.length / mss then t.payload.length % mss else mss

/-- The bytes that `tcp_pack` copies: `payload` itself never moves. -/
def data (t : TxCall) : List UInt8 := t.payload.take t.currentPayloadSize

end TxCall

/-- One pass of the send loop with room in the window. -/
def tcpTxSend (s : Nat) (t : TxCall) : KernelM TxCall := do
  let env ← Program.env
  let k ← Program.get
  let socket := k.sockets s
  let tcon := socket.tcon
  let pkt := tcpPack env.stale k.myip socket.port tcon.dstPort tcon.dstAddr tcon.nextSeq 0 0
    (UInt8.ofNat tcpHeaderMinSize) t.data
  let totalSize := tcpHeaderMinSize + t.currentPayloadSize
  Program.modify (·.setTcon s fun tcon =>
    { tcon with
      pkts := Function.update tcon.pkts t.windowOffset
        { seq := tcon.nextSeq
          size := totalSize
          pkt := overlay (tcon.pkts t.windowOffset).pkt 0 (slice pkt 0 totalSize) }
      window := enqueue tcon.window (slotPtr t.windowOffset) })
  Program.emit
    (.ipSend ipProtocolTcp (slice pkt 0 totalSize) k.myip tcon.dstAddr totalSize)
  Program.modify (·.setTcon s fun tcon =>
    { tcon with nextSeq := tcon.nextSeq + UInt32.ofNat t.currentPayloadSize })
  pure { t with i := t.i + 1, windowOffset := (t.windowOffset + 1) % windowLength }

/-- `tcp_resend` of the front packet, if there is one. -/
def tcpTxResend (s : Nat) : KernelM Unit := do
  let k ← Program.get
  let tcon := (k.sockets s).tcon
  let qp := getFront tcon.window
  if qp ≠ 0 then
    Program.emit
      (.ipSend ipProtocolTcp (slice (tcon.slot qp).pkt 0 (tcon.slot qp).size.toNat) k.myip
        tcon.dstAddr (tcon.slot qp).size)
  else
    pure ()

/-- The next step of `tcp_tx`. -/
def tcpTxStep (s : Nat) (t : TxCall) : KernelM TxCall := do
  let tcon := ((← Program.get).sockets s).tcon
  match t.phase with
  | .loop =>
    if t.i < t.numIter then
      if isQueueFull tcon.window = false then
        let t ← tcpTxSend s t
        pure { t with phase := .full }
      else
        pure { t with phase := .full }
    else
      pure { t with phase := .returned }
  | .full =>
    if isQueueFull tcon.window = true then
      tcpTxResend s
      pure t
    else if t.i = t.numIter then
      pure { t with phase := .last }
    else
      pure { t with phase := .loop }
  | .last =>
    if tcon.baseSeq ≠ tcon.nextSeq then
      tcpTxResend s
      pure t
    else
      pure { t with phase := .returned }
  | .returned => pure t

/-- The packet that the next pass of the send loop builds. -/
def dataPacket (stale : Int → UInt8) (k : Kernel) (s : Nat) (data : List UInt8)
    : Int → UInt8 :=
  let socket := k.sockets s
  tcpPack stale k.myip socket.port socket.tcon.dstPort socket.tcon.dstAddr
    socket.tcon.nextSeq 0 0 20 data

/-- The segment that the next pass of the send loop hands to `ip_send`. -/
def dataEvent (stale : Int → UInt8) (k : Kernel) (s : Nat) (data : List UInt8) : Event :=
  .ipSend ipProtocolTcp (slice (dataPacket stale k s data) 0 (20 + data.length)) k.myip
    (k.sockets s).tcon.dstAddr (20 + data.length)

/-- The connection after a segment was stored in a slot, queued and sent. -/
def TcpConnection.queueSegment (tcon : TcpConnection) (slot : Nat) (pkt : Int → UInt8) (size : Nat)
    : TcpConnection :=
  { tcon with
    pkts := Function.update tcon.pkts slot
      { seq := tcon.nextSeq
        size := 20 + size
        pkt := overlay (tcon.pkts slot).pkt 0 (slice pkt 0 (20 + size)) }
    window := enqueue tcon.window (slotPtr slot)
    nextSeq := tcon.nextSeq + UInt32.ofNat size }

/-- The packet at the front of the window, as `tcp_resend` sends it. -/
def resendLog (k : Kernel) (s : Nat) : List Event :=
  let tcon := (k.sockets s).tcon
  let qp := getFront tcon.window
  if qp ≠ 0 then
    [.ipSend ipProtocolTcp (slice (tcon.slot qp).pkt 0 (tcon.slot qp).size.toNat) k.myip
      tcon.dstAddr (tcon.slot qp).size]
  else
    []

/-- The call can go on to a phase without sending anything. -/
def TxCall.CanEnter (t : TxCall) (tcon : TcpConnection) : TxPhase → Prop
  | .loop => t.phase = .full ∧ isQueueFull tcon.window = false ∧ t.i ≠ t.numIter
  | .full => t.phase = .loop ∧ isQueueFull tcon.window = true ∧ t.i < t.numIter
  | .last => t.phase = .full ∧ isQueueFull tcon.window = false ∧ t.i = t.numIter
  | .returned =>
    (t.phase = .last ∧ tcon.baseSeq = tcon.nextSeq)
    ∨ (t.phase = .loop ∧ t.numIter ≤ t.i)
    ∨ t.phase = .returned

/-- The call waits for an acknowledgement, and sends the front packet again meanwhile. -/
def TxCall.Waits (t : TxCall) (tcon : TcpConnection) : Prop :=
  (t.phase = .full ∧ isQueueFull tcon.window = true)
  ∨ (t.phase = .last ∧ tcon.baseSeq ≠ tcon.nextSeq)

/-- Everything that a step of `tcp_tx` can do. -/
inductive TxMove (env : Env) (k : Kernel) (s : Nat) (t : TxCall)
    : Outcome Kernel Event TxCall → Prop where
  | send (phase : t.phase = .loop) (more : t.i < t.numIter)
      (room : isQueueFull (k.sockets s).tcon.window = false)
      : TxMove env k s t
          ⟨some { t with
              i := t.i + 1
              windowOffset := (t.windowOffset + 1) % windowLength
              phase := .full },
            k.setTcon s fun tcon =>
              tcon.queueSegment t.windowOffset (dataPacket env.stale k s t.data)
                t.data.length,
            [dataEvent env.stale k s t.data]⟩
  | resend (waiting : t.Waits (k.sockets s).tcon)
      : TxMove env k s t ⟨some t, k, resendLog k s⟩
  | moveOn (phase : TxPhase) (allowed : t.CanEnter (k.sockets s).tcon phase)
      : TxMove env k s t ⟨some { t with phase }, k, []⟩

/-- The pieces of the payload are cut at `MSS`, and a piece never reaches past its end. -/
theorem TxCall.length_data (t : TxCall) (sending : t.i < t.numIter)
    : t.data.length = t.currentPayloadSize := by
  have bound : t.currentPayloadSize ≤ t.payload.length := by
    simp only [currentPayloadSize, numIter, mss] at *
    split <;> omega
  simp [data, bound]

variable (env : Env) (k : Kernel)

theorem tcpTxSend_run (s : Nat) (t : TxCall) (sending : t.i < t.numIter)
    : (tcpTxSend s t).run env k
      = ⟨some { t with i := t.i + 1, windowOffset := (t.windowOffset + 1) % windowLength },
          k.setTcon s fun tcon =>
            tcon.queueSegment t.windowOffset (dataPacket env.stale k s t.data) t.data.length,
          [dataEvent env.stale k s t.data]⟩ := by
  have size := t.length_data sending
  simp only [tcpTxSend, run_bind, run_env, run_get, run_modify, run_emit, run_pure, andThen_some,
    after_mk, Kernel.setTcon_setTcon, ← size]
  rfl

theorem tcpTxResend_run (s : Nat)
    : (tcpTxResend s).run env k = ⟨some (), k, resendLog k s⟩ := by
  simp only [tcpTxResend, resendLog, run_bind, run_get, andThen_some, run_ite, after_nil]
  split <;> rfl

/-- A step of `tcp_tx` sends, resends or goes on. -/
theorem tcpTxStep_move (s : Nat) (t : TxCall)
    : TxMove env k s t ((tcpTxStep s t).run env k) := by
  simp only [tcpTxStep, run_bind, run_get, andThen_some, after_nil]
  cases phase : t.phase with
  | loop =>
    simp only [run_ite]
    by_cases more : t.i < t.numIter
    · simp only [if_pos more]
      by_cases room : isQueueFull (k.sockets s).tcon.window = false
      · simp only [if_pos room, run_bind, tcpTxSend_run env k s t more,
          andThen_some, run_pure, after_mk, List.append_nil]
        exact .send phase more room
      · simp only [if_neg room]
        exact .moveOn .full ⟨phase, by simpa using room, more⟩
    · simp only [if_neg more]
      exact .moveOn .returned (Or.inr (Or.inl ⟨phase, not_lt.mp more⟩))
  | full =>
    simp only [run_ite]
    by_cases full : isQueueFull (k.sockets s).tcon.window = true
    · simp only [if_pos full, run_bind, tcpTxResend_run, andThen_some,
        run_pure, after_mk, List.append_nil]
      exact .resend (Or.inl ⟨phase, full⟩)
    · simp only [if_neg full]
      have room : isQueueFull (k.sockets s).tcon.window = false := by simpa using full
      by_cases done : t.i = t.numIter
      · simp only [if_pos done]
        exact .moveOn .last ⟨phase, room, done⟩
      · simp only [if_neg done]
        exact .moveOn .loop ⟨phase, room, done⟩
  | last =>
    simp only [run_ite]
    by_cases outstanding : (k.sockets s).tcon.baseSeq ≠ (k.sockets s).tcon.nextSeq
    · simp only [if_pos outstanding, run_bind, tcpTxResend_run,
        andThen_some, run_pure, after_mk, List.append_nil]
      exact .resend (Or.inr ⟨phase, outstanding⟩)
    · simp only [if_neg outstanding]
      exact .moveOn .returned (Or.inl ⟨phase, not_not.mp outstanding⟩)
  | returned =>
    have same : { t with phase := .returned } = t := by rw [← phase]
    have result : TxMove env k s t ⟨some { t with phase := .returned }, k, []⟩ :=
      .moveOn .returned (Or.inr (Or.inr phase))
    rwa [same] at result

namespace TxCall

/-- What holds of a call of `tcp_tx` between its steps. -/
structure Ok (t : TxCall) : Prop where
  bound : t.i ≤ t.numIter
  loop : t.phase = .loop → t.i < t.numIter
  last : t.phase = .last → t.i = t.numIter
  running : t.phase ≠ .returned

theorem start_ok (payload : List UInt8) : (start payload).Ok :=
  ⟨Nat.zero_le _, fun _ => Nat.succ_pos _, nofun, nofun⟩

variable {t : TxCall} {tcon : TcpConnection}

theorem Ok.send (more : t.i < t.numIter) (slot : Nat)
    : Ok { t with i := t.i + 1, windowOffset := slot, phase := .full } :=
  ⟨more, nofun, nofun, nofun⟩

theorem Ok.moveOn (ok : t.Ok) {phase : TxPhase}
    (allowed : t.CanEnter tcon phase) (running : phase ≠ .returned)
    : Ok { t with phase } := by
  refine ⟨ok.bound, ?_, ?_, running⟩
  · rintro rfl
    exact lt_of_le_of_ne ok.bound allowed.2.2
  · rintro rfl
    exact allowed.2.2

/-- A call returns only when its last segment has been sent and everything is acknowledged.
-/
theorem Ok.returns (ok : t.Ok) (allowed : t.CanEnter tcon .returned)
    : t.i = t.numIter ∧ tcon.baseSeq = tcon.nextSeq := by
  rcases allowed with ⟨last, done⟩ | ⟨loop, past⟩ | returned
  · exact ⟨ok.last last, done⟩
  · exact absurd (ok.loop loop) (not_lt.mpr past)
  · exact absurd returned ok.running

end TxCall

end Xv6Net
