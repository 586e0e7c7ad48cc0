import Xv6Net.Tcp.SendWindow

/-! The receive buffer of an established socket is one page. In-order data are appended at
`end` without a look at the room that is left, and their length is a difference of two
received numbers.
-/

namespace Xv6Net

open Library Memory Transition Function Kernel

/-- The size of the page that `socket` gets from `kalloc`. -/
abbrev pageSize : Int := 4096

/-- The reader is behind the data, and the data are inside the page. -/
structure BufferOk (socket : Socket) : Prop where
  lower : 0 ≤ socket.offset
  behind : socket.offset ≤ socket.end_
  upper : socket.end_ ≤ pageSize

/-- A copy of `count` bytes to `start` stays inside the page. -/
def InPage (start count : Int) : Prop := 0 ≤ start ∧ 0 ≤ count ∧ start + count ≤ pageSize

/-- Every copy that a step makes into the buffer of socket `s` stays inside the page. -/
def CopiesInPage (s : Nat) (c : Conn) (action : ConnAction) : Prop :=
  ∀ next log, c.act s action = some (next, log)
    → ∀ start count, Event.bufferCopy s start count ∈ log → InPage start count

/-- In-order data for socket `s` have a header inside the segment, and room for the rest behind
`end`.
-/
def DataFits (s : Nat) (c : Conn) : ConnAction → Prop
  | .receive env seg size srcIp =>
    disposition c.kernel env.frame seg size srcIp = .inOrder s
      → hdrSizeOf env.frame seg ≤ size
        ∧ (c.kernel.sockets s).end_ + (size - hdrSizeOf env.frame seg) ≤ pageSize
  | _ => True

/-- An established connection between steps, with its buffer in order. -/
structure BufferInv (s : Nat) (c : Conn) : Prop where
  state : (c.tcon s).state = .established
  buffer : BufferOk (c.kernel.sockets s)
  reader : ∀ n, c.reader = some n → 0 ≤ n

/-- A connection as the handshake leaves it, with nothing in its buffer. -/
structure EmptyBuffer (s : Nat) (c : Conn) : Prop where
  state : (c.tcon s).state = .established
  offset : (c.kernel.sockets s).offset = 0
  end_ : (c.kernel.sockets s).end_ = 0
  reader : c.reader = none

variable {s : Nat} {c next : Conn} {action : ConnAction} {log : List Event}

/-- The only copies into the buffer of an established socket are those of in-order data. -/
theorem bufferCopy_mem (established : (c.tcon s).state = .established)
    (move : ConnMove s c action next log) {start count : Int}
    (copied : Event.bufferCopy s start count ∈ log)
    : ∃ env seg size srcIp, action = .receive env seg size srcIp
        ∧ disposition c.kernel env.frame seg size srcIp = .inOrder s
        ∧ start = (c.kernel.sockets s).end_ ∧ count = size - hdrSizeOf env.frame seg := by
  cases move with
  | writeRefused | readRefused | write | moveOn | sleep => cases copied
  | send => simp [dataEvent] at copied
  | resend =>
    simp only [resendLog] at copied
    split at copied <;> simp at copied
  | read | wake => simp at copied
  | receive env seg size srcIp extra header =>
    have justified := disposition_justified c.kernel env.frame seg size srcIp
    have logged : Event.bufferCopy s start count
        ∈ effectLog env c.kernel seg size
            (disposition c.kernel env.frame seg size srcIp) := by
      rcases header with rfl | rfl <;> simpa [receiveLog] using copied
    cases d : disposition c.kernel env.frame seg size srcIp with
    | inOrder =>
      simp [d, effectLog, ackEvent] at logged
      obtain ⟨rfl, rfl, rfl⟩ := logged
      exact ⟨env, seg, size, srcIp, rfl, d, rfl, rfl⟩
    | synReply =>
      simp [d, effectLog] at logged
      obtain ⟨rfl, -, -⟩ := logged
      rw [d] at justified
      have waiting := justified.2.2.2.1
      rw [Conn.tcon, waiting] at established
      cases established
    | _ => simp [d, effectLog, ackEvent] at logged

theorem BufferInv.copiesInPage (inv : BufferInv s c) (fits : DataFits s c action)
    : CopiesInPage s c action := by
  intro next log acted start count copied
  obtain ⟨env, seg, size, srcIp, rfl, inOrder, rfl, rfl⟩ :=
    bufferCopy_mem inv.state (Conn.act_move acted) copied
  obtain ⟨header, room⟩ := fits inOrder
  have ok := inv.buffer
  exact ⟨le_trans ok.lower ok.behind, by omega, room⟩

theorem CopiesInPage.dataFits (safe : CopiesInPage s c action) : DataFits s c action := by
  cases action with
  | receive env seg size srcIp =>
    intro inOrder
    obtain ⟨extra, -, run⟩ := tcpReceive_run env c.kernel seg size srcIp
    have acted : c.act s (.receive env seg size srcIp)
        = some ({ c with kernel := c.kernel.receive env.frame seg size srcIp },
            receiveLog env c.kernel seg size srcIp extra) := by
      simp only [Conn.act, run]
    obtain ⟨-, positive, room⟩ := safe _ _ acted (c.kernel.sockets s).end_
      (size - hdrSizeOf env.frame seg) (by simp [receiveLog, inOrder, effectLog])
    exact ⟨by omega, room⟩
  | _ => trivial

theorem BufferOk.read {socket : Socket} (ok : BufferOk socket) {n : Int} (sized : 0 ≤ n)
    : BufferOk { socket with offset := socket.offset + socket.readCount n } := by
  obtain ⟨lower, behind, upper⟩ := ok
  have count : 0 ≤ socket.readCount n ∧ socket.readCount n ≤ socket.end_ - socket.offset := by
    simp only [Socket.readCount]
    split <;> omega
  exact ⟨by simp only; omega, by simp only; omega, upper⟩

theorem BufferInv.step (inv : BufferInv s c) (move : ConnMove s c action next log)
    (fits : DataFits s c action)
    : BufferInv s next := by
  obtain ⟨state, buffer, reader⟩ := inv
  cases move with
  | writeRefused | readRefused | write | resend | moveOn => exact ⟨state, buffer, reader⟩
  | send =>
    refine ⟨?_, ?_, reader⟩
    · rw [Conn.afterSend_tcon]
      exact state
    · simp only [Conn.afterSend, setTcon_sockets, update_self]
      exact ⟨buffer.lower, buffer.behind, buffer.upper⟩
  | sleep n sized =>
    refine ⟨by simpa [Conn.tcon, setState] using state, ?_, ?_⟩
    · simp only [setState, setSocket_sockets, update_self]
      exact ⟨buffer.lower, buffer.behind, buffer.upper⟩
    · rintro m ⟨⟩
      exact sized
  | read n sized =>
    refine ⟨by simpa [Conn.tcon, Conn.afterRead] using state, ?_, by rintro _ ⟨⟩⟩
    simp only [Conn.afterRead, setSocket_sockets, update_self]
    exact buffer.read sized
  | wake n sleeping =>
    refine ⟨by simpa [Conn.tcon, Conn.afterRead, setState] using state, ?_, by rintro _ ⟨⟩⟩
    simp only [Conn.afterRead, setState, setSocket_setSocket, setSocket_sockets, update_self]
    have ok := buffer.read (reader n sleeping)
    exact ⟨ok.lower, ok.behind, ok.upper⟩
  | receive env seg size srcIp =>
    refine ⟨(receive_endpoint c.kernel env.frame seg size srcIp s).tcpState.trans state, ?_,
      reader⟩
    simp only [receive_sockets]
    split
    · rename_i concerns
      cases d : disposition c.kernel env.frame seg size srcIp with
      | inOrder =>
        rw [d] at concerns
        cases concerns
        obtain ⟨small, room⟩ := fits d
        obtain ⟨lower, behind, upper⟩ := buffer
        exact ⟨lower, by simp only [Disposition.onSocket]; omega, room⟩
      | _ => exact ⟨buffer.lower, buffer.behind, buffer.upper⟩
    · exact buffer

/-- Over a whole run from an empty buffer, the buffer stays in order and every copy into it
stays inside the page if and only if every segment of in-order data fits when it arrives.
-/
theorem buffer_safe_iff_dataFits (s : Nat) (c : Conn) (actions : List ConnAction)
    (start : EmptyBuffer s c)
    : (Throughout (Conn.step s) (fun c => BufferOk (c.kernel.sockets s)) c actions
        ∧ Along (Conn.step s) (CopiesInPage s) c actions)
      ↔ Along (Conn.step s) (DataFits s) c actions := by
  obtain ⟨state, offset, end_, reader⟩ := start
  have initially : BufferInv s c := by
    refine ⟨state, ⟨by omega, by omega, ?_⟩, by simp [reader]⟩
    rw [end_]
    decide
  have kept (c : Conn) (action : ConnAction) (next : Conn) (inv : BufferInv s c)
      (fits : DataFits s c action) (taken : c.step s action = some next)
      : BufferInv s next := by
    obtain ⟨log, move⟩ := Conn.step_move taken
    exact inv.step move fits
  constructor
  · rintro ⟨-, copies⟩
    exact copies.mono fun _ _ safe => safe.dataFits
  · intro fits
    exact ⟨(fits.invariant initially kept).mono fun _ inv => inv.buffer,
      fits.strengthen initially kept fun _ _ inv fits => inv.copiesInPage fits⟩

theorem freshConn_emptyBuffer : EmptyBuffer 0 freshConn :=
  ⟨rfl, rfl, rfl, rfl⟩

/-- A segment of 20 bytes from the peer of `freshConn`, next in order, that claims a header of 24
bytes.
-/
def longHeader : List UInt8 :=
  [0, 80, 4, 0, 0, 0, 0, 1, 0, 0, 0, 0, 0x60, 0, 0, 0, 0x98, 0x94, 0, 0]

def receiveLongHeader : ConnAction :=
  .receive ⟨memoryOf longHeader, fun _ => 0, none⟩ 0 20 2

/-- A read on the empty buffer that is woken up by the segment with the long header. -/
theorem buffer_safe_iff_dataFits_longHeader
    : (Throughout (Conn.step 0) (fun c => BufferOk (c.kernel.sockets 0)) freshConn
          [.read 8, receiveLongHeader, .wake]
        ∧ Along (Conn.step 0) (CopiesInPage 0) freshConn [.read 8, receiveLongHeader, .wake])
      ↔ Along (Conn.step 0) (DataFits 0) freshConn [.read 8, receiveLongHeader, .wake] :=
  buffer_safe_iff_dataFits 0 freshConn [.read 8, receiveLongHeader, .wake]
    freshConn_emptyBuffer

/-- The segment makes `tcp_receive` copy a negative number of bytes and move `end` below the
start of the buffer.
-/
theorem longHeader_leaves_page
    : EmptyBuffer 0 freshConn
      ∧ (∃ final, exec (Conn.step 0) freshConn [receiveLongHeader] = some final
          ∧ (final.kernel.sockets 0).end_ = -4
          ∧ ¬ BufferOk (final.kernel.sockets 0))
      ∧ ¬ CopiesInPage 0 freshConn receiveLongHeader := by
  have inOrder : disposition freshConn.kernel (memoryOf longHeader) 0 20 2 = .inOrder 0 := by
    decide
  have after : (exec (Conn.step 0) freshConn [receiveLongHeader]).map
      (fun final => (final.kernel.sockets 0).end_) = some (-4) := by
    decide
  obtain ⟨final, run, moved⟩ := Option.map_eq_some_iff.mp after
  refine ⟨freshConn_emptyBuffer, ⟨final, run, moved, ?_⟩, ?_⟩
  · rintro ⟨lower, behind, -⟩
    omega
  · intro safe
    have header := (safe.dataFits inOrder).1
    revert header
    decide

end Xv6Net
