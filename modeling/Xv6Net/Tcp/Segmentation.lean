import Xv6Net.Tcp.SendWindow

/-! What one call of `tcp_tx` sends. The payload is cut into pieces of `MSS` bytes and a last,
shorter one, but every piece is copied from the beginning of the payload, so the pieces give
back the payload exactly when it repeats its first `MSS` bytes.
-/

namespace Xv6Net

open Library Memory Transition

/-- A payload; its length is an `int`. -/
structure Payload where
  bytes : List UInt8
  sized : bytes.length < 2 ^ 31

/-- The bytes that pass `i` of the send loop copies. -/
def piece (payload : List UInt8) (i : Nat) : List UInt8 :=
  payload.take
    (if i = payload.length / mss then payload.length % mss else mss)

theorem TxCall.data_eq_piece (t : TxCall) : t.data = piece t.payload t.i :=
  rfl

section

variable (payload : List UInt8)
include payload

theorem length_piece_le (i : Nat) : (piece payload i).length ≤ mss := by
  simp only [piece, List.length_take, mss]
  split <;> omega

/-- All passes together: the first `MSS` bytes over and over, then the first bytes again. -/
theorem flatten_pieces
    : ((List.range (payload.length / mss + 1)).map (piece payload)).flatten
      = (List.replicate (payload.length / mss) (payload.take mss)).flatten
        ++ (payload.take mss).take (payload.length % mss) := by
  have whole : (List.range (payload.length / mss)).map (piece payload)
      = List.replicate (payload.length / mss) (payload.take mss) := by
    apply List.eq_replicate_iff.mpr
    refine ⟨by simp, ?_⟩
    intro block member
    obtain ⟨i, inside, rfl⟩ := List.mem_map.mp member
    have before : i ≠ payload.length / mss := Nat.ne_of_lt (List.mem_range.mp inside)
    simp only [piece, if_neg before]
  have last : piece payload (payload.length / mss)
      = (payload.take mss).take (payload.length % mss) := by
    have short : payload.length % mss ≤ mss := Nat.le_of_lt (Nat.mod_lt _ (by decide))
    rw [piece, if_pos rfl, List.take_take, Nat.min_eq_left short]
  rw [List.range_succ, List.map_append, whole, List.flatten_append, List.map_singleton, last,
    List.flatten_singleton]

theorem length_flatten_pieces
    : ((List.range (payload.length / mss + 1)).map (piece payload)).flatten.length
      = payload.length := by
  rw [flatten_pieces]
  simp only [List.length_append, List.length_flatten, List.map_replicate, List.sum_replicate_nat,
    List.length_take, mss]
  have split := Nat.div_add_mod payload.length 1460
  rcases Nat.eq_zero_or_pos (payload.length / 1460) with none_whole | some_whole
  · rw [none_whole]
    omega
  · rw [Nat.min_eq_left (show 1460 ≤ payload.length by omega),
      Nat.min_eq_left (show payload.length % 1460 ≤ 1460 by omega)]
    omega

theorem getElem?_flatten_pieces {j : Nat} (inside : j < payload.length)
    : ((List.range (payload.length / mss + 1)).map (piece payload)).flatten[j]?
      = payload[j % mss]? := by
  have split := Nat.div_add_mod payload.length 1460
  have bound : payload.length % mss ≤ (payload.take mss).length := by
    simp only [List.length_take, mss]
    omega
  rcases Nat.lt_or_ge payload.length 1460 with short | long
  · have all : payload.take mss = payload := List.take_of_length_le (by simp only [mss]; omega)
    rw [flatten_pieces, getElem?_repeat _ _ bound
      (by rw [all]; simp only [mss]; rw [Nat.div_eq_of_lt short]; omega), all,
      Nat.mod_eq_of_lt inside, Nat.mod_eq_of_lt (show j < mss by simp only [mss]; omega)]
  · have size : (payload.take mss).length = mss := by simp [long]
    rw [flatten_pieces, getElem?_repeat _ _ bound (by rw [size]; simp only [mss]; omega), size,
      List.getElem?_take_of_lt (Nat.mod_lt j (by decide))]

/-- The pieces give back the payload exactly when it repeats its first `MSS` bytes. -/
theorem flatten_pieces_eq_iff
    : ((List.range (payload.length / mss + 1)).map (piece payload)).flatten = payload
      ↔ ∀ j < payload.length, payload[j]? = payload[j % mss]? := by
  constructor
  · intro same j inside
    rw [← getElem?_flatten_pieces payload inside, same]
  · intro repeats
    apply List.ext_getElem?
    intro j
    rcases Nat.lt_or_ge j payload.length with inside | outside
    · rw [getElem?_flatten_pieces payload inside, repeats j inside]
    · rw [List.getElem?_eq_none outside,
        List.getElem?_eq_none (by rw [length_flatten_pieces]; exact outside)]

end

/-- The segments follow each other in the sequence space, from `first` to `last`. -/
def InSequence : UInt32 → List Segment → UInt32 → Prop
  | first, [], last => last = first
  | first, segment :: rest, last =>
    segment.seq = first ∧ InSequence (first + UInt32.ofNat segment.data.length) rest last

/-- What happens during a call of `tcp_tx`: its own steps, and segments that arrive. -/
def DuringCall : ConnAction → Prop
  | .advance _ | .receive .. => True
  | .write _ | .read _ | .wake => False

/-- The connection at the entry of `tcp_tx`, with nothing sent yet. -/
def Conn.calling (c : Conn) (payload : List UInt8) : Conn :=
  { c with tx := some (.start payload), sent := [] }

/-- A call of `tcp_tx` with this payload takes the connection from `c` to `final` and
returns there.
-/
def CompleteCall (s : Nat) (c : Conn) (payload : List UInt8) (final : Conn) : Prop :=
  ∃ actions,
    (∀ action ∈ actions, DuringCall action)
    ∧ exec (Conn.step s) (c.calling payload) actions = some final
    ∧ final.tx = none

/-- Every call with this payload sends exactly the payload, in segments of at most `MSS`
bytes with consecutive sequence numbers, whatever arrives meanwhile.
-/
def Lossless (payload : List UInt8) : Prop :=
  ∀ s c final, (c.tcon s).state = .established → CompleteCall s c payload final
    → InSequence (c.tcon s).nextSeq final.sent (final.tcon s).nextSeq
      ∧ (final.sent.map Segment.data).flatten = payload
      ∧ (∀ segment ∈ final.sent, segment.data.length ≤ mss)
      ∧ (final.tcon s).nextSeq = (c.tcon s).nextSeq + UInt32.ofNat payload.length

variable {first : UInt32} {s : Nat} {payload : List UInt8} {e : Endpoint} {t : TxCall}

variable {last : UInt32} {segments : List Segment} {i : Nat}

theorem InSequence.concat (chain : InSequence first segments last) (data : List UInt8)
    : InSequence first (segments ++ [{ seq := last, data }])
        (last + UInt32.ofNat data.length) := by
  induction segments generalizing first with
  | nil =>
    have same : last = first := chain
    subst same
    exact ⟨rfl, rfl⟩
  | cons segment rest ih => exact ⟨chain.1, ih chain.2⟩

theorem InSequence.last_eq (chain : InSequence first segments last)
    : last = first + UInt32.ofNat (segments.map Segment.data).flatten.length := by
  induction segments generalizing first with
  | nil =>
    rw [show last = first from chain]
    simp
  | cons segment rest ih =>
    rw [ih chain.2, List.map_cons, List.flatten_cons, List.length_append,
      UInt32.ofNat_add, UInt32.add_assoc]

/-- How far a call is: its passes have sent the first pieces, and it returns only after the last
one.
-/
structure CallInv (s : Nat) (first : UInt32) (payload : List UInt8) (c : Conn) : Prop where
  pieces : c.sent.map Segment.data = (List.range c.sent.length).map (piece payload)
  sequence : InSequence first c.sent (c.tcon s).nextSeq
  call : ∀ t, c.tx = some t → t.Ok ∧ t.payload = payload ∧ t.i = c.sent.length
  done : c.tx = none → c.sent.length = payload.length / mss + 1

theorem CallInv.start (s : Nat) (c : Conn) (payload : List UInt8)
    : CallInv s (c.tcon s).nextSeq payload (c.calling payload) := by
  refine ⟨rfl, rfl, ?_, nofun⟩
  rintro t ⟨⟩
  exact ⟨TxCall.start_ok payload, rfl, rfl⟩

variable {c : Conn}

/-- Each step of a call, and each segment that arrives, keeps the account of the pieces. -/
theorem CallInv.step {next : Conn} {action : ConnAction} {log : List Event}
    (inv : CallInv s first payload c) (during : DuringCall action)
    (move : ConnMove s c action next log)
    : CallInv s first payload next := by
  cases move with
  | writeRefused | readRefused | write | sleep | read | wake => cases during
  | resend => exact inv
  | send stale t calling phase more =>
    obtain ⟨-, samePayload, atI⟩ := inv.call t calling
    have data : t.data = piece payload c.sent.length := by
      rw [t.data_eq_piece, samePayload, atI]
    refine ⟨?_, ?_, ?_, nofun⟩
    · simp only [Conn.afterSend, List.map_append, inv.pieces, List.map_cons, List.map_nil,
        List.length_append, List.length_singleton, List.range_succ, data]
    · have chain := inv.sequence.concat t.data
      rw [Conn.afterSend_tcon]
      exact chain
    · rintro t' ⟨⟩
      refine ⟨.send more _, samePayload, ?_⟩
      simp [Conn.afterSend, atI]
  | moveOn stale t calling phase allowed =>
    obtain ⟨ok, samePayload, atI⟩ := inv.call t calling
    refine ⟨inv.pieces, inv.sequence, ?_, ?_⟩
    · intro t' entered
      simp only at entered
      split at entered
      · cases entered
      · rename_i going
        cases entered
        exact ⟨ok.moveOn allowed going, samePayload, atI⟩
    · intro finished
      simp only at finished
      split at finished
      · rename_i returned
        subst returned
        rw [← atI, (ok.returns allowed).1, TxCall.numIter, samePayload]
      · cases finished
  | receive env seg size srcIp =>
    have number : (Conn.tcon s
          { c with kernel := c.kernel.receive env.frame seg size srcIp }).nextSeq
        = (c.tcon s).nextSeq := by
      rcases receive_window c.kernel env.frame seg size srcIp s with same | ⟨-, tcon⟩
      · exact same.next
      · rw [Conn.tcon, tcon, processAck_frame]
        rfl
    refine ⟨inv.pieces, ?_, inv.call, inv.done⟩
    rw [number]
    exact inv.sequence

/-- What a call has sent when it returns. -/
theorem CompleteCall.sent_eq {final : Conn} (complete : CompleteCall s c payload final)
    : InSequence (c.tcon s).nextSeq final.sent (final.tcon s).nextSeq
      ∧ final.sent.map Segment.data
        = (List.range (payload.length / mss + 1)).map (piece payload) := by
  obtain ⟨actions, during, run, returned⟩ := complete
  have throughout := (Along.of_forall during (c.calling payload)).invariant
    (CallInv.start s c payload) fun current action next inv allowed taken => by
      obtain ⟨log, move⟩ := Conn.step_move taken
      exact inv.step allowed move
  have inv := throughout.finish run
  refine ⟨inv.sequence, ?_⟩
  rw [inv.pieces, inv.done returned]

/-- The ACK segment that the peer of a connection sends. -/
def ackSegment (e : Endpoint) (ack : UInt32) : Int → UInt8 :=
  tcpPack (fun _ => 0) e.peerIp e.peerPort e.port e.ip 0 ack tcpFlagAck 20 []

theorem ackSegment_disposition {k : Kernel} (registered : Registered k s e) (ack : UInt32)
    : disposition k (ackSegment e ack) 0 20 e.peerIp = .ack s := by
  have valid : checksum (ackSegment e ack) 0 20
      (pseudoIpSum e.ip e.peerIp (UInt16.ofInt 20)) = 0 :=
    checksum_tcpPack _ _ _ _ _ _ _ _ 20 [] (by decide)
  have flags : flagsOf (ackSegment e ack) 0 = tcpFlagAck := flagsOf_tcpPack ..
  have port : srcPortOf (ackSegment e ack) 0 = e.peerPort := srcPortOf_tcpPack ..
  have acknowledges : flagsOf (ackSegment e ack) 0 &&& tcpFlagAck ≠ 0 := by
    rw [flags]
    decide
  rw [registered.disposition_eq valid (dstPortOf_tcpPack ..) (by rw [flags]; decide)]
  simp [activeDisposition, registered.state, registered.dstAddr, registered.dstPort, port,
    acknowledges]

/-- The action that delivers an ACK of the peer. -/
def acknowledge (e : Endpoint) (ack : UInt32) : ConnAction :=
  .receive ⟨ackSegment e ack, fun _ => 0, none⟩ 0 20 e.peerIp

theorem acknowledge_all (registered : Registered c.kernel s e) (inv : SendInv s c)
    : ∃ next, c.step s (acknowledge e (c.tcon s).nextSeq) = some next
        ∧ Registered next.kernel s e ∧ SendInv s next ∧ next.tx = c.tx
        ∧ (next.tcon s).window.items = []
        ∧ (next.tcon s).baseSeq = (c.tcon s).nextSeq
        ∧ (next.tcon s).nextSeq = (c.tcon s).nextSeq := by
  let next : Conn :=
    { c with kernel := c.kernel.receive (ackSegment e (c.tcon s).nextSeq) 0 20 e.peerIp }
  have taken : c.step s (acknowledge e (c.tcon s).nextSeq) = some next := by
    obtain ⟨extra, -, run⟩ := tcpReceive_run
      ⟨ackSegment e (c.tcon s).nextSeq, fun _ => 0, none⟩ c.kernel 0 20 e.peerIp
    simp only [Conn.step, Conn.act, acknowledge, run, Option.map_some]
    rfl
  obtain ⟨log, move⟩ := Conn.step_move taken
  have tcon : next.tcon s = processAck (c.tcon s).nextSeq (c.tcon s) := by
    have number : ackNumOf (ackSegment e (c.tcon s).nextSeq) 0 = (c.tcon s).nextSeq :=
      ackNumOf_tcpPack ..
    simp only [Conn.tcon, next, receive_sockets, ackSegment_disposition registered,
      Disposition.target, if_true, Disposition.onSocket]
    rw [← Conn.tcon, number]
  obtain ⟨after, ⟨n, suffix⟩, -, finished⟩ :=
    TcpConnection.processAck_result (c.tcon s).nextSeq inv.window
  rw [← tcon] at after suffix finished
  have below : (c.tcon s).baseSeq ≤ (c.tcon s).nextSeq := inv.windowOk.ordered
  have number : (next.tcon s).nextSeq = (c.tcon s).nextSeq := by
    rw [tcon, processAck_frame]
  have items : (next.tcon s).window.items = [] := by
    cases left : (next.tcon s).window.items with
    | nil => rfl
    | cons ptr =>
      have reached := finished below (UInt32.le_refl _) ptr (by simp [left])
      have member : ptr ∈ (c.tcon s).window.items := by
        apply List.mem_of_mem_drop (i := n)
        rw [← suffix, left]
        exact List.mem_cons_self
      have bounds := inv.window.contiguous.bounds member
      omega
  refine ⟨next, taken, registered.step move, (inv.acknowledge tcon rfl).1, rfl, items, ?_,
    number⟩
  have tiles := after.contiguous
  rw [items, number] at tiles
  exact UInt32.toNat_inj.mp tiles

/-- A call is at a phase of pass `i`. -/
def Conn.At (c : Conn) (payload : List UInt8) (i : Nat) (phase : TxPhase) : Prop :=
  ∃ t, c.tx = some t ∧ t.payload = payload ∧ t.i = i ∧ t.phase = phase

/-- A call that is about to make pass `i`, with everything acknowledged so far. -/
structure Ready (s : Nat) (e : Endpoint) (payload : List UInt8) (i : Nat) (c : Conn) : Prop where
  registered : Registered c.kernel s e
  inv : SendInv s c
  call : c.At payload i .loop
  more : i < payload.length / mss + 1
  empty : (c.tcon s).window.items = []
  fits : (c.tcon s).nextSeq.toNat + (payload.length - i * mss) < 2 ^ 32

theorem advance_full (inv : SendInv s c) (calling : c.tx = some t) (phase : t.phase = .full)
    (empty : (c.tcon s).window.items = [])
    : c.step s (.advance fun _ => 0)
      = some { c with
          tx := some { t with phase := if t.i = t.numIter then .last else .loop } } := by
  have room : isQueueFull (c.kernel.sockets s).tcon.window = false := inv.room_of_empty empty
  by_cases done : t.i = t.numIter <;>
    simp [Conn.step, Conn.act, calling, tcpTxStep, phase, run_ite, room, done]

theorem advance_last (calling : c.tx = some t) (phase : t.phase = .last)
    (done : (c.tcon s).baseSeq = (c.tcon s).nextSeq)
    : c.step s (.advance fun _ => 0) = some { c with tx := none } := by
  have acknowledged : (c.kernel.sockets s).tcon.baseSeq = (c.kernel.sockets s).tcon.nextSeq :=
    done
  simp [Conn.step, Conn.act, calling, tcpTxStep, phase, run_ite, acknowledged]

theorem advance_send (calling : c.tx = some t) (sends : t.Sends (c.tcon s))
    : c.step s (.advance fun _ => 0) = some (c.afterSend s t fun _ => 0) := by
  obtain ⟨phase, more, room⟩ := sends
  have room' : isQueueFull (c.kernel.sockets s).tcon.window = false := room
  simp [Conn.step, Conn.act, calling, tcpTxStep, phase, run_ite, more, room',
    tcpTxSend_run, Conn.afterSend, Conn.tcon, -List.map_eq_singleton_iff]
  exact Conn.segment_dataEvent ..

theorem Ready.pass (ready : Ready s e payload i c)
    : ∃ ack next,
        exec (Conn.step s) c [.advance fun _ => 0, acknowledge e ack] = some next
        ∧ Registered next.kernel s e ∧ SendInv s next
        ∧ next.At payload (i + 1) .full
        ∧ (next.tcon s).window.items = []
        ∧ (next.tcon s).baseSeq = (next.tcon s).nextSeq
        ∧ (next.tcon s).nextSeq.toNat
          = (c.tcon s).nextSeq.toNat + (piece payload i).length := by
  obtain ⟨registered, inv, ⟨t, call, rfl, rfl, phase⟩, more, empty, fits⟩ := ready
  have room := inv.room_of_empty empty
  have sent : c.step s (.advance fun _ => 0) = some (c.afterSend s t fun _ => 0) :=
    advance_send call ⟨phase, more, room⟩
  have size : t.currentPayloadSize ≤ t.payload.length - t.i * mss := by
    simp only [TxCall.currentPayloadSize, mss] at more ⊢
    split <;> omega
  have after := (inv.send call (fun _ => 0) more room (by omega)).1
  have number : ((c.afterSend s t fun _ => 0).tcon s).nextSeq.toNat
      = (c.tcon s).nextSeq.toNat + (piece t.payload t.i).length := by
    rw [Conn.afterSend_tcon, ← t.data_eq_piece]
    simp only [TcpConnection.queueSegment, UInt32.toNat_add, UInt32.toNat_ofNat',
      t.length_data more]
    omega
  obtain ⟨log, move⟩ := Conn.step_move sent
  obtain ⟨next, acked, registered', inv', call', items, base, same⟩ :=
    acknowledge_all (registered.step move) after
  refine ⟨((c.afterSend s t fun _ => 0).tcon s).nextSeq, next, ?_, registered', inv',
    ⟨_, call', rfl, rfl, rfl⟩, items, by rw [base, same], by rw [same, number]⟩
  simp only [exec_cons, sent, Option.bind_some, acked, exec_nil]

/-- From a pass of the send loop on, a peer that acknowledges every segment lets the call return:
each pass sends, is acknowledged and goes on with an empty window.
-/
theorem Ready.returns (ready : Ready s e payload i c)
    : ∃ actions final, (∀ action ∈ actions, DuringCall action)
        ∧ exec (Conn.step s) c actions = some final ∧ final.tx = none := by
  obtain ⟨left, remaining⟩ : ∃ left, left + i = payload.length / mss := by
    have more := ready.more
    exact ⟨payload.length / mss - i, by omega⟩
  induction left generalizing i c with
  | zero =>
    obtain ⟨ack, next, run, registered, inv, ⟨t, call, payload', index, phase⟩, empty, done, -⟩ :=
      ready.pass
    have finished : t.i = t.numIter := by
      rw [TxCall.numIter, payload', index]
      omega
    have last := advance_full inv call phase empty
    rw [if_pos finished] at last
    have returns : Conn.step s { next with tx := some { t with phase := .last } }
        (.advance fun _ => 0) = some { next with tx := none } :=
      advance_last (t := { t with phase := .last }) rfl rfl done
    refine ⟨[.advance fun _ => 0, acknowledge e ack] ++ [.advance fun _ => 0,
      .advance fun _ => 0], { next with tx := none }, ?_, ?_, rfl⟩
    · simp [DuringCall, acknowledge]
    · rw [exec_append, run, Option.bind_some, exec_cons, last, Option.bind_some, exec_cons,
        returns, Option.bind_some, exec_nil]
  | succ left ih =>
    obtain ⟨ack, next, run, registered, inv, ⟨t, call, payload', index, phase⟩, empty, -,
      number⟩ := ready.pass
    have unfinished : t.i ≠ t.numIter := by
      rw [TxCall.numIter, payload', index]
      omega
    have loop := advance_full inv call phase empty
    rw [if_neg unfinished] at loop
    have ready' : Ready s e payload (i + 1)
        { next with tx := some { t with phase := .loop } } := by
      refine ⟨registered, ?_, ⟨_, rfl, payload', index, rfl⟩, by omega, empty, ?_⟩
      · exact inv.of_same ⟨rfl, rfl, rfl, rfl⟩ fun t' entered => by
          cases entered
          exact ⟨t, call, rfl, rfl⟩
      · have fits := ready.fits
        have size : (piece payload i).length ≤ mss := length_piece_le payload i
        change (next.tcon s).nextSeq.toNat + _ < _
        rw [number]
        simp only [mss] at fits size remaining ⊢
        omega
    obtain ⟨actions, final, during, rest, returned⟩ := ih ready' (by omega)
    refine ⟨[.advance fun _ => 0, acknowledge e ack] ++ .advance (fun _ => 0) :: actions,
      final, ?_, ?_, returned⟩
    · intro action member
      simp only [List.cons_append, List.nil_append, List.mem_cons] at member
      rcases member with rfl | rfl | rfl | inside
      · trivial
      · trivial
      · trivial
      · exact during action inside
    · rw [exec_append, run, Option.bind_some, exec_cons, loop, Option.bind_some]
      exact rest

/-- Every payload can be sent: with a peer that acknowledges all, `tcp_tx` on a fresh connection
returns.
-/
theorem exists_completeCall (payload : Payload)
    : ∃ final, CompleteCall 0 freshConn payload.bytes final := by
  have ready : Ready 0 ⟨1, 1024, 2, 80⟩ payload.bytes 0 (freshConn.calling payload.bytes) := by
    have inv := SendInv.of_fresh freshConn_fresh
    refine ⟨?_, ?_, ⟨_, rfl, rfl, rfl, rfl⟩, Nat.succ_pos _, rfl, ?_⟩
    · exact ⟨rfl, by decide, show (1 : Int) ≠ -1 by decide, rfl, nofun, rfl, rfl, rfl, rfl⟩
    · refine ⟨inv.window, 0, 0, le_rfl, rfl, ?_⟩
      rintro t ⟨⟩
      exact ⟨rfl, rfl⟩
    · have sized := payload.sized
      change (1 : UInt32).toNat + _ < _
      simp only [UInt32.reduceToNat]
      omega
  obtain ⟨actions, final, during, run, returned⟩ := ready.returns
  exact ⟨final, actions, during, run, returned⟩

/-- A call sends the pieces of its payload, so it is lossless exactly if they give it back.
-/
theorem lossless_iff_pieces (payload : Payload)
    : Lossless payload.bytes
      ↔ ((List.range (payload.bytes.length / mss + 1)).map (piece payload.bytes)).flatten
        = payload.bytes := by
  constructor
  · intro lossless
    obtain ⟨final, complete⟩ := exists_completeCall payload
    obtain ⟨-, bytes, -, -⟩ := lossless 0 freshConn final rfl complete
    rwa [complete.sent_eq.2] at bytes
  · intro repeats s c final _ complete
    obtain ⟨chain, pieces⟩ := complete.sent_eq
    have bytes : (final.sent.map Segment.data).flatten = payload.bytes := by
      rw [pieces, repeats]
    refine ⟨chain, bytes, ?_, ?_⟩
    · intro segment member
      have data : segment.data ∈ final.sent.map Segment.data := List.mem_map_of_mem member
      rw [pieces] at data
      obtain ⟨i, -, same⟩ := List.mem_map.mp data
      rw [← same]
      exact length_piece_le payload.bytes i
    · rw [chain.last_eq, bytes]

/-- A call of `tcp_tx` sends exactly its payload if and only if the payload repeats its first
`MSS` bytes.
-/
theorem lossless_iff_repeats (payload : Payload)
    : Lossless payload.bytes
      ↔ ∀ j < payload.bytes.length, payload.bytes[j]? = payload.bytes[j % mss]? := by
  rw [lossless_iff_pieces, flatten_pieces_eq_iff]

/-- A payload of `MSS + 1` bytes whose last byte differs from its first is not sent. -/
theorem not_lossless_two_segments : ¬ Lossless (List.replicate mss 0 ++ [1]) := by
  have length : (List.replicate mss (0 : UInt8) ++ [1]).length = 1461 := by
    rw [List.length_append, List.length_replicate, List.length_singleton]
  rw [lossless_iff_pieces ⟨_, by rw [length]; decide⟩, flatten_pieces_eq_iff]
  intro repeats
  have last := repeats 1460 (by rw [length]; decide)
  rw [List.getElem?_append_right (by rw [List.length_replicate]), List.length_replicate,
    List.getElem?_append_left (by rw [List.length_replicate]; decide),
    List.getElem?_replicate] at last
  revert last
  decide

end Xv6Net
