import Xv6Net.Tcp.ReceiveBuffer

/-!
Connections are kept apart: a segment that `tcp_receive` does not accept, or that comes from
elsewhere than the peer of a socket, does not touch that socket, and a segment for one port does
not touch the sockets of the others. The pages of the sockets, their structures and `requests` lie
in one memory, so that this depends on the copies staying where they belong.
-/

namespace Xv6Net

open Library Memory

/-- The segment passes the checksum test, names a port in use, and comes from where the socket is
connected to.
-/
def SentByPeer (k : Kernel) (mem : Int → UInt8) (seg size : Int) (srcIp : UInt32) (s : Nat)
    : Prop :=
  Admitted k mem seg size srcIp
  ∧ (k.sockets s).tcon.dstAddr = srcIp
  ∧ (k.sockets s).tcon.dstPort = srcPortOf mem seg

def RegisteredAt (k : Kernel) (port s : Nat) : Prop :=
  (k.ports port).activeSocket = some s ∨ (k.ports port).passiveSocket = some s

/-- What the memory holds of the sockets. -/
inductive Place where
  | page (s : Nat)
  | socket (s : Nat)
  | requests
  deriving DecidableEq

/-- `sizeof(struct tcp_request)`. -/
abbrev requestSize : Int := 1484

/-- A page, `sizeof(struct socket)` and `sizeof(requests)`. -/
def Place.size : Place → Int
  | .page _ => pageSize
  | .socket _ => 15048
  | .requests => maxPendingRequests * requestSize

/-- Where everything lies: pages as `kalloc` returns them, and nothing in the place of another. -/
structure Layout where
  start : Place → Int
  aligned : ∀ s, pageSize ∣ start (.page s)
  apart : ∀ p q, p ≠ q → start p + p.size ≤ start q ∨ start q + q.size ≤ start p

/-- Bytes that are stored from an offset in a place on. -/
structure Copy where
  place : Place
  offset : Int
  bytes : List UInt8

/-- What is stored by the copies of `tcp_receive`, which leaves the kernel in state `after`. -/
def Event.copy (after : Kernel) (size : Int) : Event → Option Copy
  | .bufferCopy s start count =>
    some ⟨.page s, start, slice (after.sockets s).buffer start (moveCount count)⟩
  | .requestStore i =>
    some ⟨.requests, i * requestSize, bytes32 (after.requests i).clientIp
      ++ slice (after.requests i).requestPacket 0 (moveCount size)⟩
  | _ => none

/-- The copies that `tcp_receive` makes of a segment. -/
def copies (env : Env) (k : Kernel) (seg size : Int) (srcIp : UInt32) : List Copy :=
  let run := (tcpReceive seg size srcIp).run env k
  run.log.filterMap (Event.copy run.state size)

/-- The memory after the copies. -/
def Layout.after (layout : Layout) (copies : List Copy) (mem : Int → UInt8) : Int → UInt8 :=
  copies.foldl (fun mem c => overlay mem (layout.start c.place + c.offset) c.bytes) mem

/-- The copy stays in its place. -/
def Copy.Fits (c : Copy) : Prop :=
  c.bytes = [] ∨ 0 ≤ c.offset ∧ c.offset + c.bytes.length ≤ c.place.size
deriving Decidable

/-- The page and the structure of the socket hold what they held. -/
def SameBytes (layout : Layout) (s : Nat) (mem mem' : Int → UInt8) : Prop :=
  ∀ p, p = .page s ∨ p = .socket s → ∀ i, 0 ≤ i → i < p.size
    → mem' (layout.start p + i) = mem (layout.start p + i)

/-- The end of the buffer, the state and the connection of a socket. -/
structure SameConnection (socket other : Socket) : Prop where
  end_ : other.end_ = socket.end_
  state : other.state = socket.state
  tcon : other.tcon = socket.tcon

variable {k : Kernel} {mem : Int → UInt8} {seg size : Int} {srcIp : UInt32} {s : Nat}

/-- A segment that concerns a socket was accepted, and the socket is registered at its port.
Only a connection request may come from elsewhere than the peer of the socket.
-/
theorem target_spec (target : (disposition k mem seg size srcIp).target = some s)
    : RegisteredAt k (dstPortOf mem seg).toNat s
      ∧ (disposition k mem seg size srcIp = .request s ∨ SentByPeer k mem seg size srcIp s) := by
  have admitted : Admitted k mem seg size srcIp := by
    by_contra rejected
    rw [disposition, if_neg rejected] at target
    cases target
  have justified := disposition_justified k mem seg size srcIp
  cases taken : disposition k mem seg size srcIp with
  | dropped =>
    rw [taken] at target
    cases target
  | request =>
    rw [taken] at target justified
    cases target
    exact ⟨Or.inr justified.1, Or.inl rfl⟩
  | handshakeAck =>
    rw [taken] at target justified
    cases target
    exact ⟨Or.inr justified.1, Or.inr ⟨admitted, justified.2.2.2.1, justified.2.2.2.2⟩⟩
  | synReply asoc | ack asoc | inOrder asoc | outOfOrder asoc =>
    rw [taken] at target justified
    cases target
    exact ⟨Or.inl justified.1, Or.inr ⟨admitted, justified.2.1, justified.2.2.1⟩⟩

/-- The socket that an event is for: an acknowledgement is sent for it, or bytes are copied to
its buffer. Reads of the packet and stored requests are for none.
-/
def Event.For (env : Env) (k : Kernel) (s : Nat) : Event → Prop
  | .ipSend protocol payload srcIp dstIp size =>
    ∃ ack, .ipSend protocol payload srcIp dstIp size = ackEvent env.stale k s ack
  | .bufferCopy socket _ _ => socket = s
  | _ => True

/-- Nothing is sent, and nothing is copied to a buffer. -/
def Event.Quiet : Event → Prop
  | .ipSend _ _ _ _ _ | .bufferCopy _ _ _ => False
  | _ => True

/-- What a segment makes `tcp_receive` send and copy is for the socket it concerns. -/
theorem effectLog_for (env : Env) (d : Disposition)
    : ∀ event ∈ effectLog env k seg size d,
        event.Quiet ∨ ∃ asoc, d.target = some asoc ∧ (∀ psoc, d ≠ .request psoc)
          ∧ event.For env k asoc := by
  cases d with
  | dropped => exact List.forall_mem_nil _
  | request psoc | handshakeAck psoc =>
    simp only [effectLog, List.forall_mem_cons]
    exact ⟨Or.inl trivial, Or.inl trivial, List.forall_mem_nil _⟩
  | synReply asoc =>
    simp only [effectLog, List.forall_mem_cons]
    exact ⟨Or.inl trivial, Or.inr ⟨asoc, rfl, by simp, rfl⟩, List.forall_mem_nil _⟩
  | ack =>
    simp only [effectLog, List.forall_mem_cons]
    exact ⟨Or.inl trivial, List.forall_mem_nil _⟩
  | inOrder asoc =>
    simp only [effectLog, List.forall_mem_cons]
    exact ⟨Or.inl trivial, Or.inl trivial, Or.inl trivial, Or.inl trivial,
      Or.inr ⟨asoc, rfl, by simp, rfl⟩, Or.inl trivial, Or.inr ⟨asoc, rfl, by simp, _, rfl⟩,
      List.forall_mem_nil _⟩
  | outOfOrder asoc =>
    simp only [effectLog, List.forall_mem_cons]
    exact ⟨Or.inl trivial, Or.inl trivial, Or.inr ⟨asoc, rfl, by simp, _, rfl⟩,
      List.forall_mem_nil _⟩

/-- What `tcp_receive` sends and copies is for a socket whose peer the segment comes from. -/
theorem receive_log_for (env : Env) (k : Kernel) (seg size : Int) (srcIp : UInt32) {event : Event}
    (logged : event ∈ ((tcpReceive seg size srcIp).run env k).log)
    : event.Quiet
      ∨ ∃ asoc, RegisteredAt k (dstPortOf env.frame seg).toNat asoc
          ∧ SentByPeer k env.frame seg size srcIp asoc ∧ event.For env k asoc := by
  obtain ⟨extra, reads, run⟩ := tcpReceive_run env k seg size srcIp
  have tests : ∀ e ∈ [Event.read (seg + 2) 2, .read (seg + 13) 1, .read seg size.toNat] ++ extra,
      e.Quiet := by
    rcases reads with rfl | rfl
    · simp [Event.Quiet]
    · simp [Event.Quiet]
  rw [run, receiveLog, List.mem_append] at logged
  rcases logged with test | effect
  · exact Or.inl (tests event test)
  · rcases effectLog_for env _ event effect with quiet | ⟨asoc, target, other, serves⟩
    · exact Or.inl quiet
    · obtain ⟨registered, request | peer⟩ := target_spec target
      · exact absurd request (other asoc)
      · exact Or.inr ⟨asoc, registered, peer, serves⟩

/-- A segment leaves alone the connections that it does not come from, and the sockets of other
ports: it changes nothing of them, copies nothing to their memory, and sends nothing for them.
-/
structure Isolated (env : Env) (k : Kernel) (seg size : Int) (srcIp : UInt32) (s : Nat)
    (layout : Layout) (memory : Int → UInt8) : Prop where
  stranger : ¬ SentByPeer k env.frame seg size srcIp s
    → SameConnection (k.sockets s) (((tcpReceive seg size srcIp).run env k).state.sockets s)
      ∧ SameBytes layout s memory (layout.after (copies env k seg size srcIp) memory)
      ∧ ∀ event ∈ ((tcpReceive seg size srcIp).run env k).log,
          event.Quiet ∨ ∃ asoc, asoc ≠ s ∧ SentByPeer k env.frame seg size srcIp asoc
            ∧ event.For env k asoc
  elsewhere : ¬ RegisteredAt k (dstPortOf env.frame seg).toNat s
    → ((tcpReceive seg size srcIp).run env k).state.sockets s = k.sockets s
      ∧ SameBytes layout s memory (layout.after (copies env k seg size srcIp) memory)
      ∧ ∀ event ∈ ((tcpReceive seg size srcIp).run env k).log,
          event.Quiet ∨ ∃ asoc, asoc ≠ s ∧ event.For env k asoc

section Memory

variable {layout : Layout} {all : List Copy}

/-- The copy stores a byte at the address. -/
def Layout.Hits (layout : Layout) (c : Copy) (a : Int) : Prop :=
  layout.start c.place + c.offset ≤ a ∧ a < layout.start c.place + c.offset + c.bytes.length

theorem overlay_missed {c : Copy} {a : Int} (missed : ¬ layout.Hits c a) (memory : Int → UInt8)
    : overlay memory (layout.start c.place + c.offset) c.bytes a = memory a := by
  rcases lt_or_ge a (layout.start c.place + c.offset) with before | behind
  · exact overlay_before _ _ before
  · exact overlay_beyond _ (not_lt.mp fun inside => missed ⟨behind, inside⟩)

/-- What no copy stores at is as it was. -/
theorem after_missed {a : Int} (missed : ∀ c ∈ all, ¬ layout.Hits c a) (memory : Int → UInt8)
    : layout.after all memory a = memory a := by
  induction all generalizing memory with
  | nil => rfl
  | cons c rest ih =>
    rw [List.forall_mem_cons] at missed
    exact (ih missed.2 _).trans (overlay_missed missed.1 memory)

/-- What a copy stores at does not depend on what was there. -/
theorem after_hit {a : Int} (hit : ∃ c ∈ all, layout.Hits c a)
    : ∃ value, ∀ memory, layout.after all memory a = value := by
  induction all with
  | nil => simp at hit
  | cons c rest ih =>
    by_cases later : ∃ c ∈ rest, layout.Hits c a
    · obtain ⟨value, same⟩ := ih later
      exact ⟨value, fun memory => same _⟩
    · have here : layout.Hits c a := by
        obtain ⟨d, listed, hits⟩ := hit
        rcases List.mem_cons.mp listed with rfl | tail
        · exact hits
        · exact absurd ⟨d, tail, hits⟩ later
      push Not at later
      obtain ⟨from_, upTo⟩ := here
      have inside : (a - (layout.start c.place + c.offset)).toNat < c.bytes.length := by omega
      exact ⟨_, fun memory => (after_missed later _).trans (overlay_within memory from_ inside)⟩

/-- A copy that fits stores nothing in other places. -/
theorem Copy.Fits.not_hits {c : Copy} (fits : c.Fits) {p : Place} (other : c.place ≠ p) {i : Int}
    (low : 0 ≤ i) (high : i < p.size)
    : ¬ layout.Hits c (layout.start p + i) := by
  rintro ⟨from_, upTo⟩
  rcases fits with empty | ⟨start, end_⟩
  · rw [empty, List.length_nil] at upTo
    omega
  · have apart := layout.apart c.place p other
    omega

/-- A number for every place. -/
def Place.code : Place → Int
  | .requests => 0
  | .page s => 2 * s + 1
  | .socket s => 2 * s + 2

theorem Place.code_inj {p q : Place} (same : p.code = q.code) : p = q := by
  cases p <;> cases q <;> simp only [code] at same <;> grind

theorem Place.size_bounds (p : Place) : 0 < p.size ∧ p.size < 65536 ∧ 0 ≤ p.code := by
  cases p <;> simp only [size, code, requestSize, pageSize, maxPendingRequests] <;> omega

/-- Whatever lies outside a place may lie in the page of a socket. -/
theorem exists_layout {p : Place} {s : Nat} (other : p ≠ .page s) {o : Int}
    (outside : o < 0 ∨ p.size ≤ o)
    : ∃ layout : Layout, layout.start (.page s) ≤ layout.start p + o
        ∧ layout.start p + o < layout.start (.page s) + pageSize := by
  -- the place begins or ends at 0, and the page is on the other side
  obtain ⟨base, side⟩ : ∃ base : Int,
      base = 0 ∧ base + o < 0 ∨ base = - p.size ∧ 0 ≤ base + o := by
    rcases outside with negative | beyond
    · exact ⟨0, Or.inl ⟨rfl, by omega⟩⟩
    · exact ⟨- p.size, Or.inr ⟨rfl, by omega⟩⟩
  let start (q : Place) : Int :=
    if q = p then base
    else if q = .page s then 4096 * ((base + o) / 4096)
    else 65536 * (|o| + 1 + q.code)
  have far := abs_nonneg o
  have near := le_abs_self o
  have bounds := p.size_bounds
  have sized : (Place.page s).size = 4096 := rfl
  refine ⟨⟨start, fun t => ?_, fun q r different => ?_⟩, ?_⟩
  · simp only [start, pageSize]
    split_ifs with same
    · subst same
      change base = 0 ∧ _ ∨ base = -4096 ∧ _ at side
      omega
    · omega
    · omega
  · have := q.size_bounds
    have := r.size_bounds
    have codes : q.code ≠ r.code := fun same => different (Place.code_inj same)
    simp only [start]
    split_ifs <;> first | omega | grind
  · simp only [start, if_pos, if_neg other.symm, pageSize]
    omega

end Memory

/-- A copy of `tcp_receive` goes to `requests` or to the page of a socket whose peer the segment
comes from.
-/
theorem copy_place {env : Env} {c : Copy} (made : c ∈ copies env k seg size srcIp)
    : c.place = .requests ∨ ∃ asoc, c.place = .page asoc
        ∧ RegisteredAt k (dstPortOf env.frame seg).toNat asoc
        ∧ SentByPeer k env.frame seg size srcIp asoc := by
  obtain ⟨event, logged, copied⟩ := List.mem_filterMap.mp made
  cases event with
  | bufferCopy asoc start count =>
    cases copied
    rcases receive_log_for env k seg size srcIp logged with quiet | ⟨u, registered, peer, same⟩
    · cases quiet
    · exact Or.inr ⟨asoc, rfl, same ▸ registered, same ▸ peer⟩
  | requestStore i =>
    cases copied
    exact Or.inl rfl
  | _ => cases copied

theorem sameBytes_of_fits {env : Env} (fits : ∀ c ∈ copies env k seg size srcIp, c.Fits)
    (outside : ¬ (RegisteredAt k (dstPortOf env.frame seg).toNat s
      ∧ SentByPeer k env.frame seg size srcIp s)) (layout : Layout) (memory : Int → UInt8)
    : SameBytes layout s memory (layout.after (copies env k seg size srcIp) memory) := by
  intro p own i low high
  refine after_missed (fun c made => (fits c made).not_hits ?_ low high) memory
  rintro rfl
  rcases copy_place made with array | ⟨asoc, page, concerns⟩
  · rcases own with same | same <;> rw [same] at array <;> cases array
  · rcases own with same | same <;> rw [same] at page <;> cases page
    exact outside concerns

/-- Whatever the layout of the memory is, a segment is kept apart from a socket that it is not for
exactly if the copies it causes stay inside the page and the array they are made to.
-/
theorem connections_isolated (env : Env) (k : Kernel) (seg size : Int) (srcIp : UInt32) (s : Nat)
    (outside : ¬ (RegisteredAt k (dstPortOf env.frame seg).toNat s
      ∧ SentByPeer k env.frame seg size srcIp s))
    : (∀ layout memory, Isolated env k seg size srcIp s layout memory)
      ↔ ∀ c ∈ copies env k seg size srcIp, c.Fits := by
  have state : ((tcpReceive seg size srcIp).run env k).state
      = k.receive env.frame seg size srcIp := by
    obtain ⟨extra, -, run⟩ := tcpReceive_run env k seg size srcIp
    rw [run]
  constructor
  · intro isolated c made
    by_contra overflow
    have other : c.place ≠ .page s := by
      intro page
      rcases copy_place made with array | ⟨asoc, place, concerns⟩
      · rw [page] at array
        cases array
      · rw [page] at place
        cases place
        exact outside concerns
    -- the first or the last byte is outside
    obtain ⟨o, from_, upTo, beyond⟩ : ∃ o, c.offset ≤ o ∧ o < c.offset + c.bytes.length
        ∧ (o < 0 ∨ c.place.size ≤ o) := by
      rw [Copy.Fits, not_or, ← ne_eq, ← List.length_pos_iff] at overflow
      by_cases negative : c.offset < 0
      · exact ⟨c.offset, le_rfl, by omega, Or.inl negative⟩
      · exact ⟨c.offset + c.bytes.length - 1, by omega, by omega, Or.inr (by omega)⟩
    obtain ⟨layout, low, high⟩ := exists_layout other beyond
    obtain ⟨value, written⟩ : ∃ value, ∀ memory,
        layout.after (copies env k seg size srcIp) memory (layout.start c.place + o) = value :=
      after_hit ⟨c, made, by omega, by omega⟩
    have same : SameBytes layout s (fun _ => value + 1)
        (layout.after (copies env k seg size srcIp) fun _ => value + 1) := by
      obtain ⟨stranger, elsewhere⟩ := isolated layout fun _ => value + 1
      rcases not_and_or.mp outside with unregistered | unsent
      · exact (elsewhere unregistered).2.1
      · exact (stranger unsent).2.1
    have kept := same (.page s) (Or.inl rfl) (layout.start c.place + o - layout.start (.page s))
      (by omega) (by simp only [Place.size]; omega)
    rw [add_sub_cancel, written] at kept
    exact absurd kept (by simp)
  · intro fits layout memory
    refine ⟨fun stranger => ⟨?_, ?_, fun event logged => ?_⟩,
      fun elsewhere => ⟨?_, ?_, fun event logged => ?_⟩⟩
    · rw [state, receive_sockets]
      split
      · rename_i target
        obtain ⟨-, request | peer⟩ := target_spec target
        · rw [request]
          exact ⟨rfl, rfl, rfl⟩
        · exact absurd peer stranger
      · exact ⟨rfl, rfl, rfl⟩
    · exact sameBytes_of_fits fits outside layout memory
    · rcases receive_log_for env k seg size srcIp logged with quiet | ⟨asoc, -, peer, serves⟩
      · exact Or.inl quiet
      · exact Or.inr ⟨asoc, fun same => stranger (same ▸ peer), peer, serves⟩
    · rw [state, receive_sockets, if_neg]
      intro target
      exact elsewhere (target_spec target).1
    · exact sameBytes_of_fits fits outside layout memory
    · rcases receive_log_for env k seg size srcIp logged with quiet | ⟨asoc, here, -, serves⟩
      · exact Or.inl quiet
      · exact Or.inr ⟨asoc, fun same => elsewhere (same ▸ here), serves⟩

/-- Socket 0 is connected at port 1024, with this many unread bytes, and socket 1 at port 1025. -/
def twoConnections (unread : Int) : Kernel :=
  (((Kernel.boot 1 0 0).withConnection 0 1024 2 80 1 1).withConnection 1 1025 3 80 1 1).setSocket 0
    fun socket => { socket with end_ := unread }

/-- A segment with two bytes from the peer of socket 0, next in order. -/
def twoBytes : Env :=
  ⟨memoryOf [0, 80, 4, 0, 0, 0, 0, 1, 0, 0, 0, 0, 0x50, 0, 0, 0, 0xA1, 0x8A, 0, 0, 7, 8],
    fun _ => 0, none⟩

/-- The page of socket 1 is the one behind that of socket 0. -/
def adjacent : Layout where
  start
    | .page s => 4096 * s
    | .socket s => - 15048 * (s + 1) - 32768
    | .requests => - 32768
  aligned s := ⟨s, rfl⟩
  apart p q different := by
    cases p <;> cases q <;> simp only [Place.size, pageSize, requestSize] <;> grind

/-- Witness: the two bytes fit behind 4094 unread ones, and the connection of socket 1 is left
alone.
-/
theorem connections_isolated_two
    : (∀ c ∈ copies twoBytes (twoConnections 4094) 0 22 2, c.Fits)
      ∧ Isolated twoBytes (twoConnections 4094) 0 22 2 1 adjacent (fun _ => 0) := by
  have fits : ∀ c ∈ copies twoBytes (twoConnections 4094) 0 22 2, c.Fits := by decide +kernel
  have isolated := connections_isolated twoBytes (twoConnections 4094) 0 22 2 1
    fun concerned => absurd concerned.2.2.1 (by decide)
  exact ⟨fits, isolated.mpr fits adjacent fun _ => 0⟩

/-- Behind 4095 unread bytes the second one is stored in the page of socket 1, which is registered
at another port and connected with another host.
-/
theorem overflow_reaches_neighbour
    : ¬ RegisteredAt (twoConnections 4095) (dstPortOf twoBytes.frame 0).toNat 1
      ∧ ¬ SentByPeer (twoConnections 4095) twoBytes.frame 0 22 2 1
      ∧ adjacent.after (copies twoBytes (twoConnections 4095) 0 22 2) (fun _ => 0)
          (adjacent.start (.page 1)) = 8 :=
  ⟨by simp [RegisteredAt]; decide, fun sent => absurd sent.2.1 (by decide), by decide +kernel⟩

end Xv6Net
