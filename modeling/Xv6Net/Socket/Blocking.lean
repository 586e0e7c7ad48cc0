import Xv6Net.Socket.Moves

/-! The calls that sleep: `connect`, `accept` and `socketread` by any number of processes,
interleaved with `tcp_receive`. As long as no two processes use one socket at a time and
`connect` is given unbound sockets only, a process inside one of these calls finds its socket
and the entry of its port as it left them, whatever the other processes do.
-/

namespace Xv6Net

open Library Memory Function Kernel

/-- The entry of port `p` points to socket `s`. -/
def Kernel.Registered (k : Kernel) (p s : Nat) : Prop :=
  (k.ports p).activeSocket = some s ∨ (k.ports p).passiveSocket = some s

/-- The socket has been bound, connected or accepted. -/
def Socket.Busy (socket : Socket) : Prop :=
  socket.state ≠ .free ∧ socket.state ≠ .unbound

/-- The port, socket and file tables agree with each other. -/
structure TableInv (k : Kernel) : Prop where
  tidy : k.Tidy
  vacant
    : ∀ p, (k.ports p).pid = -1
        → (k.ports p).activeSocket = none ∧ (k.ports p).passiveSocket = none
  registered
    : ∀ p s, k.Registered p s
        → s < nSockets
        → (k.sockets s).port.toNat = p ∧ (k.sockets s).Busy
  closed : ∀ s, ¬ (k.sockets s).Busy → (k.sockets s).tcon.state = .closed
  listening
    : ∀ s, s < nSockets
        → (k.sockets s).tcon.state = .listen
        → k.Registered (k.sockets s).port.toNat s
  files
    : ∀ f s, (k.files f).type = .socket → (k.files f).socket = some s → s < nSockets

/-- The fields of a socket that the tables and the calls depend on. -/
structure SameRole (socket other : Socket) : Prop where
  port : other.port = socket.port
  state : other.state = socket.state
  tcpState : other.tcon.state = socket.tcon.state

theorem SameRole.refl (socket : Socket) : SameRole socket socket :=
  ⟨rfl, rfl, rfl⟩

variable {pid t new i : Nat} {env : Env} {log : List Event} {sys : Sys}

/-- Whether a socket is in use is part of its role. -/
theorem SameRole.busy_iff {socket other : Socket} (same : SameRole socket other)
    : other.Busy ↔ socket.Busy := by
  rw [Socket.Busy, Socket.Busy, same.state]

/-- Steps that change neither the ports and files nor the role of a socket keep the tables
consistent.
-/
theorem TableInv.of_roles {k k' : Kernel} (inv : TableInv k)
    (roles : ∀ s, SameRole (k.sockets s) (k'.sockets s))
    (ports : k'.ports = k.ports) (files : k'.files = k.files)
    : TableInv k' where
  tidy := inv.tidy.of_files files
  vacant p := by rw [ports]; exact inv.vacant p
  registered p s := by
    rw [Kernel.Registered, ports, (roles s).port, (roles s).busy_iff]
    exact inv.registered p s
  closed s := by
    rw [(roles s).busy_iff, (roles s).tcpState]
    exact inv.closed s
  listening s := by
    rw [Kernel.Registered, ports, (roles s).port, (roles s).tcpState]
    exact inv.listening s
  files f s := by rw [files]; exact inv.files f s

theorem TableInv.socketAt {k : Kernel} (inv : TableInv k) {sockfd : Int} {s : Nat}
    (named : k.socketAt pid sockfd = some s)
    : s < nSockets := by
  simp only [Kernel.socketAt] at named
  split at named
  · cases named
  · split at named
    · cases named
    · rename_i f _
      split at named
      · cases named
      · rename_i isSocket
        exact inv.files f s (not_not.mp isSocket) named

/-- A step that stores `socket` at index `s`, with the same port, and leaves the other sockets, the
ports and the files.
-/
structure OwnUpdate (k k' : Kernel) (s : Nat) (socket : Socket) : Prop where
  sockets : k'.sockets = update k.sockets s socket
  port : socket.port = (k.sockets s).port
  ports : k'.ports = k.ports
  files : k'.files = k.files

theorem OwnUpdate.self {k k' : Kernel} {s : Nat} {socket : Socket} (own : OwnUpdate k k' s socket)
    : k'.sockets s = socket := by
  rw [own.sockets, update_self]

theorem OwnUpdate.others {k k' : Kernel} {s : Nat} {socket : Socket}
    (own : OwnUpdate k k' s socket) (other : t ≠ s)
    : k'.sockets t = k.sockets t := by
  rw [own.sockets, update_of_ne other]

/-- The tables stay in order when a socket in use changes its own state. -/
theorem TableInv.own {k k' : Kernel} {s : Nat} {socket : Socket} (inv : TableInv k)
    (own : OwnUpdate k k' s socket) (busy : socket.Busy)
    (listens : socket.tcon.state = .listen → k.Registered (k.sockets s).port.toNat s)
    : TableInv k' where
  tidy := inv.tidy.of_files own.files
  vacant p := by rw [own.ports]; exact inv.vacant p
  registered p t pointer inside := by
    rw [Kernel.Registered, own.ports] at pointer
    obtain ⟨port, live⟩ := inv.registered p t pointer inside
    by_cases same : t = s
    · subst same
      rw [own.self, own.port]
      exact ⟨port, busy⟩
    · rw [own.others same]
      exact ⟨port, live⟩
  closed t idle := by
    by_cases same : t = s
    · subst same
      rw [own.self] at idle
      exact absurd busy idle
    · rw [own.others same] at idle ⊢
      exact inv.closed t idle
  listening t inside listen := by
    rw [Kernel.Registered, own.ports]
    by_cases same : t = s
    · subst same
      rw [own.self] at listen ⊢
      rw [own.port]
      exact listens listen
    · rw [own.others same] at listen ⊢
      exact inv.listening t inside listen
  files f t := by rw [own.files]; exact inv.files f t

/-- The socket that a process uses inside a call. -/
def Pc.socket : Pc → Option Nat
  | .user => none
  | .bindUpdate s _ _ | .connectSyn s _ _ | .acceptTest s | .acceptDequeue s
  | .readTest s _ | .readCopy s _ | .write s _ | .mark _ s | .sleep _ s | .wait _ s => some s

def Next.pc : Next → Pc
  | .returns _ => .user
  | .goesOn pc => pc

variable {socket other : Socket} {pc : Pc} {next : Next}

structure Connecting (k : Kernel) (s : Nat) : Prop where
  inside : s < nSockets
  active : (k.ports (k.sockets s).port.toNat).activeSocket = some s
  alone : (k.ports (k.sockets s).port.toNat).passiveSocket = none

/-- The socket is the passive one of its port, and there is no active one. -/
structure Accepting (k : Kernel) (s : Nat) : Prop where
  inside : s < nSockets
  passive : (k.ports (k.sockets s).port.toNat).passiveSocket = some s
  alone : (k.ports (k.sockets s).port.toNat).activeSocket = none

structure Reading (k : Kernel) (s : Nat) : Prop where
  inside : s < nSockets
  established : (k.sockets s).tcon.state = .established

/-- What a process in a call that waits for `w` knows about the tables. -/
def Wait.Owns (k : Kernel) (s : Nat) : Wait → Prop
  | .synAck => Connecting k s
  | .request | .handshakeAck => Accepting k s
  | .data _ => Reading k s

/-- The assignment that precedes `sleepnolock` has been made. -/
def Wait.Marked (socket : Socket) : Wait → Prop
  | .synAck => socket.tcon.state = .synSent
  | .handshakeAck => socket.tcon.state = .synackSent
  | .request | .data _ => socket.state = .wait

/-- What a process inside a call knows about its socket, and how it sleeps, for `connect`, `accept`
and `socketread` only.
-/
def Located (k : Kernel) (p : Proc) : Pc → Prop
  | .user => True
  | .bindUpdate _ _ _ | .write _ _ => False
  | .connectSyn s _ _ => Connecting k s
  | .acceptTest s | .acceptDequeue s => Accepting k s
  | .readTest s _ | .readCopy s _ => Reading k s
  | .mark w s => w.Owns k s
  | .sleep w s => w.Owns k s ∧ w.Marked (k.sockets s)
  | .wait w s =>
    w.Owns k s
    ∧ w.Marked (k.sockets s)
    ∧ (p.state = .sleeping → p.chan = some (.port (k.sockets s).port.toNat))

/-- The tables agree, no two processes use one socket, and each finds its own as it left it.
-/
structure CallsInv (sys : Sys) : Prop where
  tables : TableInv sys.kernel
  apart
    : ∀ pid other s, (sys.pc pid).socket = some s → (sys.pc other).socket = some s
        → pid = other
  located : ∀ pid, Located sys.kernel (sys.kernel.procs pid) (sys.pc pid)

/-- The run consists of `connect`, `accept`, `socketread` and `tcp_receive`; `connect` is
called on an unbound socket, and `accept` and `socketread` on one that no process is using.
-/
def Orderly (sys : Sys) : SysAction → Prop
  | .call pid (.connect sockfd _ _) _ =>
    ∀ s, sys.kernel.socketAt pid sockfd = some s → (sys.kernel.sockets s).state = .unbound
  | .call pid (.accept sockfd) _ | .call pid (.read sockfd _) _ =>
    ∀ s, sys.kernel.socketAt pid sockfd = some s → ∀ other, (sys.pc other).socket ≠ some s
  | .resume _ _ | .receive _ _ _ _ => True
  | .call _ _ _ | .kill _ => False

/-- The step changes neither the role of the socket nor the entry of the port at which it is
registered.
-/
structure Undisturbed (k k' : Kernel) (s : Nat) : Prop where
  role : SameRole (k.sockets s) (k'.sockets s)
  entry
    : k.Registered (k.sockets s).port.toNat s
        → k'.ports (k.sockets s).port.toNat = k.ports (k.sockets s).port.toNat

/-- The step neither puts the process to sleep nor changes what it sleeps on. -/
def Proc.Kept (p p' : Proc) : Prop :=
  p'.state = .sleeping → p.state = .sleeping ∧ p'.chan = p.chan

/-- What a call does to its socket does not disturb the other ones. -/
theorem OwnUpdate.undisturbed {k k' : Kernel} {s : Nat} (own : OwnUpdate k k' s socket)
    (other : t ≠ s)
    : Undisturbed k k' t := by
  refine ⟨?_, fun _ => by rw [own.ports]⟩
  rw [own.others other]
  exact .refl _

variable {k k' : Kernel} {s : Nat}

/-- The state that the next step of a call leaves its socket in. -/
def Pc.nextState (state : SocketState) : Pc → SocketState
  | .acceptDequeue _ => .bound
  | .mark .request _ | .mark (.data _) _ => .wait
  | .wait (.data _) _ => .connected
  | _ => state

/-- The state that the next step of a call leaves the connection of its socket in. -/
def Pc.nextTcpState (state : TcpState) : Pc → TcpState
  | .mark .synAck _ => .synSent
  | .mark .handshakeAck _ => .synackSent
  | .wait .synAck _ => .established
  | _ => state

/-- The step changes other entries than that of the socket of the call. -/
def Pc.ChangesTables : Pc → Prop
  | .bindUpdate _ _ _ | .wait .handshakeAck _ => True
  | _ => False

/-- Between its waits a call changes its own socket only. -/
theorem PcMove.own (move : PcMove env k pid pc next k' log) (uses : pc.socket = some s)
    (local_ : ¬ pc.ChangesTables)
    : OwnUpdate k k' s (k'.sockets s)
      ∧ (k'.sockets s).state = pc.nextState (k.sockets s).state
      ∧ (k'.sockets s).tcon.state = pc.nextTcpState (k.sockets s).tcon.state := by
  cases move with
  | bindUpdate s addr port | accepted s new f fd freeSock freeFd freeDesc | acceptFailed s failed =>
    exact (local_ trivial).elim
  | write s call call' k' log move =>
    cases uses
    cases move with
    | send =>
      refine ⟨⟨?_, ?_, rfl, rfl⟩, ?_, ?_⟩ <;>
        simp [setTcon_sockets, Pc.nextState, Pc.nextTcpState, TcpConnection.queueSegment]
    | _ => exact ⟨⟨by simp, rfl, rfl, rfl⟩, rfl, rfl⟩
  | mark w =>
    cases uses
    cases w <;>
      exact ⟨⟨by simp, by simp [Wait.mark], rfl, rfl⟩, by simp [Wait.mark, Pc.nextState],
        by simp [Wait.mark, Pc.nextTcpState]⟩
  | _ =>
    cases uses
    refine ⟨⟨?_, ?_, ?_, ?_⟩, ?_, ?_⟩ <;>
      simp [setDestination, startNumbering, Kernel.takeRequest, answerRequest, advanceOffset,
        fallAsleep, Kernel.connected, readReply, Kernel.wake, setState, setTcon_sockets,
        Pc.nextState, Pc.nextTcpState]

theorem Pc.nextState_cases (pc : Pc) (state : SocketState)
    : pc.nextState state = state
      ∨ pc.nextState state = .bound
      ∨ pc.nextState state = .wait
      ∨ pc.nextState state = .connected := by
  cases pc with
  | acceptDequeue => exact Or.inr (Or.inl rfl)
  | mark w s | wait w s => cases w <;> simp [nextState]
  | _ => exact Or.inl rfl

/-- No call frees its socket on the way, other than `close`. -/
theorem Pc.nextState_busy (busy : socket.Busy) (state : other.state = pc.nextState socket.state)
    : other.Busy := by
  rw [Socket.Busy, state]
  rcases pc.nextState_cases socket.state with same | same | same | same <;> rw [same]
  · exact busy
  all_goals simp

variable {state : TcpState} {p : Proc} {c : Call} {answered : Nat → Bool}

/-- Only the wait for a SYN-ACK ends in a connection. -/
theorem Pc.nextTcpState_established
    (established : pc.nextTcpState state = .established) (before : state ≠ .established)
    : ∃ s, pc = .wait .synAck s := by
  cases pc with
  | mark w => cases w <;> first | exact absurd established before | cases established
  | wait w s => cases w <;> first | exact ⟨s, rfl⟩ | exact absurd established before
  | _ => exact absurd established before

theorem Pc.nextTcpState_listen (listen : pc.nextTcpState state = .listen)
    : state = .listen := by
  cases pc with
  | mark w s | wait w s => cases w <;> first | exact listen | cases listen
  | _ => exact listen

/-- What `connect` relies on is in its own socket. -/
theorem Connecting.kept (connecting : Connecting k s) (same : Undisturbed k k' s)
    : Connecting k' s := by
  have entry := same.entry (Or.inl connecting.active)
  refine ⟨connecting.inside, ?_, ?_⟩
  · rw [same.role.port, entry]
    exact connecting.active
  · rw [same.role.port, entry]
    exact connecting.alone

theorem Accepting.kept (accepting : Accepting k s) (same : Undisturbed k k' s)
    : Accepting k' s := by
  have entry := same.entry (Or.inr accepting.passive)
  refine ⟨accepting.inside, ?_, ?_⟩
  · rw [same.role.port, entry]
    exact accepting.passive
  · rw [same.role.port, entry]
    exact accepting.alone

theorem Reading.kept (reading : Reading k s) (same : Undisturbed k k' s) : Reading k' s :=
  ⟨reading.inside, same.role.tcpState.trans reading.established⟩

variable {w : Wait}

theorem Wait.Owns.kept (owns : w.Owns k s) (same : Undisturbed k k' s)
    : w.Owns k' s := by
  cases w with
  | synAck => exact Connecting.kept owns same
  | request | handshakeAck => exact Accepting.kept owns same
  | data => exact Reading.kept owns same

theorem Wait.Marked.kept (marked : w.Marked socket) (same : SameRole socket other)
    : w.Marked other := by
  cases w with
  | synAck | handshakeAck => exact same.tcpState.trans marked
  | request | data size => exact same.state.trans marked

/-- Where a process is does not depend on the sockets of the other processes. -/
theorem Located.kept {p' : Proc} (located : Located k p pc)
    (same : ∀ s, pc.socket = some s → Undisturbed k k' s) (still : Proc.Kept p p')
    : Located k' p' pc := by
  cases pc with
  | user => trivial
  | bindUpdate s addr port | write s call => exact located
  | connectSyn s => exact Connecting.kept located (same s rfl)
  | acceptTest s | acceptDequeue s => exact Accepting.kept located (same s rfl)
  | readTest s size | readCopy s size => exact Reading.kept located (same s rfl)
  | mark w s => exact Wait.Owns.kept located (same s rfl)
  | sleep w s =>
    exact ⟨located.1.kept (same s rfl), located.2.kept (same s rfl).role⟩
  | wait w s =>
    obtain ⟨owns, marked, asleep⟩ := located
    refine ⟨owns.kept (same s rfl), marked.kept (same s rfl).role, fun sleeping => ?_⟩
    obtain ⟨slept, chan⟩ := still sleeping
    rw [chan, (same s rfl).role.port]
    exact asleep slept

/-- A process in a call uses a socket that is in use. -/
theorem Located.busy (located : Located k p pc) (tables : TableInv k) (uses : pc.socket = some s)
    : s < nSockets ∧ (k.sockets s).Busy := by
  have connecting (h : Connecting k s) : s < nSockets ∧ (k.sockets s).Busy :=
    ⟨h.inside, (tables.registered _ s (Or.inl h.active) h.inside).2⟩
  have accepting (h : Accepting k s) : s < nSockets ∧ (k.sockets s).Busy :=
    ⟨h.inside, (tables.registered _ s (Or.inr h.passive) h.inside).2⟩
  have reading (h : Reading k s) : s < nSockets ∧ (k.sockets s).Busy := by
    refine ⟨h.inside, ?_⟩
    by_contra idle
    have closed := tables.closed s idle
    rw [h.established] at closed
    cases closed
  have owning {w : Wait} (h : w.Owns k s) : s < nSockets ∧ (k.sockets s).Busy := by
    cases w with
    | synAck => exact connecting h
    | request | handshakeAck => exact accepting h
    | data => exact reading h
  cases pc with
  | user => cases uses
  | bindUpdate t addr port | write t call => exact located.elim
  | connectSyn => cases uses; exact connecting located
  | acceptTest t | acceptDequeue t => cases uses; exact accepting located
  | readTest t size | readCopy t size => cases uses; exact reading located
  | mark => cases uses; exact owning located
  | sleep w t | wait w t => cases uses; exact owning located.1

/-- The listener `s` has handed its connection over to the socket `new`. -/
structure HandedOver (k k' : Kernel) (s new : Nat) : Prop where
  others : ∀ t, t ≠ s → t ≠ new → k'.sockets t = k.sockets t
  port : (k'.sockets s).port = (k.sockets s).port
  state : (k'.sockets s).state = (k.sockets s).state
  newPort : (k'.sockets new).port = (k.sockets s).port
  newState : (k'.sockets new).state = .connected
  established : (k'.sockets new).tcon.state = .established
  ports
    : k'.ports
      = update k.ports (k.sockets s).port.toNat
          { k.ports (k.sockets s).port.toNat with activeSocket := some new }

theorem HandedOver.entry_of_ne {p : Nat} (handed : HandedOver k k' s new)
    (other : p ≠ (k.sockets s).port.toNat)
    : k'.ports p = k.ports p := by
  rw [handed.ports, update_of_ne other]

/-- One socket listens at a port. -/
theorem Accepting.unique (accepting : Accepting k s)
    (registered : k.Registered (k.sockets s).port.toNat t)
    : t = s := by
  rcases registered with active | passive
  · rw [accepting.alone] at active
    cases active
  · rw [accepting.passive] at passive
    cases passive
    rfl

/-- `accept` changes the listening socket and the new one. -/
theorem HandedOver.undisturbed (handed : HandedOver k k' s new) (accepting : Accepting k s)
    (other : t ≠ s) (old : t ≠ new)
    : Undisturbed k k' t := by
  refine ⟨?_, fun registered => handed.entry_of_ne ?_⟩
  · rw [handed.others t other old]
    exact .refl _
  · intro same
    rw [same] at registered
    exact other (accepting.unique registered)

/-- Witness: the new socket was free, so nothing was registered under its index. -/
theorem TableInv.handedOver (inv : TableInv k) (handed : HandedOver k k' s new)
    (accepting : Accepting k s) (free : new < nSockets → ¬ (k.sockets new).Busy) (tidy : k'.Tidy)
    (files
      : ∀ f t, (k'.files f).type = .socket → (k'.files f).socket = some t → t < nSockets)
    : TableInv k' := by
  have listener : (k.sockets s).Busy :=
    (inv.registered _ s (Or.inr accepting.passive) accepting.inside).2
  have apart : new ≠ s := by
    rintro rfl
    exact free accepting.inside listener
  have busyNew : (k'.sockets new).Busy := by simp [Socket.Busy, handed.newState]
  have busyListener : (k'.sockets s).Busy := by rwa [Socket.Busy, handed.state]
  have atPort : k'.ports (k.sockets s).port.toNat
      = { k.ports (k.sockets s).port.toNat with activeSocket := some new } := by
    rw [handed.ports, update_self]
  refine ⟨tidy, ?_, ?_, ?_, ?_, files⟩
  · intro p vacant
    by_cases here : p = (k.sockets s).port.toNat
    · -- the listener is still at its port
      rw [here, atPort] at vacant
      have empty := (inv.vacant _ vacant).2
      rw [accepting.passive] at empty
      cases empty
    · rw [handed.entry_of_ne here] at vacant ⊢
      exact inv.vacant p vacant
  · intro p t pointer inside
    by_cases here : p = (k.sockets s).port.toNat
    · subst here
      rw [Kernel.Registered, atPort] at pointer
      rcases pointer with active | passive
      · cases active
        exact ⟨by rw [handed.newPort], busyNew⟩
      · have same := accepting.unique (Or.inr passive)
        subst same
        exact ⟨by rw [handed.port], busyListener⟩
    · rw [Kernel.Registered, handed.entry_of_ne here] at pointer
      obtain ⟨port, busy⟩ := inv.registered p t pointer inside
      have old : t ≠ new := by
        rintro rfl
        exact free inside busy
      have other : t ≠ s := by
        rintro rfl
        exact here port.symm
      rw [handed.others t other old]
      exact ⟨port, busy⟩
  · intro t idle
    have old : t ≠ new := by
      rintro rfl
      exact idle busyNew
    have other : t ≠ s := by
      rintro rfl
      exact idle busyListener
    rw [handed.others t other old] at idle ⊢
    exact inv.closed t idle
  · intro t inside listen
    by_cases same : t = s
    · subst same
      rw [Kernel.Registered, handed.port, atPort]
      exact Or.inr accepting.passive
    · have old : t ≠ new := by
        rintro rfl
        rw [handed.established] at listen
        cases listen
      rw [handed.others t same old] at listen ⊢
      have registered := inv.listening t inside listen
      have elsewhere : (k.sockets t).port.toNat ≠ (k.sockets s).port.toNat := by
        intro here
        rw [here] at registered
        exact same (accepting.unique registered)
      rwa [Kernel.Registered, handed.entry_of_ne elsewhere]

/-- The search ends at a port that nobody has. -/
theorem freePort_spec (found : freePort k = some i)
    : i < nPorts ∧ (k.ports i).pid = -1 := by
  have member := List.mem_of_find?_eq_some found
  have test := List.find?_some found
  simp only [List.mem_range'_1, nPorts] at member
  exact ⟨by simp only [nPorts]; omega, by simpa using test⟩

/-- Port `p` has been taken for a socket that was unbound, as its active or its passive one. -/
structure TookPort (k k' : Kernel) (pid s p : Nat) : Prop where
  others : ∀ t, t ≠ s → k'.sockets t = k.sockets t
  port : (k'.sockets s).port.toNat = p
  state : (k'.sockets s).state = .bound
  tcpState : (k'.sockets s).tcon.state = (k.sockets s).tcon.state
  elsewhere : ∀ q, q ≠ p → k'.ports q = k.ports q
  here
    : k'.ports p = { k.ports p with pid := pid, activeSocket := some s }
      ∨ k'.ports p = { k.ports p with pid := pid, passiveSocket := some s }

/-- What is registered afterwards was registered before, or is the new socket at its port. -/
theorem TookPort.registered_iff {p q : Nat} (took : TookPort k k' pid s p)
    (active : (k.ports p).activeSocket = none) (passive : (k.ports p).passiveSocket = none)
    : k'.Registered q t ↔ (q = p ∧ t = s) ∨ (q ≠ p ∧ k.Registered q t) := by
  by_cases same : q = p
  · subst same
    rcases took.here with here | here <;>
      simp [Kernel.Registered, here, active, passive, eq_comm]
  · simp [Kernel.Registered, took.elsewhere q same, same]

theorem TookPort.takePort {i : Nat} (low : i < nPorts)
    : TookPort k (k.takePort pid s i) pid s i where
  others t other := by simp [Kernel.takePort, update_of_ne other]
  port := by
    simp only [nPorts] at low
    simp only [Kernel.takePort, setSocket_sockets, update_self, UInt16.toNat_ofNat']
    omega
  state := by simp [Kernel.takePort]
  tcpState := by simp [Kernel.takePort]
  elsewhere q other := by simp [Kernel.takePort, update_of_ne other]
  here := Or.inl (by simp [Kernel.takePort])

/-- `connect` on an unbound socket: nothing is registered at the port that it takes. -/
theorem TableInv.takePort (inv : TableInv k) (inside : s < nSockets) (idle : ¬ (k.sockets s).Busy)
    (found : freePort k = some i)
    : TableInv (k.takePort pid s i) ∧ Connecting (k.takePort pid s i) s := by
  obtain ⟨low, free⟩ := freePort_spec found
  obtain ⟨noActive, noPassive⟩ := inv.vacant i free
  have took : TookPort k (k.takePort pid s i) pid s i := .takePort low
  refine ⟨⟨inv.tidy.of_files rfl, ?_, ?_, ?_, ?_, inv.files⟩, inside, ?_, ?_⟩
  · intro p free
    by_cases same : p = i
    · subst same
      rcases took.here with here | here <;>
        · rw [here] at free
          simp only at free
          omega
    · rw [took.elsewhere p same] at free ⊢
      exact inv.vacant p free
  · intro p t pointer low
    rcases (took.registered_iff noActive noPassive).mp pointer with ⟨rfl, rfl⟩ | ⟨-, before⟩
    · exact ⟨took.port, by simp [Socket.Busy, took.state]⟩
    · have busy := inv.registered p t before low
      -- the socket is not the one that takes the port, which was not busy
      rw [took.others t fun same => idle (same ▸ busy.2)]
      exact busy
  · intro t free
    by_cases same : t = s
    · subst same
      simp [Socket.Busy, took.state] at free
    · rw [took.others t same] at free ⊢
      exact inv.closed t free
  · intro t low listen
    by_cases same : t = s
    · subst same
      rw [took.tcpState, inv.closed t idle] at listen
      cases listen
    · rw [took.others t same] at listen ⊢
      have registered := inv.listening t low listen
      refine (took.registered_iff noActive noPassive).mpr (Or.inr ⟨fun here => ?_, registered⟩)
      rw [here, Kernel.Registered, noActive, noPassive] at registered
      simp at registered
  · rw [took.port]
    simp [Kernel.takePort]
  · rw [took.port]
    simpa [Kernel.takePort] using noPassive

/-- Witness: the port that `connect` takes is vacant, so nothing is registered there. -/
theorem Kernel.takePort_undisturbed (inv : TableInv k) (found : freePort k = some i) (other : t ≠ s)
    : Undisturbed k (k.takePort pid s i) t := by
  obtain ⟨noActive, noPassive⟩ := inv.vacant i (freePort_spec found).2
  refine ⟨?_, fun registered => ?_⟩
  · simp only [takePort, setSocket_sockets, setPort_sockets, update_of_ne other]
    exact .refl _
  · have elsewhere : (k.sockets t).port.toNat ≠ i := by
      intro here
      rw [Kernel.Registered, here, noActive, noPassive] at registered
      rcases registered with impossible | impossible <;> cases impossible
    simp [takePort, update_of_ne elsewhere]

@[simp]
theorem Sys.after_kernel (sys : Sys) (pid : Nat) (k : Kernel) (next : Next)
    : (sys.after pid k next).kernel = k := by
  cases next <;> rfl

@[simp]
theorem Sys.after_pc (sys : Sys) (pid : Nat) (k : Kernel) (next : Next)
    : (sys.after pid k next).pc = update sys.pc pid next.pc := by
  cases next <;> rfl

/-- No two processes use one socket after a step that does not start to use one of another process.
-/
theorem Sys.apart_after {use : Pc → Option Nat}
    (apart
      : ∀ one two s, use (sys.pc one) = some s → use (sys.pc two) = some s → one = two)
    (unused
      : ∀ t, use next.pc = some t → ∀ other, other ≠ pid → use (sys.pc other) ≠ some t)
    (one two s : Nat) (first : use ((sys.after pid k next).pc one) = some s)
    (second : use ((sys.after pid k next).pc two) = some s)
    : one = two := by
  rw [Sys.after_pc] at first second
  by_cases isOne : one = pid
  · by_cases isTwo : two = pid
    · rw [isOne, isTwo]
    · rw [isOne, update_self] at first
      rw [update_of_ne isTwo] at second
      exact absurd second (unused s first two isTwo)
  · rw [update_of_ne isOne] at first
    by_cases isTwo : two = pid
    · rw [isTwo, update_self] at second
      exact absurd first (unused s second one isOne)
    · rw [update_of_ne isTwo] at second
      exact apart one two s first second

/-- A step of a process keeps the calls of the others going if it keeps the tables, their sockets
and their sleep, and does not start to use one of their sockets.
-/
theorem CallsInv.after (inv : CallsInv sys) (tables : TableInv k')
    (own : Located k' (k'.procs pid) next.pc)
    (unused : ∀ t, next.pc.socket = some t → ∀ other, other ≠ pid → (sys.pc other).socket ≠ some t)
    (undisturbed
      : ∀ other t, other ≠ pid → (sys.pc other).socket = some t → Undisturbed sys.kernel k' t)
    (still : ∀ other, other ≠ pid → Proc.Kept (sys.kernel.procs other) (k'.procs other))
    : CallsInv (sys.after pid k' next) := by
  refine ⟨by simpa using tables, Sys.apart_after inv.apart unused, ?_⟩
  · intro other
    rw [Sys.after_pc, Sys.after_kernel]
    by_cases same : other = pid
    · rw [same, update_self]
      exact own
    · rw [update_of_ne same]
      exact (inv.located other).kept (fun t uses => undisturbed other t same uses)
        (still other same)

theorem Proc.Kept.refl (p : Proc) : Proc.Kept p p :=
  fun sleeping => ⟨sleeping, rfl⟩

/-- The start of a call, by what it can do. -/
theorem CallsInv.call (inv : CallsInv sys) (orderly : Orderly sys (.call pid c env))
    (move : CallMove env sys.kernel pid c next k')
    : CallsInv (sys.after pid k' next) := by
  have same (t : Nat) : Undisturbed sys.kernel sys.kernel t := ⟨.refl _, fun _ => rfl⟩
  cases move with
  | refused =>
    exact inv.after inv.tables trivial (by rintro _ ⟨⟩) (fun _ t _ _ => same t)
      (fun _ _ => .refl _)
  | connect sockfd dstAddr dstPort s i named free =>
    have idle : ¬ (sys.kernel.sockets s).Busy := fun busy => busy.2 (orderly s named)
    have inside := inv.tables.socketAt named
    obtain ⟨tables, connecting⟩ := inv.tables.takePort inside idle free
    have unused (other t : Nat) (uses : (sys.pc other).socket = some t) : t ≠ s := by
      rintro rfl
      exact idle ((inv.located other).busy inv.tables uses).2
    refine inv.after tables connecting ?_ ?_ (fun _ _ => .refl _)
    · rintro t ⟨⟩ other _ uses
      exact unused other _ uses rfl
    · intro other t _ uses
      exact takePort_undisturbed inv.tables free (unused other t uses)
  | accept sockfd s named listening alone =>
    have inside := inv.tables.socketAt named
    have passive
        : (sys.kernel.ports (sys.kernel.sockets s).port.toNat).passiveSocket = some s := by
      rcases inv.tables.listening s inside listening with active | passive
      · rw [alone] at active
        cases active
      · exact passive
    refine inv.after inv.tables ⟨inside, passive, alone⟩ ?_ (fun _ t _ _ => same t)
      (fun _ _ => .refl _)
    rintro t ⟨⟩ other -
    exact orderly s named other
  | read fd size s named established =>
    refine inv.after inv.tables ⟨inv.tables.socketAt named, established⟩ ?_
      (fun _ t _ _ => same t) (fun _ _ => .refl _)
    rintro t ⟨⟩ other -
    exact orderly s named other
  | _ => exact orderly.elim

/-- A call stays with its socket. -/
theorem PcMove.stays (move : PcMove env k pid pc next k' log) (used : pc.socket = some s)
    (goesOn : next.pc.socket = some t)
    : t = s := by
  cases move with
  | write =>
    cases used
    split at goesOn
    · cases goesOn
    · cases goesOn
      rfl
  | _ =>
    cases used
    cases goesOn <;> rfl

/-- A step of a call leaves the sockets of the others alone, if they are in use. -/
theorem PcMove.others (move : PcMove env k pid pc next k' log) (inside : t < nSockets)
    (busy : (k.sockets t).Busy) (unused : pc.socket ≠ some t)
    : k'.sockets t = k.sockets t := by
  have unused {s : Nat} (same : pc.socket = some s) : t ≠ s := by
    rintro rfl
    exact unused same
  cases move with
  | write s call call' k' log move =>
    cases move <;> simp [setTcon_sockets, update_of_ne (unused rfl)]
  | accepted s new f fd freeSock =>
    have old : t ≠ new := by
      rintro rfl
      exact busy.1 (freeSocket_spec freeSock).2
    simp [handOver, openSocket, setTcpState, Kernel.wake,
      setTcon_sockets, update_of_ne (unused rfl), update_of_ne old]
  | acceptFailed =>
    have old : t ≠ nSockets := inside.ne
    simp [handOver, setTcpState, Kernel.wake,
      setTcon_sockets, update_of_ne (unused rfl), update_of_ne old]
  | _ =>
    simp [bindPort, setDestination, startNumbering, Kernel.takeRequest, answerRequest,
      advanceOffset, fallAsleep, Kernel.connected, readReply, Kernel.wake, setState,
      setTcon_sockets, update_of_ne (unused rfl)]

theorem Connecting.own (connecting : Connecting k s) (own : OwnUpdate k k' s socket)
    : Connecting k' s := by
  refine ⟨connecting.inside, ?_, ?_⟩
  · rw [own.self, own.port, own.ports]
    exact connecting.active
  · rw [own.self, own.port, own.ports]
    exact connecting.alone

theorem Accepting.own (accepting : Accepting k s) (own : OwnUpdate k k' s socket)
    : Accepting k' s := by
  refine ⟨accepting.inside, ?_, ?_⟩
  · rw [own.self, own.port, own.ports]
    exact accepting.passive
  · rw [own.self, own.port, own.ports]
    exact accepting.alone

/-- The rule for a step that changes the socket of the call only. -/
theorem CallsInv.own (inv : CallsInv sys) (uses : (sys.pc pid).socket = some s)
    (own : OwnUpdate sys.kernel k' s socket) (busy : socket.Busy)
    (listens
      : socket.tcon.state = .listen
        → sys.kernel.Registered (sys.kernel.sockets s).port.toNat s)
    (located : Located k' (k'.procs pid) next.pc)
    (goesOn : next.pc = .user ∨ next.pc.socket = some s)
    (procs : ∀ other, other ≠ pid → k'.procs other = sys.kernel.procs other)
    : CallsInv (sys.after pid k' next) := by
  have others (other t : Nat) (differs : other ≠ pid) (used : (sys.pc other).socket = some t)
      : t ≠ s := by
    rintro rfl
    exact differs (inv.apart other pid _ used uses)
  refine inv.after (inv.tables.own own busy listens) located ?_ ?_ ?_
  · intro t used other differs usesToo
    rcases goesOn with done | stays
    · rw [done] at used
      cases used
    · rw [stays] at used
      cases used
      exact others other s differs usesToo rfl
  · intro other t differs used
    exact own.undisturbed (others other t differs used)
  · intro other differs
    rw [procs other differs]
    exact .refl _

/-- The request goes to a new socket, and the old one listens again. -/
theorem HandedOver.accepted {f fd : Nat} {page : Option (Int → UInt8)} (apart : new ≠ s)
    : HandedOver k
        ((((k.wake pid).setTcpState s .listen).openSocket pid new f fd page).handOver s new)
        s new := by
  constructor <;>
    simp +contextual [handOver, openSocket, setTcpState, Kernel.wake,
      setTcon_sockets, update_of_ne apart.symm, update_of_ne]

theorem HandedOver.failed (inside : s < nSockets)
    : HandedOver k (((k.wake pid).setTcpState s .listen).handOver s nSockets) s nSockets := by
  have apart : s ≠ nSockets := inside.ne
  constructor <;>
    simp +contextual [handOver, setTcpState, Kernel.wake,
      setTcon_sockets, update_of_ne apart, update_of_ne]

/-- `accept` returns: the connection is handed over to a new socket, or to none. -/
theorem CallsInv.handedOver (inv : CallsInv sys) (uses : (sys.pc pid).socket = some s)
    (accepting : Accepting sys.kernel s) (handed : HandedOver sys.kernel k' s new)
    (free : new < nSockets → ¬ (sys.kernel.sockets new).Busy) (tidy : k'.Tidy)
    (files
      : ∀ f t, (k'.files f).type = .socket → (k'.files f).socket = some t → t < nSockets)
    (done : next.pc = .user)
    (procs
      : ∀ other, other ≠ pid → k'.procs other = sys.kernel.procs other)
    : CallsInv (sys.after pid k' next) := by
  refine inv.after (inv.tables.handedOver handed accepting free tidy files) ?_ ?_ ?_ ?_
  · rw [done]
    trivial
  · intro t used
    rw [done] at used
    cases used
  · intro other t differs used
    obtain ⟨inside, busy⟩ := (inv.located other).busy inv.tables used
    refine handed.undisturbed accepting ?_ ?_
    · rintro rfl
      exact differs (inv.apart other pid _ used uses)
    · rintro rfl
      exact free inside busy
  · intro other differs
    rw [procs other differs]
    exact .refl _

/-- A call goes on, by the place where it was. -/
theorem CallsInv.resume (inv : CallsInv sys)
    (move : PcMove env sys.kernel pid (sys.pc pid) next k' log)
    : CallsInv (sys.after pid k' next) := by
  have located := inv.located pid
  generalize here : sys.pc pid = pc at move located
  have busy {t : Nat} (used : pc.socket = some t)
      : t < nSockets ∧ (sys.kernel.sockets t).Busy :=
    located.busy inv.tables used
  have procs (other : Nat) (differs : other ≠ pid)
      : k'.procs other = sys.kernel.procs other :=
    move.procs_of_ne differs
  -- a step that changes its own socket only has to say what it knows about it afterwards
  have own {t : Nat} (used : pc.socket = some t) (local_ : ¬ pc.ChangesTables)
      (goesOn : next.pc = .user ∨ next.pc.socket = some t)
      (after
        : OwnUpdate sys.kernel k' t (k'.sockets t)
          → (k'.sockets t).state = pc.nextState (sys.kernel.sockets t).state
          → (k'.sockets t).tcon.state = pc.nextTcpState (sys.kernel.sockets t).tcon.state
          → Located k' (k'.procs pid) next.pc)
      : CallsInv (sys.after pid k' next) := by
    obtain ⟨update, state, tcpState⟩ := move.own used local_
    refine inv.own (by rw [here]; exact used) update
      (Pc.nextState_busy (busy used).2 state) (fun listen => ?_)
      (after update state tcpState) goesOn procs
    rw [tcpState] at listen
    exact inv.tables.listening t (busy used).1 (Pc.nextTcpState_listen listen)
  cases move with
  | bindUpdate s addr port | write s call call' k' log move => exact located.elim
  | connectSyn =>
    exact own rfl id (Or.inr rfl) fun update _ _ => Connecting.own located update
  | noRequest s empty | hasRequest s ready | takeRequest s =>
    exact own rfl id (Or.inr rfl) fun update _ _ => Accepting.own located update
  | noData s size empty | hasData s size ready => exact own rfl id (Or.inr rfl) fun _ _ _ => located
  | readCopy s size bytes | connected s => exact own rfl id (Or.inl rfl) fun _ _ _ => trivial
  | mark w =>
    refine own rfl id (Or.inr rfl) fun update state tcpState => ?_
    cases w with
    | synAck => exact ⟨Connecting.own located update, tcpState⟩
    | handshakeAck => exact ⟨Accepting.own located update, tcpState⟩
    | request => exact ⟨Accepting.own located update, state⟩
    | data =>
      exact ⟨⟨Reading.inside located, tcpState.trans (Reading.established located)⟩, state⟩
  | sleep w s =>
    have undisturbed : Undisturbed sys.kernel
        (sys.kernel.fallAsleep pid (.port (sys.kernel.sockets s).port.toNat)) s :=
      ⟨.refl _, fun _ => rfl⟩
    refine own rfl id (Or.inr rfl) fun _ _ _ =>
      ⟨located.1.kept undisturbed, located.2, fun _ => ?_⟩
    simp [fallAsleep]
  | wokenForRequest =>
    exact own rfl id (Or.inr rfl) fun update _ _ => Accepting.own located.1 update
  | wokenForData =>
    exact own rfl id (Or.inr rfl) fun _ _ tcpState =>
      ⟨located.1.inside, tcpState.trans located.1.established⟩
  | accepted s new f fd freeSock freeFd freeDesc =>
    obtain ⟨inside, free⟩ := freeSocket_spec freeSock
    have idle : ¬ (sys.kernel.sockets new).Busy := fun live => live.1 free
    have apart : new ≠ s := by
      rintro rfl
      exact idle (busy rfl).2
    refine inv.handedOver (by rw [here]; rfl) located.1 (.accepted apart) (fun _ => idle)
      ?_ ?_ rfl procs
    · exact (PcMove.accepted s new f fd freeSock freeFd freeDesc).tidy inv.tables.tidy
    · intro g t type refers
      by_cases opened : g = f
      · subst opened
        simp [handOver, openSocket] at refers
        omega
      · simp [handOver, openSocket, setTcpState, Kernel.wake, update_of_ne opened] at type refers
        exact inv.tables.files g t type refers
  | acceptFailed s failed =>
    exact inv.handedOver (by rw [here]; rfl) located.1 (.failed located.1.inside)
      (fun inside => absurd inside (lt_irrefl _)) (inv.tables.tidy.of_files rfl)
      inv.tables.files rfl procs

theorem receive_kept (k : Kernel) (mem : Int → UInt8) (seg size : Int) (srcIp : UInt32) (pid : Nat)
    : Proc.Kept (k.procs pid) ((k.receive mem seg size srcIp).procs pid) := by
  intro sleeping
  rcases receive_procs k mem seg size srcIp with ⟨-, woken⟩ | ⟨-, same⟩
  · rw [woken] at sleeping ⊢
    simp only [Kernel.wakeup] at sleeping ⊢
    split at sleeping
    · cases sleeping
    · rename_i other
      rw [if_neg other]
      exact ⟨sleeping, rfl⟩
  · rw [same] at sleeping ⊢
    exact ⟨sleeping, rfl⟩

/-- A segment does not change who uses a socket for what. -/
theorem receive_role (k : Kernel) (mem : Int → UInt8) (seg size : Int) (srcIp : UInt32) (s : Nat)
    : SameRole (k.sockets s) ((k.receive mem seg size srcIp).sockets s) :=
  ⟨(receive_endpoint k mem seg size srcIp s).port, receive_state k mem seg size srcIp s,
    (receive_endpoint k mem seg size srcIp s).tcpState⟩

/-- A segment comes in while the calls wait. -/
theorem CallsInv.receive (inv : CallsInv sys) (env : Env) (seg size : Int) (srcIp : UInt32)
    : CallsInv { sys with kernel := sys.kernel.receive env.frame seg size srcIp } where
  tables :=
    inv.tables.of_roles (receive_role sys.kernel env.frame seg size srcIp)
      (receive_ports ..) (receive_files ..)
  apart := inv.apart
  located pid :=
    (inv.located pid).kept
      (fun s _ =>
        ⟨receive_role sys.kernel env.frame seg size srcIp s, fun _ => by rw [receive_ports]⟩)
      (receive_kept sys.kernel env.frame seg size srcIp pid)

/-- Every step keeps the invariant: a call starts, goes on, or a segment comes in. -/
theorem CallsInv.step {after : Sys} {action : SysAction} (inv : CallsInv sys)
    (orderly : Orderly sys action) (move : SysMove sys action after log)
    : CallsInv after := by
  cases move with
  | call pid c env next k' idle runnable move => exact inv.call orderly move
  | resume pid env pc next k' log located runnable move =>
    subst located
    exact inv.resume move
  | kill => exact orderly.elim
  | receive env seg size srcIp => exact inv.receive env seg size srcIp

section

variable (k : Kernel) (mem : Int → UInt8) (seg size : Int) (srcIp : UInt32) (s : Nat)

/-- A valid segment that the peer of socket `s` has sent to its port. -/
structure FromPeer : Prop where
  admitted : Admitted k mem seg size srcIp
  port : dstPortOf mem seg = (k.sockets s).port
  dstAddr : (k.sockets s).tcon.dstAddr = srcIp
  dstPort : (k.sockets s).tcon.dstPort = srcPortOf mem seg

/-- The answer to the SYN or the SYN-ACK of socket `s`. -/
def Wait.AnsweredBy : Wait → Prop
  | .synAck =>
    FromPeer k mem seg size srcIp s
    ∧ flagsOf mem seg &&& tcpFlagSyn ≠ 0
    ∧ flagsOf mem seg &&& tcpFlagAck ≠ 0
    ∧ ackNumOf mem seg = initialSeq + 1
  | .handshakeAck =>
    FromPeer k mem seg size srcIp s
    ∧ flagsOf mem seg &&& tcpFlagAck ≠ 0
    ∧ ackNumOf mem seg = initialSeq + 1
  | .request | .data _ => False

instance : Decidable (FromPeer k mem seg size srcIp s) :=
  decidable_of_iff
    (Admitted k mem seg size srcIp
      ∧ dstPortOf mem seg = (k.sockets s).port
      ∧ (k.sockets s).tcon.dstAddr = srcIp
      ∧ (k.sockets s).tcon.dstPort = srcPortOf mem seg)
    ⟨fun h => ⟨h.1, h.2.1, h.2.2.1, h.2.2.2⟩, fun h => ⟨h.1, h.2, h.3, h.4⟩⟩

instance : (w : Wait) → Decidable (w.AnsweredBy k mem seg size srcIp s)
  | .synAck => inferInstanceAs (Decidable (_ ∧ _ ∧ _ ∧ _))
  | .handshakeAck => inferInstanceAs (Decidable (_ ∧ _ ∧ _))
  | .request => isFalse id
  | .data _ => isFalse id

end

theorem admitted_of_disposition {mem : Int → UInt8} {seg size : Int} {srcIp : UInt32}
    (taken : disposition k mem seg size srcIp ≠ .dropped)
    : Admitted k mem seg size srcIp := by
  by_contra rejected
  exact taken (if_neg rejected)

theorem TableInv.port_of_registered {p : UInt16} (tables : TableInv k) (inside : s < nSockets)
    (registered : k.Registered p.toNat s)
    : p = (k.sockets s).port :=
  UInt16.toNat_inj.mp (tables.registered _ s registered inside).1.symm

/-- What a process waits for, from the end of the step in which it decided to. -/
def Pc.awaits : Pc → Option (Wait × Nat)
  | .mark w s | .sleep w s | .wait w s => some (w, s)
  | _ => none

/-- The history of the answers: whether the last SYN or SYN-ACK of a process has been answered. -/
def noteAnswers (sys : Sys) : SysAction → (Nat → Bool) → Nat → Bool
  | .resume pid _, answered =>
    match sys.pc pid with
    | .connectSyn _ _ _ | .acceptDequeue _ => update answered pid false
    | _ => answered
  | .receive env seg size srcIp, answered => fun pid =>
    answered pid
      || match (sys.pc pid).awaits with
        | some (w, s) => decide (w.AnsweredBy sys.kernel env.frame seg size srcIp s)
        | none => false
  | .call _ _ _, answered | .kill _, answered => answered

/-- The host with the history of the answers. -/
abbrev stepAnswering : Sys × (Nat → Bool) → SysAction → Option (Sys × (Nat → Bool)) :=
  Transition.withHistory Sys.step noteAnswers

/-- A host whose tables agree and whose processes are in no call. -/
structure Quiet (current : Sys × (Nat → Bool)) : Prop where
  tables : TableInv current.1.kernel
  idle : ∀ pid, current.1.pc pid = .user

theorem Quiet.callsInv {current : Sys × (Nat → Bool)} (quiet : Quiet current)
    : CallsInv current.1 where
  tables := quiet.tables
  apart pid other s uses := by
    rw [quiet.idle] at uses
    cases uses
  located pid := by
    rw [quiet.idle]
    trivial

/-- `P` holds of every process inside a call, its socket and the history of its answer. -/
def Personally (P : Proc → Pc → Socket → Bool → Prop) (current : Sys × (Nat → Bool)) : Prop :=
  ∀ pid s,
    (current.1.pc pid).socket = some s
    → P (current.1.kernel.procs pid) (current.1.pc pid) (current.1.kernel.sockets s)
        (current.2 pid)

variable {P : Proc → Pc → Socket → Bool → Prop} {current : Sys × (Nat → Bool)}

theorem Quiet.personally (quiet : Quiet current) : Personally P current := by
  intro pid s uses
  rw [quiet.idle] at uses
  cases uses

/-- What is known about the calls of the other processes stays. -/
theorem Personally.after (known : Personally P current)
    (sockets
      : ∀ other t, other ≠ pid → (current.1.pc other).socket = some t
          → k'.sockets t = current.1.kernel.sockets t)
    (procs : ∀ other, other ≠ pid → k'.procs other = current.1.kernel.procs other)
    (history : ∀ other, other ≠ pid → answered other = current.2 other)
    (own
      : ∀ s, next.pc.socket = some s
          → P (k'.procs pid) next.pc (k'.sockets s) (answered pid))
    : Personally P (current.1.after pid k' next, answered) := by
  intro other s uses
  simp only [Sys.after_pc, Sys.after_kernel] at uses ⊢
  by_cases same : other = pid
  · subst same
    rw [update_self] at uses ⊢
    exact own s uses
  · rw [update_of_ne same] at uses ⊢
    rw [procs other same, sockets other s same uses, history other same]
    exact known other s uses

theorem Personally.call (known : Personally P current) (inv : CallsInv current.1)
    (orderly : Orderly current.1 (.call pid c env))
    (move : CallMove env current.1.kernel pid c next k')
    (own
      : ∀ s, next.pc.awaits = none → next.pc.socket = some s
          → P (k'.procs pid) next.pc (k'.sockets s) (current.2 pid))
    : Personally P (current.1.after pid k' next, current.2) := by
  cases move with
  | connect sockfd dstAddr dstPort s i named =>
    refine known.after ?_ (fun _ _ => rfl) (fun _ _ => rfl) (fun s => own s rfl)
    intro other t _ uses
    have elsewhere : t ≠ s := by
      rintro rfl
      exact ((inv.located other).busy inv.tables uses).2.2 (orderly t named)
    simp [takePort, update_of_ne elsewhere]
  | refused c | accept sockfd s named listening alone | read fd size s named established =>
    exact known.after (fun _ _ _ _ => rfl) (fun _ _ => rfl) (fun _ _ => rfl)
      (fun s => own s rfl)
  | _ => exact orderly.elim

theorem noteAnswers_others {other : Nat} (differs : other ≠ pid)
    : noteAnswers sys (.resume pid env) answered other = answered other := by
  simp only [noteAnswers]
  cases sys.pc pid with
  | connectSyn s dstAddr dstPort | acceptDequeue s => exact update_of_ne differs ..
  | _ => rfl

/-- It is enough to look at the call that goes on. -/
theorem Personally.resume (known : Personally P current) (inv : CallsInv current.1)
    (move : PcMove env current.1.kernel pid (current.1.pc pid) next k' log)
    (own
      : ∀ s, next.pc.socket = some s
          → P (k'.procs pid) next.pc (k'.sockets s)
              (noteAnswers current.1 (.resume pid env) current.2 pid))
    : Personally P
        (current.1.after pid k' next, noteAnswers current.1 (.resume pid env) current.2) := by
  refine known.after ?_ (fun _ => move.procs_of_ne) (fun _ => noteAnswers_others) own
  intro other t differs uses
  obtain ⟨inside, busy⟩ := (inv.located other).busy inv.tables uses
  exact move.others inside busy fun same => differs (inv.apart other pid t uses same)

end Xv6Net
