import Xv6Net.Socket.PortTable
import Xv6Net.Tcp.ReliableDelivery

/-! Two hosts that open, use and close connections with each other, one after another, over a
network that delays and duplicates segments at will. Every connection numbers its bytes from the
same `INITIAL_SEQ`, and `connect` takes the first free port each time, so what keeps an old
segment out of a new connection is only that the two have different ports.
-/

namespace Xv6Net

open Library Memory Transition Function Kernel

/-- What a host has handed to `ip_send`, with the number of the last connection opened by then. -/
structure Sent extends Datagram where
  sender : Side
  connection : Nat

/-- The two hosts, how many connections they have opened, and every segment sent so far. -/
structure HostPair where
  host : Side → Sys
  connection : Nat
  wire : List Sent

inductive PairAction where
  /-- A process of a host makes a step, or is killed. -/
  | acts (h : Side) (action : SysAction)
  /-- A segment sent by the other host arrives at `seg`; it may have arrived before. -/
  | deliver (h : Side) (n : Nat) (env : Env) (seg : Int)

/-- The action is a `connect` that gets a port. -/
def Sys.connects (sys : Sys) : SysAction → Bool
  | .call pid (.connect sockfd _ _) _ =>
    (sys.kernel.socketAt pid sockfd).isSome && (freePort sys.kernel).isSome
  | _ => false

def Event.sent (h : Side) (connection : Nat) (event : Event) : Option Sent :=
  event.datagram.map fun datagram => { datagram with sender := h, connection }

namespace HostPair

/-- The network after a step of host `h` with what it logs. -/
def after (net : HostPair) (h : Side) (connection : Nat) (outcome : Sys × List Event) : HostPair :=
  { host := update net.host h outcome.1
    connection
    wire := net.wire ++ outcome.2.filterMap (Event.sent h connection) }

/-- The segment that arrives at host `h`, if one can arrive so. -/
def arriving (net : HostPair) (h : Side) (n : Nat) (env : Env) (seg : Int) : Option Sent :=
  net.wire[n]?.filter fun sent =>
    sent.sender = h.peer
    ∧ sent.dstIp = (net.host h).kernel.myip
    ∧ slice env.frame seg sent.bytes.length = sent.bytes

def step (net : HostPair) : PairAction → Option HostPair
  | .acts _ (.receive _ _ _ _) => none
  | .acts h action =>
    ((net.host h).act action).map
      (net.after h (net.connection + ((net.host h).connects action).toNat))
  | .deliver h n env seg =>
    (net.arriving h n env seg).bind fun sent =>
      ((net.host h).act (.receive env seg sent.bytes.length sent.srcIp)).map
        (net.after h net.connection)

end HostPair

/-- `tcp_receive` takes the segment as data in order, or as an acknowledgement of data. -/
def Kernel.Accepts (k : Kernel) (mem : Int → UInt8) (seg size : Int) (srcIp : UInt32) : Prop :=
  match disposition k mem seg size srcIp with
  | .inOrder _ => True
  | .ack asoc =>
    (k.sockets asoc).tcon.baseSeq ≤ ackNumOf mem seg
    ∧ ackNumOf mem seg ≤ (k.sockets asoc).tcon.nextSeq
  | _ => False

instance (k : Kernel) (mem : Int → UInt8) (seg size : Int) (srcIp : UInt32)
    : Decidable (k.Accepts mem seg size srcIp) := by
  unfold Kernel.Accepts
  split <;> infer_instance

/-- No data or ACK segment that was sent on an earlier connection is accepted. -/
def HostPair.KeepsApart (net : HostPair) : PairAction → Prop
  | .deliver h n env seg =>
    ∀ sent ∈ net.arriving h n env seg,
      sent.connection < net.connection
      → flagsOf env.frame seg &&& tcpFlagSyn = 0
      → ¬ (net.host h).kernel.Accepts env.frame seg sent.bytes.length sent.srcIp
  | .acts _ _ => True

instance (net : HostPair) : (action : PairAction) → Decidable (net.KeepsApart action)
  | .deliver _ _ _ _ => inferInstanceAs (Decidable (∀ sent ∈ _, _))
  | .acts _ _ => isTrue trivial

/-- The socket of a process between its SYN or SYN-ACK and the end of `connect` or `accept`. -/
def Pc.handshake : Pc → Option Nat
  | .mark .synAck s | .mark .handshakeAck s | .sleep .synAck s | .sleep .handshakeAck s
  | .wait .synAck s | .wait .handshakeAck s => some s
  | _ => none

/-- Every connection of the host has been closed, and none is being opened. -/
def Sys.Disconnected (sys : Sys) : Prop :=
  (∀ s < nSockets,
    (sys.kernel.sockets s).tcon.state = .closed ∨ (sys.kernel.sockets s).tcon.state = .listen)
  ∧ ∀ pid < nProc, (sys.pc pid).handshake = none

instance (sys : Sys) : Decidable sys.Disconnected :=
  inferInstanceAs (Decidable (_ ∧ _))

/-- The socket that a call is about; for `close`, the one that it frees. -/
def Sys.names (sys : Sys) : SysAction → Option Nat
  | .call pid (.bind sockfd _ _) _ | .call pid (.listen sockfd) _
  | .call pid (.connect sockfd _ _) _ | .call pid (.accept sockfd) _
  | .call pid (.read sockfd _) _ | .call pid (.write sockfd _) _ =>
    sys.kernel.socketAt pid sockfd
  | .call pid (.close fd) _ => sys.kernel.closes pid fd
  | _ => none

/-- The process whose `accept` is about to make a socket for its connection. -/
def Sys.accepts (sys : Sys) : SysAction → Option Nat
  | .resume pid _ =>
    match sys.pc pid with
    | .wait .handshakeAck _ => some pid
    | _ => none
  | _ => none

/-- A socket is used by one process at a time, `connect` is given an unbound one, and `accept`
gets one for its connection.
-/
structure Sys.Regular (sys : Sys) (action : SysAction) : Prop where
  alone : ∀ s ∈ sys.names action, ∀ pid < nProc, (sys.pc pid).socket ≠ some s
  unbound
    : sys.connects action = true
        → ∀ s ∈ sys.names action, (sys.kernel.sockets s).state = .unbound
  room
    : ∀ pid ∈ sys.accepts action,
        freeSocket sys.kernel ≠ none
        ∧ freeFile sys.kernel ≠ none
        ∧ freeDescriptor (sys.kernel.procs pid) ≠ none

instance (sys : Sys) (action : SysAction) : Decidable (sys.Regular action) :=
  decidable_of_iff
    ((∀ s ∈ sys.names action, ∀ pid < nProc, (sys.pc pid).socket ≠ some s)
      ∧ (sys.connects action = true
        → ∀ s ∈ sys.names action, (sys.kernel.sockets s).state = .unbound)
      ∧ ∀ pid ∈ sys.accepts action,
          freeSocket sys.kernel ≠ none
          ∧ freeFile sys.kernel ≠ none
          ∧ freeDescriptor (sys.kernel.procs pid) ≠ none)
    ⟨fun h => ⟨h.1, h.2.1, h.2.2⟩, fun h => ⟨h.1, h.2, h.3⟩⟩

/-- A connection is opened when all earlier ones have been closed, on both hosts. -/
def HostPair.OneAfterAnother (net : HostPair) : PairAction → Prop
  | .acts h action =>
    (net.host h).Regular action
    ∧ ((net.host h).connects action = true
      → (net.host .left).Disconnected ∧ (net.host .right).Disconnected)
  | .deliver _ _ _ _ => True

instance (net : HostPair) (action : PairAction) : Decidable (net.OneAfterAnother action) :=
  match action with
  | .acts _ _ => inferInstanceAs (Decidable (_ ∧ (_ → _ ∧ _)))
  | .deliver _ _ _ _ => isTrue trivial

/-- The segment, wherever it arrives, is a data or ACK segment from port `dstPort` of `dstAddr`
to `port`.
-/
def Sent.Between (sent : Sent) (port : UInt16) (dstAddr : UInt32) (dstPort : UInt16) : Prop :=
  sent.srcIp = dstAddr
  ∧ ∃ mem seg,
      slice mem seg sent.bytes.length = sent.bytes
      ∧ srcPortOf mem seg = dstPort
      ∧ dstPortOf mem seg = port
      ∧ flagsOf mem seg &&& tcpFlagSyn = 0

/-- No data or ACK segment of an earlier connection was sent to host `h` between these ports. -/
def HostPair.Fresh (net : HostPair) (h : Side) (port : UInt16) (dstAddr : UInt32) (dstPort : UInt16)
    : Prop :=
  ∀ sent ∈ net.wire,
    sent.sender = h.peer
    → sent.connection < net.connection
    → ¬ sent.Between port dstAddr dstPort

/-- What a step of a call is about to connect the socket to meets `ok`. -/
def Pc.Opens (ok : UInt16 → UInt32 → UInt16 → Prop) (env : Env) (k : Kernel) : Pc → Prop
  | .connectSyn s dstAddr dstPort => ok (k.sockets s).port dstAddr dstPort
  | .acceptDequeue s =>
    let request := requestAt env k (dequeue (k.sockets s).waitqueue).1
    ok (k.sockets s).port request.clientIp (srcPortOf request.requestPacket 0)
  | _ => True

/-- `connect` and `accept` open connections between new pairs of ports only. -/
def HostPair.NewPorts (net : HostPair) : PairAction → Prop
  | .acts h (.resume pid env) =>
    ((net.host h).pc pid).Opens (net.Fresh h) env (net.host h).kernel
  | _ => True

variable {ok : UInt16 → UInt32 → UInt16 → Prop} {k k' : Kernel} {env : Env} {pid s : Nat}
  {next : Next} {log : List Event}

/-- What the socket is connected to meets `ok`. -/
def Socket.Linked (ok : UInt16 → UInt32 → UInt16 → Prop) (socket : Socket) : Prop :=
  ok socket.port socket.tcon.dstAddr socket.tcon.dstPort

/-- What a process inside a call knows about the state of its socket. -/
def Pc.Knows (socket : Socket) : Pc → Prop
  | .user => True
  | .bindUpdate _ _ _ => socket.state = .unbound
  | _ => socket.Busy

/-- Everything that is connected, or about to be, is linked to something that meets `ok`. -/
structure LinksInv (ok : UInt16 → UInt32 → UInt16 → Prop) (sys : Sys) : Prop where
  files : FilesInv sys.kernel
  active
    : ∀ p s, (sys.kernel.ports p).activeSocket = some s
        → (sys.kernel.sockets s).Busy ∧ (sys.kernel.sockets s).port.toNat = p
  closed
    : ∀ s, ¬ (sys.kernel.sockets s).Busy → (sys.kernel.sockets s).tcon.state = .closed
  apart
    : ∀ pid other s, (sys.pc pid).socket = some s → (sys.pc other).socket = some s
        → pid = other
  knows
    : ∀ pid s, (sys.pc pid).socket = some s
        → pid < nProc ∧ s < nSockets ∧ (sys.pc pid).Knows (sys.kernel.sockets s)
  established
    : ∀ s, (sys.kernel.sockets s).tcon.state = .established
        → s < nSockets ∧ (sys.kernel.sockets s).Linked ok
  handshake
    : ∀ pid s, (sys.pc pid).handshake = some s → (sys.kernel.sockets s).Linked ok

variable {pc : Pc} {socket : Socket} {sys : Sys} {h : Side}

theorem Pc.socket_of_handshake (shaking : pc.handshake = some s)
    : pc.socket = some s := by
  cases pc with
  | mark w t | sleep w t | wait w t => cases w <;> first | exact shaking | cases shaking
  | _ => cases shaking

theorem Pc.Knows.live (knows : pc.Knows socket) (uses : pc.socket = some s)
    : socket.state ≠ .free := by
  cases pc with
  | user => cases uses
  | bindUpdate =>
    rw [Pc.Knows] at knows
    rw [knows]
    decide
  | _ => exact knows.1

section

variable (inv : LinksInv ok sys)
include inv

/-- A step of a process keeps what the others know, if it leaves their sockets and does not start to
use one.
-/
theorem LinksInv.after (files : FilesInv k') (active
      : ∀ p s, (k'.ports p).activeSocket = some s
          → (k'.sockets s).Busy ∧ (k'.sockets s).port.toNat = p)
    (closed : ∀ s, ¬ (k'.sockets s).Busy → (k'.sockets s).tcon.state = .closed) (others
      : ∀ other t, other ≠ pid → (sys.pc other).socket = some t
          → k'.sockets t = sys.kernel.sockets t)
    (own
      : ∀ t, next.pc.socket = some t
          → (∀ other, other ≠ pid → (sys.pc other).socket ≠ some t)
            ∧ pid < nProc
            ∧ t < nSockets
            ∧ next.pc.Knows (k'.sockets t))
    (established
      : ∀ s, (k'.sockets s).tcon.state = .established
          → s < nSockets ∧ (k'.sockets s).Linked ok)
    (handshake : ∀ s, next.pc.handshake = some s → (k'.sockets s).Linked ok)
    : LinksInv ok (sys.after pid k' next) := by
  refine ⟨by simpa using files, by simpa using active, by simpa using closed,
    Sys.apart_after inv.apart fun t uses => (own t uses).1, ?_, by simpa using established, ?_⟩
  · intro other t uses
    rw [Sys.after_pc] at uses ⊢
    rw [Sys.after_kernel]
    by_cases same : other = pid
    · rw [same, update_self] at uses ⊢
      exact (own t uses).2
    · rw [update_of_ne same] at uses ⊢
      rw [others other t same uses]
      exact inv.knows other t uses
  · intro other t shaking
    rw [Sys.after_pc] at shaking
    rw [Sys.after_kernel]
    by_cases same : other = pid
    · rw [same, update_self] at shaking
      exact handshake t shaking
    · rw [update_of_ne same] at shaking
      rw [others other t same (Pc.socket_of_handshake shaking)]
      exact inv.handshake other t shaking

theorem LinksInv.busy (open_ : (sys.kernel.sockets s).tcon.state ≠ .closed)
    : (sys.kernel.sockets s).Busy := by
  by_contra idle
  exact open_ (inv.closed s idle)

/-- The rule for a step that changes one socket, which no other call uses. -/
theorem LinksInv.changed (files : FilesInv k') (row : pid < nProc)
    (sockets : ∀ t, t ≠ s → k'.sockets t = sys.kernel.sockets t)
    (unused : ∀ other, other ≠ pid → (sys.pc other).socket ≠ some s) (active
      : ∀ p t, (k'.ports p).activeSocket = some t
          → (t ≠ s ∧ (sys.kernel.ports p).activeSocket = some t)
            ∨ (t = s ∧ (k'.sockets s).Busy ∧ (k'.sockets s).port.toNat = p))
    (closed : ¬ (k'.sockets s).Busy → (k'.sockets s).tcon.state = .closed)
    (notYet : (k'.sockets s).tcon.state ≠ .established) (own
      : ∀ t, next.pc.socket = some t → t = s ∧ s < nSockets ∧ next.pc.Knows (k'.sockets s))
    (opening : next.pc.handshake = none)
    : LinksInv ok (sys.after pid k' next) := by
  have old := inv.active
  have idle := inv.closed
  have known := inv.established
  refine inv.after files ?_ ?_ ?_ ?_ ?_ ?_ <;> grind

theorem LinksInv.same (files : FilesInv k') (row : pid < nProc)
    (sockets : k'.sockets = sys.kernel.sockets) (ports : k'.ports = sys.kernel.ports) (own
      : ∀ t, next.pc.socket = some t
          → (∀ other, (sys.pc other).socket ≠ some t)
            ∧ t < nSockets
            ∧ next.pc.Knows (sys.kernel.sockets t))
    (opening : next.pc.handshake = none)
    : LinksInv ok (sys.after pid k' next) := by
  have old := inv.active
  have idle := inv.closed
  have known := inv.established
  refine inv.after files ?_ ?_ ?_ ?_ ?_ ?_ <;> simp only [sockets, ports] <;> grind

/-- A port does not point to a socket that is not in use. -/
theorem LinksInv.not_active {p : Nat} (idle : ¬ (sys.kernel.sockets s).Busy)
    : (sys.kernel.ports p).activeSocket ≠ some s :=
  fun pointer => idle (inv.active p s pointer).1

end

/-- `close` clears the pointers to its socket only. -/
theorem Port.release_active {port : Port} {t : Nat}
    (pointer : (port.release s).activeSocket = some t)
    : t ≠ s ∧ port.activeSocket = some t := by
  unfold Port.release at pointer
  split at pointer
  · cases pointer
  · rename_i other
    have before : port.activeSocket = some t := by split at pointer <;> exact pointer
    refine ⟨?_, before⟩
    rintro rfl
    exact other before

section

variable (inv : LinksInv ok sys) (row : pid < nProc)
include inv row

theorem LinksInv.opensSocket {f fd : Nat} {page : Option (Int → UInt8)}
    (files : FilesInv (sys.kernel.openSocket pid s f fd page))
    (freeSock : freeSocket sys.kernel = some s) (idle : next.pc.socket = none)
    (opening : next.pc.handshake = none)
    : LinksInv ok (sys.after pid (sys.kernel.openSocket pid s f fd page) next) := by
  have free := (freeSocket_spec freeSock).2
  have notBusy : ¬ (sys.kernel.sockets s).Busy := fun busy => busy.1 free
  have own : ((sys.kernel.openSocket pid s f fd page).sockets s).tcon.state = .closed := by
    simpa [openSocket] using inv.closed s notBusy
  refine inv.changed (s := s) files row ?_ ?_ ?_ (fun _ => own) (by simp [own]) (by simp [idle])
    opening
  · intro t other
    simp [openSocket, update_of_ne other]
  · intro other _ uses
    exact (inv.knows other s uses).2.2.live uses free
  · intro p t pointer
    refine Or.inl ⟨?_, pointer⟩
    rintro rfl
    exact inv.not_active notBusy pointer

theorem LinksInv.listen (files : FilesInv (sys.kernel.startListening s))
    (isBound : (sys.kernel.sockets s).state = .bound)
    (alone : ∀ other, (sys.pc other).socket ≠ some s) (idle : next.pc.socket = none)
    (opening : next.pc.handshake = none)
    : LinksInv ok (sys.after pid (sys.kernel.startListening s) next) := by
  have own : OwnUpdate sys.kernel (sys.kernel.startListening s) s _ := ⟨rfl, rfl, rfl, rfl⟩
  have busy : ((sys.kernel.startListening s).sockets s).Busy := by
    simp [startListening, Socket.Busy, isBound]
  refine inv.changed files row (fun t other => own.others other) (fun other _ => alone other) ?_
    (fun free => absurd busy free) (by simp [startListening]) (by simp [idle]) opening
  intro p t pointer
  by_cases same : t = s
  · subst same
    refine Or.inr ⟨rfl, busy, ?_⟩
    rw [own.self]
    exact (inv.active p t pointer).2
  · exact Or.inl ⟨same, pointer⟩

/-- A socket that is unbound while nothing is connected gets the port, and nothing else has it. -/
theorem LinksInv.connect {i : Nat} {dstAddr : UInt32} {dstPort : UInt16}
    (files : FilesInv (sys.kernel.takePort pid s i)) (low : s < nSockets)
    (free : freePort sys.kernel = some i) (unbound : (sys.kernel.sockets s).state = .unbound)
    (alone : ∀ other, (sys.pc other).socket ≠ some s) (disconnected : sys.Disconnected)
    : LinksInv ok (sys.after pid (sys.kernel.takePort pid s i)
        (.goesOn (.connectSyn s dstAddr dstPort))) := by
  have notBusy : ¬ (sys.kernel.sockets s).Busy := fun busy => busy.2 unbound
  have value : (UInt16.ofNat i).toNat = i := by
    have low := (freePort_spec free).1
    simp only [nPorts] at low
    rw [UInt16.toNat_ofNat']
    omega
  have busy : ((sys.kernel.takePort pid s i).sockets s).Busy := by
    simp [takePort, Socket.Busy]
  refine inv.changed files row ?_ (fun other _ => alone other) ?_ (fun free => absurd busy free)
    ?_ ?_ rfl
  · intro t other
    simp [takePort, update_of_ne other]
  · intro p t pointer
    by_cases here : p = i
    · subst here
      have same : t = s := by simpa [takePort, eq_comm] using pointer
      subst same
      exact Or.inr ⟨rfl, busy, by simpa [takePort] using value⟩
    · have before : (sys.kernel.ports p).activeSocket = some t := by
        simpa [takePort, update_of_ne here] using pointer
      refine Or.inl ⟨?_, before⟩
      rintro rfl
      exact inv.not_active notBusy before
  · rcases disconnected.1 s low with other | other <;> simp [takePort, other]
  · rintro t ⟨⟩
    exact ⟨rfl, low, busy⟩

theorem LinksInv.close (files : FilesInv k') (released : Closed sys.kernel k' s)
    (alone : ∀ other, (sys.pc other).socket ≠ some s) (idle : next.pc.socket = none)
    (opening : next.pc.handshake = none)
    : LinksInv ok (sys.after pid k' next) := by
  have zero : k'.sockets s = .zero := by rw [released.sockets, update_self]
  refine inv.changed files row ?_ (fun other _ => alone other) ?_ (by rw [zero]; intro _; rfl)
    (by rw [zero]; decide) (by simp [idle]) opening
  · intro t other
    rw [released.sockets, update_of_ne other]
  · intro p t pointer
    rw [released.ports] at pointer
    by_cases there : p = (sys.kernel.sockets s).port.toNat
    · subst there
      rw [update_self] at pointer
      exact Or.inl (Port.release_active pointer)
    · rw [update_of_ne there] at pointer
      refine Or.inl ⟨?_, pointer⟩
      rintro rfl
      exact there (inv.active p t pointer).2.symm

end

/-- The start of a call, by what it can do. -/
theorem LinksInv.call {c : Call} (inv : LinksInv ok sys) (regular : sys.Regular (.call pid c env))
    (idle : sys.connects (.call pid c env) = true → sys.Disconnected) (runnable : sys.Runnable pid)
    (move : CallMove env sys.kernel pid c next k')
    : LinksInv ok (sys.after pid k' next) := by
  have alive : (sys.kernel.procs pid).state ≠ .unused := by
    rw [runnable.2]
    decide
  have files := move.files inv.files runnable.1 alive
  have row := runnable.1
  have low {sockfd : Int} {s : Nat} (named : sys.kernel.socketAt pid sockfd = some s)
      : s < nSockets :=
    (inv.files.holds (holds_of_socketAt named)).1
  have alone (s : Nat) (named : sys.names (.call pid c env) = some s) (other : Nat)
      : (sys.pc other).socket ≠ some s :=
    fun uses => regular.alone s named other (inv.knows other s uses).1 uses
  cases move with
  | refused c | exit ended => exact inv.same files row rfl rfl (by rintro _ ⟨⟩) rfl
  | dup =>
    exact inv.same files row rfl rfl (by rintro _ ⟨⟩) rfl
  | fork child =>
    obtain ⟨files', procs', frame⟩ := sys.kernel.forked_frame pid child
    exact inv.same files row (by rw [frame]) (by rw [frame]) (by rintro _ ⟨⟩) rfl
  | bind sockfd addr port s named bound unbound =>
    refine inv.same files row rfl rfl ?_ rfl
    rintro t ⟨⟩
    exact ⟨alone s named, low named, unbound⟩
  | accept sockfd s named listening =>
    refine inv.same files row rfl rfl ?_ rfl
    rintro t ⟨⟩
    exact ⟨alone s named, low named, inv.busy (by rw [listening]; decide)⟩
  | read fd size s named established | write fd payload s named established =>
    refine inv.same files row rfl rfl ?_ rfl
    rintro t ⟨⟩
    exact ⟨alone s named, low named, inv.busy (by rw [established]; decide)⟩
  | socket s f fd freeSock => exact inv.opensSocket row files freeSock rfl rfl
  | listen sockfd s named isBound => exact inv.listen row files isBound (alone s named) rfl rfl
  | connect sockfd dstAddr dstPort s i named free =>
    have connects : sys.connects (.call pid (.connect sockfd dstAddr dstPort) env) = true := by
      simp [Sys.connects, named, free]
    exact inv.connect row files (low named) free (regular.unbound connects s named)
      (alone s named) (idle connects)
  | close fd f k' inside named closed =>
    cases closed with
    | shared more | last only other =>
      exact inv.same files row rfl rfl (by rintro _ ⟨⟩) rfl
    | lastSocket s only type refers =>
      exact inv.close row files ⟨rfl, rfl⟩
        (alone s (closes_of_lastSocket inside named only type refers)) rfl rfl

/-- The socket that a step of a call is about to connect to something else. -/
def Pc.opening : Pc → Option Nat
  | .connectSyn s _ _ | .acceptDequeue s => some s
  | _ => none

section

variable (move : PcMove env k pid pc next k' log)
include move

/-- `connect` and `accept` link their socket to what `ok` allows. -/
theorem PcMove.opened (opens : pc.Opens ok env k) (opening : pc.opening = some s)
    : (k'.sockets s).Linked ok := by
  cases move with
  | connectSyn =>
    cases opening
    simpa [Socket.Linked, setDestination, startNumbering, setTcon_sockets, Pc.Opens] using opens
  | takeRequest =>
    cases opening
    simpa [Socket.Linked, Kernel.takeRequest, answerRequest, startNumbering,
      setTcon_sockets, Pc.Opens] using opens
  | _ => cases opening

/-- A step inside a call leaves its socket connected to what it was, or to what it opens. -/
theorem PcMove.linked (uses : pc.socket = some s) (local_ : ¬ pc.ChangesTables)
    (opens : pc.Opens ok env k) (linked : (k.sockets s).Linked ok)
    : (k'.sockets s).Linked ok := by
  have opened := move.opened (s := s) opens
  cases move with
  | bindUpdate t addr port | accepted t new f fd freeSock freeFd freeDesc | acceptFailed t failed =>
    exact (local_ trivial).elim
  | connectSyn t dstAddr dstPort | takeRequest t => exact opened uses
  | write t call call' k' log move =>
    cases uses
    cases move with
    | send =>
      simpa [Socket.Linked, setTcon_sockets, TcpConnection.queueSegment] using linked
    | _ => exact linked
  | mark w =>
    cases uses
    cases w <;> simpa [Socket.Linked, Wait.mark] using linked
  | _ =>
    cases uses
    simpa [Socket.Linked, advanceOffset, fallAsleep, Kernel.connected,
      readReply, Kernel.wake, setState, setTcon_sockets] using linked

theorem PcMove.shaking (shaking : next.pc.handshake = some s)
    : pc.handshake = some s ∨ pc.opening = some s := by
  cases move with
  | write => split at shaking <;> cases shaking
  | connectSyn t dstAddr dstPort | takeRequest t => exact Or.inr shaking
  | mark w t | sleep w t => cases w <;> exact Or.inl shaking
  | _ => cases shaking

/-- A later step of `bind` is its last one, so what follows any step knows its socket bound. -/
theorem PcMove.knows (busy : socket.Busy)
    : next.pc.Knows socket := by
  cases move with
  | write =>
    split
    · trivial
    · exact busy
  | _ => trivial

end

theorem Pc.Knows.busy (knows : pc.Knows socket) (uses : pc.socket = some s)
    (local_ : ¬ pc.ChangesTables)
    : socket.Busy := by
  cases pc with
  | user => cases uses
  | bindUpdate => exact (local_ trivial).elim
  | _ => exact knows

section

variable (inv : LinksInv ok sys)
include inv

/-- A step of a call that changes its own socket. -/
theorem LinksInv.own (opens : (sys.pc pid).Opens ok env sys.kernel) (files : FilesInv k')
    (uses : (sys.pc pid).socket = some s) (local_ : ¬ (sys.pc pid).ChangesTables)
    (move : PcMove env sys.kernel pid (sys.pc pid) next k' log)
    : LinksInv ok (sys.after pid k' next) := by
  obtain ⟨update, state, tcpState⟩ := move.own uses local_
  obtain ⟨row, inside, knows⟩ := inv.knows pid s uses
  have busy := Pc.nextState_busy (knows.busy uses local_) state
  have unused (other : Nat) (differs : other ≠ pid) : (sys.pc other).socket ≠ some s :=
    fun used => differs (inv.apart other pid s used uses)
  have others (t : Nat) (same : t ≠ s) := update.others same
  have old := inv.active
  have idle := inv.closed
  have known := inv.established
  have port := update.port
  refine inv.after files ?_ ?_ ?_ ?_ ?_ ?_
  · rw [update.ports]
    grind
  · grind
  · grind
  · intro t goesOn
    obtain rfl := move.stays uses goesOn
    exact ⟨unused, row, inside, move.knows busy⟩
  · intro t established
    by_cases same : t = s
    · subst same
      refine ⟨inside, move.linked uses local_ opens ?_⟩
      rw [tcpState] at established
      by_cases before : (sys.kernel.sockets t).tcon.state = .established
      · exact (inv.established t before).2
      · obtain ⟨r, here⟩ := Pc.nextTcpState_established established before
        refine inv.handshake pid t ?_
        rw [here] at uses ⊢
        exact uses
    · rw [update.others same] at established ⊢
      exact inv.established t established
  · intro t shaking
    rcases move.shaking shaking with before | opening
    · have used := Pc.socket_of_handshake before
      obtain rfl : t = s := Option.some.inj (used.symm.trans uses)
      exact move.linked uses local_ opens (inv.handshake pid t before)
    · exact move.opened opens opening

/-- The last step of `accept`. Up to the hand-over, `mid`, it has changed at most the states of
the listener and of a socket that nobody uses.
-/
theorem LinksInv.handedOver {new : Nat} {mid : Kernel} (here : sys.pc pid = .wait .handshakeAck s)
    (files : FilesInv (mid.handOver s new)) (inside : new < nSockets)
    (free : ¬ (sys.kernel.sockets new).Busy) (ports : mid.ports = sys.kernel.ports)
    (unused : ∀ other, (sys.pc other).socket ≠ some new)
    (others : ∀ t, t ≠ s → t ≠ new → mid.sockets t = sys.kernel.sockets t) (listener
      : mid.sockets s
        = { sys.kernel.sockets s with
            tcon := { (sys.kernel.sockets s).tcon with state := .listen } })
    (done : next.pc = .user)
    : LinksInv ok (sys.after pid (mid.handOver s new) next) := by
  have uses : (sys.pc pid).socket = some s := by
    rw [here]
    rfl
  have apart : s ≠ new := by
    rintro rfl
    exact unused pid uses
  have busy : (sys.kernel.sockets s).Busy := by
    have knows := (inv.knows pid s uses).2.2
    rw [here] at knows
    exact knows
  have linked : (sys.kernel.sockets s).Linked ok :=
    inv.handshake pid s (by rw [here]; rfl)
  have kept (t : Nat) (old : t ≠ new) : (mid.handOver s new).sockets t = mid.sockets t := by
    simp [handOver, update_of_ne old]
  have busyListener : (mid.sockets s).Busy := by
    rw [listener]
    exact busy
  have entry (p : Nat) : ((mid.handOver s new).ports p).activeSocket
      = if p = (mid.sockets s).port.toNat then some new else (sys.kernel.ports p).activeSocket := by
    simp only [handOver, setSocket_ports, setPort_ports, update_apply, ports]
    split <;> rfl
  have heir : ((mid.handOver s new).sockets new).Busy
      ∧ ((mid.handOver s new).sockets new).port = (mid.sockets s).port
      ∧ ((mid.handOver s new).sockets new).Linked ok := by
    simpa [handOver, Socket.Busy, Socket.Linked, listener] using linked
  have old := inv.active
  have idle := inv.closed
  have known := inv.established
  have apart' := inv.apart
  have ended : next.pc.socket = none ∧ next.pc.handshake = none := by
    rw [done]
    exact ⟨rfl, rfl⟩
  refine inv.after files ?_ ?_ ?_ ?_ ?_ ?_ <;> grind

theorem LinksInv.bindUpdate {addr : UInt32} {port : UInt16}
    (here : sys.pc pid = .bindUpdate s addr port)
    (files : FilesInv (sys.kernel.bindPort pid s addr port)) (done : next.pc = .user)
    : LinksInv ok (sys.after pid (sys.kernel.bindPort pid s addr port) next) := by
  have uses : (sys.pc pid).socket = some s := by
    rw [here]
    rfl
  have unbound : (sys.kernel.sockets s).state = .unbound := by
    have knows := (inv.knows pid s uses).2.2
    rw [here] at knows
    exact knows
  have notBusy : ¬ (sys.kernel.sockets s).Busy := fun busy => busy.2 unbound
  have pointers (p : Nat) : ((sys.kernel.bindPort pid s addr port).ports p).activeSocket
      = (sys.kernel.ports p).activeSocket := by
    simp only [bindPort, setSocket_ports, setPort_ports, update_apply]
    split <;> simp_all
  refine inv.changed (s := s) files (inv.knows pid s uses).1 ?_ ?_ ?_ ?_ ?_ ?_ ?_
  · intro t same
    simp [bindPort, update_of_ne same]
  · intro other differs used
    exact differs (inv.apart other pid s used uses)
  · intro p t pointer
    rw [pointers] at pointer
    refine Or.inl ⟨?_, pointer⟩
    rintro rfl
    exact inv.not_active notBusy pointer
  · simp [bindPort, Socket.Busy]
  · simp [bindPort, inv.closed s notBusy]
  · rw [done]
    rintro _ ⟨⟩
  · rw [done]
    rfl

/-- `accept` moves the connection to a new socket. -/
theorem LinksInv.accepted {new f fd : Nat} {page : Option (Int → UInt8)}
    (here : sys.pc pid = .wait .handshakeAck s) (freeSock : freeSocket sys.kernel = some new) (files
      : FilesInv
          ((((sys.kernel.wake pid).setTcpState s .listen).openSocket pid new f fd page).handOver
            s new))
    (done : next.pc = .user)
    : LinksInv ok
        (sys.after pid
          ((((sys.kernel.wake pid).setTcpState s .listen).openSocket pid new f fd page).handOver
            s new)
          next) := by
  obtain ⟨inside, free⟩ := freeSocket_spec freeSock
  have unused (other : Nat) : (sys.pc other).socket ≠ some new :=
    fun used => (inv.knows other new used).2.2.live used free
  have apart : s ≠ new := by
    rintro rfl
    exact unused pid (by rw [here]; rfl)
  refine inv.handedOver here files inside (fun busy => busy.1 free) ?_ unused ?_ ?_ done
  · simp only [openSocket, setTcpState, Kernel.wake, setProc_ports,
      setFile_ports, setSocket_ports, setTcon_ports]
  · intro t same isNew
    simp only [openSocket, setTcpState, Kernel.wake, setProc_sockets, setFile_sockets,
      setSocket_sockets, setTcon_sockets, update_of_ne same, update_of_ne isNew]
  · simp only [openSocket, setTcpState, Kernel.wake, setProc_sockets, setFile_sockets,
      setSocket_sockets, setTcon_sockets, update_of_ne apart, update_self]

/-- A call goes on, by the place where it was. -/
theorem LinksInv.resume (regular : sys.Regular (.resume pid env))
    (opens : (sys.pc pid).Opens ok env sys.kernel) (runnable : sys.Runnable pid)
    (move : PcMove env sys.kernel pid (sys.pc pid) next k' log)
    : LinksInv ok (sys.after pid k' next) := by
  have alive : (sys.kernel.procs pid).state ≠ .unused := by
    rw [runnable.2]
    decide
  have files := (move.files inv.files runnable.1 alive).1
  by_cases tables : (sys.pc pid).ChangesTables
  · generalize here : sys.pc pid = pc at move tables
    cases move with
    | bindUpdate => exact inv.bindUpdate here files rfl
    | accepted s new f fd freeSock => exact inv.accepted here freeSock files rfl
    | acceptFailed s failed =>
      obtain ⟨hasSocket, hasFile, hasDescriptor⟩ :=
        regular.room pid (by simp [Sys.accepts, here])
      rcases failed with none_ | none_ | none_
      · exact absurd none_ hasSocket
      · exact absurd none_ hasFile
      · exact absurd none_ hasDescriptor
    | _ => exact tables.elim
  · cases used : (sys.pc pid).socket with
    | none =>
      generalize sys.pc pid = pc at move used
      cases move <;> cases used
    | some => exact inv.own opens files used tables move

theorem LinksInv.unrelated (files : FilesInv k') (ports : k'.ports = sys.kernel.ports)
    (roles : ∀ t, SameRole (sys.kernel.sockets t) (k'.sockets t))
    (linked : ∀ t, (sys.kernel.sockets t).Linked ok → (k'.sockets t).Linked ok)
    : LinksInv ok { sys with kernel := k' } where
  files := files
  active p s pointer := by
    rw [ports] at pointer
    rw [(roles s).busy_iff, (roles s).port]
    exact inv.active p s pointer
  closed s := by
    rw [(roles s).busy_iff, (roles s).tcpState]
    exact inv.closed s
  apart := inv.apart
  knows pid s uses := by
    obtain ⟨row, inside, knows⟩ := inv.knows pid s uses
    refine ⟨row, inside, ?_⟩
    simp only at uses ⊢
    cases here : sys.pc pid with
    | user => trivial
    | bindUpdate =>
      rw [here] at knows
      exact (roles s).state.trans knows
    | _ =>
      rw [here] at knows
      exact (roles s).busy_iff.mpr knows
  established s state := by
    obtain ⟨inside, before⟩ := inv.established s ((roles s).tcpState.symm.trans state)
    exact ⟨inside, linked s before⟩
  handshake pid s shaking := linked s (inv.handshake pid s shaking)

theorem LinksInv.kill (pid : Nat)
    : LinksInv ok { sys with kernel := sys.kernel.kill pid } := by
  exact inv.unrelated (inv.files.kill pid) rfl (fun _ => .refl _) (fun _ linked => linked)

/-- A segment does not rename a connection. -/
theorem LinksInv.receive (mem : Int → UInt8) (seg size : Int) (srcIp : UInt32)
    : LinksInv ok { sys with kernel := sys.kernel.receive mem seg size srcIp } := by
  refine inv.unrelated (inv.files.receive mem seg size srcIp) (receive_ports ..)
    (receive_role sys.kernel mem seg size srcIp) ?_
  intro t linked
  have endpoint := receive_endpoint sys.kernel mem seg size srcIp t
  rw [Socket.Linked, endpoint.port, endpoint.dstAddr, endpoint.dstPort]
  exact linked

end

variable {ok' : UInt16 → UInt32 → UInt16 → Prop}

theorem LinksInv.mono (inv : LinksInv ok sys)
    (weaker : ∀ port dstAddr dstPort, ok port dstAddr dstPort → ok' port dstAddr dstPort)
    : LinksInv ok' sys :=
  { inv with
    established := fun s state =>
      ⟨(inv.established s state).1, weaker _ _ _ (inv.established s state).2⟩
    handshake := fun pid s shaking => weaker _ _ _ (inv.handshake pid s shaking) }

/-- Where there is no connection, any condition on names holds. -/
theorem LinksInv.disconnected (inv : LinksInv ok sys) (idle : sys.Disconnected)
    : LinksInv ok' sys where
  files := inv.files
  active := inv.active
  closed := inv.closed
  apart := inv.apart
  knows := inv.knows
  established s state := by
    have inside := (inv.established s state).1
    rcases idle.1 s inside with other | other <;> rw [state] at other <;> cases other
  handshake pid s shaking := by
    rw [idle.2 pid (inv.knows pid s (Pc.socket_of_handshake shaking)).1] at shaking
    cases shaking

theorem Pc.Opens.mono (opens : pc.Opens ok env k)
    (weaker : ∀ port dstAddr dstPort, ok port dstAddr dstPort → ok' port dstAddr dstPort)
    : pc.Opens ok' env k := by
  cases pc with
  | connectSyn s dstAddr dstPort | acceptDequeue s => exact weaker _ _ _ opens
  | _ => trivial

/-- What the hosts are connected to is between new pairs of ports. -/
def HostPair.Separate (net : HostPair) : Prop :=
  ∀ h, LinksInv (net.Fresh h) (net.host h)

variable {net : HostPair}

theorem HostPair.Fresh.after {side : Side} {port dstPort : UInt16} {dstAddr : UInt32}
    (fresh : net.Fresh h port dstAddr dstPort) (outcome : Sys × List Event)
    : (net.after side net.connection outcome).Fresh h port dstAddr dstPort := by
  intro sent member sender old
  rcases List.mem_append.mp member with before | new
  · exact fresh sent before sender old
  · obtain ⟨event, -, same⟩ := List.mem_filterMap.mp new
    obtain ⟨datagram, -, rfl⟩ := Option.map_eq_some_iff.mp same
    exact absurd old (lt_irrefl _)

theorem HostPair.Separate.after {connection : Nat} {outcome : Sys × List Event}
    (inv : ∀ side, LinksInv ((net.after h connection outcome).Fresh side) (net.host side))
    (stepped : LinksInv ((net.after h connection outcome).Fresh h) outcome.1)
    : (net.after h connection outcome).Separate := by
  intro side
  by_cases same : side = h
  · subst same
    simpa [HostPair.after] using stepped
  · simpa [HostPair.after, update_of_ne same] using inv side

/-- A host step leaves what is connected between new ports; a connection is opened only when there
is none.
-/
theorem HostPair.Separate.grown {action : SysAction} (inv : net.Separate)
    (idle
      : (net.host h).connects action = true
        → (net.host .left).Disconnected ∧ (net.host .right).Disconnected)
    (outcome : Sys × List Event) (side : Side)
    : LinksInv
        ((net.after h (net.connection + ((net.host h).connects action).toNat) outcome).Fresh side)
        (net.host side) := by
  cases connects : (net.host h).connects action with
  | true =>
    cases side with
    | left => exact (inv .left).disconnected (idle connects).1
    | right => exact (inv .right).disconnected (idle connects).2
  | false => exact (inv side).mono fun _ _ _ fresh => fresh.after outcome

/-- A step of a process on either host, or the delivery of a segment. -/
theorem HostPair.Separate.step {next : HostPair} {action : PairAction} (inv : net.Separate)
    (sequential : net.OneAfterAnother action) (newPorts : net.NewPorts action)
    (taken : net.step action = some next)
    : next.Separate := by
  cases action with
  | deliver h n env seg =>
    simp only [HostPair.step, Option.bind_eq_some_iff, Option.map_eq_some_iff] at taken
    obtain ⟨sent, -, ⟨after, log⟩, acted, rfl⟩ := taken
    have move := Sys.act_move (inv h).files.tidy acted
    have kept (side : Side)
        : LinksInv ((net.after h net.connection (after, log)).Fresh side) (net.host side) :=
      (inv side).mono fun _ _ _ fresh => fresh.after (after, log)
    refine .after kept ?_
    cases move with
    | receive env => exact (kept h).receive env.frame _ _ _
  | acts h action =>
    obtain ⟨regular, idle⟩ := sequential
    cases action with
    | receive => cases taken
    | call pid c env =>
      simp only [HostPair.step, Option.map_eq_some_iff] at taken
      obtain ⟨⟨after, log⟩, acted, rfl⟩ := taken
      have kept := inv.grown idle (after, log)
      refine .after kept ?_
      cases Sys.act_move (inv h).files.tidy acted with
      | call pid c env next k' free runnable move =>
        refine (kept h).call regular (fun connects => ?_) runnable move
        cases h with
        | left => exact (idle connects).1
        | right => exact (idle connects).2
    | resume pid env =>
      simp only [HostPair.step, Option.map_eq_some_iff] at taken
      obtain ⟨⟨after, log⟩, acted, rfl⟩ := taken
      have kept := inv.grown idle (after, log)
      refine .after kept ?_
      cases Sys.act_move (inv h).files.tidy acted with
      | resume pid env pc next k' log located runnable move =>
        subst located
        refine (kept h).resume regular ?_ runnable move
        exact Pc.Opens.mono newPorts fun _ _ _ fresh => fresh.after _
    | kill pid =>
      simp only [HostPair.step, Option.map_eq_some_iff] at taken
      obtain ⟨⟨after, log⟩, acted, rfl⟩ := taken
      have kept := inv.grown idle (after, log)
      refine .after kept ?_
      cases Sys.act_move (inv h).files.tidy acted with
      | kill pid => exact (kept h).kill pid

/-- A segment of an earlier connection is not accepted, unless it is a SYN. -/
theorem HostPair.Separate.keepsApart (inv : net.Separate) (action : PairAction)
    : net.KeepsApart action := by
  cases action with
  | acts => trivial
  | deliver h n env seg =>
    intro sent arrives old noSyn accepts
    obtain ⟨stored, possible⟩ := Option.filter_eq_some_iff.mp arrives
    obtain ⟨sender, -, bytes⟩ := of_decide_eq_true possible
    have justified :=
      disposition_justified (net.host h).kernel env.frame seg sent.bytes.length sent.srcIp
    -- whatever accepts the segment is connected to where it comes from
    have rejected {asoc : Nat}
        (active : ((net.host h).kernel.ports (dstPortOf env.frame seg).toNat).activeSocket
          = some asoc)
        (dstAddr : ((net.host h).kernel.sockets asoc).tcon.dstAddr = sent.srcIp)
        (dstPort : ((net.host h).kernel.sockets asoc).tcon.dstPort = srcPortOf env.frame seg)
        (established : ((net.host h).kernel.sockets asoc).tcon.state = .established)
        : False := by
      refine ((inv h).established asoc established).2 sent (List.mem_of_getElem? stored)
        sender old ?_
      have port := UInt16.toNat_inj.mp ((inv h).active _ asoc active).2
      exact ⟨dstAddr.symm, env.frame, seg, bytes, dstPort.symm, port.symm, noSyn⟩
    simp only [Kernel.Accepts] at accepts
    generalize disposition (net.host h).kernel env.frame seg sent.bytes.length sent.srcIp
      = taken at accepts justified
    cases taken with
    | inOrder =>
      exact rejected justified.1 justified.2.1 justified.2.2.1 justified.2.2.2.1
    | ack => exact rejected justified.1 justified.2.1 justified.2.2.1 justified.2.2.2.1
    | _ => exact accepts

def HostPair.boot (myip netmask gateway : Side → UInt32) : HostPair :=
  { host := fun h => Sys.boot (myip h) (netmask h) (gateway h), connection := 0, wire := [] }

theorem HostPair.boot_separate (myip netmask gateway : Side → UInt32)
    : (HostPair.boot myip netmask gateway).Separate := by
  intro h
  have files := (boot_held (myip h) (netmask h) (gateway h)).files
  refine ⟨files, ?_, ?_, ?_, ?_, ?_, ?_⟩
  · intro p s impossible
    cases impossible
  · intro s _
    rfl
  · intro pid other s impossible
    cases impossible
  · intro pid s impossible
    cases impossible
  · intro s impossible
    cases impossible
  · intro pid s impossible
    cases impossible

set_option maxRecDepth 20000

/-- A client at 192.168.2.3, on the left, and a server at 192.168.2.2. -/
def clientAndServer : HostPair :=
  HostPair.boot (fun | .left => 0xc0a80203 | .right => 0xc0a80202) (fun _ => 0xffffff00)
    (fun _ => 0xc0a80201)

/-- The process of a host makes `n` more steps inside its call. -/
def goesOn (h : Side) (n : Nat) : List PairAction :=
  List.replicate n (.acts h (.resume 0 blankEnv))

/-- The `n`-th segment, with these contents, arrives. -/
def arrives (h : Side) (n : Nat) (packet : Int → UInt8) : PairAction :=
  .deliver h n { blankEnv with frame := packet } 0

/-- The client connects from port 1024 to this port of the server, which accepts at its descriptor
`fd`, with `n` segments sent before.
-/
def opensConnection (fd : Int) (port : UInt16) (n : Nat) : List PairAction :=
  [.acts .right (.call 0 (.accept fd) blankEnv)] ++ goesOn .right 3
  ++ [.acts .left (.call 0 .socket blankEnv),
      .acts .left (.call 0 (.connect 0 0xc0a80202 port) blankEnv)]
  ++ goesOn .left 3
  ++ [arrives .right n
        (tcpPack (fun _ => 0) 0xc0a80203 1024 port 0xc0a80202 0 0 tcpFlagSyn 24 tcpMssOption)]
  ++ goesOn .right 4
  ++ [arrives .left (n + 1)
        (tcpPack (fun _ => 0) 0xc0a80202 port 1024 0xc0a80203 0 1 (tcpFlagSyn ||| tcpFlagAck) 24
          tcpMssOption)]
  ++ goesOn .left 1
  ++ [arrives .right (n + 2)
        (tcpPack (fun _ => 0) 0xc0a80203 1024 port 0xc0a80202 0 1 tcpFlagAck 20 [])]
  ++ goesOn .right 1

/-- The data segment with which the client writes one byte. -/
def firstByte : Int → UInt8 :=
  tcpPack (fun _ => 0) 0xc0a80203 1024 80 0xc0a80202 1 0 0 20 [0x78]

/-- The client writes a byte to port 80, which is acknowledged, and both close the connection, the
server by its descriptor `fd`.
-/
def usesConnection (fd : Int) : List PairAction :=
  [.acts .left (.call 0 (.write 0 [0x78]) blankEnv)] ++ goesOn .left 1
  ++ [arrives .right 3 firstByte,
      arrives .left 4 (tcpPack (fun _ => 0) 0xc0a80202 80 1024 0xc0a80203 0 2 tcpFlagAck 20 [])]
  ++ goesOn .left 2
  ++ [.acts .left (.call 0 (.close 0) blankEnv), .acts .right (.call 0 (.close fd) blankEnv)]

/-- No segment of an earlier connection was sent to host `h` between these ports. -/
def HostPair.Distinct (net : HostPair) (h : Side) (port : UInt16) (_ : UInt32) (dstPort : UInt16)
    : Prop :=
  ∀ sent ∈ net.wire, sent.sender = h.peer → sent.connection < net.connection
    → 4 ≤ sent.bytes.length
      ∧ (srcPortOf (memoryOf sent.bytes) 0 = dstPort → dstPortOf (memoryOf sent.bytes) 0 ≠ port)

theorem HostPair.Distinct.fresh {port dstPort : UInt16} {dstAddr : UInt32}
    (distinct : net.Distinct h port dstAddr dstPort)
    : net.Fresh h port dstAddr dstPort := by
  rintro sent member sender old ⟨-, mem, seg, bytes, src, dst, -⟩
  obtain ⟨long, other⟩ := distinct sent member sender old
  have same := (slice_memoryOf sent.bytes).trans bytes.symm
  have first_ := load16_of_slice_eq same 0 (by omega)
  have second := load16_of_slice_eq same 2 (by omega)
  simp only [Nat.cast_zero, add_zero] at first_
  refine other ?_ ?_
  · rw [← src, srcPortOf, srcPortOf, first_]
  · rw [← dst, dstPortOf, dstPortOf]
    exact congrArg htons second

/-- `connect` and `accept` open connections between such ports only. -/
def HostPair.DistinctPorts (net : HostPair) : PairAction → Prop
  | .acts h (.resume pid env) =>
    ((net.host h).pc pid).Opens (net.Distinct h) env (net.host h).kernel
  | _ => True

instance (net : HostPair) (action : PairAction) : Decidable (net.DistinctPorts action) := by
  unfold HostPair.DistinctPorts Pc.Opens HostPair.Distinct
  split
  · split <;> infer_instance
  · infer_instance

theorem HostPair.DistinctPorts.newPorts {action : PairAction} (distinct : net.DistinctPorts action)
    : net.NewPorts action := by
  cases action with
  | deliver => trivial
  | acts h action =>
    cases action with
    | resume => exact Pc.Opens.mono distinct fun _ _ _ => HostPair.Distinct.fresh
    | _ => trivial

/-- The server listens at port 81 as well. -/
def listenAt81 : List SysAction :=
  [.call 0 .socket blankEnv, .call 0 (.bind 1 0xc0a80202 81) blankEnv, .resume 0 blankEnv,
    .call 0 (.listen 1) blankEnv]

/-- The client connects to port 80, writes a byte and closes; then it connects to port 81, and the
byte of the first connection is delivered once more.
-/
def twoConnectionsRun : List PairAction :=
  (listenAt80 ++ listenAt81).map (.acts .right) ++ opensConnection 0 80 0 ++ usesConnection 2
    ++ opensConnection 1 81 5 ++ [arrives .right 3 firstByte]

end Xv6Net
