import Xv6Net.Socket.PendingRequests
import Xv6Net.Socket.References

/-! The port table, over whole runs of all processes of a host. `bind`, `connect`, `accept` and
`socketclose` update it together with the socket table; they keep the two consistent as long as
`bind` finds its port still free when it takes it, `connect` is given unbound sockets, `accept`
gets a socket for its connection, and a listener is closed after its connection.
-/

namespace Xv6Net

open Library Transition Function Kernel

/-- The socket that `close` of the descriptor frees, if it is the last reference to one. -/
def Kernel.closes (k : Kernel) (pid : Nat) (fd : Int) : Option Nat :=
  if 0 ≤ fd ∧ fd < noFile then
    match (k.procs pid).ofile fd.toNat with
    | none => none
    | some f =>
      if (k.files f).ref = 1 ∧ (k.files f).type = .socket then (k.files f).socket else none
  else
    none

/-- The sockets that `bind` or `connect` has bound, and that have not been closed since. -/
abbrev BoundSockets := Nat → Bool

/-- `bind` binds with its update, `connect` with the port it finds, and `close` unbinds a socket it
frees.
-/
def noteBound (sys : Sys) (action : SysAction) (bound : BoundSockets) : BoundSockets :=
  match action, sys.step action with
  | .resume pid _, _ =>
    match sys.pc pid with
    | .bindUpdate s _ _ => update bound s true
    | _ => bound
  | .call pid (.connect _ _ _) _, some next =>
    match next.pc pid with
    | .connectSyn s _ _ => update bound s true
    | _ => bound
  | .call pid (.close fd) _, some next =>
    match sys.kernel.closes pid fd with
    | some s => if next.returned pid = 0 then update bound s false else bound
    | none => bound
  | _, _ => bound

/-- The host with the history of what is bound. -/
abbrev stepBinding : Sys × BoundSockets → SysAction → Option (Sys × BoundSockets) :=
  withHistory Sys.step noteBound

structure PortTableOk (current : Sys × BoundSockets) : Prop where
  vacant
    : ∀ p, (current.1.kernel.ports p).pid = -1
        ↔ (current.1.kernel.ports p).activeSocket = none
          ∧ (current.1.kernel.ports p).passiveSocket = none
  pointers
    : ∀ p s, current.1.kernel.Registered p s
        → s < nSockets
          ∧ (current.1.kernel.sockets s).state ≠ .free
          ∧ (current.1.kernel.sockets s).port.toNat = p
  distinct
    : ∀ s t, current.2 s = true → current.2 t = true
        → (current.1.kernel.sockets s).port = (current.1.kernel.sockets t).port
        → s = t

/-- The indices of `ports` that a step uses. `connect` looks at the ports from 1024 on, up to
the first free one.
-/
def Sys.portsUsed (sys : Sys) : SysAction → List Nat
  | .call pid (.bind sockfd addr port) _ =>
    match sys.kernel.socketAt pid sockfd with
    | none => []
    | some s =>
      if port.toNat ≤ nPorts ∧ addr = sys.kernel.myip
          ∧ (sys.kernel.sockets s).state = .unbound then
        [port.toNat]
      else
        []
  | .call _ (.connect _ _ _) _ => List.range' 1024 (nPorts - 1024)
  | .call pid (.accept sockfd) _ =>
    match sys.kernel.socketAt pid sockfd with
    | none => []
    | some s => [(sys.kernel.sockets s).port.toNat]
  | .call pid (.close fd) _ =>
    match sys.kernel.closes pid fd with
    | none => []
    | some s => [(sys.kernel.sockets s).port.toNat]
  | .resume pid _ =>
    match sys.pc pid with
    | .bindUpdate _ _ port => [port.toNat]
    | .sleep _ s | .wait .handshakeAck s => [(sys.kernel.sockets s).port.toNat]
    | _ => []
  | .receive env seg size srcIp =>
    if Admitted sys.kernel env.frame seg size srcIp then
      [(dstPortOf env.frame seg).toNat]
    else
      []
  | _ => []

/-- The step is one that the socket layer can carry out: no `bind` to port `NPORTS`, no port or
socket taken between the tests of `bind` and its update, `connect` on unbound sockets only, a
free socket, file and descriptor when `accept` needs them, and no listener closed before its
connection.
-/
def Careful (sys : Sys) : SysAction → Prop
  | .call _ (.bind _ _ port) _ => port.toNat ≠ nPorts
  | .call pid (.connect sockfd _ _) _ =>
    ∀ s, sys.kernel.socketAt pid sockfd = some s → (sys.kernel.sockets s).state = .unbound
  | .call pid (.close fd) _ =>
    ∀ s, sys.kernel.closes pid fd = some s
      → (sys.kernel.ports (sys.kernel.sockets s).port.toNat).passiveSocket = some s
      → (sys.kernel.ports (sys.kernel.sockets s).port.toNat).activeSocket = none
  | .resume pid _ =>
    match sys.pc pid with
    | .bindUpdate s _ port =>
      (sys.kernel.ports port.toNat).pid = -1 ∧ (sys.kernel.sockets s).state = .unbound
    | .wait .handshakeAck _ =>
      freeSocket sys.kernel ≠ none
      ∧ freeFile sys.kernel ≠ none
      ∧ freeDescriptor (sys.kernel.procs pid) ≠ none
    | _ => True
  | _ => True

structure PortCore (k : Kernel) (bound : BoundSockets) : Prop where
  vacant
    : ∀ p, (k.ports p).pid = -1
        ↔ (k.ports p).activeSocket = none ∧ (k.ports p).passiveSocket = none
  registered
    : ∀ p s, k.Registered p s
        → s < nSockets ∧ (k.sockets s).Busy ∧ (k.sockets s).port.toNat = p
  apart : ∀ p s, (k.ports p).activeSocket = some s → (k.ports p).passiveSocket ≠ some s
  owner
    : ∀ s, bound s = true
        → (k.ports (k.sockets s).port.toNat).passiveSocket = some s
          ∨ ((k.ports (k.sockets s).port.toNat).activeSocket = some s
            ∧ (k.ports (k.sockets s).port.toNat).passiveSocket = none)
  known
    : ∀ s, (k.sockets s).state = .bound ∨ (k.sockets s).tcon.state = .listen
        → bound s = true
  idle : ∀ s, ¬ (k.sockets s).Busy → (k.sockets s).tcon.state = .closed
  inRange : ∀ s, (k.sockets s).port.toNat < nPorts

/-- The socket is bound as the passive one of its port. -/
def Listener (k : Kernel) (bound : BoundSockets) (s : Nat) : Prop :=
  bound s = true ∧ (k.ports (k.sockets s).port.toNat).passiveSocket = some s

def Wait.Uses (k : Kernel) (bound : BoundSockets) (s : Nat) : Wait → Prop
  | .request | .handshakeAck => Listener k bound s
  | .synAck | .data _ => (k.sockets s).Busy

/-- What a process inside a call knows about its socket. -/
def PcOk (k : Kernel) (bound : BoundSockets) : Pc → Prop
  | .user => True
  | .bindUpdate _ _ port => port.toNat < nPorts
  | .acceptTest s | .acceptDequeue s => Listener k bound s
  | .mark w s | .sleep w s | .wait w s => w.Uses k bound s
  | .connectSyn s _ _ | .readTest s _ | .readCopy s _ | .write s _ => (k.sockets s).Busy

structure PortsInv (current : Sys × BoundSockets) : Prop where
  files : FilesInv current.1.kernel
  core : PortCore current.1.kernel current.2
  held
    : ∀ pid s, (current.1.pc pid).socket = some s
        → pid < nProc
          ∧ (current.1.kernel.procs pid).state ≠ .unused
          ∧ current.1.kernel.Holds pid s
  pcs : ∀ pid, PcOk current.1.kernel current.2 (current.1.pc pid)

variable {current : Sys × BoundSockets} {socket : Socket} {p t f : Nat} {pc : Pc} {next : Next}
  {fd : Int} {env : Env}

theorem PortsInv.portTableOk (inv : PortsInv current)
    : PortTableOk current := by
  refine ⟨inv.core.vacant, ?_, ?_⟩
  · intro p s registered
    obtain ⟨inside, busy, port⟩ := inv.core.registered p s registered
    exact ⟨inside, busy.1, port⟩
  · intro s t boundS boundT same
    have one := inv.core.owner s boundS
    have two := inv.core.owner t boundT
    rw [same] at one
    rcases one with passive | ⟨active, none_⟩
    · rcases two with passive' | ⟨-, none_⟩
      · rw [passive] at passive'
        exact Option.some.inj passive'
      · rw [passive] at none_
        cases none_
    · rcases two with passive' | ⟨active', -⟩
      · rw [none_] at passive'
        cases passive'
      · rw [active] at active'
        exact Option.some.inj active'

variable {k k' : Kernel} {bound : BoundSockets} {pid s : Nat}

section

variable (core : PortCore k bound)
include core

theorem PortCore.of_roles (roles : ∀ t, SameRole (k.sockets t) (k'.sockets t))
    (ports : k'.ports = k.ports)
    : PortCore k' bound where
  vacant := by rw [ports]; exact core.vacant
  registered p t := by
    rw [Kernel.Registered, ports, (roles t).port, (roles t).busy_iff]
    exact core.registered p t
  apart := by rw [ports]; exact core.apart
  owner t := by rw [ports, (roles t).port]; exact core.owner t
  known t := by rw [(roles t).state, (roles t).tcpState]; exact core.known t
  idle t := by rw [(roles t).busy_iff, (roles t).tcpState]; exact core.idle t
  inRange t := by rw [(roles t).port]; exact core.inRange t

/-- One socket changes and keeps its port, and so does the port table. -/
theorem PortCore.socketChanged (sockets : k'.sockets = update k.sockets s socket)
    (ports : k'.ports = k.ports) (port : socket.port = (k.sockets s).port)
    (busy : (k.sockets s).Busy → socket.Busy)
    (known : socket.state = .bound ∨ socket.tcon.state = .listen → bound s = true)
    (idle : ¬ socket.Busy → socket.tcon.state = .closed)
    : PortCore k' bound := by
  have kept (t : Nat) : (k'.sockets t).port = (k.sockets t).port
      ∧ ((k.sockets t).Busy → (k'.sockets t).Busy)
      ∧ ((k'.sockets t).state = .bound ∨ (k'.sockets t).tcon.state = .listen → bound t = true)
      ∧ (¬ (k'.sockets t).Busy → (k'.sockets t).tcon.state = .closed) := by
    rw [sockets]
    rcases eq_or_ne t s with rfl | other
    · rw [update_self]
      exact ⟨port, busy, known, idle⟩
    · rw [update_of_ne other]
      exact ⟨rfl, id, core.known t, core.idle t⟩
  refine ⟨?_, ?_, ?_, ?_, fun t => (kept t).2.2.1, fun t => (kept t).2.2.2, ?_⟩
  · rw [ports]
    exact core.vacant
  · intro p t pointer
    rw [Kernel.Registered, ports] at pointer
    obtain ⟨inside, live, here⟩ := core.registered p t pointer
    exact ⟨inside, (kept t).2.1 live, by rw [(kept t).1, here]⟩
  · rw [ports]
    exact core.apart
  · intro t
    rw [ports, (kept t).1]
    exact core.owner t
  · intro t
    rw [(kept t).1]
    exact core.inRange t

/-- A socket in use changes its own state. -/
theorem PortCore.own (own : OwnUpdate k k' s socket) (busy : socket.Busy)
    (known : socket.state = .bound ∨ socket.tcon.state = .listen → bound s = true)
    : PortCore k' bound :=
  core.socketChanged own.sockets own.ports own.port (fun _ => busy) known (absurd busy)

/-- A vacant port has no sockets. -/
theorem PortCore.not_registered (vacant : (k.ports p).pid = -1)
    : ¬ k.Registered p t := by
  obtain ⟨active, passive⟩ := (core.vacant p).mp vacant
  rintro (here | here)
  · rw [active] at here
    cases here
  · rw [passive] at here
    cases here

/-- Witness: nothing is registered at a vacant port, and an unbound socket nowhere. -/
theorem PortCore.tookPort (took : TookPort k k' pid s p) (inside : s < nSockets)
    (unbound : (k.sockets s).state = .unbound) (low : p < nPorts) (vacant : (k.ports p).pid = -1)
    : PortCore k' (update bound s true) := by
  obtain ⟨active, passive⟩ := (core.vacant p).mp vacant
  have idle : ¬ (k.sockets s).Busy := fun busy => busy.2 unbound
  have unregistered {q t : Nat} (registered : k.Registered q t) : t ≠ s := by
    rintro rfl
    exact idle (core.registered q t registered).2.1
  have busy : (k'.sockets s).Busy := by simp [Socket.Busy, took.state]
  constructor
  case vacant =>
    intro q
    by_cases same : q = p
    · subst same
      rcases took.here with here | here <;> simp [here, active, passive]
    · rw [took.elsewhere q same]
      exact core.vacant q
  case registered =>
    intro q t registered
    rcases (took.registered_iff active passive).mp registered with ⟨rfl, rfl⟩ | ⟨other, before⟩
    · exact ⟨inside, busy, took.port⟩
    · rw [took.others t (unregistered before)]
      exact core.registered q t before
  case apart =>
    intro q t pointer
    by_cases same : q = p
    · subst same
      rcases took.here with here | here <;> simp [here, active, passive] at pointer ⊢
    · rw [took.elsewhere q same] at pointer ⊢
      exact core.apart q t pointer
  case owner =>
    intro t isBound
    by_cases same : t = s
    · subst same
      rw [took.port]
      rcases took.here with here | here
      · exact Or.inr ⟨by rw [here], by rw [here]; exact passive⟩
      · exact Or.inl (by rw [here])
    · rw [update_of_ne same] at isBound
      have owner := core.owner t isBound
      have other : (k.sockets t).port.toNat ≠ p := by
        intro here
        rw [here, active, passive] at owner
        simp at owner
      rw [took.others t same, took.elsewhere _ other]
      exact owner
  case known =>
    intro t state
    by_cases same : t = s
    · rw [same, update_self]
    · rw [took.others t same] at state
      rw [update_of_ne same]
      exact core.known t state
  case idle =>
    intro t free
    by_cases same : t = s
    · rw [same] at free
      exact absurd busy free
    · rw [took.others t same] at free ⊢
      exact core.idle t free
  case inRange =>
    intro t
    by_cases same : t = s
    · rw [same, took.port]
      exact low
    · rw [took.others t same]
      exact core.inRange t

theorem PortCore.busy_of_bound (isBound : bound s = true)
    : s < nSockets ∧ (k.sockets s).Busy := by
  have registered : k.Registered (k.sockets s).port.toNat s := by
    rcases core.owner s isBound with passive | ⟨active, -⟩
    · exact Or.inr passive
    · exact Or.inl active
  obtain ⟨inside, busy, -⟩ := core.registered _ s registered
  exact ⟨inside, busy⟩

end

section

variable {port : Port}

/-- A socket that is still in the entry was there before. -/
theorem Port.release_registered (apart : port.activeSocket = some s → port.passiveSocket ≠ some s)
    (pointer : (port.release s).activeSocket = some t ∨ (port.release s).passiveSocket = some t)
    : (port.activeSocket = some t ∨ port.passiveSocket = some t) ∧ t ≠ s := by
  unfold Port.release at pointer
  grind

/-- The entry is vacant exactly if no socket is left, as a listener leaves no connection behind. -/
theorem Port.release_vacant
    (vacant : port.pid = -1 ↔ port.activeSocket = none ∧ port.passiveSocket = none)
    (last : port.passiveSocket = some s → port.activeSocket = none)
    : (port.release s).pid = -1
      ↔ (port.release s).activeSocket = none ∧ (port.release s).passiveSocket = none := by
  unfold Port.release
  grind

theorem Port.release_apart (apart : port.activeSocket = some t → port.passiveSocket ≠ some t)
    (active : (port.release s).activeSocket = some t)
    : (port.release s).passiveSocket ≠ some t := by
  unfold Port.release at active ⊢
  grind

/-- Another socket that the port is bound to stays. -/
theorem Port.release_owner (other : t ≠ s)
    (owner : port.passiveSocket = some t
      ∨ (port.activeSocket = some t ∧ port.passiveSocket = none))
    : (port.release s).passiveSocket = some t
      ∨ ((port.release s).activeSocket = some t ∧ (port.release s).passiveSocket = none) := by
  unfold Port.release
  grind

end

/-- The socket has been closed, and its port released. -/
structure Closed (k k' : Kernel) (s : Nat) : Prop where
  sockets : k'.sockets = update k.sockets s .zero
  ports
    : k'.ports = update k.ports (k.sockets s).port.toNat
        ((k.ports (k.sockets s).port.toNat).release s)

/-- Witness: only the socket itself is taken out of the table, and the port is vacant
afterwards if nothing is left there. A listener leaves no connection behind.
-/
theorem PortCore.closed (core : PortCore k bound) (closed : Closed k k' s)
    (last
      : (k.ports (k.sockets s).port.toNat).passiveSocket = some s
        → (k.ports (k.sockets s).port.toNat).activeSocket = none)
    : PortCore k' (update bound s false) := by
  have here : k'.ports (k.sockets s).port.toNat
      = (k.ports (k.sockets s).port.toNat).release s := by
    rw [closed.ports, update_self]
  have elsewhere {q : Nat} (other : q ≠ (k.sockets s).port.toNat) : k'.ports q = k.ports q := by
    rw [closed.ports, update_of_ne other]
  have others {t : Nat} (other : t ≠ s) : k'.sockets t = k.sockets t := by
    rw [closed.sockets, update_of_ne other]
  have zero : k'.sockets s = .zero := by rw [closed.sockets, update_self]
  have registered {q t : Nat} (pointer : k'.Registered q t) : k.Registered q t ∧ t ≠ s := by
    by_cases same : q = (k.sockets s).port.toNat
    · subst same
      rw [Kernel.Registered, here] at pointer
      exact Port.release_registered (core.apart _ s) pointer
    · rw [Kernel.Registered, elsewhere same] at pointer
      refine ⟨pointer, ?_⟩
      rintro rfl
      exact same (core.registered q t pointer).2.2.symm
  constructor
  case vacant =>
    intro q
    by_cases same : q = (k.sockets s).port.toNat
    · subst same
      rw [here]
      exact Port.release_vacant (core.vacant _) last
    · rw [elsewhere same]
      exact core.vacant q
  case registered =>
    intro q t pointer
    obtain ⟨before, other⟩ := registered pointer
    rw [others other]
    exact core.registered q t before
  case apart =>
    intro q t active
    by_cases same : q = (k.sockets s).port.toNat
    · subst same
      rw [here] at active ⊢
      exact Port.release_apart (core.apart _ t) active
    · rw [elsewhere same] at active ⊢
      exact core.apart q t active
  case owner =>
    intro t isBound
    have other : t ≠ s := by
      rintro rfl
      simp at isBound
    rw [update_of_ne other] at isBound
    rw [others other]
    have owner := core.owner t isBound
    by_cases same : (k.sockets t).port.toNat = (k.sockets s).port.toNat
    · rw [same] at owner ⊢
      rw [here]
      exact Port.release_owner other owner
    · rw [elsewhere same]
      exact owner
  case known =>
    intro t state
    by_cases same : t = s
    · rw [same, zero] at state
      simp [Socket.zero, TcpConnection.zero] at state
    · rw [others same] at state
      rw [update_of_ne same]
      exact core.known t state
  case idle =>
    intro t free
    by_cases same : t = s
    · rw [same, zero]
      rfl
    · rw [others same] at free ⊢
      exact core.idle t free
  case inRange =>
    intro t
    by_cases same : t = s
    · rw [same, zero]
      decide
    · rw [others same]
      exact core.inRange t

/-- A new socket has no port. -/
theorem PortCore.opened (core : PortCore k bound)
    (sockets : k'.sockets = update k.sockets s socket) (ports : k'.ports = k.ports)
    (free : (k.sockets s).state = .free) (unbound : socket.state = .unbound)
    (port : socket.port = (k.sockets s).port) (tcon : socket.tcon = (k.sockets s).tcon)
    : PortCore k' bound := by
  have idle : ¬ (k.sockets s).Busy := fun busy => busy.1 free
  have closed : socket.tcon.state = .closed := by
    rw [tcon]
    exact core.idle s idle
  refine core.socketChanged sockets ports port (absurd · idle) ?_ fun _ => closed
  rw [unbound, closed]
  simp

/-- `accept` gives the port a second socket. -/
theorem PortCore.handedOver {new : Nat} (core : PortCore k bound) (handed : HandedOver k k' s new)
    (listener : Listener k bound s) (inside : new < nSockets) (free : (k.sockets new).state = .free)
    : PortCore k' bound := by
  obtain ⟨isBound, passive⟩ := listener
  have idle : ¬ (k.sockets new).Busy := fun busy => busy.1 free
  obtain ⟨insideS, busyS, -⟩ := core.registered _ s (Or.inr passive)
  have apart : s ≠ new := by
    rintro rfl
    exact idle busyS
  have unbound {t : Nat} (isBound : bound t = true) : t ≠ new := by
    rintro rfl
    exact idle (core.busy_of_bound isBound).2
  have busyNew : (k'.sockets new).Busy := by simp [Socket.Busy, handed.newState]
  have busyListener : (k'.sockets s).Busy := by rwa [Socket.Busy, handed.state]
  have atPort : k'.ports (k.sockets s).port.toNat
      = { k.ports (k.sockets s).port.toNat with activeSocket := some new } := by
    rw [handed.ports, update_self]
  have port {t : Nat} (old : t ≠ new) : (k'.sockets t).port = (k.sockets t).port := by
    by_cases same : t = s
    · rw [same, handed.port]
    · rw [handed.others t same old]
  constructor
  case vacant =>
    intro p
    by_cases here : p = (k.sockets s).port.toNat
    · rw [here, atPort]
      have taken : (k.ports (k.sockets s).port.toNat).pid ≠ -1 := by
        intro vacant
        rw [((core.vacant _).mp vacant).2] at passive
        cases passive
      simp [taken]
    · rw [handed.entry_of_ne here]
      exact core.vacant p
  case registered =>
    intro p t pointer
    have before : k.Registered p t ∨ (p = (k.sockets s).port.toNat ∧ t = new) := by
      by_cases here : p = (k.sockets s).port.toNat
      · rw [here, Kernel.Registered, atPort] at pointer
        rcases pointer with active | passive
        · exact Or.inr ⟨here, (Option.some.inj active).symm⟩
        · rw [here]
          exact Or.inl (Or.inr passive)
      · rw [Kernel.Registered, handed.entry_of_ne here] at pointer
        exact Or.inl pointer
    rcases before with before | ⟨rfl, rfl⟩
    · obtain ⟨low, busy, here⟩ := core.registered p t before
      have old : t ≠ new := by
        rintro rfl
        exact idle busy
      refine ⟨low, ?_, by rw [port old, here]⟩
      by_cases same : t = s
      · rw [same]
        exact busyListener
      · rw [handed.others t same old]
        exact busy
    · exact ⟨inside, busyNew, by rw [handed.newPort]⟩
  case apart =>
    intro p t active
    by_cases here : p = (k.sockets s).port.toNat
    · rw [here, atPort] at active ⊢
      simp only [Option.some.injEq] at active
      subst active
      rw [passive]
      simpa using apart
    · rw [handed.entry_of_ne here] at active ⊢
      exact core.apart p t active
  case owner =>
    intro t isBound
    have owner := core.owner t isBound
    rw [port (unbound isBound)]
    by_cases here : (k.sockets t).port.toNat = (k.sockets s).port.toNat
    · rw [here] at owner ⊢
      rw [atPort]
      rcases owner with passive' | ⟨-, none_⟩
      · exact Or.inl passive'
      · rw [passive] at none_
        cases none_
    · rw [handed.entry_of_ne here]
      exact owner
  case known =>
    intro t state
    by_cases new_ : t = new
    · rw [new_, handed.newState, handed.established] at state
      simp at state
    · by_cases same : t = s
      · rw [same]
        exact isBound
      · rw [handed.others t same new_] at state
        exact core.known t state
  case idle =>
    intro t notBusy
    have old : t ≠ new := by
      rintro rfl
      exact notBusy busyNew
    have other : t ≠ s := by
      rintro rfl
      exact notBusy busyListener
    rw [handed.others t other old] at notBusy ⊢
    exact core.idle t notBusy
  case inRange =>
    intro t
    by_cases new_ : t = new
    · rw [new_, handed.newPort]
      exact core.inRange s
    · rw [port new_]
      exact core.inRange t

variable {bound' : BoundSockets}

/-- The step keeps socket `s` usable for a process that uses it. -/
structure KeepsUse (k k' : Kernel) (bound bound' : BoundSockets) (s : Nat) : Prop where
  busy : (k.sockets s).Busy → (k'.sockets s).Busy
  listener : Listener k bound s → Listener k' bound' s

theorem Wait.Uses.kept {w : Wait} (uses : w.Uses k bound s) (keeps : KeepsUse k k' bound bound' s)
    : w.Uses k' bound' s := by
  cases w with
  | synAck | data size => exact keeps.busy uses
  | request | handshakeAck => exact keeps.listener uses

theorem PcOk.busy (ok : PcOk k bound pc) (core : PortCore k bound) (uses : pc.socket = some s)
    (local_ : ¬ pc.ChangesTables)
    : (k.sockets s).Busy := by
  have listening (listener : Listener k bound s) : (k.sockets s).Busy :=
    (core.busy_of_bound listener.1).2
  have waiting {w : Wait} (used : w.Uses k bound s) : (k.sockets s).Busy := by
    cases w with
    | synAck | data size => exact used
    | request | handshakeAck => exact listening used
  cases pc with
  | user => cases uses
  | bindUpdate => exact absurd trivial local_
  | acceptTest t | acceptDequeue t => cases uses; exact listening ok
  | connectSyn t dstAddr dstPort | readTest t size | readCopy t size | write t call =>
    cases uses; exact ok
  | mark w t | sleep w t | wait w t => cases uses; exact waiting ok

/-- What a call knows of its socket stays while it waits. -/
theorem PcOk.kept (ok : PcOk k bound pc)
    (keeps : ∀ s, pc.socket = some s → KeepsUse k k' bound bound' s)
    : PcOk k' bound' pc := by
  cases pc with
  | user => trivial
  | bindUpdate => exact ok
  | acceptTest s | acceptDequeue s => exact (keeps s rfl).listener ok
  | connectSyn s dstAddr dstPort | readTest s size | readCopy s size | write s call =>
    exact (keeps s rfl).busy ok
  | mark w s | sleep w s | wait w s => exact Wait.Uses.kept ok (keeps s rfl)

theorem PortsInv.heldInv (inv : PortsInv current)
    : HeldInv current.1 :=
  ⟨inv.files, inv.held⟩

/-- A step of a process keeps the invariant if it keeps the tables and the sockets that the others
use.
-/
theorem PortsInv.after (inv : PortsInv current) (held : HeldInv (current.1.after pid k' next))
    (core : PortCore k' bound')
    (keeps
      : ∀ other s, other ≠ pid → (current.1.pc other).socket = some s
          → KeepsUse current.1.kernel k' current.2 bound' s) (ok : PcOk k' bound' next.pc)
    : PortsInv (current.1.after pid k' next, bound') := by
  refine ⟨held.files, by simpa using core, held.held, fun other => ?_⟩
  simp only [Sys.after_pc, Sys.after_kernel]
  by_cases same : other = pid
  · subst same
    rw [update_self]
    exact ok
  · rw [update_of_ne same]
    exact (inv.pcs other).kept fun s uses => keeps other s same uses

theorem KeepsUse.of_roles (roles : ∀ t, SameRole (k.sockets t) (k'.sockets t))
    (ports : k'.ports = k.ports) (t : Nat)
    : KeepsUse k k' bound bound t where
  busy := (roles t).busy_iff.mpr
  listener := by
    rw [Listener, Listener, ports, (roles t).port]
    exact id

theorem KeepsUse.of_same (sockets : k'.sockets = k.sockets) (ports : k'.ports = k.ports) (t : Nat)
    : KeepsUse k k' bound bound t := by
  refine .of_roles (fun s => ?_) ports t
  rw [sockets]
  exact .refl _

theorem KeepsUse.own (own : OwnUpdate k k' s socket) (busy : socket.Busy) (t : Nat)
    : KeepsUse k k' bound bound t := by
  by_cases same : t = s
  · subst same
    refine ⟨fun _ => by rw [own.self]; exact busy, ?_⟩
    rw [Listener, Listener, own.ports, own.self, own.port]
    exact id
  · refine ⟨fun live => by rw [own.others same]; exact live, ?_⟩
    rw [Listener, Listener, own.ports, own.others same]
    exact id

/-- A port that is taken was vacant, so no socket loses it. -/
theorem KeepsUse.tookPort (core : PortCore k bound) (took : TookPort k k' pid s p)
    (unbound : (k.sockets s).state = .unbound) (vacant : (k.ports p).pid = -1) (t : Nat)
    : KeepsUse k k' bound (update bound s true) t := by
  refine ⟨fun busy => ?_, fun listener => ?_⟩
  · by_cases same : t = s
    · simp [Socket.Busy, same, took.state]
    · rw [took.others t same]
      exact busy
  · obtain ⟨isBound, passive⟩ := listener
    have other : t ≠ s := by
      rintro rfl
      exact (core.busy_of_bound isBound).2.2 unbound
    have elsewhere : (k.sockets t).port.toNat ≠ p := by
      intro here
      rw [here] at passive
      exact core.not_registered vacant (Or.inr passive)
    refine ⟨by rw [update_of_ne other, isBound], ?_⟩
    rw [took.others t other, took.elsewhere _ elsewhere]
    exact passive

theorem KeepsUse.closed (closed : Closed k k' s) (other : t ≠ s)
    : KeepsUse k k' bound (update bound s false) t := by
  have same : k'.sockets t = k.sockets t := by rw [closed.sockets, update_of_ne other]
  refine ⟨fun busy => by rw [same]; exact busy, fun ⟨isBound, passive⟩ => ?_⟩
  refine ⟨by rw [update_of_ne other, isBound], ?_⟩
  rw [same]
  by_cases here : (k.sockets t).port.toNat = (k.sockets s).port.toNat
  · rw [here] at passive ⊢
    rw [closed.ports, update_self, Port.release]
    split
    · exact passive
    · rw [if_neg]
      · exact passive
      · rw [passive]
        simpa using other
  · rw [closed.ports, update_of_ne here]
    exact passive

theorem KeepsUse.handedOver {new : Nat} (handed : HandedOver k k' s new) (old : t ≠ new)
    : KeepsUse k k' bound bound t := by
  have port : (k'.sockets t).port = (k.sockets t).port := by
    by_cases same : t = s
    · rw [same, handed.port]
    · rw [handed.others t same old]
  have state : (k'.sockets t).state = (k.sockets t).state := by
    by_cases same : t = s
    · rw [same, handed.state]
    · rw [handed.others t same old]
  refine ⟨by rw [Socket.Busy, Socket.Busy, state]; exact id, fun ⟨isBound, passive⟩ => ?_⟩
  refine ⟨isBound, ?_⟩
  rw [port]
  by_cases here : (k.sockets t).port.toNat = (k.sockets s).port.toNat
  · rw [here] at passive ⊢
    rw [handed.ports, update_self]
    exact passive
  · rw [handed.entry_of_ne here]
    exact passive

theorem KeepsUse.opened (sockets : k'.sockets = update k.sockets s socket)
    (ports : k'.ports = k.ports) (other : t ≠ s)
    : KeepsUse k k' bound bound t := by
  have same : k'.sockets t = k.sockets t := by rw [sockets, update_of_ne other]
  refine ⟨by rw [same]; exact id, ?_⟩
  rw [Listener, Listener, same, ports]
  exact id

theorem PortCore.busy_of_established (core : PortCore k bound)
    (established : (k.sockets s).tcon.state = .established)
    : (k.sockets s).Busy := by
  by_contra idle
  rw [core.idle s idle] at established
  cases established

theorem TookPort.bindPort {addr : UInt32} {port : UInt16}
    : TookPort k (k.bindPort pid s addr port) pid s port.toNat where
  others t other := by simp [Kernel.bindPort, update_of_ne other]
  port := by simp [Kernel.bindPort]
  state := by simp [Kernel.bindPort]
  tcpState := by simp [Kernel.bindPort]
  elsewhere q other := by simp [Kernel.bindPort, update_of_ne other]
  here := Or.inr (by simp [Kernel.bindPort])

/-- The file that `close` closes for good is the one that `closes` names. -/
theorem closes_of_lastSocket (inside : 0 ≤ fd ∧ fd < noFile)
    (named : (k.procs pid).ofile fd.toNat = some f) (only : (k.files f).ref = 1)
    (type : (k.files f).type = .socket) (refers : (k.files f).socket = some s)
    : k.closes pid fd = some s := by
  rw [Kernel.closes, if_pos inside]
  simp [named, only, type, refers]

theorem closes_of_not (named : (k.procs pid).ofile fd.toNat = some f)
    (open_ : ¬ ((k.files f).ref = 1 ∧ (k.files f).type = .socket) ∨ (k.files f).socket = none)
    : k.closes pid fd = none := by
  simp only [Kernel.closes, named]
  split
  · split
    · rename_i last
      rcases open_ with impossible | none_
      · exact absurd last impossible
      · exact none_
    · rfl
  · rfl

/-- `close` releases the port of a socket that it frees, and changes no port otherwise. -/
theorem PortsInv.close (inv : PortsInv current)
    (careful : Careful current.1 (.call pid (.close fd) env)) (runnable : current.1.Runnable pid)
    (held : HeldInv (current.1.after pid k' (.returns 0))) (inside : 0 ≤ fd ∧ fd < noFile)
    (named : (current.1.kernel.procs pid).ofile fd.toNat = some f)
    (closed : CloseMove (current.1.kernel.clearDescriptor pid fd.toNat) f k')
    (taken
      : current.1.step (.call pid (.close fd) env)
        = some (current.1.after pid k' (.returns 0)))
    : PortsInv
        (current.1.after pid k' (.returns 0),
          noteBound current.1 (.call pid (.close fd) env) current.2) := by
  have column : fd.toNat < noFile := by
    simp only [noFile] at *
    omega
  cases closed with
  | shared more =>
    have nothing : current.1.kernel.closes pid fd = none := by
      refine closes_of_not named (Or.inl fun last => ?_)
      simp only [clearDescriptor, setProc_files] at more
      omega
    simp only [noteBound, taken, nothing]
    exact inv.after held (inv.core.of_roles (fun _ => .refl _) rfl)
      (fun _ s _ _ => .of_same (by rfl) (by rfl) s) trivial
  | last only other =>
    have nothing : current.1.kernel.closes pid fd = none := by
      refine closes_of_not named ?_
      rcases other with notSocket | none_
      · exact Or.inl fun last => notSocket last.2
      · exact Or.inr none_
    simp only [noteBound, taken, nothing]
    exact inv.after held (inv.core.of_roles (fun _ => .refl _) rfl)
      (fun _ s _ _ => .of_same (by rfl) (by rfl) s) trivial
  | lastSocket s only type refers allocated =>
    have frees : current.1.kernel.closes pid fd = some s :=
      closes_of_lastSocket inside named only type refers
    have returned (k' : Kernel) : (current.1.after pid k' (.returns 0)).returned pid = 0 := by
      simp [Sys.after]
    simp only [noteBound, taken, frees, returned, if_true]
    have released : Closed current.1.kernel
        (((current.1.kernel.clearDescriptor pid fd.toNat).setFile f fun file =>
          { file with ref := 0, type := .none }).closeSocket s) s := ⟨rfl, rfl⟩
    refine inv.after held (inv.core.closed released (careful s frees))
      (fun other t differs uses => ?_) trivial
    refine KeepsUse.closed released ?_
    rintro rfl
    -- the descriptor is the only one that refers to the socket
    obtain ⟨row, living, holds⟩ := inv.held other t uses
    have same := (holds.close inv.files runnable.1 column named
      (.lastSocket t only type refers allocated) row differs).2
    have live := (inv.files.holds holds).2
    rw [← same] at live
    simp [closeSocket, Socket.zero] at live

/-- The start of a call, by what it can do. -/
theorem PortsInv.call {c : Call} (inv : PortsInv current)
    (careful : Careful current.1 (.call pid c env)) (runnable : current.1.Runnable pid)
    (held : HeldInv (current.1.after pid k' next))
    (move : CallMove env current.1.kernel pid c next k')
    (taken : current.1.step (.call pid c env) = some (current.1.after pid k' next))
    : PortsInv (current.1.after pid k' next, noteBound current.1 (.call pid c env) current.2) := by
  have same (roles : ∀ t, SameRole (current.1.kernel.sockets t) (k'.sockets t))
      (ports : k'.ports = current.1.kernel.ports) (ok : PcOk k' current.2 next.pc)
      : PortsInv (current.1.after pid k' next, current.2) :=
    inv.after held (inv.core.of_roles roles ports) (fun _ s _ _ => .of_roles roles ports s) ok
  cases move with
  | refused c =>
    have unbound : noteBound current.1 (.call pid c env) current.2 = current.2 := by
      cases c with
      | connect =>
        simp only [noteBound, taken, Sys.after_pc, update_self, Next.pc]
      | close =>
        simp only [noteBound, taken]
        split
        · rw [if_neg]
          simp [Sys.after]
        · rfl
      | _ => rfl
    rw [unbound]
    exact same (fun _ => .refl _) rfl trivial
  | bind sockfd addr port s named low =>
    exact same (fun _ => .refl _) rfl (lt_of_le_of_ne low careful)
  | accept sockfd s named listening alone =>
    refine same (fun _ => .refl _) rfl ?_
    have isBound := inv.core.known s (Or.inr listening)
    rcases inv.core.owner s isBound with passive | ⟨active, -⟩
    · exact ⟨isBound, passive⟩
    · rw [alone] at active
      cases active
  | read fd size s named established | write fd payload s named established =>
    exact same (fun _ => .refl _) rfl (inv.core.busy_of_established established)
  | socket s f fd freeSock =>
    have free := (freeSocket_spec freeSock).2
    refine inv.after held (inv.core.opened rfl rfl free rfl rfl rfl) ?_ trivial
    intro other t _ uses
    refine KeepsUse.opened rfl rfl ?_
    rintro rfl
    exact (inv.heldInv.live uses).2 free
  | listen sockfd s named isBound =>
    have busy : (current.1.kernel.sockets s).Busy := by simp [Socket.Busy, isBound]
    have own : OwnUpdate current.1.kernel (current.1.kernel.startListening s) s _ :=
      ⟨rfl, rfl, rfl, rfl⟩
    exact inv.after held (inv.core.own own busy fun _ => inv.core.known s (Or.inl isBound))
      (fun _ t _ _ => .own own busy t) trivial
  | connect sockfd dstAddr dstPort s i named free =>
    obtain ⟨low, vacant⟩ := freePort_spec free
    have unbound := careful s named
    have inside := (inv.files.holds (holds_of_socketAt named)).1
    simp only [noteBound, taken, Sys.after_pc, update_self, Next.pc]
    refine inv.after held (inv.core.tookPort (.takePort low) inside unbound low vacant)
      (fun _ t _ _ => .tookPort inv.core (.takePort low) unbound vacant t) ?_
    simp [Next.pc, PcOk, Socket.Busy, takePort]
  | close fd f k' inside named closed =>
    exact inv.close careful runnable held inside named closed taken
  | dup =>
    exact same (fun _ => .refl _) rfl trivial
  | fork child =>
    obtain ⟨files', procs', frame⟩ := current.1.kernel.forked_frame pid child
    refine same (fun _ => ?_) ?_ trivial
    · rw [frame]
      exact .refl _
    · rw [frame]
  | exit => exact same (fun _ => .refl _) rfl trivial

theorem Pc.nextState_bound {state : SocketState} (bound : pc.nextState state = .bound)
    : (∃ s, pc = .acceptDequeue s) ∨ state = .bound := by
  cases pc with
  | acceptDequeue s => exact Or.inl ⟨s, rfl⟩
  | mark w s | wait w s => cases w <;> first | exact Or.inr bound | cases bound
  | _ => exact Or.inr bound

/-- A call goes on, by the place where it was. -/
theorem PortsInv.resume {log : List Event} (inv : PortsInv current)
    (careful : Careful current.1 (.resume pid env)) (held : HeldInv (current.1.after pid k' next))
    (move : PcMove env current.1.kernel pid (current.1.pc pid) next k' log)
    : PortsInv
        (current.1.after pid k' next, noteBound current.1 (.resume pid env) current.2) := by
  have ok := inv.pcs pid
  have unnoted (other : ∀ s addr port, current.1.pc pid ≠ .bindUpdate s addr port)
      : noteBound current.1 (.resume pid env) current.2 = current.2 := by
    simp only [noteBound]
  -- a step that changes its own socket only keeps the tables, and the socket in use
  have own {s : Nat} (used : (current.1.pc pid).socket = some s)
      (local_ : ¬ (current.1.pc pid).ChangesTables)
      (after : KeepsUse current.1.kernel k' current.2 current.2 s → PcOk k' current.2 next.pc)
      : PortsInv
          (current.1.after pid k' next, noteBound current.1 (.resume pid env) current.2) := by
    rw [unnoted fun s addr port bind => local_ (by rw [bind]; trivial)]
    obtain ⟨update, state, tcpState⟩ := move.own used local_
    have busy := Pc.nextState_busy (ok.busy inv.core used local_) state
    refine inv.after held (inv.core.own update busy fun listens => ?_)
      (fun _ t _ _ => .own update busy t) (after (.own update busy s))
    rw [state, tcpState] at listens
    rcases listens with bound | listen
    · rcases Pc.nextState_bound bound with ⟨t, dequeue⟩ | before
      · rw [dequeue] at used ok
        cases used
        exact ok.1
      · exact inv.core.known s (Or.inl before)
    · exact inv.core.known s (Or.inr (Pc.nextTcpState_listen listen))
  generalize here : current.1.pc pid = pc at move ok careful own
  cases move with
  | bindUpdate s =>
    obtain ⟨vacant, unbound⟩ : _ ∧ _ := by simpa only [Careful, here] using careful
    have uses : (current.1.pc pid).socket = some s := by rw [here]; rfl
    have inside := (inv.heldInv.live uses).1
    simp only [noteBound, here]
    exact inv.after held (inv.core.tookPort .bindPort inside unbound ok vacant)
      (fun _ t _ _ => .tookPort inv.core .bindPort unbound vacant t) trivial
  | accepted s new f fd freeSock =>
    obtain ⟨inside, free⟩ := freeSocket_spec freeSock
    have idle {t : Nat} (busy : (current.1.kernel.sockets t).state ≠ .free) : t ≠ new := by
      rintro rfl
      exact busy free
    have apart : s ≠ new := idle (inv.core.busy_of_bound ok.1).2.1
    rw [unnoted fun _ _ _ bind => by rw [here] at bind; cases bind]
    refine inv.after held (inv.core.handedOver (.accepted apart.symm) ok inside free) ?_ trivial
    intro other t _ uses
    exact .handedOver (.accepted apart.symm) (idle (inv.heldInv.live uses).2)
  | acceptFailed s failed =>
    obtain ⟨sock, file, desc⟩ : _ ∧ _ ∧ _ := by simpa only [Careful, here] using careful
    rcases failed with none_ | none_ | none_
    · exact absurd none_ sock
    · exact absurd none_ file
    · exact absurd none_ desc
  | write =>
    refine own rfl id fun keeps => ?_
    split
    · trivial
    · exact keeps.busy ok
  | mark w s | sleep w s => exact own rfl id fun keeps => Wait.Uses.kept ok keeps
  | readCopy s size bytes | connected s => exact own rfl id fun _ => trivial
  | connectSyn s dstAddr dstPort | noData s size empty | hasData s size ready
  | wokenForData => exact own rfl id fun keeps => keeps.busy ok
  | noRequest s empty | hasRequest s ready | takeRequest s | wokenForRequest s =>
    exact own rfl id fun keeps => keeps.listener ok

theorem PortsInv.unrelated (inv : PortsInv current) (held : HeldInv { current.1 with kernel := k' })
    (roles : ∀ t, SameRole (current.1.kernel.sockets t) (k'.sockets t))
    (ports : k'.ports = current.1.kernel.ports)
    : PortsInv ({ current.1 with kernel := k' }, current.2) where
  files := held.files
  core := inv.core.of_roles roles ports
  held := held.held
  pcs pid := (inv.pcs pid).kept fun s _ => .of_roles roles ports s

/-- Every careful step keeps the invariant. -/
theorem PortsInv.step {next : Sys × BoundSockets} {action : SysAction} (inv : PortsInv current)
    (careful : Careful current.1 action) (taken : stepBinding current action = some next)
    : PortsInv next := by
  obtain ⟨stepped, noted⟩ := withHistory_eq_some taken
  obtain ⟨log, -, move⟩ := Sys.step_move inv.files.tidy stepped
  obtain ⟨sys, bound⟩ := next
  simp only at noted move stepped
  subst noted
  have held := inv.heldInv.step move
  cases move with
  | call pid c env next k' idle runnable move =>
    exact inv.call careful runnable held move stepped
  | resume pid env pc next k' log located runnable move =>
    subst located
    exact inv.resume careful held move
  | kill => exact inv.unrelated held (fun _ => .refl _) rfl
  | receive env seg size srcIp =>
    exact inv.unrelated held (receive_role current.1.kernel env.frame seg size srcIp)
      (receive_ports ..)

def bootBinding (myip netmask gateway : UInt32) : Sys × BoundSockets :=
  (Sys.boot myip netmask gateway, fun _ => false)

theorem bootBinding_inv (myip netmask gateway : UInt32)
    : PortsInv (bootBinding myip netmask gateway) := by
  have held := boot_held myip netmask gateway
  refine ⟨held.files, ⟨?_, ?_, ?_, ?_, ?_, ?_, ?_⟩, held.held, fun _ => trivial⟩
  · intro p
    exact ⟨fun _ => ⟨rfl, rfl⟩, fun _ => rfl⟩
  · rintro p s (impossible | impossible) <;> cases impossible
  · intro p s impossible
    cases impossible
  · intro s impossible
    cases impossible
  · rintro s (impossible | impossible) <;> cases impossible
  · intro s _
    rfl
  · intro s
    exact (by decide : (0 : UInt16).toNat < nPorts)

theorem PortsInv.portsUsed {action : SysAction} (inv : PortsInv current)
    (careful : Careful current.1 action)
    : ∀ p ∈ current.1.portsUsed action, p < nPorts := by
  intro p used
  cases action with
  | kill => cases used
  | receive =>
    simp only [Sys.portsUsed] at used
    split at used
    · rename_i admitted
      cases List.mem_singleton.mp used
      exact admitted.2.1
    · cases used
  | resume pid =>
    simp only [Sys.portsUsed] at used
    have ok := inv.pcs pid
    cases here : current.1.pc pid with
    | bindUpdate =>
      simp only [here, List.mem_singleton] at used
      rw [here] at ok
      rw [used]
      exact ok
    | sleep w s =>
      simp only [here, List.mem_singleton] at used
      rw [used]
      exact inv.core.inRange s
    | wait w s =>
      cases w with
      | handshakeAck =>
        simp only [here, List.mem_singleton] at used
        rw [used]
        exact inv.core.inRange s
      | _ => simp [here] at used
    | _ => simp [here] at used
  | call pid c =>
    cases c with
    | bind =>
      simp only [Sys.portsUsed] at used
      split at used
      · cases used
      · split at used
        · rename_i tested
          cases List.mem_singleton.mp used
          exact lt_of_le_of_ne tested.1 careful
        · cases used
    | connect =>
      simp only [Sys.portsUsed, List.mem_range'_1, nPorts] at used ⊢
      omega
    | accept sockfd | close fd =>
      simp only [Sys.portsUsed] at used
      split at used
      · cases used
      · cases List.mem_singleton.mp used
        exact inv.core.inRange _
    | _ => cases used

/-- In every run from boot whose steps are all careful, the port table is consistent in every
state, and every step stays inside it. Witness: the tables agree after every step, and no step
frees a socket that a process is using, since the reference counts are right.
-/
theorem portTable_consistent (myip netmask gateway : UInt32) {run : List SysAction}
    (careful
      : Along stepBinding (fun now action => Careful now.1 action)
          (bootBinding myip netmask gateway) run)
    : Throughout stepBinding PortTableOk (bootBinding myip netmask gateway) run
      ∧ Along stepBinding (fun now action => ∀ p ∈ now.1.portsUsed action, p < nPorts)
          (bootBinding myip netmask gateway) run := by
  have initially := bootBinding_inv myip netmask gateway
  constructor
  · have invariant := careful.invariant initially
      fun now action next inv proper taken => inv.step proper taken
    exact invariant.mono fun now inv => inv.portTableOk
  · exact careful.strengthen initially
      (fun now action next inv proper taken => inv.step proper taken)
      (fun now action inv proper => inv.portsUsed proper)

set_option maxRecDepth 20000

/-- `connect` moves a listening socket to port 1024, and port 80 still points to it. -/
theorem connect_leaves_bound_port
    : ¬ Throughout stepBinding PortTableOk (bootBinding 0xc0a80202 0xffffff00 0xc0a80201)
        (listenAt80 ++ [.call 0 (.connect 0 0xc0a80203 80) blankEnv]) := by
  intro ok
  obtain ⟨final, run, registered, moved⟩
      : ∃ final,
          exec stepBinding (bootBinding 0xc0a80202 0xffffff00 0xc0a80201)
            (listenAt80 ++ [.call 0 (.connect 0 0xc0a80203 80) blankEnv]) = some final
          ∧ (final.1.kernel.ports 80).passiveSocket = some 0
          ∧ (final.1.kernel.sockets 0).port.toNat = 1024 :=
    ⟨_, rfl, by decide +kernel, by decide +kernel⟩
  obtain ⟨-, -, port⟩ := (ok.finish run).pointers 80 0 (.inr registered)
  rw [moved] at port
  exact absurd port (by decide)

/-- A server that binds and listens. -/
theorem portTable_consistent_listen
    : Throughout stepBinding PortTableOk (bootBinding 0xc0a80202 0xffffff00 0xc0a80201)
        listenAt80 := by
  refine (portTable_consistent 0xc0a80202 0xffffff00 0xc0a80201 ?_).1
  refine ⟨trivial, fun one taken => ?_⟩
  obtain rfl := Option.some.inj taken
  refine ⟨(by decide : (80 : UInt16).toNat ≠ nPorts), fun two taken => ?_⟩
  obtain rfl := Option.some.inj taken
  refine ⟨⟨rfl, rfl⟩, fun three taken => ?_⟩
  obtain rfl := Option.some.inj taken
  exact ⟨trivial, fun four _ => trivial⟩

end Xv6Net
