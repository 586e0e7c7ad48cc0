import Xv6Net.Socket.PendingRequests
import Xv6Net.Socket.References

/-! The requests that `accept` takes. `accept` tests its queue once, before it sleeps, and goes
on to dequeue whatever has woken it up; the listener holds the client of one handshake at a
time. A history beside the system says which requests wait at a socket, and which client each
process has taken.
-/

namespace Xv6Net

open Library Memory Transition Kernel Function

/-- The socket on which a process is inside `accept` or `connect`. -/
def Pc.establishing : Pc → Option Nat
  | .mark (.data _) _ | .sleep (.data _) _ | .wait (.data _) _ => none
  | .connectSyn s _ _ | .acceptTest s | .acceptDequeue s | .mark _ s | .sleep _ s
  | .wait _ s => some s
  | _ => none

/-- A SYN that was queued: the pointer to its entry, and the address and port that it came from. -/
structure QueuedSyn where
  ptr : Int
  client : UInt32 × UInt16

/-- The SYNs that were queued at a socket since it listens, and how many of them were answered. -/
structure Arrivals where
  syns : List QueuedSyn
  answered : Nat

def Arrivals.waiting (a : Arrivals) : List QueuedSyn := a.syns.drop a.answered

/-- The SYNs of each socket, and the client whose SYN a process has answered. -/
structure RequestLog where
  arrivals : Nat → Arrivals
  taken : Nat → Option (UInt32 × UInt16)

def TcpRequest.client (request : TcpRequest) : UInt32 × UInt16 :=
  (request.clientIp, srcPortOf request.requestPacket 0)

def noteRequests (sys : Sys) : SysAction → RequestLog → RequestLog
  | .receive env seg size srcIp, log =>
    match disposition sys.kernel env.frame seg size srcIp with
    | .request psoc =>
      let syn := ⟨requestPtr (requestIndex sys.kernel.requests), srcIp, srcPortOf env.frame seg⟩
      { log with
        arrivals := update log.arrivals psoc
          { log.arrivals psoc with syns := (log.arrivals psoc).syns ++ [syn] } }
    | _ => log
  | .resume pid _, log =>
    match sys.pc pid with
    | .acceptDequeue s =>
      { arrivals := update log.arrivals s
          { log.arrivals s with answered := (log.arrivals s).answered + 1 }
        taken := update log.taken pid ((log.arrivals s).waiting.head?.map QueuedSyn.client) }
    | _ => log
  | .call pid (.listen sockfd) env, log =>
    match sys.kernel.socketAt pid sockfd, sys.step (.call pid (.listen sockfd) env) with
    | some s, some next =>
      if next.returned pid = 0 then
        { log with arrivals := update log.arrivals s ⟨[], 0⟩ }
      else
        log
    | _, _ => log
  | _, log => log

/-- The host with the history of its requests. -/
abbrev stepRequests : Sys × RequestLog → SysAction → Option (Sys × RequestLog) :=
  withHistory Sys.step noteRequests

/-- The n-th pointer that `accept` dereferences at a socket is that of the n-th SYN that arrived
there, and its SYN-ACK goes to the client of that SYN; the connection that it hands over is with the
client whose SYN it has answered.
-/
def AcceptsRequests (current : Sys × RequestLog) : SysAction → Prop
  | .resume pid env =>
    current.1.Runnable pid
    → match current.1.pc pid with
      | .acceptDequeue s =>
        ∃ syn, (current.2.arrivals s).syns[(current.2.arrivals s).answered]? = some syn
          ∧ (dequeue (current.1.kernel.sockets s).waitqueue).1 = syn.ptr
          ∧ ∀ next log protocol payload src dst size,
              current.1.act (.resume pid env) = some (next, log)
              → Event.ipSend protocol payload src dst size ∈ log
              → (dst, dstPortOf (memoryOf payload) 0) = syn.client
      | .wait .handshakeAck s =>
        current.2.taken pid
          = some ((current.1.kernel.sockets s).tcon.dstAddr,
              (current.1.kernel.sockets s).tcon.dstPort)
      | _ => True
  | _ => True

/-- While a process is inside `accept` or `connect` on a socket, no process calls `accept`,
`connect` or `listen` on it; a process that sleeps in `accept` until a request arrives is woken by a
request for its socket only; and a SYN that is queued has a header, and is not stored in the entry
of a request that still waits.
-/
def AcceptUndisturbed (sys : Sys) : SysAction → Prop
  | .call pid (.accept sockfd) _ | .call pid (.listen sockfd) _
  | .call pid (.connect sockfd _ _) _ =>
    ∀ s, sys.kernel.socketAt pid sockfd = some s
      → ∀ other, (sys.pc other).establishing ≠ some s
  | .kill pid => ∀ s, sys.pc pid = .wait .request s → (sys.kernel.procs pid).state ≠ .sleeping
  | .receive env seg size srcIp =>
    (∀ pid s, sys.pc pid = .wait .request s
      → (sys.kernel.procs pid).state = .sleeping
      → (sys.kernel.procs pid).chan = some (.port (dstPortOf env.frame seg).toNat)
      → (disposition sys.kernel env.frame seg size srcIp).Wakes sys.kernel
      → disposition sys.kernel env.frame seg size srcIp = .request s)
    ∧ ∀ s, disposition sys.kernel env.frame seg size srcIp = .request s
      → 20 ≤ moveCount size ∧ ∀ t < nSockets,
          requestPtr (requestIndex sys.kernel.requests)
            ∉ (sys.kernel.sockets t).waitqueue.items
  | _ => True

def bootRequests (myip netmask gateway : UInt32) : Sys × RequestLog :=
  (Sys.boot myip netmask gateway, ⟨fun _ => ⟨[], 0⟩, fun _ => none⟩)

/-- The queue of the socket holds the SYNs that wait, and their entries hold where they came from.
-/
structure Queued (requests : Nat → TcpRequest) (socket : Socket) (a : Arrivals) : Prop where
  valid : socket.waitqueue.Valid
  items : socket.waitqueue.items = a.waiting.map QueuedSyn.ptr
  counted : a.answered ≤ a.syns.length
  stored : ∀ syn ∈ a.waiting, ∃ i, syn.ptr = requestPtr i ∧ (requests i).client = syn.client

/-- How far a process has got in `accept`. -/
def AcceptStage (p : Proc) (socket : Socket) (waiting : List QueuedSyn)
    (client : Option (UInt32 × UInt16))
    : Pc → Prop
  | .acceptDequeue _ => waiting ≠ []
  | .wait .request _ => p.state ≠ .sleeping → waiting ≠ []
  | .mark .handshakeAck _ | .sleep .handshakeAck _ | .wait .handshakeAck _ =>
    client = some (socket.tcon.dstAddr, socket.tcon.dstPort)
  | _ => True

structure AcceptInv (current : Sys × RequestLog) : Prop where
  held : HeldInv current.1
  apart
    : ∀ one two s, (current.1.pc one).establishing = some s
        → (current.1.pc two).establishing = some s → one = two
  queued
    : ∀ s, (current.1.kernel.sockets s).tcon.state = .listen
          ∨ (∃ pid, (current.1.pc pid).accepting = some s)
        → s < nSockets
          ∧ Queued current.1.kernel.requests (current.1.kernel.sockets s) (current.2.arrivals s)
  stage
    : ∀ pid s, (current.1.pc pid).accepting = some s
        → AcceptStage (current.1.kernel.procs pid) (current.1.kernel.sockets s)
            (current.2.arrivals s).waiting (current.2.taken pid) (current.1.pc pid)

variable {env : Env} {k k' : Kernel} {pid s : Nat} {next : Next} {log : List Event}

variable {pc : Pc} {t : Nat} {c : Call} {action : SysAction}

theorem Pc.establishing_of_accepting (accepting : pc.accepting = some s)
    : pc.establishing = some s := by
  cases pc with
  | mark w t | sleep w t | wait w t => cases w <;> first | exact accepting | cases accepting
  | acceptTest t | acceptDequeue t => exact accepting
  | _ => cases accepting

theorem Pc.socket_of_establishing (establishing : pc.establishing = some s)
    : pc.socket = some s := by
  cases pc with
  | mark w t | sleep w t | wait w t => cases w <;> first | exact establishing | cases establishing
  | _ => first | exact establishing | cases establishing

/-- A process in `accept` gets no further by what others do; it may be woken up once a request
is there.
-/
theorem AcceptStage.kept {p p' : Proc} {socket other : Socket} {ptrs more : List QueuedSyn}
    {client : Option (UInt32 × UInt16)} (stage : AcceptStage p socket ptrs client pc)
    (dstAddr : other.tcon.dstAddr = socket.tcon.dstAddr)
    (dstPort : other.tcon.dstPort = socket.tcon.dstPort) (grows : ptrs ≠ [] → more ≠ [])
    (woken
      : ∀ t, pc = .wait .request t → p.state = .sleeping → p'.state ≠ .sleeping → more ≠ [])
    : AcceptStage p' other more client pc := by
  have shaking (before : client = some (socket.tcon.dstAddr, socket.tcon.dstPort))
      : client = some (other.tcon.dstAddr, other.tcon.dstPort) := by
    rw [before, dstAddr, dstPort]
  cases pc with
  | acceptDequeue => exact grows stage
  | mark w t | sleep w t => cases w <;> first | exact shaking stage | trivial
  | wait w t =>
    cases w with
    | request =>
      intro awake
      by_cases asleep : p.state = .sleeping
      · exact woken t rfl asleep awake
      · exact grows (stage asleep)
    | handshakeAck => exact shaking stage
    | _ => trivial
  | _ => trivial

/-- What a step does to a socket, when it stores another one at some index. -/
theorem update_socket {P : Socket → Prop} {sockets : Nat → Socket} {r : Nat} {socket : Socket}
    (old : P (sockets t)) (new : r = t → P (sockets r) → P socket)
    : P (update sockets r socket t) := by
  rw [update_apply]
  split
  · rename_i same
    subst same
    exact new rfl old
  · exact old

/-- What a later step of a call leaves of socket `t`: only `accept` takes something out of its
queue or lets it listen again, and only `accept` and `connect` change its destination.
-/
structure RequestsKept (k : Kernel) (pc : Pc) (t : Nat) (socket : Socket) : Prop where
  waitqueue : socket.waitqueue = (k.sockets t).waitqueue
  listening
    : socket.tcon.state = .listen
        → (k.sockets t).tcon.state = .listen ∨ pc.accepting = some t
  destination
    : t < nSockets → (k.sockets t).state ≠ .free → pc.establishing ≠ some t
        → socket.tcon.dstAddr = (k.sockets t).tcon.dstAddr
          ∧ socket.tcon.dstPort = (k.sockets t).tcon.dstPort

theorem PcMove.requestsKept (move : PcMove env k pid pc next k' log) (other : pc ≠ .acceptDequeue t)
    : RequestsKept k pc t (k'.sockets t) := by
  have same : RequestsKept k pc t (k.sockets t) := ⟨rfl, Or.inl, fun _ _ _ => ⟨rfl, rfl⟩⟩
  -- the steps that change neither the queue nor the connection
  have keep {sockets : Nat → Socket} {r : Nat} {socket : Socket}
      (old : RequestsKept k pc t (sockets t)) (queue : socket.waitqueue = (sockets r).waitqueue)
      (addr : socket.tcon.dstAddr = (sockets r).tcon.dstAddr)
      (port : socket.tcon.dstPort = (sockets r).tcon.dstPort)
      (state : socket.tcon.state = .listen
        → (sockets r).tcon.state = .listen ∨ pc.accepting = some r)
      : RequestsKept k pc t (update sockets r socket t) := by
    refine update_socket old ?_
    rintro rfl before
    refine ⟨queue.trans before.1, fun listens => ?_, ?_⟩
    · exact (state listens).elim before.2 Or.inr
    · rw [addr, port]
      exact before.3
  cases move with
  | takeRequest s =>
    have elsewhere : t ≠ s := fun here => other (by rw [here])
    simpa [Kernel.takeRequest, answerRequest, startNumbering,
      setTcon_sockets, update_of_ne elsewhere] using same
  | connectSyn =>
    refine keep (update_socket same ?_) rfl rfl rfl Or.inl
    rintro rfl before
    exact ⟨before.1, before.2, fun _ _ elsewhere => absurd rfl elsewhere⟩
  | write s call call' k' log move =>
    cases move with
    | send => exact keep same rfl rfl rfl Or.inl
    | _ => exact same
  | mark w =>
    cases w with
    | synAck | handshakeAck => exact keep same rfl rfl rfl (by rintro ⟨⟩)
    | _ => exact keep same rfl rfl rfl Or.inl
  | connected => exact keep (keep same rfl rfl rfl Or.inl) rfl rfl rfl (by rintro ⟨⟩)
  | accepted s new f fd freeSock =>
    have listening : RequestsKept k (.wait .handshakeAck s) t
        (((k.wake pid).setTcpState s .listen).sockets t) :=
      keep same rfl rfl rfl fun _ => Or.inr rfl
    refine update_socket (keep listening rfl rfl rfl Or.inl) ?_
    rintro rfl before
    exact ⟨before.1, by rintro ⟨⟩, fun _ live _ => absurd (freeSocket_spec freeSock).2 live⟩
  | acceptFailed =>
    refine update_socket (keep same rfl rfl rfl fun _ => Or.inr rfl) ?_
    rintro rfl before
    exact ⟨before.1, by rintro ⟨⟩, fun inside => absurd inside (lt_irrefl _)⟩
  | bindUpdate s addr port | readCopy s size bytes | wokenForData s size =>
    exact keep same rfl rfl rfl Or.inl
  | _ => exact same

/-- The first step of a call leaves a socket that another process has open, unless it is `listen` or
`connect` on it.
-/
theorem CallMove.sockets_of_held {other : Nat} (move : CallMove env k pid c next k')
    (inv : FilesInv k) (row : pid < nProc) (row' : other < nProc) (differs : other ≠ pid)
    (holds : k.Holds other t)
    (free : ∀ sockfd, k.socketAt pid sockfd = some t
      → c ≠ .listen sockfd ∧ ∀ dstAddr dstPort, c ≠ .connect sockfd dstAddr dstPort)
    : k'.sockets t = k.sockets t := by
  cases move with
  | socket s f fd freeSock =>
    refine update_of_ne ?_ _ _
    rintro rfl
    exact (inv.holds holds).2 (freeSocket_spec freeSock).2
  | listen sockfd s named =>
    refine update_of_ne ?_ _ _
    rintro rfl
    exact (free sockfd named).1 rfl
  | connect sockfd dstAddr dstPort s i named =>
    refine update_of_ne ?_ _ _
    rintro rfl
    exact (free sockfd named).2 dstAddr dstPort rfl
  | close fd f k' inside named closed =>
    refine (holds.close inv row ?_ named closed row' differs).2
    simp only [noFile] at *
    omega
  | fork child =>
    obtain ⟨files, procs, same⟩ := k.forked_frame pid child
    rw [same]
  | _ => rfl

/-- Apart from `listen`, no call lets a socket listen or changes the queue of one that does. -/
theorem CallMove.listening (move : CallMove env k pid c next k')
    (other : ∀ sockfd, c ≠ .listen sockfd) (listens : (k'.sockets t).tcon.state = .listen)
    : (k.sockets t).tcon.state = .listen ∧ (k'.sockets t).waitqueue = (k.sockets t).waitqueue := by
  let Kept (socket : Socket) : Prop :=
    socket.tcon.state = .listen
      → (k.sockets t).tcon.state = .listen ∧ socket.waitqueue = (k.sockets t).waitqueue
  have same : Kept (k.sockets t) := fun listens => ⟨listens, rfl⟩
  suffices Kept (k'.sockets t) from this listens
  cases move with
  | socket s f fd freeSock freeFd freeDesc | connect sockfd dstAddr dstPort s i named free =>
    exact update_socket same fun _ old => old
  | listen sockfd => exact absurd rfl (other sockfd)
  | close fd f k' inside named closed =>
    cases closed with
    | lastSocket => exact update_socket same fun _ _ => nofun
    | _ => exact same
  | fork child =>
    obtain ⟨files, procs, frame⟩ := k.forked_frame pid child
    rw [frame]
    exact same
  | _ => exact same

variable {current : Sys × RequestLog}

theorem Queued.kept {requests : Nat → TcpRequest} {socket other : Socket} {a : Arrivals}
    (queued : Queued requests socket a) (same : other.waitqueue = socket.waitqueue)
    : Queued requests other a :=
  ⟨same ▸ queued.valid, same ▸ queued.items, queued.counted, queued.stored⟩

theorem Queued.answer {requests : Nat → TcpRequest} {socket other : Socket} {a : Arrivals}
    {syn : QueuedSyn} {rest : List QueuedSyn} (queued : Queued requests socket a)
    (waiting : a.waiting = syn :: rest) (valid : other.waitqueue.Valid)
    (shorter : other.waitqueue.items = rest.map QueuedSyn.ptr)
    : Queued requests other { a with answered := a.answered + 1 } := by
  have left : Arrivals.waiting { a with answered := a.answered + 1 } = rest := by
    rw [← show (syn :: rest).tail = rest from rfl, ← waiting]
    exact List.tail_drop.symm
  refine ⟨valid, by rw [left, shorter], ?_, fun later listed => ?_⟩
  · have some_ := congrArg List.length waiting
    rw [Arrivals.waiting, List.length_drop, List.length_cons] at some_
    simp only
    omega
  · rw [left] at listed
    exact queued.stored later (waiting ▸ List.mem_cons_of_mem syn listed)

/-- The entries of the SYNs that wait are as they were, and the one of the new SYN holds its client.
-/
theorem Queued.arrive {requests requests' : Nat → TcpRequest} {socket other : Socket}
    {a : Arrivals} {i : Nat} {client : UInt32 × UInt16} (queued : Queued requests socket a)
    (room : isQueueFull socket.waitqueue = false)
    (queue : other.waitqueue = enqueue socket.waitqueue (requestPtr i))
    (kept : ∀ syn ∈ a.waiting, ∃ j, syn.ptr = requestPtr j ∧ (requests' j).client = syn.client)
    (new : (requests' i).client = client)
    : Queued requests' other { a with syns := a.syns ++ [⟨requestPtr i, client⟩] } := by
  have more : Arrivals.waiting { a with syns := a.syns ++ [⟨requestPtr i, client⟩] }
      = a.waiting ++ [⟨requestPtr i, client⟩] := List.drop_append_of_le_length queued.counted
  refine ⟨by rw [queue]; exact queued.valid.enqueue_valid _, ?_, ?_, ?_⟩
  · rw [queue, queued.valid.items_enqueue _ room, queued.items, more, List.map_append]
    rfl
  · rw [List.length_append]
    exact Nat.le_add_right_of_le queued.counted
  · rw [more]
    simp only [List.mem_append, List.mem_singleton]
    rintro syn (listed | rfl)
    · exact kept syn listed
    · exact ⟨i, rfl, new⟩

theorem requestAt_requestPtr (i : Nat) : requestAt env k (requestPtr i) = k.requests i := by
  simp [requestAt, requestPtr]

/-- The SYN that `accept` is about to take is the first of those that wait, and `accept` finds its
client.
-/
theorem AcceptInv.front (inv : AcceptInv current) (here : current.1.pc pid = .acceptDequeue s)
    : ∃ syn rest, (current.2.arrivals s).waiting = syn :: rest
      ∧ (dequeue (current.1.kernel.sockets s).waitqueue).1 = syn.ptr
      ∧ (dequeue (current.1.kernel.sockets s).waitqueue).2.items = rest.map QueuedSyn.ptr
      ∧ (dequeue (current.1.kernel.sockets s).waitqueue).2.Valid
      ∧ ∀ env, (requestAt env current.1.kernel syn.ptr).client = syn.client := by
  have accepting : (current.1.pc pid).accepting = some s := by rw [here]; rfl
  obtain ⟨-, valid, items, -, stored⟩ := inv.queued s (Or.inr ⟨pid, accepting⟩)
  have stage := inv.stage pid s accepting
  rw [here] at stage
  obtain ⟨syn, rest, waiting⟩ := List.exists_cons_of_ne_nil stage
  rw [waiting, List.map_cons] at items
  obtain ⟨first_, shorter, valid'⟩ := valid.items_dequeue items
  obtain ⟨i, entry, client⟩ := stored syn (waiting ▸ List.mem_cons_self)
  refine ⟨syn, rest, waiting, first_, shorter, valid', fun env => ?_⟩
  rw [entry, requestAt_requestPtr, client]

/-- What a step leaves alone for another process that is inside `accept`. -/
structure LeavesRequests (current : Sys × RequestLog) (k' : Kernel) (after : RequestLog)
    (other s : Nat)
    : Prop where
  waitqueue : (k'.sockets s).waitqueue = (current.1.kernel.sockets s).waitqueue
  dstAddr : (k'.sockets s).tcon.dstAddr = (current.1.kernel.sockets s).tcon.dstAddr
  dstPort : (k'.sockets s).tcon.dstPort = (current.1.kernel.sockets s).tcon.dstPort
  procs : k'.procs other = current.1.kernel.procs other
  arrivals : after.arrivals s = current.2.arrivals s
  taken : after.taken other = current.2.taken other

/-- A step of a process keeps the invariant if it leaves the others and does not start on their
sockets.
-/
theorem AcceptInv.after {after : RequestLog} (inv : AcceptInv current)
    (held : HeldInv (current.1.after pid k' next))
    (requests : k'.requests = current.1.kernel.requests)
    (unused
      : ∀ t, next.pc.establishing = some t
          → ∀ other, other ≠ pid → (current.1.pc other).establishing ≠ some t)
    (others
      : ∀ other s, other ≠ pid → (current.1.pc other).accepting = some s
          → LeavesRequests current k' after other s)
    (queued
      : ∀ s, (k'.sockets s).tcon.state = .listen ∨ next.pc.accepting = some s
          → s < nSockets
            ∧ Queued current.1.kernel.requests (k'.sockets s) (after.arrivals s))
    (own
      : ∀ s, next.pc.accepting = some s
          → AcceptStage (k'.procs pid) (k'.sockets s) (after.arrivals s).waiting
              (after.taken pid) next.pc)
    : AcceptInv (current.1.after pid k' next, after) := by
  refine ⟨held, Sys.apart_after inv.apart unused, ?_, ?_⟩
  · intro s reason
    simp only [Sys.after_pc, Sys.after_kernel, requests] at reason ⊢
    rcases reason with listens | ⟨other, accepting⟩
    · exact queued s (Or.inl listens)
    · by_cases same : other = pid
      · subst same
        rw [update_self] at accepting
        exact queued s (Or.inr accepting)
      · rw [update_of_ne same] at accepting
        have left := others other s same accepting
        rw [left.arrivals]
        exact (inv.queued s (Or.inr ⟨other, accepting⟩)).imp_right (·.kept left.waitqueue)
  · intro other s accepting
    simp only [Sys.after_pc, Sys.after_kernel] at accepting ⊢
    by_cases same : other = pid
    · subst same
      rw [update_self] at accepting ⊢
      exact own s accepting
    · rw [update_of_ne same] at accepting ⊢
      have left := others other s same accepting
      rw [left.arrivals, left.taken, left.procs]
      exact (inv.stage other s accepting).kept left.dstAddr left.dstPort id
        fun _ _ asleep awake => absurd asleep awake

theorem AcceptInv.call (inv : AcceptInv current)
    (undisturbed : AcceptUndisturbed current.1 (.call pid c env))
    (runnable : current.1.Runnable pid) (held : HeldInv (current.1.after pid k' next))
    (move : CallMove env current.1.kernel pid c next k')
    (taken : current.1.step (.call pid c env) = some (current.1.after pid k' next))
    : AcceptInv
        (current.1.after pid k' next, noteRequests current.1 (.call pid c env) current.2) := by
  -- what another process has under way is not touched by the call
  have others (after : RequestLog) (kept : after.taken = current.2.taken)
      (arrivals : ∀ other s, (current.1.pc other).accepting = some s
        → after.arrivals s = current.2.arrivals s) (other s : Nat) (differs : other ≠ pid)
      (accepting : (current.1.pc other).accepting = some s)
      : LeavesRequests current k' after other s := by
    have establishing := Pc.establishing_of_accepting accepting
    obtain ⟨row, alive, holds⟩ :=
      inv.held.held other s (Pc.socket_of_establishing establishing)
    have sockets : k'.sockets s = current.1.kernel.sockets s := by
      refine move.sockets_of_held inv.held.files runnable.1 row differs holds ?_
      intro sockfd named
      constructor
      · rintro rfl
        exact undisturbed s named other establishing
      · rintro dstAddr dstPort rfl
        exact undisturbed s named other establishing
    exact ⟨by rw [sockets], by rw [sockets], by rw [sockets],
      move.procs_of_ne inv.held.files alive differs, arrivals other s accepting, by rw [kept]⟩
  -- every call but `listen` leaves the queues and the history alone
  have plain (note : noteRequests current.1 (.call pid c env) current.2 = current.2)
      (other : ∀ sockfd, c ≠ .listen sockfd)
      (unused : ∀ t, next.pc.establishing = some t
        → ∀ other, other ≠ pid → (current.1.pc other).establishing ≠ some t)
      (entered : ∀ s, next.pc.accepting = some s
        → (k'.sockets s).tcon.state = .listen ∧ next.pc = .acceptTest s)
      : AcceptInv
          (current.1.after pid k' next, noteRequests current.1 (.call pid c env) current.2) := by
    rw [note]
    refine inv.after held move.requests unused (others current.2 rfl fun _ _ _ => rfl) ?_ ?_
    · intro s reason
      have listens : (k'.sockets s).tcon.state = .listen :=
        reason.elim id fun accepting => (entered s accepting).1
      obtain ⟨before, same⟩ := move.listening other listens
      exact (inv.queued s (Or.inl before)).imp_right (·.kept same)
    · intro s accepting
      rw [(entered s accepting).2]
      trivial
  cases move with
  | refused c =>
    have note : noteRequests current.1 (.call pid c env) current.2 = current.2 := by
      cases c with
      | listen sockfd =>
        simp only [noteRequests, taken]
        cases current.1.kernel.socketAt pid sockfd <;> simp [Sys.after]
      | _ => rfl
    rw [note]
    exact inv.after held rfl (by rintro _ ⟨⟩) (others current.2 rfl fun _ _ _ => rfl)
      (fun s reason => inv.queued s (Or.inl (reason.resolve_right (by rintro ⟨⟩))))
      (by rintro _ ⟨⟩)
  | listen sockfd s named =>
    simp only [noteRequests, taken, named]
    rw [if_pos (by simp [Sys.after])]
    refine inv.after held rfl ?_ (others _ rfl fun other t accepting => ?_) ?_ ?_
    · rintro _ ⟨⟩
    · refine update_of_ne ?_ _ _
      rintro rfl
      exact undisturbed t named other (Pc.establishing_of_accepting accepting)
    · intro t reason
      by_cases same : t = s
      · subst same
        refine ⟨(inv.held.files.holds (Kernel.holds_of_socketAt named)).1, ?_⟩
        simp only [update_self]
        exact ⟨by simpa [startListening] using initQueue_valid _, by
          simp [startListening, Arrivals.waiting], le_rfl, by simp [Arrivals.waiting]⟩
      · have listens := reason.resolve_right (by rintro ⟨⟩)
        simp only [startListening, setSocket_sockets, update_of_ne same] at listens ⊢
        exact inv.queued t (Or.inl listens)
    · rintro _ ⟨⟩
  | accept sockfd s named listening =>
    refine plain rfl (by rintro _ ⟨⟩) ?_ ?_
    · rintro t ⟨⟩ other -
      exact undisturbed s named other
    · rintro t ⟨⟩
      exact ⟨listening, rfl⟩
  | connect sockfd dstAddr dstPort s i named =>
    refine plain rfl (by rintro _ ⟨⟩) ?_ (by rintro _ ⟨⟩)
    rintro t ⟨⟩ other -
    exact undisturbed s named other
  | _ => refine plain rfl ?_ ?_ ?_ <;> rintro _ ⟨⟩

/-- A process stays inside `accept` or `connect` on the socket that it has started with. -/
theorem PcMove.establishing (move : PcMove env k pid pc next k' log)
    (goesOn : next.pc.establishing = some t)
    : pc.establishing = some t := by
  cases move with
  | write => split at goesOn <;> cases goesOn
  | mark w r | sleep w r => cases w <;> exact goesOn
  | _ => first | exact goesOn | cases goesOn

theorem PcMove.accepting (move : PcMove env k pid pc next k' log)
    (goesOn : next.pc.accepting = some t)
    : pc.accepting = some t := by
  cases move with
  | write => split at goesOn <;> cases goesOn
  | mark w r | sleep w r => cases w <;> exact goesOn
  | _ => first | exact goesOn | cases goesOn

theorem AcceptInv.resume (inv : AcceptInv current) (runnable : current.1.Runnable pid)
    (held : HeldInv (current.1.after pid k' next))
    (move : PcMove env current.1.kernel pid (current.1.pc pid) next k' log)
    : AcceptInv
        (current.1.after pid k' next, noteRequests current.1 (.resume pid env) current.2) := by
  -- nobody else is at the socket of another process that is inside `accept`
  have apart (other s : Nat) (differs : other ≠ pid)
      (accepting : (current.1.pc other).accepting = some s)
      : (current.1.pc pid).establishing ≠ some s := fun own =>
    differs (inv.apart other pid s (Pc.establishing_of_accepting accepting) own)
  have others (after : RequestLog) (other s : Nat) (differs : other ≠ pid)
      (accepting : (current.1.pc other).accepting = some s)
      (arrivals : after.arrivals s = current.2.arrivals s)
      (taken : after.taken other = current.2.taken other)
      : LeavesRequests current k' after other s := by
    have uses := Pc.socket_of_establishing (Pc.establishing_of_accepting accepting)
    obtain ⟨inside, live⟩ := inv.held.live uses
    have elsewhere := apart other s differs accepting
    have kept := move.requestsKept (t := s) fun here => elsewhere (by rw [here]; rfl)
    obtain ⟨dstAddr, dstPort⟩ := kept.destination inside live elsewhere
    exact ⟨kept.waitqueue, dstAddr, dstPort, move.procs_of_ne differs, arrivals, taken⟩
  have unused (t : Nat) (goesOn : next.pc.establishing = some t) (other : Nat)
      (differs : other ≠ pid) : (current.1.pc other).establishing ≠ some t := fun uses =>
    differs (inv.apart other pid t uses (move.establishing goesOn))
  by_cases takes : ∃ s, current.1.pc pid = .acceptDequeue s
  · obtain ⟨s, here⟩ := takes
    obtain ⟨syn, rest, waiting, first_, shorter, valid', found⟩ := inv.front here
    have requests := move.requests
    simp only [noteRequests, here]
    rw [here] at move
    cases move
    refine inv.after held requests unused (fun other t differs accepts =>
      others _ other t differs accepts (update_of_ne ?_ _ _)
        (update_of_ne differs _ _)) ?_ ?_
    · rintro rfl
      exact apart other t differs accepts (by rw [here]; rfl)
    · intro t reason
      by_cases same : t = s
      · subst same
        have accepting : (current.1.pc pid).accepting = some t := by rw [here]; rfl
        obtain ⟨inside, queued⟩ := inv.queued t (Or.inr ⟨pid, accepting⟩)
        simp only [update_self]
        refine ⟨inside, queued.answer waiting ?_ ?_⟩ <;>
          simpa [Kernel.takeRequest, answerRequest, startNumbering, setTcon_sockets]
      · have listens := reason.resolve_right fun goesOn => same (Option.some.inj goesOn).symm
        simp only [Kernel.takeRequest, answerRequest, startNumbering,
          setTcon_sockets, setSocket_sockets, update_of_ne same]
          at listens ⊢
        exact inv.queued t (Or.inl listens)
    · rintro t ⟨⟩
      have client := found env
      simp only [TcpRequest.client] at client
      simp [Next.pc, AcceptStage, Kernel.takeRequest, answerRequest, startNumbering,
        setTcon_sockets, first_, waiting, client]
  · have note : noteRequests current.1 (.resume pid env) current.2 = current.2 := by
      simp only [noteRequests]
      split
      · rename_i s here
        exact absurd ⟨s, here⟩ takes
      · rfl
    rw [note]
    refine inv.after held move.requests unused (fun other s differs accepting =>
      others _ other s differs accepting rfl rfl) ?_ ?_
    · intro t reason
      have kept := move.requestsKept (t := t) fun here => takes ⟨t, here⟩
      refine (inv.queued t ?_).imp_right (·.kept kept.waitqueue)
      rcases reason with now | accepting
      · exact (kept.listening now).imp_right fun accepting => ⟨pid, accepting⟩
      · exact Or.inr ⟨pid, move.accepting accepting⟩
    · intro t accepting
      have before := move.accepting accepting
      have stage := inv.stage pid t before
      obtain ⟨-, valid, items, -, -⟩ := inv.queued t (Or.inr ⟨pid, before⟩)
      generalize current.1.pc pid = pc at move stage takes
      cases move with
      | takeRequest s => exact absurd ⟨s, rfl⟩ takes
      | hasRequest s ready =>
        cases accepting
        intro none_
        rw [none_, List.map_nil] at items
        rw [valid.empty_iff.mpr items] at ready
        cases ready
      | wokenForRequest => exact stage (by simp [runnable.2])
      | mark w =>
        cases w with
        | handshakeAck =>
          cases accepting
          simpa [Next.pc, AcceptStage, Wait.mark] using stage
        | _ => trivial
      | sleep w =>
        cases w with
        | handshakeAck => exact stage
        | request => exact fun awake => absurd (by simp [fallAsleep]) awake
        | _ => trivial
      | noRequest => trivial
      | write => split at accepting <;> cases accepting
      | _ => cases accepting

theorem AcceptInv.kill (inv : AcceptInv current)
    (undisturbed : AcceptUndisturbed current.1 (.kill pid))
    (held : HeldInv { current.1 with kernel := current.1.kernel.kill pid })
    : AcceptInv ({ current.1 with kernel := current.1.kernel.kill pid }, current.2) where
  held := held
  apart := inv.apart
  queued := inv.queued
  stage other s accepting := by
    refine (inv.stage other s accepting).kept rfl rfl id fun t here asleep awake => ?_
    have differs : other ≠ pid := by
      rintro rfl
      exact undisturbed t here asleep
    exact absurd asleep (by simpa [Kernel.kill, update_of_ne differs] using awake)

/-- A request is appended to the queue of its socket; no other segment changes a queue. -/
theorem receive_waitqueue (k : Kernel) (mem : Int → UInt8) (seg size : Int) (srcIp : UInt32)
    (s : Nat)
    : (disposition k mem seg size srcIp = .request s
        ∧ ((k.receive mem seg size srcIp).sockets s).waitqueue
          = enqueue (k.sockets s).waitqueue (requestPtr (requestIndex k.requests)))
      ∨ (disposition k mem seg size srcIp ≠ .request s
        ∧ ((k.receive mem seg size srcIp).sockets s).waitqueue = (k.sockets s).waitqueue) := by
  rw [receive_sockets]
  cases disposition k mem seg size srcIp with
  | request psoc =>
    by_cases same : psoc = s
    · subst same
      exact Or.inl ⟨rfl, by simp [Disposition.target, Disposition.onSocket]⟩
    · refine Or.inr ⟨by simpa using same, ?_⟩
      simp [Disposition.target, same]
  | _ => exact Or.inr ⟨by simp, by split <;> rfl⟩

/-- Only a request changes an entry of `requests`. -/
theorem receive_requests (k : Kernel) (mem : Int → UInt8) (seg size : Int) (srcIp : UInt32)
    : (∀ psoc, disposition k mem seg size srcIp = .request psoc
        → (k.receive mem seg size srcIp).requests
          = update k.requests (requestIndex k.requests)
              { clientIp := srcIp
                requestPacket := overlay (k.requests (requestIndex k.requests)).requestPacket 0
                  (slice mem seg (moveCount size)) })
      ∧ ((∀ psoc, disposition k mem seg size srcIp ≠ .request psoc)
        → (k.receive mem seg size srcIp).requests = k.requests) := by
  unfold Kernel.receive
  cases disposition k mem seg size srcIp with
  | request psoc =>
    refine ⟨fun _ _ => ?_, fun other => absurd rfl (other psoc)⟩
    simp only [Kernel.effect, Kernel.queueRequest]
    split <;> rfl
  | inOrder =>
    refine ⟨by simp, fun _ => ?_⟩
    simp only [Kernel.effect, Kernel.appendData]
    split <;> rfl
  | _ => exact ⟨by simp, fun _ => by simp [Kernel.effect]⟩

theorem srcPortOf_stored {mem packet : Int → UInt8} {seg : Int} {n : Nat} (long : 2 ≤ n)
    : srcPortOf (overlay packet 0 (slice mem seg n)) 0 = srcPortOf mem seg := by
  have same := slice_overlay packet 0 (slice mem seg n)
  rw [length_slice] at same
  have port := load16_of_slice_eq same 0 (by omega)
  simp only [Nat.cast_zero, add_zero] at port
  rw [srcPortOf, srcPortOf, port]

theorem AcceptInv.receive {seg size : Int} {srcIp : UInt32} (inv : AcceptInv current)
    (undisturbed : AcceptUndisturbed current.1 (.receive env seg size srcIp))
    (held
      : HeldInv
          { current.1 with kernel := current.1.kernel.receive env.frame seg size srcIp })
    : AcceptInv
        ({ current.1 with kernel := current.1.kernel.receive env.frame seg size srcIp },
          noteRequests current.1 (.receive env seg size srcIp) current.2) := by
  have endpoint := receive_endpoint current.1.kernel env.frame seg size srcIp
  have queue := receive_waitqueue current.1.kernel env.frame seg size srcIp
  have justified := disposition_justified current.1.kernel env.frame seg size srcIp
  obtain ⟨undisturbed, safe⟩ := undisturbed
  generalize after : noteRequests current.1 (.receive env seg size srcIp) current.2 = log'
  have taken : log'.taken = current.2.taken := by
    rw [← after, noteRequests]
    split <;> rfl
  have arrivals (s : Nat)
      : (disposition current.1.kernel env.frame seg size srcIp = .request s
          → log'.arrivals s = { current.2.arrivals s with
              syns := (current.2.arrivals s).syns
                ++ [⟨requestPtr (requestIndex current.1.kernel.requests), srcIp,
                    srcPortOf env.frame seg⟩] })
        ∧ (disposition current.1.kernel env.frame seg size srcIp ≠ .request s
          → log'.arrivals s = current.2.arrivals s) := by
    rw [← after, noteRequests]
    split
    · rename_i psoc request
      rw [request]
      by_cases same : psoc = s
      · subst same
        simp
      · simp [same, update_of_ne (Ne.symm same)]
    · rename_i other
      exact ⟨fun request => absurd request (other s), fun _ => rfl⟩
  -- a SYN is not stored over one that waits
  have entries (s : Nat) (inside : s < nSockets) (queued : Queued current.1.kernel.requests
      (current.1.kernel.sockets s) (current.2.arrivals s)) (syn : QueuedSyn)
      (listed : syn ∈ (current.2.arrivals s).waiting)
      : ∃ j, syn.ptr = requestPtr j
          ∧ ((current.1.kernel.receive env.frame seg size srcIp).requests j).client
            = syn.client := by
    obtain ⟨j, entry, client⟩ := queued.stored syn listed
    refine ⟨j, entry, ?_⟩
    by_cases request : ∃ psoc, disposition current.1.kernel env.frame seg size srcIp = .request psoc
    · obtain ⟨psoc, request⟩ := request
      rw [(receive_requests current.1.kernel env.frame seg size srcIp).1 psoc request,
        update_of_ne, client]
      rintro rfl
      refine (safe psoc request).2 s inside ?_
      rw [queued.items, ← entry]
      exact List.mem_map_of_mem listed
    · push Not at request
      rw [(receive_requests current.1.kernel env.frame seg size srcIp).2 request, client]
  have grown (s : Nat)
      (request : disposition current.1.kernel env.frame seg size srcIp = .request s)
      : (log'.arrivals s).waiting ≠ [] := by
    rw [request] at justified
    have counted := (inv.queued s (Or.inl justified.2.1)).2.counted
    rw [(arrivals s).1 request, Arrivals.waiting, List.drop_append_of_le_length counted]
    simp
  refine ⟨held, inv.apart, ?_, ?_⟩
  · intro s reason
    rw [(endpoint s).tcpState] at reason
    obtain ⟨inside, queued⟩ := inv.queued s reason
    refine ⟨inside, ?_⟩
    have kept := fun syn listed => entries s inside queued syn listed
    rcases queue s with ⟨request, queue⟩ | ⟨other, queue⟩
    · rw [request] at justified
      rw [(arrivals s).1 request]
      refine queued.arrive justified.2.2.2 queue kept ?_
      rw [(receive_requests current.1.kernel env.frame seg size srcIp).1 s request, update_self,
        TcpRequest.client, srcPortOf_stored (by have := (safe s request).1; omega)]
    · rw [(arrivals s).2 other]
      exact ⟨queue ▸ queued.valid, queue ▸ queued.items, queued.counted, kept⟩
  · intro pid s accepting
    rw [taken]
    refine (inv.stage pid s accepting).kept (endpoint s).dstAddr (endpoint s).dstPort ?_ ?_
    · intro some_
      rcases queue s with ⟨request, -⟩ | ⟨other, -⟩
      · exact grown s request
      · rw [(arrivals s).2 other]
        exact some_
    · intro t here asleep awake
      obtain rfl : t = s := by
        rw [here] at accepting
        exact Option.some.inj accepting
      rcases receive_procs current.1.kernel env.frame seg size srcIp with
        ⟨wakes, woken⟩ | ⟨-, same⟩
      · have chan : (current.1.kernel.procs pid).chan
            = some (.port (dstPortOf env.frame seg).toNat) := by
          by_contra elsewhere
          refine awake ?_
          simp [woken, Kernel.wakeup, elsewhere, asleep]
        exact grown t (undisturbed pid t here asleep chan wakes)
      · simp only [same] at awake
        exact absurd asleep awake

theorem AcceptInv.step {after : Sys × RequestLog} (inv : AcceptInv current)
    (undisturbed : AcceptUndisturbed current.1 action)
    (taken : stepRequests current action = some after)
    : AcceptInv after := by
  obtain ⟨stepped, noted⟩ := withHistory_eq_some taken
  obtain ⟨log, -, move⟩ := Sys.step_move inv.held.files.tidy stepped
  obtain ⟨sys, history⟩ := after
  simp only at noted move stepped
  subst noted
  have held := inv.held.step move
  cases move with
  | call pid c env next k' idle runnable move =>
    exact inv.call undisturbed runnable held move stepped
  | resume pid env pc next k' log located runnable move =>
    subst located
    exact inv.resume runnable held move
  | kill => exact inv.kill undisturbed held
  | receive => exact inv.receive undisturbed held

theorem dstPortOf_slice (mem : Int → UInt8) {n : Nat} (long : 4 ≤ n)
    : dstPortOf (memoryOf (slice mem 0 n)) 0 = dstPortOf mem 0 := by
  have same := slice_memoryOf (slice mem 0 n)
  rw [length_slice] at same
  have port := load16_of_slice_eq same 2 (by omega)
  rw [dstPortOf, dstPortOf]
  exact congrArg htons port

/-- What waits at the socket is in its queue, and the SYN-ACK goes to where the request came from.
-/
theorem AcceptInv.acceptsRequests (inv : AcceptInv current) (action : SysAction)
    : AcceptsRequests current action := by
  cases action with
  | resume pid env =>
    intro runnable
    cases here : current.1.pc pid with
    | acceptDequeue =>
      obtain ⟨syn, rest, waiting, first_, -, -, found⟩ := inv.front here
      have oldest := congrArg List.head? waiting
      rw [Arrivals.waiting, List.head?_drop] at oldest
      refine ⟨syn, oldest, first_, ?_⟩
      intro next log protocol payload src dst size acted sent
      have move := Sys.act_move inv.held.files.tidy acted
      cases move with
      | resume pid env pc next k' log located runnable move =>
        rw [here] at located
        subst located
        cases move
        simp only [openingEvent, List.mem_singleton, Event.ipSend.injEq] at sent
        obtain ⟨-, rfl, -, rfl, -⟩ := sent
        rw [dstPortOf_slice _ (by decide), dstPortOf_tcpPack, ← found env, TcpRequest.client]
        simp [Kernel.takeRequest, first_]
    | wait w s =>
      cases w with
      | handshakeAck =>
        have stage := inv.stage pid s (by rw [here]; rfl)
        rwa [here] at stage
      | _ => trivial
    | _ => trivial
  | _ => trivial

theorem bootRequests_inv (myip netmask gateway : UInt32)
    : AcceptInv (bootRequests myip netmask gateway) := by
  refine ⟨boot_held myip netmask gateway, nofun, ?_, nofun⟩
  rintro s (listens | ⟨pid, impossible⟩)
  · cases listens
  · cases impossible

set_option maxRecDepth 20000

/-- A process calls `accept` on its descriptor 0 and sleeps until a request arrives. -/
def sleepsInAccept (pid : Nat) : List SysAction :=
  [.call pid (.accept 0) blankEnv, .resume pid blankEnv, .resume pid blankEnv,
    .resume pid blankEnv]

theorem not_acceptsRequests {start current : Sys × RequestLog} {run : List SysAction}
    (reached : exec stepRequests start run = some current) (runnable : current.1.Runnable pid)
    (here : current.1.pc pid = .acceptDequeue s) 
    (none_ : (current.2.arrivals s).syns[(current.2.arrivals s).answered]? = none)
    : ¬ Along stepRequests AcceptsRequests start (run ++ [.resume pid env]) := by
  intro ok
  have takes := ok.reached reached runnable
  rw [here] at takes
  obtain ⟨syn, oldest, -⟩ := takes
  rw [none_] at oldest
  cases oldest

/-- A client at 192.168.2.4 sends its SYN to port 80. -/
def secondSyn : SysAction :=
  .receive
    { blankEnv with
      frame := tcpPack (fun _ => 0) 0xc0a80204 1024 80 0xc0a80202 initialSeq 0 tcpFlagSyn 24
        tcpMssOption }
    0 28 0xc0a80204

/-- The first process is the only one inside a call. -/
structure FirstOnly (current : Sys × RequestLog) : Prop where
  held : HeldInv current.1
  others : ∀ pid, pid ≠ 0 → current.1.pc pid = .user

/-- The first process acts, a segment that finds it asleep in `accept` is a request, and no segment
is stored over a request that waits.
-/
def FirstActs (sys : Sys) : SysAction → Bool
  | .call pid _ _ => pid = 0 ∧ (sys.pc 0).establishing = none
  | .resume pid _ => pid = 0
  | .kill _ => false
  | .receive env seg size srcIp =>
    decide (20 ≤ moveCount size ∧ ∀ t < nSockets,
        requestPtr (requestIndex sys.kernel.requests) ∉ (sys.kernel.sockets t).waitqueue.items)
      && match sys.pc 0 with
        | .wait .request s => disposition sys.kernel env.frame seg size srcIp = .request s
        | _ => true

theorem FirstOnly.step {after : Sys × RequestLog} (inv : FirstOnly current)
    (acts : FirstActs current.1 action = true) (taken : stepRequests current action = some after)
    : FirstOnly after := by
  obtain ⟨log, -, move⟩ :=
    Sys.step_move inv.held.files.tidy (withHistory_eq_some taken).1
  refine ⟨inv.held.step move, fun other differs => ?_⟩
  generalize after.1 = sys at move
  cases move with
  | call pid =>
    have first_ : pid = 0 := by simp_all [FirstActs]
    rw [Sys.after_pc, first_, update_of_ne differs]
    exact inv.others other differs
  | resume pid =>
    have first_ : pid = 0 := by simpa [FirstActs] using acts
    rw [Sys.after_pc, first_, update_of_ne differs]
    exact inv.others other differs
  | _ => exact inv.others other differs

theorem FirstOnly.undisturbed (inv : FirstOnly current) (acts : FirstActs current.1 action = true)
    : AcceptUndisturbed current.1 action := by
  have idle (none_ : (current.1.pc 0).establishing = none) (s other : Nat)
      : (current.1.pc other).establishing ≠ some s := by
    by_cases first_ : other = 0
    · rw [first_, none_]
      exact nofun
    · rw [inv.others other first_]
      exact nofun
  cases action with
  | call pid c =>
    have none_ : (current.1.pc 0).establishing = none := by simp_all [FirstActs]
    cases c <;> first | exact fun s _ => idle none_ s | trivial
  | resume => trivial
  | kill => cases acts
  | receive =>
    rw [FirstActs, Bool.and_eq_true, decide_eq_true_eq] at acts
    obtain ⟨stored, request⟩ := acts
    refine ⟨fun pid s here _ _ _ => ?_, fun _ _ => stored⟩
    by_cases first_ : pid = 0
    · rw [first_] at here
      simpa [here] using request
    · rw [inv.others pid first_] at here
      cases here

end Xv6Net
