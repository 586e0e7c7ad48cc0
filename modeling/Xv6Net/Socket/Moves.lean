import Xv6Net.Socket.Calls

/-! Everything that a step of the system can do, said once: the kernel that each step of a
socket call leaves is written down as an update of the tables, and later proofs go through
the moves, not through the code.
-/

namespace Xv6Net

open Library Memory Function Kernel

/-- A segment with the MSS option, as `tcp_send_syn` and `tcp_send_synack` send it. -/
def openingEvent (stale : Int → UInt8) (k : Kernel) (s : Nat) (ack : UInt32) (flags : UInt8)
    : Event :=
  let socket := k.sockets s
  .ipSend ipProtocolTcp
    (slice
      (tcpPack stale k.myip socket.port socket.tcon.dstPort socket.tcon.dstAddr initialSeq ack
        flags 24 tcpMssOption)
      0 28)
    k.myip socket.tcon.dstAddr 28

namespace Kernel

variable (k : Kernel)

/-- `bind` has registered the socket as the passive one of the port. -/
def bindPort (pid s : Nat) (addr : UInt32) (port : UInt16) : Kernel :=
  (k.setPort port.toNat fun entry =>
    { entry with pid := pid, passiveSocket := some s }).setSocket s fun socket =>
    { socket with addr, port, state := .bound }

/-- `listen` has emptied the queue of requests. -/
def startListening (s : Nat) : Kernel :=
  k.setSocket s fun socket =>
    { socket with
      waitqueue := initQueue socket.waitqueue
      tcon := { socket.tcon with state := .listen } }

/-- `connect` has registered the socket as the active one of the free port. -/
def takePort (pid s i : Nat) : Kernel :=
  (k.setPort i fun entry => { entry with pid := pid, activeSocket := some s }).setSocket s
    fun socket => { socket with addr := k.myip, port := UInt16.ofNat i, state := .bound }

def setDestination (s : Nat) (dstAddr : UInt32) (dstPort : UInt16) : Kernel :=
  k.setTcon s fun tcon => { tcon with dstAddr, dstPort }

/-- The connection numbers its segments from the one after `INITIAL_SEQ`. -/
def startNumbering (s : Nat) : Kernel :=
  k.setTcon s fun tcon => { tcon with baseSeq := initialSeq + 1, nextSeq := initialSeq + 1 }

/-- `connect` has taken over the numbers of the reply in the buffer. -/
def readReply (s : Nat) : Kernel :=
  k.setTcon s fun tcon =>
    let reply := (k.sockets s).buffer
    { tcon with
      ackReceived := ackNumOf reply 0
      seqReceived := seqNumOf reply 0
      baseSeq := ackNumOf reply 0
      nextSeq := ackNumOf reply 0 }

/-- The handshake of `connect` is complete. -/
def connected (s : Nat) : Kernel :=
  (k.readReply s).setTcon s fun tcon =>
    { tcon with
      ackSent := seqNumOf (k.sockets s).buffer 0 + 1
      window := initQueue tcon.window
      state := .established }

/-- `accept` has taken the request out of the queue and stored where it came from. -/
def takeRequest (env : Env) (s : Nat) : Kernel :=
  k.setSocket s fun socket =>
    let request := requestAt env k (dequeue (k.sockets s).waitqueue).1
    { socket with
      state := .bound
      waitqueue := (dequeue (k.sockets s).waitqueue).2
      tcon := { socket.tcon with
        dstAddr := request.clientIp
        dstPort := srcPortOf request.requestPacket 0
        seqReceived := seqNumOf request.requestPacket 0 } }

/-- `accept` has sent its SYN-ACK. -/
def answerRequest (s : Nat) : Kernel :=
  (k.setTcon s fun tcon => { tcon with ackSent := tcon.seqReceived + 1 }).startNumbering s

/-- The socket that `accept` hands the connection of its listener to. -/
def handOver (s new : Nat) : Kernel :=
  let listener := k.sockets s
  (k.setPort listener.port.toNat fun entry =>
    { entry with activeSocket := some new }).setSocket new fun socket =>
    { socket with
      addr := listener.addr
      port := listener.port
      state := .connected
      tcon := { socket.tcon with
        dstAddr := listener.tcon.dstAddr
        dstPort := listener.tcon.dstPort
        ackReceived := listener.tcon.ackReceived
        seqReceived := listener.tcon.seqReceived
        baseSeq := listener.tcon.ackReceived
        nextSeq := listener.tcon.ackReceived
        ackSent := listener.tcon.ackSent
        window := initQueue socket.tcon.window
        state := .established } }

def setTcpState (s : Nat) (state : TcpState) : Kernel :=
  k.setTcon s fun tcon => { tcon with state }

def fallAsleep (pid : Nat) (chan : Chan) : Kernel :=
  k.setProc pid fun p => { p with chan := some chan, state := .sleeping }

def wake (pid : Nat) : Kernel :=
  k.setProc pid fun p => { p with chan := none }

def advanceOffset (s : Nat) (size : Int) : Kernel :=
  k.setSocket s fun socket => { socket with offset := socket.offset + socket.readCount size }

end Kernel

/-- The listener of a process inside `accept`. -/
def Pc.accepting : Pc → Option Nat
  | .acceptTest s | .acceptDequeue s => some s
  | .mark .request s | .mark .handshakeAck s => some s
  | .sleep .request s | .sleep .handshakeAck s => some s
  | .wait .request s | .wait .handshakeAck s => some s
  | _ => none

/-- Everything that the first step of a call can do; it logs nothing. -/
inductive CallMove (env : Env) (k : Kernel) (pid : Nat) : Call → Next → Kernel → Prop where
  | refused (c : Call) : CallMove env k pid c (.returns (-1)) k
  | socket (s f fd : Nat) (freeSock : freeSocket k = some s) (freeFd : freeFile k = some f)
      (freeDesc : freeDescriptor (k.procs pid) = some fd)
      : CallMove env k pid .socket (.returns fd) (k.openSocket pid s f fd env.kalloc)
  | bind (sockfd : Int) (addr : UInt32) (port : UInt16) (s : Nat)
      (named : k.socketAt pid sockfd = some s) (bound : port.toNat ≤ nPorts)
      (unbound : (k.sockets s).state = .unbound) (free : (k.ports port.toNat).pid = -1)
      : CallMove env k pid (.bind sockfd addr port) (.goesOn (.bindUpdate s addr port)) k
  | listen (sockfd : Int) (s : Nat) (named : k.socketAt pid sockfd = some s)
      (bound : (k.sockets s).state = .bound)
      : CallMove env k pid (.listen sockfd) (.returns 0) (k.startListening s)
  | connect (sockfd : Int) (dstAddr : UInt32) (dstPort : UInt16) (s i : Nat)
      (named : k.socketAt pid sockfd = some s) (free : freePort k = some i)
      : CallMove env k pid (.connect sockfd dstAddr dstPort)
          (.goesOn (.connectSyn s dstAddr dstPort)) (k.takePort pid s i)
  | accept (sockfd : Int) (s : Nat) (named : k.socketAt pid sockfd = some s)
      (listening : (k.sockets s).tcon.state = .listen)
      (alone : (k.ports (k.sockets s).port.toNat).activeSocket = none)
      : CallMove env k pid (.accept sockfd) (.goesOn (.acceptTest s)) k
  | read (fd size : Int) (s : Nat) (named : k.socketAt pid fd = some s)
      (established : (k.sockets s).tcon.state = .established)
      : CallMove env k pid (.read fd size) (.goesOn (.readTest s size)) k
  | write (fd : Int) (payload : List UInt8) (s : Nat) (named : k.socketAt pid fd = some s)
      (established : (k.sockets s).tcon.state = .established)
      : CallMove env k pid (.write fd payload) (.goesOn (.write s (.start payload))) k
  | close (fd : Int) (f : Nat) (k' : Kernel) (inside : 0 ≤ fd ∧ fd < noFile)
      (named : (k.procs pid).ofile fd.toNat = some f)
      (closed : CloseMove (k.clearDescriptor pid fd.toNat) f k')
      : CallMove env k pid (.close fd) (.returns 0) k'
  | dup (fd : Int) (f newfd : Nat) (inside : 0 ≤ fd ∧ fd < noFile)
      (named : (k.procs pid).ofile fd.toNat = some f)
      (free : freeDescriptor (k.procs pid) = some newfd)
      : CallMove env k pid (.dup fd) (.returns newfd)
          ((k.setProc pid fun p =>
            { p with ofile := update p.ofile newfd (some f) }).setFile f fun file =>
            { file with ref := file.ref + 1 })
  | fork (child : Nat) (free : freeProc k = some child)
      : CallMove env k pid .fork (.returns child) (k.forked pid child)
  | exit (idle : ∀ fd, fd < noFile → (k.procs pid).ofile fd = none)
      : CallMove env k pid .exit (.returns 0)
          (k.setProc pid fun p => { p with state := .unused })

/-- Everything that a later step of a call can do, with what it logs. -/
inductive PcMove (env : Env) (k : Kernel) (pid : Nat)
    : Pc → Next → Kernel → List Event → Prop where
  | bindUpdate (s : Nat) (addr : UInt32) (port : UInt16)
      : PcMove env k pid (.bindUpdate s addr port) (.returns 0) (k.bindPort pid s addr port) []
  | connectSyn (s : Nat) (dstAddr : UInt32) (dstPort : UInt16)
      : PcMove env k pid (.connectSyn s dstAddr dstPort) (.goesOn (.mark .synAck s))
          ((k.setDestination s dstAddr dstPort).startNumbering s)
          [openingEvent env.stale (k.setDestination s dstAddr dstPort) s 0 tcpFlagSyn]
  | noRequest (s : Nat) (empty : isQueueEmpty (k.sockets s).waitqueue = true)
      : PcMove env k pid (.acceptTest s) (.goesOn (.mark .request s)) k []
  | hasRequest (s : Nat) (ready : isQueueEmpty (k.sockets s).waitqueue = false)
      : PcMove env k pid (.acceptTest s) (.goesOn (.acceptDequeue s)) k []
  | takeRequest (s : Nat)
      : PcMove env k pid (.acceptDequeue s) (.goesOn (.mark .handshakeAck s))
          ((k.takeRequest env s).answerRequest s)
          [openingEvent env.stale (k.takeRequest env s) s
            (((k.takeRequest env s).sockets s).tcon.seqReceived + 1)
            (tcpFlagSyn ||| tcpFlagAck)]
  | noData (s : Nat) (size : Int) (empty : (k.sockets s).offset = (k.sockets s).end_)
      : PcMove env k pid (.readTest s size) (.goesOn (.mark (.data size) s)) k []
  | hasData (s : Nat) (size : Int) (ready : (k.sockets s).offset ≠ (k.sockets s).end_)
      : PcMove env k pid (.readTest s size) (.goesOn (.readCopy s size)) k []
  | readCopy (s : Nat) (size : Int) (bytes : List UInt8)
      : PcMove env k pid (.readCopy s size) (.returns ((k.sockets s).readCount size))
          (k.advanceOffset s size) [.copyOut s bytes]
  | write (s : Nat) (call call' : TxCall) (k' : Kernel) (log : List Event)
      (move : TxMove env k s call ⟨some call', k', log⟩)
      : PcMove env k pid (.write s call)
          (if call'.phase = .returned then .returns call'.payload.length
            else .goesOn (.write s call'))
          k' log
  | mark (w : Wait) (s : Nat)
      : PcMove env k pid (.mark w s) (.goesOn (.sleep w s)) (k.setSocket s w.mark) []
  | sleep (w : Wait) (s : Nat)
      : PcMove env k pid (.sleep w s) (.goesOn (.wait w s))
          (k.fallAsleep pid (.port (k.sockets s).port.toNat)) []
  | connected (s : Nat)
      : PcMove env k pid (.wait .synAck s) (.returns 0) ((k.wake pid).connected s)
          [ackEvent env.stale ((k.wake pid).readReply s) s
            (seqNumOf (k.sockets s).buffer 0 + 1)]
  | wokenForRequest (s : Nat)
      : PcMove env k pid (.wait .request s) (.goesOn (.acceptDequeue s)) (k.wake pid) []
  | accepted (s new f fd : Nat) (freeSock : freeSocket k = some new)
      (freeFd : freeFile k = some f) (freeDesc : freeDescriptor (k.procs pid) = some fd)
      : PcMove env k pid (.wait .handshakeAck s) (.returns fd)
          ((((k.wake pid).setTcpState s .listen).openSocket pid new f fd
            env.kalloc).handOver s new)
          []
  | acceptFailed (s : Nat)
      (failed : freeSocket k = none ∨ freeFile k = none
        ∨ freeDescriptor (k.procs pid) = none)
      : PcMove env k pid (.wait .handshakeAck s) (.returns (-1))
          (((k.wake pid).setTcpState s .listen).handOver s nSockets) []
  | wokenForData (s : Nat) (size : Int)
      : PcMove env k pid (.wait (.data size) s) (.goesOn (.readCopy s size))
          ((k.wake pid).setState s .connected) []

/-- Everything that a step of the system can do, with what it logs. -/
inductive SysMove (sys : Sys) : SysAction → Sys → List Event → Prop where
  | call (pid : Nat) (c : Call) (env : Env) (next : Next) (k' : Kernel)
      (idle : sys.pc pid = .user) (runnable : sys.Runnable pid)
      (move : CallMove env sys.kernel pid c next k')
      : SysMove sys (.call pid c env) (sys.after pid k' next) []
  | resume (pid : Nat) (env : Env) (pc : Pc) (next : Next) (k' : Kernel) (log : List Event)
      (located : sys.pc pid = pc) (runnable : sys.Runnable pid)
      (move : PcMove env sys.kernel pid pc next k' log)
      : SysMove sys (.resume pid env) (sys.after pid k' next) log
  | kill (pid : Nat) : SysMove sys (.kill pid) { sys with kernel := sys.kernel.kill pid } []
  | receive (env : Env) (seg size : Int) (srcIp : UInt32) (extra : List Event)
      (header : extra = [] ∨ extra = [.read seg 2])
      : SysMove sys (.receive env seg size srcIp)
          { sys with kernel := sys.kernel.receive env.frame seg size srcIp }
          (receiveLog env sys.kernel seg size srcIp extra)

variable {env : Env} {k k' : Kernel} {pid : Nat} {next : Next} {log : List Event}

theorem onSocket_run (sockfd : Int) (code : Nat → KernelM Next)
    : (onSocket pid sockfd code).run env k
      = match k.socketAt pid sockfd with
        | none => ⟨some (.returns (-1)), k, []⟩
        | some s => (code s).run env k := by
  simp only [onSocket, run_bind, run_get, andThen_some, after_nil]
  cases k.socketAt pid sockfd <;> rfl

variable {sockfd fd r : Int} {c : Call} {pc : Pc} {sys after : Sys} {action : SysAction}

/-- The shape of the calls that look a socket up. -/
theorem onSocket_move {code : Nat → KernelM Next} (c : Call)
    (done : (onSocket pid sockfd code).run env k = ⟨some next, k', log⟩)
    (goesOn
      : ∀ s, k.socketAt pid sockfd = some s
          → (code s).run env k = ⟨some next, k', log⟩
          → log = [] ∧ CallMove env k pid c next k')
    : log = [] ∧ CallMove env k pid c next k' := by
  rw [onSocket_run] at done
  cases named : k.socketAt pid sockfd with
  | none =>
    simp only [named] at done
    cases done
    exact ⟨rfl, .refused c⟩
  | some s =>
    simp only [named] at done
    exact goesOn s named done

theorem bind_move {addr : UInt32} {port : UInt16}
    (done : (bind pid sockfd addr port).run env k = ⟨some next, k', log⟩)
    : log = [] ∧ CallMove env k pid (.bind sockfd addr port) next k' := by
  simp only [Xv6Net.bind, run_bind, run_get, andThen_some, run_ite, after_nil] at done
  split at done
  · cases done
    exact ⟨rfl, .refused _⟩
  rename_i inside
  split at done
  · cases done
    exact ⟨rfl, .refused _⟩
  refine onSocket_move _ done fun s named ran => ?_
  simp only [run_ite] at ran
  split at ran
  · cases ran
    exact ⟨rfl, .refused _⟩
  rename_i unbound
  split at ran
  · cases ran
    exact ⟨rfl, .refused _⟩
  rename_i free
  cases ran
  exact ⟨rfl, .bind sockfd addr port s named (not_lt.mp inside) (not_not.mp unbound)
    (not_not.mp free)⟩

theorem listen_move (done : (listen pid sockfd).run env k = ⟨some next, k', log⟩)
    : log = [] ∧ CallMove env k pid (.listen sockfd) next k' := by
  refine onSocket_move _ done fun s named ran => ?_
  simp only [run_bind, run_get, andThen_some, after_nil, run_ite] at ran
  split at ran
  · cases ran
    exact ⟨rfl, .refused _⟩
  · rename_i bound
    cases ran
    exact ⟨rfl, .listen sockfd s named (not_not.mp bound)⟩

theorem connect_move {dstAddr : UInt32} {dstPort : UInt16}
    (done : (connect pid sockfd dstAddr dstPort).run env k = ⟨some next, k', log⟩)
    : log = [] ∧ CallMove env k pid (.connect sockfd dstAddr dstPort) next k' := by
  refine onSocket_move _ done fun s named ran => ?_
  simp only [run_bind, run_get, andThen_some, after_nil] at ran
  cases free : freePort k with
  | none =>
    simp only [free] at ran
    cases ran
    exact ⟨rfl, .refused _⟩
  | some i =>
    simp only [free] at ran
    cases ran
    exact ⟨rfl, .connect sockfd dstAddr dstPort s i named free⟩

theorem accept_move (done : (accept pid sockfd).run env k = ⟨some next, k', log⟩)
    : log = [] ∧ CallMove env k pid (.accept sockfd) next k' := by
  refine onSocket_move _ done fun s named ran => ?_
  simp only [run_bind, run_get, andThen_some, after_nil, run_ite] at ran
  split at ran
  · cases ran
    exact ⟨rfl, .refused _⟩
  rename_i listening
  split at ran
  · cases ran
    exact ⟨rfl, .refused _⟩
  rename_i alone
  cases ran
  exact ⟨rfl, .accept sockfd s named (not_not.mp listening) (not_not.mp alone)⟩

theorem read_move {size : Int} (done : (read pid fd size).run env k = ⟨some next, k', log⟩)
    : log = [] ∧ CallMove env k pid (.read fd size) next k' := by
  refine onSocket_move _ done fun s named ran => ?_
  simp only [run_bind, run_get, andThen_some, after_nil, run_ite] at ran
  split at ran
  · cases ran
    exact ⟨rfl, .refused _⟩
  · rename_i established
    cases ran
    exact ⟨rfl, .read fd size s named (not_not.mp (not_or.mp established).2)⟩

theorem write_move {payload : List UInt8}
    (done : (write pid fd payload).run env k = ⟨some next, k', log⟩)
    : log = [] ∧ CallMove env k pid (.write fd payload) next k' := by
  refine onSocket_move _ done fun s named ran => ?_
  simp only [run_bind, run_get, andThen_some, after_nil, run_ite] at ran
  split at ran
  · cases ran
    exact ⟨rfl, .refused _⟩
  · rename_i established
    cases ran
    exact ⟨rfl, .write fd payload s named (not_not.mp established)⟩

theorem close_move (done : (close pid fd).run env k = ⟨some r, k', log⟩)
    : log = [] ∧ CallMove env k pid (.close fd) (.returns r) k' := by
  simp only [close, run_ite] at done
  split at done
  · cases done
    exact ⟨rfl, .refused _⟩
  rename_i inside
  simp only [run_bind, run_get, andThen_some, after_nil] at done
  cases named : (k.procs pid).ofile fd.toNat with
  | none =>
    simp only [named] at done
    cases done
    exact ⟨rfl, .refused _⟩
  | some f =>
    simp only [named, run_bind, run_modify, andThen_some, after_nil] at done
    generalize closing : (fileclose f).run env _ = out at done
    obtain ⟨value, state, events⟩ := out
    cases value with
    | none => cases done
    | some =>
      obtain ⟨rfl, closed⟩ := fileclose_move closing
      cases done
      exact ⟨rfl, .close fd f _ (by omega) named closed⟩

theorem dup_move (done : (dup pid fd).run env k = ⟨some r, k', log⟩)
    : log = [] ∧ CallMove env k pid (.dup fd) (.returns r) k' := by
  simp only [dup, run_ite] at done
  split at done
  · cases done
    exact ⟨rfl, .refused _⟩
  rename_i inside
  simp only [run_bind, run_get, andThen_some, after_nil] at done
  cases named : (k.procs pid).ofile fd.toNat with
  | none =>
    simp only [named] at done
    cases done
    exact ⟨rfl, .refused _⟩
  | some f =>
    simp only [named, fdalloc, run_bind, run_get, andThen_some, after_nil] at done
    cases free : freeDescriptor (k.procs pid) with
    | none =>
      simp only [free] at done
      cases done
      exact ⟨rfl, .refused _⟩
    | some newfd =>
      simp only [free, filedup, run_bind, run_get, run_modify,
        run_pure, andThen_some, after_nil, run_ite] at done
      split at done
      · cases done
      · cases done
        exact ⟨rfl, .dup fd f newfd (by omega) named free⟩

theorem fork_move (done : (fork pid).run env k = ⟨some r, k', log⟩)
    : log = [] ∧ CallMove env k pid .fork (.returns r) k' := by
  simp only [fork, run_bind, run_get, andThen_some, after_nil] at done
  cases free : freeProc k with
  | none =>
    simp only [free] at done
    cases done
    exact ⟨rfl, .refused _⟩
  | some child =>
    simp only [free, run_bind, run_env, andThen_some, after_nil, run_ite] at done
    split at done
    · cases done
      exact ⟨rfl, .refused _⟩
    generalize sharing : ((List.range noFile).forM (forkFile pid child)).run env k = out
      at done
    obtain ⟨value, state, events⟩ := out
    cases value with
    | none => cases done
    | some =>
      obtain ⟨rfl, rfl⟩ := forkFiles_run sharing
      cases done
      exact ⟨rfl, .fork child free⟩

/-- What a call can do before it first waits, by the calls. -/
theorem Call.enter_move (tidy : k.Tidy) (done : (c.enter pid).run env k = ⟨some next, k', log⟩)
    : log = [] ∧ CallMove env k pid c next k' := by
  -- a call that is one step returns whatever its code returns
  have returned {code : KernelM Int}
      (ends : (do pure (.returns (← code)) : KernelM Next).run env k = ⟨some next, k', log⟩)
      : ∃ r, next = .returns r ∧ code.run env k = ⟨some r, k', log⟩ := by
    simp only [run_bind] at ends
    generalize code.run env k = out at ends
    obtain ⟨value, state, events⟩ := out
    cases value with
    | none => cases ends
    | some r =>
      simp only [run_pure, andThen_some, after_mk, List.append_nil] at ends
      cases ends
      exact ⟨r, rfl, rfl⟩
  cases c with
  | bind => exact bind_move done
  | listen => exact listen_move done
  | connect => exact connect_move done
  | accept => exact accept_move done
  | read => exact read_move done
  | write => exact write_move done
  | socket =>
    obtain ⟨r, rfl, ran⟩ := returned done
    rw [socket_run pid fun _ _ _ found _ => tidy.freeFile found] at ran
    split at ran
    · rename_i s f fd freeSock freeFd freeDesc
      cases ran
      exact ⟨rfl, .socket s f fd freeSock freeFd freeDesc⟩
    · cases ran
      exact ⟨rfl, .refused _⟩
  | close =>
    obtain ⟨r, rfl, ran⟩ := returned done
    exact close_move ran
  | dup =>
    obtain ⟨r, rfl, ran⟩ := returned done
    exact dup_move ran
  | fork =>
    obtain ⟨r, rfl, ran⟩ := returned done
    exact fork_move ran
  | exit =>
    simp only [Call.enter, Xv6Net.exit, run_bind, run_get, andThen_some, after_nil, run_ite] at done
    split at done
    · rename_i idle
      cases done
      refine ⟨rfl, .exit fun fd inside => ?_⟩
      have closed := List.all_eq_true.mp idle fd (List.mem_range.mpr inside)
      simpa using closed
    · cases done

/-- The SYN goes out with the number that the connection starts from. -/
theorem tcpSendSyn_run (s : Nat)
    : (tcpSendSyn s).run env k
      = ⟨some (), k.startNumbering s, [openingEvent env.stale k s 0 tcpFlagSyn]⟩ := by
  simp only [tcpSendSyn, tcpSend, run_bind, run_get, run_env,
    run_emit, run_modify, andThen_some, after_mk]
  rfl

theorem tcpSendSynack_run (s : Nat)
    : (tcpSendSynack s).run env k
      = ⟨some (), k.answerRequest s,
          [openingEvent env.stale k s ((k.sockets s).tcon.seqReceived + 1)
            (tcpFlagSyn ||| tcpFlagAck)]⟩ := by
  rw [answerRequest, startNumbering, setTcon_setTcon]
  simp only [tcpSendSynack, tcpSend, run_bind, run_get, run_env,
    run_emit, run_modify, andThen_some, after_mk]
  rfl

/-- Whether the tables are tidy is a matter of the files. -/
theorem Kernel.Tidy.of_files (tidy : k.Tidy) (same : k'.files = k.files) : k'.Tidy := by
  intro f
  rw [same]
  exact tidy f

/-- Witness: the reply is read from the buffer, which none of the updates touches. -/
theorem connectFinish_run (s : Nat)
    : (connectFinish s).run env k
      = ⟨some (.returns 0), k.connected s,
          [ackEvent env.stale (k.readReply s) s (seqNumOf (k.sockets s).buffer 0 + 1)]⟩ := by
  simp only [connectFinish, run_bind, run_get, run_modify, run_pure, andThen_some, after_mk,
    tcpSendAck_run, setTcon_setTcon, Kernel.connected, readReply, List.nil_append, List.append_nil]

theorem Kernel.openSocket_tidy (tidy : k.Tidy) (pid s f fd : Nat) (page : Option (Int → UInt8))
    : (k.openSocket pid s f fd page).Tidy := by
  intro g closed
  by_cases same : g = f
  · subst same
    simp [openSocket, setFile, setProc] at closed
  · have unchanged : (k.openSocket pid s f fd page).files g = k.files g :=
      update_of_ne same ..
    rw [unchanged] at closed ⊢
    exact tidy g closed

/-- The descriptor that `socket` returns names the socket that it has opened. -/
theorem Kernel.newSocket_openSocket (s f fd : Nat) (page : Option (Int → UInt8))
    (inside : fd < noFile)
    : (k.openSocket pid s f fd page).newSocket pid fd = s := by
  have low : ¬ ((fd : Int) < 0 ∨ (fd : Int) ≥ noFile) := by
    simp only [noFile] at *
    omega
  rw [Kernel.newSocket, Kernel.socketAt, if_neg low]
  simp [openSocket, setFile, setProc]

theorem Kernel.newSocket_failed : k.newSocket pid (-1) = nSockets := by
  simp [Kernel.newSocket, Kernel.socketAt]

theorem freeSocket_setTcpState (s : Nat) (state : TcpState)
    : freeSocket (k.setTcpState s state) = freeSocket k := by
  simp only [freeSocket, setTcpState, setTcon_sockets]
  congr 1
  funext i
  by_cases same : i = s
  · subst same
    simp
  · simp [update_of_ne same]

theorem freeDescriptor_wake
    : freeDescriptor ((k.wake pid).procs pid) = freeDescriptor (k.procs pid) := by
  simp [freeDescriptor, Kernel.wake, setProc]

/-- `accept` takes a socket, a file and a descriptor, or none of them. -/
theorem acceptFinish_run (tidy : k.Tidy) (s : Nat)
    : (acceptFinish pid s).run env k
      = match freeSocket k, freeFile k, freeDescriptor (k.procs pid) with
        | some new, some f, some fd =>
          ⟨some (.returns fd),
            ((k.setTcpState s .listen).openSocket pid new f fd env.kalloc).handOver s new,
            []⟩
        | _, _, _ =>
          ⟨some (.returns (-1)), (k.setTcpState s .listen).handOver s nSockets, []⟩ := by
  have listening : (k.setTcpState s .listen).Tidy := tidy.of_files rfl
  have opened : (socket pid).run env (k.setTcpState s .listen) = _ :=
    socket_run pid fun _ _ _ found _ => listening.freeFile found
  rw [freeSocket_setTcpState] at opened
  simp only [acceptFinish, run_bind, run_modify, andThen_some, after_nil]
  change ((socket pid).run env (k.setTcpState s .listen)).andThen _ = _
  rw [opened]
  split
  · rename_i new f fd foundSocket foundFile foundDescriptor
    have inside := (freeDescriptor_spec foundDescriptor).1
    simp only [foundSocket, show freeFile k = some f from foundFile,
      show freeDescriptor (k.procs pid) = some fd from foundDescriptor, run_get, run_pure,
      andThen_some, after_mk, newSocket_openSocket _ _ _ _ inside, List.append_nil]
    rfl
  · rename_i failed
    have missing (new f fd : Nat)
        : freeSocket k = some new → freeFile k = some f
          → freeDescriptor (k.procs pid) = some fd → False :=
      failed new f fd
    simp only [run_get, run_pure, andThen_some, after_mk, newSocket_failed, List.append_nil]
    rfl

/-- What a call can do when it goes on, by the place where it was. -/
theorem Pc.resume_move (tidy : k.Tidy) (done : (pc.resume pid).run env k = ⟨some next, k', log⟩)
    : PcMove env k pid pc next k' log := by
  cases pc with
  | user => cases done
  | bindUpdate s addr port =>
    cases done
    exact .bindUpdate s addr port
  | connectSyn s dstAddr dstPort =>
    simp only [Pc.resume, Xv6Net.connectSyn, run_bind, run_modify,
      run_pure, andThen_some, after_mk, tcpSendSyn_run] at done
    cases done
    exact .connectSyn s dstAddr dstPort
  | acceptTest s =>
    simp only [Pc.resume, Xv6Net.acceptTest, run_bind, run_get,
      andThen_some, after_nil, run_ite] at done
    split at done
    · rename_i empty
      cases done
      exact .noRequest s empty
    · rename_i ready
      cases done
      exact .hasRequest s (by simpa using ready)
  | acceptDequeue s =>
    simp only [Pc.resume, Xv6Net.acceptDequeue, run_bind, run_env, run_get, run_modify, run_pure,
      andThen_some, after_mk, tcpSendSynack_run] at done
    cases done
    exact .takeRequest s
  | readTest s size =>
    simp only [Pc.resume, Xv6Net.readTest, run_bind, run_get,
      andThen_some, after_nil, run_ite] at done
    split at done
    · rename_i empty
      cases done
      exact .noData s size empty
    · rename_i ready
      cases done
      exact .hasData s size ready
  | readCopy s size =>
    cases done
    exact .readCopy s size _
  | write s call =>
    simp only [Pc.resume, Xv6Net.writeStep, run_bind] at done
    have move := tcpTxStep_move env k s call
    generalize (tcpTxStep s call).run env k = out at move done
    obtain ⟨value, state, events⟩ := out
    cases value with
    | none => cases done
    | some call' =>
      simp only [andThen_some, run_ite] at done
      have result : PcMove env k pid (.write s call) _ state events :=
        .write s call call' state events move
      split at done
      · rename_i returned
        cases done
        simpa [returned] using result
      · rename_i running
        cases done
        simpa [running] using result
  | mark w s =>
    cases done
    exact .mark w s
  | sleep w s =>
    cases done
    exact .sleep w s
  | wait w s =>
    cases w with
    | synAck =>
      simp only [Pc.resume, awake, run_bind, run_modify,
        andThen_some, after_nil, connectFinish_run] at done
      cases done
      exact .connected s
    | request =>
      cases done
      exact .wokenForRequest s
    | handshakeAck =>
      simp only [Pc.resume, awake, run_bind, run_modify, andThen_some, after_nil] at done
      change (acceptFinish pid s).run env (k.wake pid) = _ at done
      have awakened : (k.wake pid).Tidy := tidy.of_files rfl
      rw [acceptFinish_run awakened, freeDescriptor_wake] at done
      split at done
      · rename_i new f fd foundSocket foundFile foundDescriptor
        cases done
        exact .accepted s new f fd foundSocket foundFile foundDescriptor
      · rename_i failed
        cases done
        refine .acceptFailed s ?_
        by_contra all
        simp only [not_or, ← Option.isSome_iff_ne_none, Option.isSome_iff_exists] at all
        obtain ⟨⟨new, one⟩, ⟨f, two⟩, ⟨fd, three⟩⟩ := all
        exact failed new f fd one two three
    | data size =>
      cases done
      exact .wokenForData s size

theorem Sys.act_move (tidy : sys.kernel.Tidy) (taken : sys.act action = some (after, log))
    : SysMove sys action after log := by
  -- a process step ends with a value, or the kernel has panicked
  have ran {pid : Nat} {env : Env} {code : KernelM Next}
      (stepped : sys.runStep pid env code = some (after, log))
      : ∃ next k', code.run env sys.kernel = ⟨some next, k', log⟩
          ∧ after = sys.after pid k' next := by
    simp only [Sys.runStep, Option.map_eq_some_iff, Prod.mk.injEq] at stepped
    obtain ⟨next, value, rfl, rfl⟩ := stepped
    exact ⟨next, _, by rw [← value], rfl⟩
  cases action with
  | call pid c env =>
    simp only [Sys.act] at taken
    split at taken
    · rename_i idle
      split at taken
      · rename_i runnable
        obtain ⟨next, k', done, rfl⟩ := ran taken
        obtain ⟨rfl, move⟩ := Call.enter_move tidy done
        exact .call pid c env next k' idle runnable move
      · cases taken
    · cases taken
  | resume pid env =>
    simp only [Sys.act] at taken
    split at taken
    · rename_i runnable
      obtain ⟨next, k', done, rfl⟩ := ran taken
      exact .resume pid env _ next k' log rfl runnable (Pc.resume_move tidy done)
    · cases taken
  | kill pid =>
    cases taken
    exact .kill pid
  | receive env seg size srcIp =>
    obtain ⟨extra, header, run⟩ := tcpReceive_run env sys.kernel seg size srcIp
    simp only [Sys.act, run] at taken
    cases taken
    exact .receive env seg size srcIp extra header

/-- Every step of the system is one of the moves. -/
theorem Sys.step_move (tidy : sys.kernel.Tidy) (taken : sys.step action = some after)
    : ∃ log, sys.act action = some (after, log) ∧ SysMove sys action after log := by
  obtain ⟨⟨next, log⟩, acted, rfl⟩ := Option.map_eq_some_iff.mp taken
  exact ⟨log, acted, Sys.act_move tidy acted⟩

/-- `fork` changes the file and the process table and nothing else. -/
theorem Kernel.forked_frame (k : Kernel) (pid child : Nat)
    : ∃ files procs, k.forked pid child = { k with files, procs } := by
  have shared (fds : List Nat) (start : Kernel)
      : ∃ files procs,
          fds.foldl (fun k fd => k.shareFile pid child fd) start
            = { start with files, procs } := by
    induction fds generalizing start with
    | nil => exact ⟨_, _, rfl⟩
    | cons fd rest ih =>
      obtain ⟨files, procs, same⟩ := ih (start.shareFile pid child fd)
      refine ⟨files, procs, same.trans ?_⟩
      unfold Kernel.shareFile
      split <;> rfl
  obtain ⟨files, procs, same⟩ := shared (List.range noFile) k
  rw [Kernel.forked, same]
  exact ⟨_, _, rfl⟩

theorem Kernel.forked_tidy (tidy : k.Tidy) (child : Nat) : (k.forked pid child).Tidy := by
  have shared (fds : List Nat) (start : Kernel) (begin_ : start.Tidy)
      : (fds.foldl (fun k fd => k.shareFile pid child fd) start).Tidy := by
    induction fds generalizing start with
    | nil => exact begin_
    | cons fd rest ih =>
      refine ih (start.shareFile pid child fd) ?_
      unfold Kernel.shareFile
      split
      · exact begin_
      · rename_i f open_
        intro g closed
        by_cases same : g = f
        · subst same
          simp only [setProc, setFile, update_self] at closed ⊢
          exact begin_ g (by omega)
        · simp only [setProc, setFile, update_of_ne same]
            at closed ⊢
          exact begin_ g closed
  exact (shared (List.range noFile) k tidy).of_files rfl

theorem CloseMove.tidy {f : Nat} (move : CloseMove k f k') (tidy : k.Tidy) : k'.Tidy := by
  intro g closed
  by_cases same : g = f
  · subst same
    cases move with
    | shared =>
      simp only [setFile, update_self] at closed
      omega
    | last => simp [setFile]
    | lastSocket =>
      simp [closeSocket, setPort, setFile]
  · have unchanged : k'.files g = k.files g := by
      cases move <;> exact update_of_ne same ..
    rw [unchanged] at closed ⊢
    exact tidy g closed

/-- A call leaves the tables tidy. -/
theorem CallMove.tidy (move : CallMove env k pid c next k') (tidy : k.Tidy)
    : k'.Tidy := by
  cases move with
  | socket s f fd => exact openSocket_tidy tidy pid s f fd _
  | close fd f k' inside named closed => exact closed.tidy (tidy.of_files rfl)
  | dup fd f =>
    intro g closed
    by_cases same : g = f
    · subst same
      simp only [setFile, update_self] at closed ⊢
      exact tidy g (by simp only [setProc] at closed; omega)
    · simp only [setFile, update_of_ne same] at closed ⊢
      exact tidy g closed
  | fork child => exact forked_tidy tidy child
  | _ => exact tidy.of_files rfl

theorem PcMove.tidy (move : PcMove env k pid pc next k' log) (tidy : k.Tidy)
    : k'.Tidy := by
  cases move with
  | accepted s new f fd =>
    have listening : ((k.wake pid).setTcpState s .listen).Tidy := tidy.of_files rfl
    exact (openSocket_tidy listening pid new f fd env.kalloc).of_files rfl
  | write s call call' k' log move => cases move <;> exact tidy.of_files rfl
  | _ => exact tidy.of_files rfl

theorem SysMove.tidy (move : SysMove sys action after log) (tidy : sys.kernel.Tidy)
    : after.kernel.Tidy := by
  cases move with
  | call pid c env next k' idle runnable move
  | resume pid env pc next k' log located runnable move =>
    have kept := move.tidy tidy
    cases next <;> exact kept
  | kill => exact tidy.of_files rfl
  | receive => exact tidy.of_files (receive_files ..)

theorem boot_tidy (myip netmask gateway : UInt32)
    : (Sys.boot myip netmask gateway).kernel.Tidy :=
  fun _ _ => rfl

theorem CallMove.requests (move : CallMove env k pid c next k')
    : k'.requests = k.requests := by
  cases move with
  | close fd f k' inside named closed => cases closed <;> rfl
  | fork child =>
    obtain ⟨files, procs, same⟩ := k.forked_frame pid child
    rw [same]
  | _ => rfl

/-- The queue of requests is filled by segments only. -/
theorem PcMove.requests (move : PcMove env k pid pc next k' log)
    : k'.requests = k.requests := by
  cases move with
  | write s call call' k' log move => cases move <;> simp
  | _ =>
    simp [bindPort, setDestination, startNumbering, Kernel.takeRequest, answerRequest,
      advanceOffset, fallAsleep, Kernel.connected, readReply, Kernel.wake, openSocket, handOver,
      setTcpState, setState]

/-- A call does not touch the other processes. -/
theorem PcMove.procs_of_ne {other : Nat} (move : PcMove env k pid pc next k' log)
    (differs : other ≠ pid)
    : k'.procs other = k.procs other := by
  cases move with
  | write s call call' k' log move => cases move <;> simp
  | _ =>
    simp [bindPort, setDestination, startNumbering, Kernel.takeRequest, answerRequest,
      advanceOffset, fallAsleep, Kernel.connected, readReply, Kernel.wake, setState, handOver,
      openSocket, setTcpState, update_of_ne differs]

end Xv6Net
