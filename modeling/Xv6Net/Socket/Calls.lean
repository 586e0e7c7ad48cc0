import Xv6Net.Tcp.Connection
import Xv6Net.Socket.Files

/-! The socket calls of `socket.c`, cut into the steps between which other processes and
the NIC interrupt may run, and the system of all processes of a host. A call is cut where it
sleeps, between a test and the assignment that relies on it, and around the locked section of
`sleepnolock`.
-/

namespace Xv6Net

open Library Memory Function

/-! ### Where a process is -/

/-- What a process waits for in `sleepnolock`: `connect` for the answer to its SYN, `accept` for a
request and then for the answer to its SYN-ACK, `socketread` for data.
-/
inductive Wait where
  | synAck
  | request
  | handshakeAck
  | data (size : Int)
  deriving DecidableEq, Repr

/-- The next thing that a process does inside a socket call. -/
inductive Pc where
  /-- Not in a socket call. -/
  | user
  /-- `bind`, after its tests. -/
  | bindUpdate (s : Nat) (addr : UInt32) (port : UInt16)
  /-- `connect`, with a port of its own. -/
  | connectSyn (s : Nat) (dstAddr : UInt32) (dstPort : UInt16)
  /-- `accept`, before its test of the wait queue. -/
  | acceptTest (s : Nat)
  /-- `accept`, once there should be a request. -/
  | acceptDequeue (s : Nat)
  /-- `socketread`, before its test of the buffer. -/
  | readTest (s : Nat) (size : Int)
  /-- `socketread`, once there should be data. -/
  | readCopy (s : Nat) (size : Int)
  /-- `socketwrite`, inside `tcp_tx`. -/
  | write (s : Nat) (call : TxCall)
  /-- Before the assignment that precedes `sleepnolock`. -/
  | mark (w : Wait) (s : Nat)
  /-- Before the locked section of `sleepnolock`. -/
  | sleep (w : Wait) (s : Nat)
  /-- Inside `sched`. -/
  | wait (w : Wait) (s : Nat)

/-- How a step of a call ends: with the value it returns, or further inside the call. -/
inductive Next where
  | returns (r : Int)
  | goesOn (pc : Pc)

/-- The tests with which a socket call starts; `code` is what follows them. -/
def onSocket (pid : Nat) (sockfd : Int) (code : Nat → KernelM Next) : KernelM Next := do
  match (← Program.get).socketAt pid sockfd with
  | none => pure (.returns (-1))
  | some s => code s

/-! ### `bind` and `listen` -/

/-- The tests of `bind`. -/
def bind (pid : Nat) (sockfd : Int) (addr : UInt32) (port : UInt16) : KernelM Next := do
  let k ← Program.get
  if port.toNat > nPorts then
    pure (.returns (-1))
  else if addr ≠ k.myip then
    pure (.returns (-1))
  else
    onSocket pid sockfd fun s =>
      if (k.sockets s).state ≠ .unbound then
        pure (.returns (-1))
      else if (k.ports port.toNat).pid ≠ -1 then
        pure (.returns (-1))
      else
        pure (.goesOn (.bindUpdate s addr port))

/-- The rest of `bind`: the port under `portlock`, then the socket. -/
def bindUpdate (pid s : Nat) (addr : UInt32) (port : UInt16) : KernelM Next := do
  Program.modify (·.setPort port.toNat fun entry =>
    { entry with pid := pid, passiveSocket := some s })
  Program.modify (·.setSocket s fun socket => { socket with addr, port, state := .bound })
  pure (.returns 0)

def listen (pid : Nat) (sockfd : Int) : KernelM Next :=
  onSocket pid sockfd fun s => do
    if ((← Program.get).sockets s).state ≠ .bound then
      pure (.returns (-1))
    else
      Program.modify (·.setSocket s fun socket =>
        { socket with
          waitqueue := initQueue socket.waitqueue
          tcon := { socket.tcon with state := .listen } })
      pure (.returns 0)

/-! ### `connect` -/

/-- The first free port that `connect` finds; it leaves the ports below 1024 alone. -/
def freePort (k : Kernel) : Option Nat :=
  (List.range' 1024 (nPorts - 1024)).find? fun i => (k.ports i).pid = -1

/-- `connect` up to the end of its locked section. -/
def connect (pid : Nat) (sockfd : Int) (dstAddr : UInt32) (dstPort : UInt16)
    : KernelM Next :=
  onSocket pid sockfd fun s => do
    let k ← Program.get
    match freePort k with
    | none => pure (.returns (-1))
    | some i =>
      Program.modify (·.setPort i fun entry =>
        { entry with pid := pid, activeSocket := some s })
      Program.modify (·.setSocket s fun socket =>
        { socket with addr := k.myip, port := UInt16.ofNat i, state := .bound })
      pure (.goesOn (.connectSyn s dstAddr dstPort))

def connectSyn (s : Nat) (dstAddr : UInt32) (dstPort : UInt16) : KernelM Next := do
  Program.modify (·.setTcon s fun tcon => { tcon with dstAddr, dstPort })
  tcpSendSyn s
  pure (.goesOn (.mark .synAck s))

/-- The rest of `connect`: the reply is read from the buffer. -/
def connectFinish (s : Nat) : KernelM Next := do
  let reply := ((← Program.get).sockets s).buffer
  let ackReceived := ackNumOf reply 0
  let seqReceived := seqNumOf reply 0
  Program.modify (·.setTcon s fun tcon =>
    { tcon with ackReceived, seqReceived, baseSeq := ackReceived, nextSeq := ackReceived })
  tcpSendAck s (seqReceived + 1)
  Program.modify (·.setTcon s fun tcon =>
    { tcon with window := initQueue tcon.window, state := .established })
  pure (.returns 0)

/-! ### `accept` -/

/-- The tests of `accept`. -/
def accept (pid : Nat) (sockfd : Int) : KernelM Next :=
  onSocket pid sockfd fun s => do
    let k ← Program.get
    if (k.sockets s).tcon.state ≠ .listen then
      pure (.returns (-1))
    else if (k.ports (k.sockets s).port.toNat).activeSocket ≠ none then
      pure (.returns (-1))
    else
      pure (.goesOn (.acceptTest s))

def acceptTest (s : Nat) : KernelM Next := do
  if isQueueEmpty ((← Program.get).sockets s).waitqueue then
    pure (.goesOn (.mark .request s))
  else
    pure (.goesOn (.acceptDequeue s))

/-- The request that a dequeued pointer refers to. What the address -1 of an empty queue holds is
not determined.
-/
def requestAt (env : Env) (k : Kernel) (ptr : Int) : TcpRequest :=
  if 1 ≤ ptr then
    k.requests (ptr - 1).toNat
  else
    { clientIp := load32 env.stale 0, requestPacket := fun i => env.stale (4 + i) }

/-- The request is taken out of the queue and answered with a SYN-ACK. -/
def acceptDequeue (s : Nat) : KernelM Next := do
  let env ← Program.env
  let k ← Program.get
  let (ptr, waitqueue) := dequeue (k.sockets s).waitqueue
  let request := requestAt env k ptr
  Program.modify (·.setSocket s fun socket =>
    { socket with
      state := .bound
      waitqueue
      tcon := { socket.tcon with
        dstAddr := request.clientIp
        dstPort := srcPortOf request.requestPacket 0
        seqReceived := seqNumOf request.requestPacket 0 } })
  tcpSendSynack s
  pure (.goesOn (.mark .handshakeAck s))

/-- The socket at the descriptor that `socket` has returned. For -1 the pointer comes from
outside the descriptor table, and refers to no socket.
-/
def Kernel.newSocket (k : Kernel) (pid : Nat) (newfd : Int) : Nat :=
  (k.socketAt pid newfd).getD nSockets

/-- The rest of `accept`: the connection gets a socket of its own. -/
def acceptFinish (pid s : Nat) : KernelM Next := do
  Program.modify (·.setTcon s fun tcon => { tcon with state := .listen })
  let newfd ← socket pid
  let k ← Program.get
  let listener := k.sockets s
  let new := k.newSocket pid newfd
  Program.modify (·.setPort listener.port.toNat fun entry =>
    { entry with activeSocket := some new })
  Program.modify (·.setSocket new fun socket =>
    { socket with
      addr := listener.addr
      port := listener.port
      state := .connected
      tcon := { socket.tcon with
        dstAddr := listener.tcon.dstAddr
        dstPort := listener.tcon.dstPort
        ackReceived := listener.tcon.ackReceived
        seqReceived := listener.tcon.seqReceived
        baseSeq := listener.tcon.ackReceived
        nextSeq := listener.tcon.ackReceived
        ackSent := listener.tcon.ackSent
        window := initQueue socket.tcon.window
        state := .established } })
  pure (.returns newfd)

/-! ### `socketread` and `socketwrite` -/

/-- `read` on a socket, up to the test of the connection state. -/
def read (pid : Nat) (fd size : Int) : KernelM Next :=
  onSocket pid fd fun s => do
    if size < 0 ∨ ((← Program.get).sockets s).tcon.state ≠ .established then
      pure (.returns (-1))
    else
      pure (.goesOn (.readTest s size))

def readTest (s : Nat) (size : Int) : KernelM Next := do
  let socket := (← Program.get).sockets s
  if socket.offset = socket.end_ then
    pure (.goesOn (.mark (.data size) s))
  else
    pure (.goesOn (.readCopy s size))

def readCopy (s : Nat) (size : Int) : KernelM Next := do
  let bytes := ((← Program.get).sockets s).readCount size
  let _ ← socketreadCopy s size
  pure (.returns bytes)

/-- `write` on a socket, up to the call of `tcp_tx`. -/
def write (pid : Nat) (fd : Int) (payload : List UInt8) : KernelM Next :=
  onSocket pid fd fun s => do
    if ((← Program.get).sockets s).tcon.state ≠ .established then
      pure (.returns (-1))
    else
      pure (.goesOn (.write s (.start payload)))

def writeStep (s : Nat) (call : TxCall) : KernelM Next := do
  let call ← tcpTxStep s call
  if call.phase = .returned then
    pure (.returns call.payload.length)
  else
    pure (.goesOn (.write s call))

/-! ### Sleeping -/

/-- The assignment that precedes `sleepnolock`. -/
def Wait.mark : Wait → Socket → Socket
  | .synAck, socket => { socket with tcon := { socket.tcon with state := .synSent } }
  | .handshakeAck, socket => { socket with tcon := { socket.tcon with state := .synackSent } }
  | .request, socket | .data _, socket => { socket with state := .wait }

/-- `sleepnolock` up to `sched`. -/
def sleepnolock (pid : Nat) (chan : Chan) : KernelM Unit :=
  Program.modify (·.setProc pid fun p => { p with chan := some chan, state := .sleeping })

/-- What follows `sched` in `sleepnolock`. -/
def awake (pid : Nat) : KernelM Unit :=
  Program.modify (·.setProc pid fun p => { p with chan := none })

/-- `kill`. -/
def Kernel.kill (k : Kernel) (pid : Nat) : Kernel :=
  k.setProc pid fun p =>
    { p with
      killed := true
      state := if p.state = .sleeping then .runnable else p.state }

/-! ### The system -/

inductive Call where
  | socket
  | bind (sockfd : Int) (addr : UInt32) (port : UInt16)
  | listen (sockfd : Int)
  | connect (sockfd : Int) (dstAddr : UInt32) (dstPort : UInt16)
  | accept (sockfd : Int)
  | read (fd size : Int)
  | write (fd : Int) (payload : List UInt8)
  | close (fd : Int)
  | dup (fd : Int)
  | fork
  | exit

def Call.enter (pid : Nat) : Call → KernelM Next
  | .socket => do pure (.returns (← Xv6Net.socket pid))
  | .bind sockfd addr port => Xv6Net.bind pid sockfd addr port
  | .listen sockfd => Xv6Net.listen pid sockfd
  | .connect sockfd dstAddr dstPort => Xv6Net.connect pid sockfd dstAddr dstPort
  | .accept sockfd => Xv6Net.accept pid sockfd
  | .read fd size => Xv6Net.read pid fd size
  | .write fd payload => Xv6Net.write pid fd payload
  | .close fd => do pure (.returns (← Xv6Net.close pid fd))
  | .dup fd => do pure (.returns (← Xv6Net.dup pid fd))
  | .fork => do pure (.returns (← Xv6Net.fork pid))
  | .exit => do
    Xv6Net.exit pid
    pure (.returns 0)

def Pc.resume (pid : Nat) : Pc → KernelM Next
  | .user => Program.stop
  | .bindUpdate s addr port => Xv6Net.bindUpdate pid s addr port
  | .connectSyn s dstAddr dstPort => Xv6Net.connectSyn s dstAddr dstPort
  | .acceptTest s => Xv6Net.acceptTest s
  | .acceptDequeue s => Xv6Net.acceptDequeue s
  | .readTest s size => Xv6Net.readTest s size
  | .readCopy s size => Xv6Net.readCopy s size
  | .write s call => Xv6Net.writeStep s call
  | .mark w s => do
    Program.modify (·.setSocket s w.mark)
    pure (.goesOn (.sleep w s))
  | .sleep w s => do
    let socket := (← Program.get).sockets s
    sleepnolock pid (.port socket.port.toNat)
    pure (.goesOn (.wait w s))
  | .wait .synAck s => do
    awake pid
    connectFinish s
  | .wait .request s => do
    awake pid
    pure (.goesOn (.acceptDequeue s))
  | .wait .handshakeAck s => do
    awake pid
    acceptFinish pid s
  | .wait (.data size) s => do
    awake pid
    Program.modify (·.setState s .connected)
    pure (.goesOn (.readCopy s size))

structure Sys where
  kernel : Kernel
  pc : Nat → Pc
  /-- The value that the last call of a process returned. -/
  returned : Nat → Int

inductive SysAction where
  /-- A process makes a system call. -/
  | call (pid : Nat) (c : Call) (env : Env)
  /-- A process goes on inside a call. -/
  | resume (pid : Nat) (env : Env)
  /-- A process is killed. -/
  | kill (pid : Nat)
  /-- The NIC interrupt runs `tcp_receive`. -/
  | receive (env : Env) (seg size : Int) (srcIp : UInt32)

namespace Sys

def Runnable (sys : Sys) (pid : Nat) : Prop :=
  pid < nProc ∧ (sys.kernel.procs pid).state = .runnable

instance (sys : Sys) (pid : Nat) : Decidable (sys.Runnable pid) :=
  inferInstanceAs (Decidable (_ ∧ _))

def after (sys : Sys) (pid : Nat) (kernel : Kernel) : Next → Sys
  | .returns r =>
    { kernel
      pc := update sys.pc pid .user
      returned := update sys.returned pid r }
  | .goesOn pc => { sys with kernel, pc := update sys.pc pid pc }

def runStep (sys : Sys) (pid : Nat) (env : Env) (code : KernelM Next)
    : Option (Sys × List Event) :=
  let out := code.run env sys.kernel
  out.value.map fun next => (sys.after pid out.state next, out.log)

/-- One step of the system, with what it logs; `none` if the action is not possible now, or
the kernel panics.
-/
def act (sys : Sys) : SysAction → Option (Sys × List Event)
  | .call pid c env =>
    match sys.pc pid with
    | .user => if sys.Runnable pid then sys.runStep pid env (c.enter pid) else none
    | _ => none
  | .resume pid env =>
    if sys.Runnable pid then sys.runStep pid env ((sys.pc pid).resume pid) else none
  | .kill pid => some ({ sys with kernel := sys.kernel.kill pid }, [])
  | .receive env seg size srcIp =>
    let out := (tcpReceive seg size srcIp).run env sys.kernel
    some ({ sys with kernel := out.state }, out.log)

def step (sys : Sys) (action : SysAction) : Option Sys :=
  (sys.act action).map Prod.fst

/-- The host after boot, with its first process. -/
def boot (myip netmask gateway : UInt32) : Sys :=
  { kernel := (Kernel.boot myip netmask gateway).setProc 0 fun p =>
      { p with state := .runnable }
    pc := fun _ => .user
    returned := fun _ => 0 }

end Sys

end Xv6Net
