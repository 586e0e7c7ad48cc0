import Xv6Net.Library.Program
import Xv6Net.Kernel.Queue
import Xv6Net.Kernel.NetUtils

/-! The kernel state that the network stack reads and writes: the socket and port tables,
the pending connection requests, the ARP cache, and the parts of the file and process tables
that the socket calls use. Tables are functions of the index, so that an index outside the
array shows as such. `uint`, `ushort` and `uchar` are fixed-width; an `int` is an `Int`.
-/

namespace Xv6Net

open Library Function

abbrev nPorts : Nat := 2048

abbrev nSockets : Nat := 20

abbrev noFile : Nat := 16

abbrev nFile : Nat := 100

abbrev nProc : Nat := 64

instance : NeZero nProc := ⟨by decide⟩

abbrev tcpHeaderMinSize : Nat := 20

abbrev mss : Nat := 1460

abbrev windowLength : Nat := 10

abbrev windowSize : Nat := mss * windowLength

abbrev maxPendingRequests : Nat := 20

abbrev initialSeq : UInt32 := 0

abbrev tcpFlagSyn : UInt8 := 0x02

abbrev tcpFlagAck : UInt8 := 0x10

/-- `enum tcp_connection_state`. -/
inductive TcpState where
  | closed | listen | synSent | synackSent | established
  deriving DecidableEq, Repr

/-- `enum socket_states`. -/
inductive SocketState where
  | free | unbound | bound | wait | connected
  deriving DecidableEq, Repr

/-- `struct queued_packet`; the packet is the memory of its `struct tcp_packet`. -/
structure QueuedPacket where
  seq : UInt32
  size : Int
  pkt : Int → UInt8

/-- `struct tcp_connection`, without the two fields that no function uses. -/
structure TcpConnection where
  state : TcpState
  dstAddr : UInt32
  dstPort : UInt16
  pkts : Nat → QueuedPacket
  window : Queue
  baseSeq : UInt32
  nextSeq : UInt32
  ackSent : UInt32
  seqReceived : UInt32
  ackReceived : UInt32

/-- `struct socket`, without the type, which no function reads. `buffer` is the memory at
the buffer pointer, `allocated` says whether that pointer is not null.
-/
structure Socket where
  addr : UInt32
  port : UInt16
  waitqueue : Queue
  state : SocketState
  allocated : Bool
  buffer : Int → UInt8
  offset : Int
  end_ : Int
  tcon : TcpConnection

/-- `struct port`; a socket pointer is an index into `sockets`. -/
structure Port where
  pid : Int
  activeSocket : Option Nat
  passiveSocket : Option Nat

/-- `struct tcp_request`; the packet is the memory of its `struct tcp_packet`. -/
structure TcpRequest where
  clientIp : UInt32
  requestPacket : Int → UInt8

def QueuedPacket.zero : QueuedPacket :=
  { seq := 0, size := 0, pkt := fun _ => 0 }

def Queue.zero : Queue :=
  { front := 0, rear := 0, size := 0, A := fun _ => 0 }

def TcpConnection.zero : TcpConnection :=
  { state := .closed, dstAddr := 0, dstPort := 0, pkts := fun _ => .zero, window := .zero,
    baseSeq := 0, nextSeq := 0, ackSent := 0, seqReceived := 0, ackReceived := 0 }

/-- The socket that `memset(s, 0, sizeof(struct socket))` leaves. -/
def Socket.zero : Socket :=
  { addr := 0, port := 0, waitqueue := .zero, state := .free, allocated := false,
    buffer := fun _ => 0, offset := 0, end_ := 0, tcon := .zero }

/-- `enum entry_status`. -/
inductive ArpStatus where
  | empty | used | requested
  deriving DecidableEq, Repr

/-- `struct arp_entry`. -/
structure ArpEntry where
  ip : UInt32
  mac : List UInt8
  validUntil : UInt32
  status : ArpStatus

/-- The sleep channels of the network stack: the address of a port and of an ARP slot. -/
inductive Chan where
  | port (p : Nat)
  | arp (i : Nat)
  deriving DecidableEq, Repr

/-- `enum procstate`. -/
inductive ProcState where
  | unused | embryo | sleeping | runnable | running | zombie
  deriving DecidableEq, Repr

/-- The fields of `struct proc` that the socket layer uses. -/
structure Proc where
  state : ProcState
  chan : Option Chan
  killed : Bool
  ofile : Nat → Option Nat

/-- The descriptor types of `struct file`. -/
inductive FdType where
  | none | pipe | inode | socket
  deriving DecidableEq, Repr

/-- The fields of `struct file` that the socket layer uses. -/
structure File where
  type : FdType
  ref : Int
  socket : Option Nat

/-- `struct icmp_reply_packet`. -/
structure IcmpReplyPacket where
  size : Int
  srcIp : UInt32
  seqNo : UInt16

/-- The kernel state of one host. Processes are indexed by their slot of `ptable`, which
stands for the pid as well: a port's pid is only ever compared with -1.
-/
structure Kernel where
  mac : List UInt8
  myip : UInt32
  netmask : UInt32
  gateway : UInt32
  ticks : UInt32
  arp : Nat → ArpEntry
  icmpEchoReplyReceived : Int
  icmpReplyPktInfo : IcmpReplyPacket
  ports : Nat → Port
  sockets : Nat → Socket
  requests : Nat → TcpRequest
  files : Nat → File
  procs : Nat → Proc

/-- The state that `portinit` and `socketinit` leave at boot. -/
def Kernel.boot (myip netmask gateway : UInt32) : Kernel :=
  { mac := List.replicate 6 0
    myip, netmask, gateway
    ticks := 0
    arp := fun _ => { ip := 0, mac := List.replicate 6 0, validUntil := 0, status := .empty }
    icmpEchoReplyReceived := 0
    icmpReplyPktInfo := { size := 0, srcIp := 0, seqNo := 0 }
    ports := fun _ => { pid := -1, activeSocket := none, passiveSocket := none }
    sockets := fun _ => .zero
    requests := fun _ => { clientIp := 0, requestPacket := fun _ => 0 }
    files := fun _ => { type := .none, ref := 0, socket := none }
    procs := fun _ => { state := .unused, chan := none, killed := false, ofile := fun _ => none } }

/-- What a call finds in memory that the kernel state does not determine: the received
packet, the previous contents of an uninitialised `struct tcp_packet` on the stack, and the
page that `kalloc` returns (`none` when memory is exhausted).
-/
structure Env where
  frame : Int → UInt8
  stale : Int → UInt8
  kalloc : Option (Int → UInt8)

/-- What a run of kernel code is observed to do, apart from the state it leaves. -/
inductive Event where
  /-- `count` bytes of the received packet are read from `addr` on. -/
  | read (addr : Int) (count : Nat)
  /-- A length is computed from received fields. -/
  | length (n : Int)
  /-- `memmove` of `count` bytes to `sockets[s].buffer + start`. -/
  | bufferCopy (s : Nat) (start count : Int)
  /-- `memmove` of these bytes out of `sockets[s].buffer` to the caller. -/
  | copyOut (s : Nat) (bytes : List UInt8)
  /-- A request is stored at `requests[i]`. -/
  | requestStore (i : Nat)
  /-- `ip_send(protocol, payload, src_ip, dst_ip, size)`. -/
  | ipSend (protocol : UInt8) (payload : List UInt8) (srcIp dstIp : UInt32) (size : Int)
  /-- `ether_send(destMAC, type, payload, plen)`. -/
  | etherSend (destMac : List UInt8) (type : UInt16) (payload : List UInt8)

/-- Kernel code. -/
abbrev KernelM := Program Env Kernel Event

namespace Kernel

@[simps -fullyApplied sockets ports requests myip procs files]
def setSocket (k : Kernel) (s : Nat) (f : Socket → Socket) : Kernel :=
  { k with sockets := update k.sockets s (f (k.sockets s)) }

def setTcon (k : Kernel) (s : Nat) (f : TcpConnection → TcpConnection) : Kernel :=
  k.setSocket s (fun socket => { socket with tcon := f socket.tcon })

@[simps -fullyApplied sockets ports requests myip procs files]
def setPort (k : Kernel) (p : Nat) (f : Port → Port) : Kernel :=
  { k with ports := update k.ports p (f (k.ports p)) }

@[simps -fullyApplied sockets ports requests myip procs files]
def setProc (k : Kernel) (pid : Nat) (f : Proc → Proc) : Kernel :=
  { k with procs := update k.procs pid (f (k.procs pid)) }

def setArp (k : Kernel) (i : Nat) (f : ArpEntry → ArpEntry) : Kernel :=
  { k with arp := update k.arp i (f (k.arp i)) }

@[simps -fullyApplied sockets ports requests myip procs files]
def setFile (k : Kernel) (i : Nat) (f : File → File) : Kernel :=
  { k with files := update k.files i (f (k.files i)) }

/-- `wakeup(chan)`: every process sleeping on the channel becomes runnable. -/
@[simps -fullyApplied sockets ports requests myip files]
def wakeup (k : Kernel) (chan : Chan) : Kernel :=
  { k with
    procs := fun pid =>
      let p := k.procs pid
      if p.state = .sleeping ∧ p.chan = some chan then { p with state := .runnable } else p }

section

variable (k : Kernel) (s : Nat) (f : TcpConnection → TcpConnection)
include k s f

@[simp]
theorem setTcon_ports : (k.setTcon s f).ports = k.ports := rfl

@[simp]
theorem setTcon_requests : (k.setTcon s f).requests = k.requests := rfl

@[simp]
theorem setTcon_myip : (k.setTcon s f).myip = k.myip := rfl

@[simp]
theorem setTcon_procs : (k.setTcon s f).procs = k.procs := rfl

@[simp]
theorem setTcon_files : (k.setTcon s f).files = k.files := rfl

end

@[simp]
theorem setSocket_setSocket (k : Kernel) (s : Nat) (f g : Socket → Socket)
    : (k.setSocket s f).setSocket s g = k.setSocket s (fun socket => g (f socket)) := by
  simp [setSocket]

@[simp]
theorem setTcon_setTcon (k : Kernel) (s : Nat) (f g : TcpConnection → TcpConnection)
    : (k.setTcon s f).setTcon s g = k.setTcon s (fun tcon => g (f tcon)) := by
  simp [setTcon]

theorem setTcon_sockets (k : Kernel) (s : Nat) (f : TcpConnection → TcpConnection)
    : (k.setTcon s f).sockets
      = update k.sockets s
          { k.sockets s with tcon := f (k.sockets s).tcon } :=
  rfl

end Kernel

end Xv6Net
