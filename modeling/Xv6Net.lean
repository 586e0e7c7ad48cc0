import Xv6Net.Fs.BufferRing
import Xv6Net.Fs.CacheCoherence
import Xv6Net.Fs.CallReferences
import Xv6Net.Fs.CrashConsistency
import Xv6Net.Fs.DirectoryMap
import Xv6Net.Fs.IdeQueue
import Xv6Net.Fs.PathElements
import Xv6Net.Fs.TransactionSize
import Xv6Net.Kernel.Checksum
import Xv6Net.Kernel.Console
import Xv6Net.Kernel.CopyOut
import Xv6Net.Kernel.DottedDecimal
import Xv6Net.Kernel.Kill
import Xv6Net.Kernel.MemMove
import Xv6Net.Kernel.PipeWakeup
import Xv6Net.Kernel.ProcessLifecycle
import Xv6Net.Kernel.QueueRefinement
import Xv6Net.Net.ArpPointers
import Xv6Net.Net.NextHop
import Xv6Net.Net.Ping
import Xv6Net.Net.RxInterrupt
import Xv6Net.Socket.AcceptedRequests
import Xv6Net.Socket.FailedCalls
import Xv6Net.Socket.Handshake
import Xv6Net.Socket.Incarnations
import Xv6Net.Tcp.AckProcessing
import Xv6Net.Tcp.Isolation
import Xv6Net.Tcp.Segmentation
import Xv6Net.Tcp.StaleMemory
import Xv6Net.Tcp.WireChecksum
import Xv6Net.User.Grep
import Xv6Net.User.Malloc
