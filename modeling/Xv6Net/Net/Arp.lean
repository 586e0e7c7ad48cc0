import Xv6Net.Tcp.Receive

/-! The ARP cache: `arp_search`, `arp_alloc`, `arp_add`, `arp_receive` and `arp_resolve`. The
cache lock is held throughout each of them; `arp_resolve` is modelled up to the point where
it returns or goes to sleep.
-/

namespace Xv6Net

open Library Memory

abbrev arpCacheSize : Nat := 10

abbrev arpTtlTicks : UInt32 := 20 * 60 * 100

/-- `HADDR_SIZE` and `MAC_SIZE`. -/
abbrev haddrSize : Int := 6

abbrev ethernetTypeIp : UInt16 := 0x0800

abbrev ethernetTypeArp : UInt16 := 0x0806

/-- `arp_search`; -1 is `none`. -/
def arpSearch (k : Kernel) (ip : UInt32) : Option Nat :=
  (List.range arpCacheSize).find? fun i =>
    (k.arp i).ip = ip ∧ (k.arp i).status = .used ∧ k.ticks ≤ (k.arp i).validUntil

/-- The entry with which the loops that look for a requested address stop. -/
def arpRequested (k : Kernel) (ip : UInt32) : Option Nat :=
  (List.range arpCacheSize).find? fun i => (k.arp i).ip = ip ∧ (k.arp i).status = .requested

/-- The first loop of `arp_alloc`: an empty or a timed out entry. -/
def arpFree (k : Kernel) : Option Nat :=
  (List.range arpCacheSize).find? fun i =>
    (k.arp i).status = .empty ∨ ((k.arp i).status = .used ∧ (k.arp i).validUntil < k.ticks)

/-- The second loop of `arp_alloc`: the oldest entry that nobody waits for. -/
def arpOldest (k : Kernel) : Option Nat :=
  ((List.range arpCacheSize).foldl
    (fun (minticks, iMin) i =>
      if (k.arp i).status ≠ .requested ∧ (k.arp i).validUntil < minticks then
        ((k.arp i).validUntil, some i)
      else
        (minticks, iMin))
    ((0xffffffff : UInt32), none)).2

/-- `arp_alloc`, which panics when every entry is waited for. -/
def arpAlloc : KernelM Nat := do
  let k ← Program.get
  match (arpFree k).or (arpOldest k) with
  | none => Program.stop
  | some i =>
    Program.modify (·.setArp i fun entry => { entry with status := .empty })
    pure i

/-- The mapping is stored with the time until which it is valid. -/
def arpStore (i : Nat) (ip : UInt32) (mac : Int) : KernelM Unit := do
  Program.modify (·.setArp i fun entry => { entry with ip })
  let haddr ← rxBytes mac haddrSize
  Program.modify fun k =>
    k.setArp i fun entry =>
      { entry with mac := haddr, validUntil := k.ticks + arpTtlTicks, status := .used }

/-- `arp_add`, for a hardware address that is part of the received frame. -/
def arpAdd (ip : UInt32) (mac : Int) : KernelM Unit := do
  let k ← Program.get
  match arpSearch k ip with
  | some _ => pure ()
  | none =>
    match arpRequested k ip with
    | some i =>
      arpStore i ip mac
      Program.modify (·.wakeup (.arp i))
    | none =>
      let i ← arpAlloc
      arpStore i ip mac

/-- The fields of `struct arp_packet` in the order they are sent. -/
def arpPacket (op : UInt16) (senderHaddr : List UInt8) (senderPaddr : UInt32)
    (targetHaddr : List UInt8) (targetPaddr : UInt32)
    : List UInt8 :=
  bytes16 (htons 1) ++ bytes16 (htons ethernetTypeIp) ++ [6, 4] ++ bytes16 (htons op)
    ++ senderHaddr ++ bytes32 senderPaddr ++ targetHaddr ++ bytes32 targetPaddr

def arpReply (arpPkt : Int) : KernelM Unit := do
  let k ← Program.get
  let target := htonl (← rxLoad32 (arpPkt + 24))
  if target ≠ k.myip then
    pure ()
  else
    let haddr ← rxBytes (arpPkt + 8) haddrSize
    let paddr ← rxLoad32 (arpPkt + 14)
    let destMac ← rxBytes (arpPkt + 8) haddrSize
    Program.emit
      (.etherSend destMac ethernetTypeArp (arpPacket 2 k.mac (htonl k.myip) haddr paddr))

def arpReceive (arpPkt : Int) : KernelM Unit := do
  if htons (← rxLoad16 (arpPkt + 6)) = 1 then
    arpReply arpPkt
  else if htons (← rxLoad16 (arpPkt + 6)) = 2 then
    let ip := htonl (← rxLoad32 (arpPkt + 14))
    let k ← Program.get
    match arpRequested k ip with
    | none => pure ()
    | some i =>
      let haddr ← rxBytes (arpPkt + 8) haddrSize
      Program.modify fun k =>
        k.setArp i fun entry =>
          { entry with mac := haddr, validUntil := k.ticks + arpTtlTicks, status := .used }
      Program.modify (·.wakeup (.arp i))
  else
    pure ()

def arpRequest (ip : UInt32) : KernelM Unit := do
  let k ← Program.get
  Program.emit (.etherSend (List.replicate 6 0xff) ethernetTypeArp
    (arpPacket 1 k.mac (htonl k.myip) (List.replicate 6 0) (htonl ip)))

/-- The address that `arp_resolve` looks for: the gateway stands for hosts off the link. -/
def Kernel.nextHop (k : Kernel) (ip : UInt32) : UInt32 :=
  if ip &&& k.netmask ≠ k.myip &&& k.netmask then k.gateway else ip

/-- Where `arp_resolve` gives up the cache lock: it returns the address stored in a slot, or
sleeps on a slot.
-/
inductive ArpLookup where
  | found (i : Nat)
  | sleeps (i : Nat)
  deriving DecidableEq, Repr

def arpResolve (ip : UInt32) : KernelM ArpLookup := do
  let k ← Program.get
  let ip := k.nextHop ip
  match arpSearch k ip with
  | some i => pure (.found i)
  | none =>
    match arpRequested k ip with
    | some i => pure (.sleeps i)
    | none =>
      let i ← arpAlloc
      Program.modify (·.setArp i fun entry => { entry with ip })
      Program.modify (·.setArp i fun entry => { entry with status := .requested })
      arpRequest ip
      pure (.sleeps i)

end Xv6Net
