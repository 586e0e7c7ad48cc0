import Xv6Net.Library.Ring
import Xv6Net.Net.PacketBounds

/-! The receive ring of the RTL8139: the card writes packets into `rx_ring`,
`rtl8139_receive` takes them out one by one. The queue of unread packets says what the two
are for. They part where a packet runs over the end of the ring and where a bad packet is not
at its start.
-/

namespace Xv6Net

open Library Memory Transition

abbrev rxBufLen : Nat := 8192

/-- The part of `struct nic` that the receiver uses, with the register CurAddrPacket of the
card. The array `rx_ring` has 16 bytes behind the ring.
-/
structure Nic where
  rxRing : Int → UInt8
  curRx : UInt32
  packetsReceivedGood : UInt8
  byteReceived : UInt8
  curAddrPacket : UInt16

/-- What the receiver does: it reads or writes a range of `rx_ring`, writes the register Cmd,
or calls `ether_receive` with a range of `rx_ring`, which has these contents.
-/
inductive RxEvent where
  | read (addr : Int) (count : Nat)
  | write (addr : Int) (count : Nat)
  | cmd (value : UInt8)
  | etherReceive (pIncomePkt : Int) (pktLength : Nat) (bytes : List UInt8)

/-- A program of the driver; the environment is the value of the register Cmd. -/
abbrev NicM := Program UInt8 Nic RxEvent

/-- `RxBufEmpty`. -/
def rxBufEmpty : UInt8 := 0x01

/-- `CmdTxEnb | CmdRxEnb`. -/
def cmdEnable : UInt8 := 0x04 ||| 0x08

/-- `cur_rx` moves behind the packet, to a multiple of four; the card is told. -/
def advanceRx (rxSize : UInt32) (nic : Nic) : Nic :=
  let curRx := (nic.curRx + rxSize + 4 + 3) &&& ~~~ 3
  { nic with curRx, curAddrPacket := (curRx - 0x10).toUInt16 }

/-- The copy that is meant for a packet behind the end of the ring. -/
def wrapAround (count : Nat) : NicM Unit := do
  Program.emit (.read rxBufLen count)
  Program.emit (.write 0 count)
  Program.modify fun nic =>
    { nic with rxRing := overlay nic.rxRing 0 (slice nic.rxRing rxBufLen count) }

def rtl8139Receive : NicM Int := do
  let tmpCmd ← Program.env
  Program.modify fun nic => { nic with curRx := nic.curRx % 8192 }
  let nic ← Program.get
  Program.emit (.read nic.curRx.toNat 4)
  let rxStatus := load32 nic.rxRing nic.curRx.toNat
  let rxSize := rxStatus >>> 16
  let pktLength := rxSize - 4
  if tmpCmd &&& rxBufEmpty = 0 then
    let pIncomePkt : Int := nic.curRx.toNat + 4
    if packetOK rxStatus rxSize pktLength then
      if nic.curRx + pktLength > 8192 then
        wrapAround (nic.curRx + pktLength - 8192).toNat
      Program.modify (advanceRx rxSize)
      Program.modify fun nic =>
        { nic with
          packetsReceivedGood := nic.packetsReceivedGood + 1
          byteReceived := nic.byteReceived + pktLength.toUInt8 }
      let nic ← Program.get
      Program.emit (.etherReceive pIncomePkt pktLength.toNat
        (slice nic.rxRing pIncomePkt pktLength.toNat))
    else
      Program.modify fun nic => { nic with curRx := 0 }
      Program.emit (.cmd (tmpCmd ||| cmdEnable))
      Program.modify (advanceRx rxSize)
  return 1

/-- A packet as the card stores it; the last four bytes are the CRC. -/
structure RxPacket where
  status : UInt16
  bytes : List UInt8
  short : bytes.length < 65536

namespace RxPacket

variable (p : RxPacket)

def cells : List UInt8 :=
  bytes16 p.status ++ bytes16 (UInt16.ofNat p.bytes.length) ++ p.bytes

/-- The room that the packet takes in the ring: a multiple of four. -/
def span : Nat := (p.bytes.length + 4 + 3) / 4 * 4

def word : UInt32 := UInt32.ofNat (p.status.toNat + 65536 * p.bytes.length)

/-- The status and the length are those of a packet for the upper layers. -/
def Good : Prop := packetOK p.word (p.word >>> 16) (p.word >>> 16 - 4) = true

instance : Decidable p.Good := inferInstanceAs (Decidable (_ = true))

def frame : List UInt8 := p.bytes.take (p.bytes.length - 4)

end RxPacket

/-- The driver, the place in the ring where the card will write and all that was done. -/
structure RxSys where
  nic : Nic
  rxBufAddr : Nat
  log : List RxEvent

namespace RxSys

variable (s : RxSys)

/-- The place up to which the driver has read, as the card knows it. -/
def readPlace : Nat := (s.nic.curAddrPacket.toNat + 0x10) % rxBufLen

def cmd : UInt8 :=
  if s.rxBufAddr = s.readPlace then cmdEnable ||| rxBufEmpty else cmdEnable

/-- The packet does not reach the place up to which the driver has read. -/
def Room (p : RxPacket) : Prop :=
  (rxBufLen + s.rxBufAddr - s.readPlace) % rxBufLen + p.span < rxBufLen

instance (p : RxPacket) : Decidable (s.Room p) := inferInstanceAs (Decidable (_ < _))

end RxSys

/-- The card stores a packet, or the driver is called. -/
inductive RxAction where
  | store (p : RxPacket)
  | receive

def RxSys.step (s : RxSys) : RxAction → Option RxSys
  | .store p =>
    if s.Room p then
      some
        { s with
          nic := { s.nic with rxRing := Ring.write rxBufLen s.nic.rxRing s.rxBufAddr p.cells }
          rxBufAddr := (s.rxBufAddr + p.span) % rxBufLen }
    else
      none
  | .receive =>
    let out := rtl8139Receive.run s.cmd s.nic
    some { s with nic := out.state, log := s.log ++ out.log }

/-- The card and the driver after `rtl8139_reset`, with anything in the array. -/
def RxSys.reset (rxRing : Int → UInt8) : RxSys :=
  { nic := { rxRing, curRx := 0, packetsReceivedGood := 0, byteReceived := 0,
             curAddrPacket := 0xfff0 }
    rxBufAddr := 0
    log := [] }

/-- What the ring is for: the packets stored and not yet taken, the frames handed up, and the room
that the packets taken had.
-/
structure RxQueue where
  unread : List RxPacket
  handed : List (List UInt8)
  start : Nat

def RxQueue.note (q : RxQueue) : RxAction → RxQueue
  | .store p => { q with unread := q.unread ++ [p] }
  | .receive =>
    match q.unread with
    | [] => q
    | p :: rest =>
      { unread := rest
        handed := q.handed ++ (if p.Good then [p.frame] else [])
        start := q.start + p.span }

def ringStep : RxSys × RxQueue → RxAction → Option (RxSys × RxQueue) :=
  withHistory RxSys.step fun _ action q => q.note action

/-- The range is inside the array `rx_ring`. -/
def RxEvent.Inside : RxEvent → Prop
  | .read addr count | .write addr count | .etherReceive addr count _ =>
    0 ≤ addr ∧ addr + count ≤ rxBufLen + 16
  | .cmd _ => True

instance : DecidablePred RxEvent.Inside
  | .read _ _ | .write _ _ | .etherReceive _ _ _ => inferInstanceAs (Decidable (_ ∧ _))
  | .cmd _ => isTrue trivial

def RxEvent.frame : RxEvent → Option (List UInt8)
  | .etherReceive _ _ bytes => some bytes
  | _ => none

/-- Exactly the good frames were handed up, the driver is at the first unread packet, and it
has kept to its array.
-/
structure RxOk (s : RxSys) (q : RxQueue) : Prop where
  handed : s.log.filterMap RxEvent.frame = q.handed
  place : s.nic.curRx.toNat % rxBufLen = q.start % rxBufLen
  inside : ∀ event ∈ s.log, event.Inside

/-- A good packet ends inside the ring, a bad one is at its start. -/
def Placed (position : Nat) (p : RxPacket) : Prop :=
  (p.Good → position % rxBufLen + p.bytes.length ≤ rxBufLen)
  ∧ (¬ p.Good → position % rxBufLen = 0)

/-- The card stores packets only where the driver can read them. -/
def RxFits (current : RxSys × RxQueue) : RxAction → Prop
  | .store p => Placed current.1.rxBufAddr p
  | .receive => True

instance (position : Nat) (p : RxPacket) : Decidable (Placed position p) :=
  inferInstanceAs (Decidable (_ ∧ _))

instance : ∀ current action, Decidable (RxFits current action)
  | _, .store _ => inferInstanceAs (Decidable (Placed _ _))
  | _, .receive => isTrue trivial

theorem toNat_and_not_three (x : UInt32) : (x &&& ~~~ 3).toNat = x.toNat / 4 * 4 := by
  have mask : (~~~ 3 : UInt32).toNat = 2 ^ 32 - 2 ^ 2 := rfl
  exact (UInt32.toNat_and _ _).trans (mask ▸ and_high_mask (by decide) x.toNat_lt)

namespace RxPacket

variable (p : RxPacket)

theorem length_cells : p.cells.length = p.bytes.length + 4 := by
  simp [cells]
  omega

theorem length_cells_le_span : p.cells.length ≤ p.span := by
  rw [length_cells, span]
  omega

theorem toNat_word : p.word.toNat = p.status.toNat + 65536 * p.bytes.length := by
  have status := p.status.toNat_lt
  have size := p.short
  rw [word, UInt32.toNat_ofNat', Nat.mod_eq_of_lt (by omega)]

theorem toNat_size : (p.word >>> 16).toNat = p.bytes.length := by
  have status := p.status.toNat_lt
  rw [UInt32.toNat_shiftRight, toNat_word, Nat.shiftRight_eq_div_pow]
  have shift : (16 : UInt32).toNat % 32 = 16 := rfl
  rw [shift]
  omega

variable {p}

theorem Good.lengths (good : p.Good)
    : 64 ≤ p.bytes.length
      ∧ p.bytes.length ≤ 1518
      ∧ (p.word >>> 16 - 4).toNat = p.bytes.length - 4 := by
  obtain ⟨long, short⟩ := packetOK_length good
  have size := p.toNat_size
  have fits := p.short
  have four : (4 : UInt32).toNat = 4 := rfl
  rw [UInt32.toNat_sub, size, four] at long short ⊢
  omega

end RxPacket

theorem load32_of_holds {ring : Int → UInt8} {position : Nat} {p : RxPacket}
    (holds : Ring.Holds 8192 ring position p.cells) (aligned : position % 4 = 0)
    : load32 ring (position % 8192 : Nat) = p.word := by
  have size := p.short
  have status : slice ring (position % 8192 : Nat) 2 = bytes16 p.status :=
    holds.slice 0 2 (by rw [p.length_cells]; omega) (by omega)
  have length : slice ring ((position % 8192 : Nat) + 2) 2
      = bytes16 (UInt16.ofNat p.bytes.length) :=
    holds.slice 2 2 (by rw [p.length_cells]; omega) (by omega)
  have low := load16_toNat ring (position % 8192 : Nat)
  have high := load16_toNat ring ((position % 8192 : Nat) + 2)
  rw [load16_of_slice status] at low
  rw [load16_of_slice length, UInt16.toNat_ofNat', Nat.mod_eq_of_lt (by omega)] at high
  apply UInt32.toNat_inj.mp
  rw [p.toNat_word, load32_toNat, low, high]
  simp only [add_assoc, Int.reduceAdd]
  omega

theorem advanceRx_place (p : RxPacket) {nic : Nic} {start : Nat} (aligned : start % 4 = 0)
    (here : nic.curRx.toNat = start % 8192)
    : (advanceRx (p.word >>> 16) nic).curRx.toNat % 8192 = (start + p.span) % 8192
      ∧ ((advanceRx (p.word >>> 16) nic).curAddrPacket.toNat + 0x10) % 8192
        = (advanceRx (p.word >>> 16) nic).curRx.toNat % 8192 := by
  have short := p.short
  have size := p.toNat_size
  have sum : (nic.curRx + p.word >>> 16 + 4 + 3).toNat
      = start % 8192 + p.bytes.length + 4 + 3 := by
    simp only [UInt32.toNat_add, UInt32.reduceToNat, here, size]
    omega
  constructor
  · rw [advanceRx, toNat_and_not_three, sum, RxPacket.span]
    omega
  · simp only [advanceRx, UInt32.toNat_toUInt16, UInt32.toNat_sub, UInt32.reduceToNat]
    omega

section

variable {cmd : UInt8} {nic : Nic} {cur : UInt32}

theorem rtl8139Receive_empty (empty : cmd &&& rxBufEmpty ≠ 0) (here : nic.curRx % 8192 = cur)
    : rtl8139Receive.run cmd nic
      = ⟨some 1, { nic with curRx := cur }, [.read cur.toNat 4]⟩ := by
  simp only [rtl8139Receive, run_bind, run_ite, run_env, run_get, run_modify, run_emit, run_pure,
    andThen_some, empty, if_false, here]
  rfl

theorem rtl8139Receive_good {p : RxPacket} (pending : cmd &&& rxBufEmpty = 0)
    (here : nic.curRx % 8192 = cur) (header : load32 nic.rxRing cur.toNat = p.word)
    (good : p.Good) (straight : cur.toNat + p.bytes.length ≤ 8192)
    : rtl8139Receive.run cmd nic
      = ⟨some 1,
          { advanceRx (p.word >>> 16) { nic with curRx := cur } with
            packetsReceivedGood := nic.packetsReceivedGood + 1
            byteReceived := nic.byteReceived + (p.word >>> 16 - 4).toUInt8 },
          [.read cur.toNat 4,
            .etherReceive (cur.toNat + 4) (p.bytes.length - 4)
              (slice nic.rxRing (cur.toNat + 4) (p.bytes.length - 4))]⟩ := by
  have accepted : packetOK p.word (p.word >>> 16) (p.word >>> 16 - 4) = true := good
  obtain ⟨-, -, length⟩ := good.lengths
  have before : ¬ cur + (p.word >>> 16 - 4) > 8192 := by
    rw [gt_iff_lt, UInt32.lt_iff_toNat_lt, UInt32.toNat_add, length]
    simp only [UInt32.reduceToNat]
    omega
  simp only [rtl8139Receive, run_bind, run_ite, run_env, run_get, run_modify, run_emit, run_pure,
    andThen_some, pending, if_true, here, header, accepted, before, if_false, length]
  rfl

theorem rtl8139Receive_bad {p : RxPacket} (pending : cmd &&& rxBufEmpty = 0)
    (here : nic.curRx % 8192 = cur) (header : load32 nic.rxRing cur.toNat = p.word) (bad : ¬ p.Good)
    : rtl8139Receive.run cmd nic
      = ⟨some 1, advanceRx (p.word >>> 16) { nic with curRx := 0 },
          [.read cur.toNat 4, .cmd (cmd ||| cmdEnable)]⟩ := by
  have rejected : ¬ packetOK p.word (p.word >>> 16) (p.word >>> 16 - 4) = true := bad
  simp only [rtl8139Receive, run_bind, run_ite, run_env, run_get, run_modify, run_emit, run_pure,
    andThen_some, pending, if_true, here, header, rejected]
  rfl

end

/-- The unread packets lie in the ring one after the other, from where the driver has read up to
where the card will write.
-/
structure RingInv (s : RxSys) (q : RxQueue) : Prop where
  laid : Ring.Laid RxPacket.span
    (fun position p => Ring.Holds 8192 s.nic.rxRing position p.cells ∧ Placed position p)
    q.start q.unread
  aligned : q.start % 4 = 0
  room : Ring.extent RxPacket.span q.unread < 8192
  written : s.rxBufAddr = (q.start + Ring.extent RxPacket.span q.unread) % 8192
  read : s.readPlace = q.start % 8192
  ok : RxOk s q

theorem ringInv_reset (rxRing : Int → UInt8) : RingInv (RxSys.reset rxRing) ⟨[], [], 0⟩ :=
  ⟨trivial, rfl, Nat.zero_lt_succ _, rfl, by simp [RxSys.readPlace, RxSys.reset, rxBufLen],
    ⟨rfl, rfl, nofun⟩⟩

variable {s : RxSys} {q : RxQueue} {p : RxPacket}

theorem RingInv.store (inv : RingInv s q) (room : s.Room p) (placed : Placed s.rxBufAddr p)
    : RingInv
        { s with
          nic := { s.nic with rxRing := Ring.write 8192 s.nic.rxRing s.rxBufAddr p.cells }
          rxBufAddr := (s.rxBufAddr + p.span) % 8192 }
        { q with unread := q.unread ++ [p] } := by
  obtain ⟨laid, aligned, small, written, read, ok⟩ := inv
  have fits : Ring.extent RxPacket.span q.unread + p.span < 8192 := by
    rw [RxSys.Room, written, read] at room
    simp only [rxBufLen] at room
    omega
  have longer : Ring.extent RxPacket.span (q.unread ++ [p])
      = Ring.extent RxPacket.span q.unread + p.span := Ring.extent_append q.unread [p]
  have cells := p.length_cells_le_span
  have ring : Ring.write 8192 s.nic.rxRing s.rxBufAddr p.cells
      = Ring.write 8192 s.nic.rxRing (q.start + Ring.extent RxPacket.span q.unread) p.cells := by
    rw [written, Ring.write_mod]
  refine ⟨?_, aligned, by rw [longer]; exact fits, ?_, read, ⟨ok.handed, ok.place, ok.inside⟩⟩
  · simp only [ring]
    refine Ring.laid_append_singleton (laid.imp ?_) ⟨Ring.holds_write _ _ (by omega), ?_⟩
    · rintro here older behind before ⟨holds, place⟩
      refine ⟨?_, place⟩
      have size := older.length_cells_le_span
      have kept := holds.write p.cells
        (q.start + Ring.extent RxPacket.span q.unread - here) (by omega) (by omega)
      rwa [show here + (q.start + Ring.extent RxPacket.span q.unread - here)
        = q.start + Ring.extent RxPacket.span q.unread by omega] at kept
    · rw [written] at placed
      simpa only [Placed, rxBufLen, Nat.mod_mod] using placed
  · simp only [longer, written]
    omega

theorem RxOk.receive (ok : RxOk s q) {next : RxQueue} {nic : Nic} {log : List RxEvent}
    (handed : next.handed = q.handed ++ log.filterMap RxEvent.frame)
    (place : nic.curRx.toNat % 8192 = next.start % 8192) (inside : ∀ event ∈ log, event.Inside)
    : RxOk { s with nic, log := s.log ++ log } next := by
  refine ⟨?_, place, fun event member => ?_⟩
  · rw [List.filterMap_append, ok.handed, handed]
  · rcases List.mem_append.mp member with before | now
    · exact ok.inside event before
    · exact inside event now

theorem RingInv.place (inv : RingInv s q) : (s.nic.curRx % 8192).toNat = q.start % 8192 := by
  rw [UInt32.toNat_mod]
  exact inv.ok.place

theorem RingInv.header_inside (inv : RingInv s q)
    : RxEvent.Inside (.read (s.nic.curRx % 8192).toNat 4) := by
  rw [inv.place]
  simp only [RxEvent.Inside, rxBufLen]
  omega

theorem RingInv.pending_iff (inv : RingInv s q)
    : s.cmd &&& rxBufEmpty = 0 ↔ q.unread ≠ [] := by
  have written := inv.written
  have small := inv.room
  cases same : q.unread with
  | nil =>
    rw [same, Ring.extent_nil, add_zero] at written
    rw [RxSys.cmd, if_pos (written.trans inv.read.symm)]
    decide
  | cons p rest =>
    have positive : 0 < p.span := by
      rw [RxPacket.span]
      omega
    rw [same, Ring.extent_cons] at written small
    rw [RxSys.cmd, if_neg (by rw [written, inv.read]; omega)]
    exact iff_of_true (by decide) (List.cons_ne_nil p rest)

theorem RingInv.receive_empty (inv : RingInv s q) (nothing : q.unread = [])
    : RingInv
        { s with
          nic := (rtl8139Receive.run s.cmd s.nic).state
          log := s.log ++ (rtl8139Receive.run s.cmd s.nic).log }
        q := by
  have empty : s.cmd &&& rxBufEmpty ≠ 0 := fun pending => inv.pending_iff.mp pending nothing
  rw [rtl8139Receive_empty empty rfl]
  refine ⟨inv.laid, inv.aligned, inv.room, inv.written, inv.read, inv.ok.receive ?_ ?_ ?_⟩
  · simp [RxEvent.frame]
  · rw [inv.place, Nat.mod_mod]
  · simpa using inv.header_inside

variable {rest : List RxPacket} {handed : List (List UInt8)} {start : Nat}

section

variable (inv : RingInv s ⟨p :: rest, handed, start⟩)
include inv

/-- A call takes the first packet, if it hands up the frame of a good one and leaves the
driver behind it.
-/
theorem RingInv.take {nic : Nic} {log : List RxEvent} (ring : nic.rxRing = s.nic.rxRing)
    (next : nic.curRx.toNat % 8192 = (start + p.span) % 8192)
    (told : (nic.curAddrPacket.toNat + 0x10) % 8192 = nic.curRx.toNat % 8192)
    (frames : log.filterMap RxEvent.frame = if p.Good then [p.frame] else [])
    (inside : ∀ event ∈ log, event.Inside)
    : RingInv { s with nic, log := s.log ++ log }
        (RxQueue.note ⟨p :: rest, handed, start⟩ .receive) := by
  obtain ⟨laid, aligned, small, written, read, ok⟩ := inv
  simp only [Ring.extent_cons, ← Nat.add_assoc] at laid aligned small written read
  refine ⟨?_, ?_, ?_, written, told.trans next, ok.receive ?_ next inside⟩
  · simp only [ring]
    exact laid.2
  · simp only [RxQueue.note, RxPacket.span]
    omega
  · simp only [RxQueue.note]
    omega
  · rw [frames]
    rfl

theorem RingInv.receive
    : RingInv
        { s with
          nic := (rtl8139Receive.run s.cmd s.nic).state
          log := s.log ++ (rtl8139Receive.run s.cmd s.nic).log }
        (RxQueue.note ⟨p :: rest, handed, start⟩ .receive) := by
  have holds : Ring.Holds 8192 s.nic.rxRing start p.cells := inv.laid.1.1
  have aligned : start % 4 = 0 := inv.aligned
  have pending : s.cmd &&& rxBufEmpty = 0 := inv.pending_iff.mpr (List.cons_ne_nil p rest)
  have inside := inv.header_inside
  obtain ⟨cur, here⟩ : ∃ cur, s.nic.curRx % 8192 = cur := ⟨_, rfl⟩
  have place : cur.toNat = start % 8192 := here ▸ inv.place
  rw [here] at inside
  have header : load32 s.nic.rxRing cur.toNat = p.word := by
    rw [place]
    exact load32_of_holds holds aligned
  by_cases good : p.Good
  · have straight : start % 8192 + p.bytes.length ≤ 8192 := inv.laid.1.2.1 good
    obtain ⟨long, short, -⟩ := good.lengths
    have frame : slice s.nic.rxRing (cur.toNat + 4) (p.bytes.length - 4) = p.frame := by
      rw [place]
      refine (holds.slice 4 _ (by rw [p.length_cells]; omega) (by omega)).trans ?_
      rfl
    obtain ⟨next, told⟩ := @advanceRx_place p { s.nic with curRx := cur } start aligned place
    rw [rtl8139Receive_good pending here header good (place ▸ straight), frame]
    refine inv.take rfl next told ?_ ?_
    · rw [if_pos good]
      rfl
    · simp only [List.mem_cons, List.not_mem_nil, or_false, forall_eq_or_imp, forall_eq]
      refine ⟨inside, ?_⟩
      simp only [RxEvent.Inside, rxBufLen]
      omega
  · have atStart : start % 8192 = 0 := inv.laid.1.2.2 good
    obtain ⟨next, told⟩ := @advanceRx_place p { s.nic with curRx := 0 } start aligned atStart.symm
    rw [rtl8139Receive_bad pending here header good]
    refine inv.take rfl next told ?_ ?_
    · rw [if_neg good]
      rfl
    · simp only [List.mem_cons, List.not_mem_nil, or_false, forall_eq_or_imp, forall_eq]
      exact ⟨inside, trivial⟩

end

/-- Every step at which the card stores a packet where the driver can read it is a step of
the queue.
-/
theorem RingInv.step {current next : RxSys × RxQueue} {action : RxAction}
    (inv : RingInv current.1 current.2) (fits : RxFits current action)
    (taken : ringStep current action = some next)
    : RingInv next.1 next.2 := by
  obtain ⟨s, q⟩ := current
  obtain ⟨stepped, noted⟩ := withHistory_eq_some taken
  rw [noted]
  cases action with
  | store =>
    simp only [RxSys.step] at stepped
    split at stepped
    · rename_i room
      rw [← Option.some.inj stepped]
      exact inv.store room fits
    · cases stepped
  | receive =>
    rw [← Option.some.inj stepped]
    obtain ⟨unread, handed, start⟩ := q
    cases unread with
    | nil => exact inv.receive_empty rfl
    | cons => exact inv.receive

/-- As long as every good packet is stored in one piece and every bad one at the start of the
ring, the driver hands up exactly the good frames in order, its place is the start of the
first unread packet, and it keeps to its array.
-/
theorem rx_ring_faithful (rxRing : Int → UInt8) (actions : List RxAction)
    (fits : Along ringStep RxFits (RxSys.reset rxRing, ⟨[], [], 0⟩) actions)
    : Throughout ringStep (fun current => RxOk current.1 current.2)
        (RxSys.reset rxRing, ⟨[], [], 0⟩) actions := by
  have inv : Throughout ringStep (fun current => RingInv current.1 current.2) _ actions :=
    fits.invariant (ringInv_reset rxRing) fun _ _ _ inv guard taken => inv.step guard taken
  exact inv.mono fun _ inv => inv.ok

set_option maxRecDepth 20000

/-- A packet of zeros whose frame has the shortest length. -/
def shortPacket (status : UInt16) : RxPacket :=
  { status, bytes := List.replicate 64 0, short := by decide }

/-- A good packet of zeros whose frame has the greatest length. -/
def longPacket : RxPacket :=
  { status := 0x0001, bytes := List.replicate 1518 0, short := by decide }

/-- A good packet and, behind it, one with a CRC error. -/
def badSecond : List RxAction :=
  [.store (shortPacket 0x0001), .receive, .store (shortPacket 0x0005), .receive]

/-- Six packets of the greatest length; the last one runs over the end of the ring. -/
def sixLong : List RxAction :=
  (List.replicate 6 [.store longPacket, .receive]).flatten

/-- Behind the bad packet the driver is at the place where that packet is; of the packet that
runs over the end it reads what is behind the array.
-/
theorem rx_ring_parts
    : ¬ Throughout ringStep (fun current => RxOk current.1 current.2)
          (RxSys.reset (fun _ => 0), ⟨[], [], 0⟩) badSecond
      ∧ ¬ Throughout ringStep (fun current => RxOk current.1 current.2)
          (RxSys.reset (fun _ => 0), ⟨[], [], 0⟩) sixLong := by
  refine ⟨fun always => ?_, fun always => ?_⟩
  · have final : (exec ringStep (RxSys.reset (fun _ => 0), ⟨[], [], 0⟩) badSecond).map
        (fun current =>
          decide (current.1.nic.curRx.toNat % rxBufLen = current.2.start % rxBufLen))
        = some false := by decide +kernel
    obtain ⟨reached, run, wrong⟩ := Option.map_eq_some_iff.mp final
    exact of_decide_eq_false wrong (always.finish run).place
  · have final : (exec ringStep (RxSys.reset (fun _ => 0), ⟨[], [], 0⟩) sixLong).map
        (fun current => decide (∀ event ∈ current.1.log, event.Inside))
        = some false := by decide +kernel
    obtain ⟨reached, run, wrong⟩ := Option.map_eq_some_iff.mp final
    exact of_decide_eq_false wrong (always.finish run).inside

/-- The driver keeps up with a bad packet at the start of the ring and a good one behind it. -/
theorem rx_ring_faithful_badFirst
    : Along ringStep RxFits (RxSys.reset (fun _ => 0), ⟨[], [], 0⟩)
        [.store (shortPacket 0x0005), .store (shortPacket 0x0001), .receive, .receive]
      ∧ Throughout ringStep (fun current => RxOk current.1 current.2)
          (RxSys.reset (fun _ => 0), ⟨[], [], 0⟩)
          [.store (shortPacket 0x0005), .store (shortPacket 0x0001), .receive, .receive] := by
  have fits : Along ringStep RxFits (RxSys.reset (fun _ => 0), ⟨[], [], 0⟩)
      [.store (shortPacket 0x0005), .store (shortPacket 0x0001), .receive, .receive] := by
    decide +kernel
  exact ⟨fits, rx_ring_faithful _ _ fits⟩

end Xv6Net
