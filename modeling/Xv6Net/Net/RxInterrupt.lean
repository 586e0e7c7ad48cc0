import Xv6Net.Net.NicInterrupt

/-! The receive ring and `nicintr` together: packets arrive at any time, each of them raises RxOK,
and every pass of the handler that finds RxOK set takes one packet out of the ring and then clears
RxOK. A packet is left behind if it comes while another one is still in the ring, or between the
two.
-/

namespace Xv6Net

open Library Transition

/-- The ring with the queue that it stands for, and the handler. -/
structure NicSys where
  rx : RxSys
  queue : RxQueue
  intr : Intr

/-- The card stores a packet or raises other causes; `nicintr` is called or goes on. -/
inductive NicAction where
  | store (p : RxPacket)
  | raise (bits : UInt16)
  | enter
  | drive

/-- `rtl8139_reset`: the ring is empty, and both sides are at its start. -/
def RxSys.chipReset (s : RxSys) : RxSys :=
  { s with nic := { s.nic with curRx := 0, curAddrPacket := 0xfff0 }, rxBufAddr := 0 }

def RxQueue.chipReset (q : RxQueue) : RxQueue := { q with unread := [], start := 0 }

namespace NicSys

/-- What the next thing that the handler does means for the ring. -/
def serve (s : NicSys) : NicSys :=
  match s.intr.work with
  | some (.receive :: _) =>
    match ringStep (s.rx, s.queue) .receive with
    | some (rx, queue) => { s with rx, queue }
    | none => s
  | some (.reset :: _) => { s with rx := s.rx.chipReset, queue := s.queue.chipReset }
  | _ => s

def step (s : NicSys) : NicAction → Option NicSys
  | .store p =>
    (ringStep (s.rx, s.queue) (.store p)).map fun (rx, queue) =>
      { rx, queue, intr := s.intr.raise 0x0001 }
  | .raise bits => some { s with intr := s.intr.raise bits }
  | .enter =>
    if s.intr.work = none then some { s with intr := Intr.enter s.intr.isr } else none
  | .drive =>
    if s.intr.work = none then none else some { s.serve with intr := s.intr.drive }

/-- After `rtl8139_reset`, with anything in the array. -/
def reset (rxRing : Int → UInt8) : NicSys :=
  { rx := RxSys.reset rxRing, queue := ⟨[], [], 0⟩, intr := { isr := 0, work := none } }

def RingEmpty (s : NicSys) : Prop := s.rx.cmd &&& rxBufEmpty ≠ 0

instance (s : NicSys) : Decidable s.RingEmpty := inferInstanceAs (Decidable (_ ≠ _))

/-- When `nicintr` is not running, the ring is empty or another interrupt will come. -/
def NoneLeft (s : NicSys) : Prop :=
  s.intr.work = none → s.RingEmpty ∨ s.intr.isr &&& 0x0001 ≠ 0

instance (s : NicSys) : Decidable s.NoneLeft := inferInstanceAs (Decidable (_ → _))

end NicSys

/-- The rest of the pass clears RxOK, and takes no packet before. -/
def dropsRxOK : List NicEffect → Bool
  | [] | .receive :: _ | .reset :: _ => false
  | .ack bits :: rest => bits &&& rxOK ≠ 0 || dropsRxOK rest
  | .nextTx :: rest => dropsRxOK rest

/-- A packet comes when the ring is empty and RxOK is not about to be cleared, and is stored where
the driver can read it.
-/
def Unhurried (s : NicSys) : NicAction → Prop
  | .store p =>
    s.RingEmpty ∧ (∀ rest, s.intr.work = some rest → dropsRxOK rest = false)
    ∧ Placed s.rx.rxBufAddr p
  | .raise _ | .enter | .drive => True

instance : ∀ s action, Decidable (Unhurried s action)
  | s, .store _ =>
    have : Decidable (∀ rest, s.intr.work = some rest → dropsRxOK rest = false) :=
      match s.intr.work with
      | none => isTrue nofun
      | some rest =>
        decidable_of_iff (dropsRxOK rest = false)
          ⟨fun kept _ same => Option.some.inj same ▸ kept, fun kept => kept rest rfl⟩
    inferInstanceAs (Decidable (_ ∧ _ ∧ _))
  | _, .raise _ | _, .enter | _, .drive => isTrue trivial

/-- The ring holds at most one packet; its RxOK is set, and is not cleared before the packet is
taken.
-/
structure NicInv (s : NicSys) : Prop where
  ring : RingInv s.rx s.queue
  shape : ∀ rest, s.intr.work = some rest → Shape rest
  single : s.queue.unread.length ≤ 1
  pending : s.queue.unread ≠ [] → s.intr.isr &&& 0x0001 ≠ 0
  kept : s.queue.unread ≠ [] → ∀ rest, s.intr.work = some rest → dropsRxOK rest = false

theorem PassOf.not_drops {isr : UInt16} {pass : List NicEffect} (h : PassOf isr pass)
    : dropsRxOK pass = false := by
  cases h <;> rfl

theorem RingInv.chipReset {rx : RxSys} {q : RxQueue} (inv : RingInv rx q)
    : RingInv rx.chipReset q.chipReset := by
  have place : rx.chipReset.readPlace = 0 := by
    simp [RxSys.readPlace, RxSys.chipReset, rxBufLen]
  exact ⟨trivial, rfl, Nat.zero_lt_succ _, rfl, place, ⟨inv.ok.handed, rfl, inv.ok.inside⟩⟩

section

variable {s : NicSys}

theorem NicInv.empty_iff (inv : NicInv s) : s.RingEmpty ↔ s.queue.unread = [] := by
  rw [NicSys.RingEmpty, Ne, inv.ring.pending_iff, not_not]

theorem NicInv.read (inv : NicInv s) : NicInv { s with intr := s.intr.read } := by
  have pass := nicintrPass_spec s.intr.isr
  have started {rest : List NicEffect} (work : s.intr.read.work = some rest)
      : nicintrPass s.intr.isr.toUInt32 = rest := by
    simp only [Intr.read] at work
    split at work
    · cases work
    · exact Option.some.inj work
  refine ⟨inv.ring, fun rest work => ?_, inv.single, inv.pending, fun _ rest work => ?_⟩
  · exact started work ▸ pass.shape
  · exact started work ▸ pass.not_drops

/-- The handler clears a bit other than RxOK, or goes on to the rest of its pass. -/
theorem NicInv.go (inv : NicInv s) {isr : UInt16} {rest : List NicEffect} (shape : Shape rest)
    (bit : isr &&& 0x0001 = s.intr.isr &&& 0x0001) (kept : dropsRxOK rest = false)
    : NicInv { s with intr := { isr, work := some rest } } := by
  refine ⟨inv.ring, ?_, inv.single, ?_, ?_⟩
  · rintro _ ⟨⟩
    exact shape
  · simp only [bit]
    exact inv.pending
  · rintro _ _ ⟨⟩
    exact kept

theorem RingInv.idle {rx : RxSys} {queue : RxQueue} (ring : RingInv rx queue) {isr : UInt16}
    {rest : List NicEffect} (shape : Shape rest) (empty : queue.unread = [])
    : NicInv { rx, queue, intr := { isr, work := some rest } } := by
  refine ⟨ring, ?_, by simp [empty], fun some_ => absurd empty some_,
    fun some_ => absurd empty some_⟩
  rintro _ ⟨⟩
  exact shape

theorem NicInv.receive (inv : NicInv s) (rest : List NicEffect) (shape : Shape rest)
    (work : s.intr.work = some (.receive :: rest))
    : NicInv { s.serve with intr := { isr := s.intr.isr, work := some rest } } := by
  have taken : ringStep (s.rx, s.queue) .receive
      = some ({ s.rx with
          nic := (rtl8139Receive.run s.rx.cmd s.rx.nic).state
          log := s.rx.log ++ (rtl8139Receive.run s.rx.cmd s.rx.nic).log },
        s.queue.note .receive) := rfl
  have fits : RxFits (s.rx, s.queue) .receive := trivial
  have ring := RingInv.step inv.ring fits taken
  have empty : (s.queue.note .receive).unread = [] := by
    have single := inv.single
    cases unread : s.queue.unread with
    | nil => simp [RxQueue.note, unread]
    | cons =>
      rw [unread, List.length_cons] at single
      simp only [RxQueue.note, unread]
      exact List.length_eq_zero_iff.mp (by omega)
  rw [NicSys.serve, work]
  exact ring.idle shape empty

theorem NicInv.drive (inv : NicInv s) (running : s.intr.work ≠ none)
    : NicInv { s.serve with intr := s.intr.drive } := by
  obtain ⟨rx, queue, isr, work⟩ := s
  cases work with
  | none => exact absurd rfl running
  | some rest =>
    have empty (drops : dropsRxOK rest = true) : queue.unread = [] := by
      by_contra some_
      rw [inv.kept some_ rest rfl] at drops
      cases drops
    cases inv.shape rest rfl with
    | done => exact inv.read
    | txAck => exact inv.go .txNext (cleared_and (by decide)) rfl
    | txNext => exact inv.go .done rfl rfl
    | errAck bit err =>
      rcases err with rfl | rfl
      · exact inv.go .reset (cleared_and (by decide)) rfl
      · exact inv.go .reset (cleared_and (by decide)) rfl
    | reset => exact inv.ring.chipReset.idle .resetAck rfl
    | resetAck | rxAck => exact inv.ring.idle .done (empty (by decide))
    | receive => exact inv.receive _ .rxAck rfl

theorem NicInv.step {next : NicSys} {action : NicAction} (inv : NicInv s)
    (unhurried : Unhurried s action) (taken : s.step action = some next)
    : NicInv next := by
  have raised (bits : UInt16) (set_ : s.intr.isr &&& 0x0001 ≠ 0)
      : (s.intr.isr ||| bits) &&& 0x0001 ≠ 0 := by
    rw [raised_and]
    exact fun zero => set_ (UInt16.or_eq_zero_iff.mp zero).1
  cases action with
  | store p =>
    obtain ⟨empty, kept, placed⟩ := unhurried
    obtain ⟨⟨rx, queue⟩, stored, rfl⟩ := Option.map_eq_some_iff.mp taken
    have fits : RxFits (s.rx, s.queue) (.store p) := placed
    have ring := RingInv.step inv.ring fits stored
    have noted : queue = s.queue.note (.store p) := (withHistory_eq_some stored).2
    have one : queue.unread = [p] := by
      rw [noted, RxQueue.note, inv.empty_iff.mp empty]
      rfl
    refine ⟨ring, inv.shape, by simp [one], fun _ => ?_, fun _ => kept⟩
    simp only [Intr.raise, raised_and]
    exact fun zero => absurd (UInt16.or_eq_zero_iff.mp zero).2 (by decide)
  | raise bits =>
    cases taken
    exact ⟨inv.ring, inv.shape, inv.single, fun some_ => raised bits (inv.pending some_), inv.kept⟩
  | enter =>
    simp only [NicSys.step] at taken
    split at taken
    · cases taken
      exact inv.read
    · cases taken
  | drive =>
    simp only [NicSys.step] at taken
    split at taken
    · cases taken
    · rename_i running
      cases taken
      exact inv.drive running

end

theorem nicInv_reset (rxRing : Int → UInt8) : NicInv (NicSys.reset rxRing) :=
  ⟨ringInv_reset rxRing, nofun, Nat.zero_le _, fun some_ => absurd rfl some_,
    fun some_ => absurd rfl some_⟩

/-- As long as every packet comes when the ring is empty and the handler is not about to clear RxOK,
no packet is left in the ring without an interrupt.
-/
theorem no_frame_left_behind (rxRing : Int → UInt8) (actions : List NicAction)
    (unhurried : Along NicSys.step Unhurried (NicSys.reset rxRing) actions)
    : Throughout NicSys.step NicSys.NoneLeft (NicSys.reset rxRing) actions := by
  have inv := unhurried.invariant (nicInv_reset rxRing) fun _ _ _ inv guard taken =>
    inv.step guard taken
  refine inv.mono fun s inv _ => ?_
  rw [inv.empty_iff]
  exact (Decidable.em _).imp_right inv.pending

set_option maxRecDepth 20000

/-- Packets that come before the handler is called, and the calls and steps of the handler. -/
def burst (packets : Nat) : List NicAction :=
  List.replicate packets (.store (shortPacket 0x0001)) ++ [.enter, .drive, .drive, .drive]

/-- A single packet is taken. -/
theorem no_frame_left_behind_single
    : Along NicSys.step Unhurried (NicSys.reset (fun _ => 0)) (burst 1)
      ∧ Throughout NicSys.step NicSys.NoneLeft (NicSys.reset (fun _ => 0)) (burst 1) := by
  have unhurried : Along NicSys.step Unhurried (NicSys.reset (fun _ => 0)) (burst 1) := by
    decide +kernel
  exact ⟨unhurried, no_frame_left_behind _ _ unhurried⟩

/-- Of two packets the second one is left. -/
theorem second_frame_left
    : ¬ Throughout NicSys.step NicSys.NoneLeft (NicSys.reset (fun _ => 0)) (burst 2) := by
  intro always
  have final : (exec NicSys.step (NicSys.reset (fun _ => 0)) (burst 2)).map
      (fun s => decide s.NoneLeft) = some false := by decide +kernel
  obtain ⟨reached, run, wrong⟩ := Option.map_eq_some_iff.mp final
  exact of_decide_eq_false wrong (always.finish run)

end Xv6Net
