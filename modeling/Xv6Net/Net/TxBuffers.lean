import Xv6Net.Library.Transition
import Xv6Net.Net.Send

/-! The transmit side of the RTL8139: `rtl8139_send` fills the one transmit buffer and then, in
further steps, a descriptor; the card reads the frame some time later, and `nicintr` moves on to
the next descriptor when the card reports the end of a transmission. Nothing makes a sender wait,
and no lock keeps two senders apart.
-/

namespace Xv6Net

open Library Memory Transition Function

/-- `TxOK`. -/
def txOK : UInt32 := 0x0004

/-- `TxErr`. -/
def txErr : UInt32 := 0x0008

/-- `RxOK`. -/
def rxOK : UInt32 := 0x0001

/-- `RxErr`. -/
def rxErr : UInt32 := 0x0002

/-- What a pass does: it writes the register ISR, which clears the bits that are written, goes
to the next descriptor, calls `rtl8139_receive` or calls `rtl8139_reset`.
-/
inductive NicEffect where
  | ack (bits : UInt32)
  | nextTx
  | receive
  | reset

/-- The body of the loop of `nicintr`. Each branch leaves only its own bit in `status`, so that
the branches behind it see nothing of the others.
-/
def nicintrPass (status : UInt32) : List NicEffect :=
  let (status, tx) :=
    if status &&& txOK ≠ 0 then (status &&& txOK, [.ack (status &&& txOK), .nextTx])
    else (status, [])
  let (status, txFailed) :=
    if status &&& txErr ≠ 0 then (status &&& txErr, [.ack (status &&& txErr), .reset])
    else (status, [])
  let (status, rx) :=
    if status &&& rxOK ≠ 0 then (status &&& rxOK, [.receive, .ack (status &&& rxOK)])
    else (status, [])
  let rxFailed :=
    if status &&& rxErr ≠ 0 then [.ack (status &&& rxErr), .reset] else []
  tx ++ txFailed ++ rx ++ rxFailed

/-- A transmit descriptor: the registers TxAddr, as an offset from `nic.tx_buffer` if it was written
since the last reset, and TxStatus; whether the card owns it, and whether it has read the frame.
-/
structure TxDesc where
  txAddr : Option Int
  txStatus : UInt32
  pending : Bool
  fetched : Bool

def TxDesc.idle : TxDesc :=
  { txAddr := none, txStatus := 0x2000, pending := false, fetched := false }

/-- The length of a frame, in the low 13 bits of TxStatus. -/
def TxDesc.size (d : TxDesc) : Nat := (d.txStatus &&& 0x1fff).toNat

/-- Where a process is in `rtl8139_send`: outside, or with a frame of `len` bytes in the transmit
buffer before the write of TxAddr or of TxStatus.
-/
inductive TxPc where
  | outside
  | beforeAddr (len : Nat)
  | beforeStatus (len : Nat)
deriving DecidableEq

/-- The driver, its `P` callers and the card. While `nicintr` runs, `handler` is its variable
`status`.
-/
structure TxSys (P : Nat) where
  txBuffer : Int → UInt8
  curTx : UInt32
  desc : Nat → TxDesc
  isr : UInt32
  handler : Option UInt32
  calls : Fin P → TxPc

/-- The descriptors that the card has, `NUM_TX_DESC`. -/
abbrev numTxDesc : Nat := 4

namespace TxSys

variable {P : Nat}

/-- `rtl8139_send` up to the padding. -/
def send (s : TxSys P) (p : Fin P) (packet : List UInt8) : TxSys P :=
  if packet.length = 0 then
    s
  else
    let txBuffer := overlay s.txBuffer 0 packet
    let txBuffer := fill 0 txBuffer packet.length (ethZlen - packet.length)
    { s with
      txBuffer
      calls := update s.calls p (.beforeAddr (max packet.length ethZlen)) }

def writeTxAddr (s : TxSys P) (p : Fin P) (len : Nat) : TxSys P :=
  { s with
    desc := update s.desc s.curTx.toNat { s.desc s.curTx.toNat with txAddr := some 0 }
    calls := update s.calls p (.beforeStatus len) }

/-- The write of TxStatus gives the descriptor to the card. -/
def writeTxStatus (s : TxSys P) (p : Fin P) (len : Nat) : TxSys P :=
  { s with
    desc := update s.desc s.curTx.toNat
      { s.desc s.curTx.toNat with
        txStatus := ((256 : UInt32) <<< 11 ||| UInt32.ofNat len) &&& 0xffffdfff
        pending := true
        fetched := false }
    calls := update s.calls p .outside }

/-- What a pass of `nicintr` does to this side of the card. A reset makes the card forget its
descriptors.
-/
def apply (s : TxSys P) : NicEffect → TxSys P
  | .ack bits => { s with isr := s.isr &&& ~~~ bits }
  | .nextTx => { s with curTx := (s.curTx + 1) % 4 }
  | .receive => s
  | .reset => { s with curTx := 0, desc := fun _ => TxDesc.idle, isr := 0 }

/-- The card has read the frame of a descriptor. -/
def fetch (s : TxSys P) (d : Nat) : TxSys P :=
  { s with desc := update s.desc d { s.desc d with fetched := true } }

/-- The card ends a transmission and raises an interrupt. -/
def complete (s : TxSys P) (d : Nat) (ok : Bool) : TxSys P :=
  { s with
    desc := update s.desc d { s.desc d with pending := false }
    isr := s.isr ||| (if ok then txOK else txErr) }

/-- The bytes that a descriptor points to. -/
def frame (s : TxSys P) (d : Nat) : Option (List UInt8) :=
  (s.desc d).txAddr.map fun start => slice s.txBuffer start (s.desc d).size

end TxSys

/-- A process calls `rtl8139_send` or writes a register; the card reads a frame or ends a
transmission; `nicintr` is entered or makes a pass.
-/
inductive TxAction (P : Nat) where
  | send (p : Fin P) (packet : List UInt8)
  | txAddr (p : Fin P)
  | txStatus (p : Fin P)
  | fetch (d : Nat)
  | complete (d : Nat) (ok : Bool)
  | interrupt
  | pass

/-- One step of the driver or of the card. A frame is at most `TX_BUF_SIZE` long. Only a frame
that was read can have been sent well.
-/
def TxSys.step {P : Nat} (s : TxSys P) : TxAction P → Option (TxSys P)
  | .send p packet =>
    if packet.length ≤ 1514 ∧ s.calls p = .outside then some (s.send p packet) else none
  | .txAddr p =>
    match s.calls p with
    | .beforeAddr len => some (s.writeTxAddr p len)
    | _ => none
  | .txStatus p =>
    match s.calls p with
    | .beforeStatus len => some (s.writeTxStatus p len)
    | _ => none
  | .fetch d =>
    if d < numTxDesc ∧ (s.desc d).pending ∧ (s.desc d).fetched = false then some (s.fetch d)
    else none
  | .complete d ok =>
    if d < numTxDesc ∧ (s.desc d).pending ∧ (ok → (s.desc d).fetched) then some (s.complete d ok)
    else none
  | .interrupt =>
    if s.handler = none ∧ s.isr ≠ 0 then some { s with handler := some s.isr } else none
  | .pass =>
    match s.handler with
    | some status =>
      let after := (nicintrPass status).foldl TxSys.apply s
      some { after with handler := if after.isr = 0 then none else some after.isr }
    | none => none

/-- After `rtl8139_reset`, with anything in the transmit buffer. -/
def TxSys.boot (P : Nat) (txBuffer : Int → UInt8) : TxSys P :=
  { txBuffer, curTx := 0, desc := fun _ => TxDesc.idle, isr := 0, handler := none,
    calls := fun _ => .outside }

/-- The frames of the calls, numbered; the frame of the last call of a process, and the one for
which a descriptor was last filled; what the card has sent, and how the transmissions have ended.
-/
structure TxHistory (P : Nat) where
  given : List (List UInt8)
  call : Fin P → Nat
  owner : Nat → Nat
  wire : List (Nat × Option (List UInt8))
  finished : List (Nat × Bool)

def TxHistory.none (P : Nat) : TxHistory P :=
  { given := [], call := fun _ => 0, owner := fun _ => 0, wire := [], finished := [] }

/-- A frame is the packet of the call, padded to `ETH_ZLEN`. -/
def TxSys.note {P : Nat} (s : TxSys P) (action : TxAction P) (h : TxHistory P) : TxHistory P :=
  match action with
  | .send p packet =>
    if packet.length = 0 then h
    else
      { h with
        given := h.given ++ [packet ++ List.replicate (ethZlen - packet.length) 0]
        call := update h.call p h.given.length }
  | .txStatus p => { h with owner := update h.owner s.curTx.toNat (h.call p) }
  | .fetch d => { h with wire := h.wire ++ [(h.owner d, s.frame d)] }
  | .complete d ok => { h with finished := h.finished ++ [(h.owner d, ok)] }
  | _ => h

/-- No frame is changed, lost or sent twice: the bytes of a pending descriptor are those of the
frame it was filled for, every frame is still with its call, is pending or its transmission has
ended, and what is on the wire are given frames, each at most once, among them all whose
transmission has ended well.
-/
structure TxOk {P : Nat} (current : TxSys P × TxHistory P) : Prop where
  intact : ∀ d < numTxDesc, (current.1.desc d).pending
    → current.1.frame d = current.2.given[current.2.owner d]?
  kept : ∀ k < current.2.given.length, (∃ ok, (k, ok) ∈ current.2.finished)
    ∨ (∃ d < numTxDesc, (current.1.desc d).pending ∧ current.2.owner d = k)
    ∨ ∃ p, current.1.calls p ≠ .outside ∧ current.2.call p = k
  unmodified : ∀ sent ∈ current.2.wire, sent.2 = current.2.given[sent.1]?
  once : (current.2.wire.map Prod.fst).Nodup
  out : ∀ k, (k, true) ∈ current.2.finished → k ∈ current.2.wire.map Prod.fst

/-- A frame is sent only when no other call is in progress, the frame before is out and `nicintr`
has handled the end of its transmission.
-/
def TxPatient {P : Nat} (current : TxSys P × TxHistory P) : TxAction P → Prop
  | .send _ _ => (∀ d < numTxDesc, (current.1.desc d).pending = false) ∧ current.1.isr = 0
    ∧ current.1.handler = none ∧ ∀ p, current.1.calls p = .outside
  | _ => True

instance {P : Nat}
    : ∀ (current : TxSys P × TxHistory P) (action : TxAction P),
      Decidable (TxPatient current action)
  | _, .send _ _ => inferInstanceAs (Decidable (_ ∧ _ ∧ _ ∧ _))
  | _, .txAddr _ | _, .txStatus _ | _, .fetch _ | _, .complete _ _ | _, .interrupt | _, .pass =>
    isTrue trivial

theorem txStatus_size {len : Nat} (short : len ≤ 1514)
    : ((((256 : UInt32) <<< 11 ||| UInt32.ofNat len) &&& 0xffffdfff) &&& 0x1fff).toNat = len := by
  have mask : (0xffffdfff &&& 0x1fff : UInt32).toNat = 2 ^ 13 - 1 := rfl
  have threshold : ((256 : UInt32) <<< 11).toNat = 2 ^ 19 := rfl
  have length : (UInt32.ofNat len).toNat = len := by
    rw [UInt32.toNat_ofNat', Nat.mod_eq_of_lt (by omega)]
  rw [UInt32.and_assoc, UInt32.toNat_and, mask, UInt32.toNat_or, threshold, length,
    Nat.and_two_pow_sub_one_eq_mod, Nat.or_mod_two_pow, Nat.mod_eq_of_lt (a := len) (by omega)]
  exact Nat.zero_or len

section

variable {P : Nat} {s next : TxSys P} {h : TxHistory P} {d m : Nat} {p : Fin P}

/-- The card owns no descriptor, no call is in progress and all transmissions have ended. -/
structure TxIdle (s : TxSys P) (h : TxHistory P) : Prop where
  none_ : ∀ d < numTxDesc, (s.desc d).pending = false
  calls : ∀ p, s.calls p = .outside
  finished : h.finished.map Prod.fst = List.range h.given.length
  wire : ∀ k ∈ h.wire.map Prod.fst, k < h.given.length

/-- One call is in progress, with the last frame in the transmit buffer. -/
structure TxSending (s : TxSys P) (h : TxHistory P) (p : Fin P) (m len : Nat) : Prop where
  none_ : ∀ d < numTxDesc, (s.desc d).pending = false
  calls : ∀ q, q ≠ p → s.calls q = .outside
  mine : s.calls p = .beforeAddr len
    ∨ s.calls p = .beforeStatus len ∧ (s.desc s.curTx.toNat).txAddr = some 0
  call : h.call p = m
  last : h.given.length = m + 1
  short : len ≤ 1514
  intact : h.given[m]? = some (slice s.txBuffer 0 len)
  finished : h.finished.map Prod.fst = List.range m
  wire : ∀ k ∈ h.wire.map Prod.fst, k < m
  quiet : s.isr = 0 ∧ s.handler = none

/-- The card owns one descriptor, for the last frame; no interrupt is raised. -/
structure TxBusy (s : TxSys P) (h : TxHistory P) (d m : Nat) : Prop where
  inside : d < numTxDesc
  pending : (s.desc d).pending = true
  others : ∀ e < numTxDesc, e ≠ d → (s.desc e).pending = false
  calls : ∀ p, s.calls p = .outside
  owner : h.owner d = m
  last : h.given.length = m + 1
  intact : s.frame d = h.given[m]?
  finished : h.finished.map Prod.fst = List.range m
  wire : ∀ k ∈ h.wire.map Prod.fst, k < m ∨ k = m ∧ (s.desc d).fetched
  fetched : (s.desc d).fetched → m ∈ h.wire.map Prod.fst
  quiet : s.isr = 0 ∧ s.handler = none

structure TxInv (s : TxSys P) (h : TxHistory P) : Prop where
  curTx : s.curTx.toNat < numTxDesc
  phase : TxIdle s h ∨ (∃ p m len, TxSending s h p m len) ∨ ∃ d m, TxBusy s h d m
  unmodified : ∀ sent ∈ h.wire, sent.2 = h.given[sent.1]?
  once : (h.wire.map Prod.fst).Nodup
  out : ∀ k, (k, true) ∈ h.finished → k ∈ h.wire.map Prod.fst

theorem mem_finished_of_range {finished : List (Nat × Bool)} {k : Nat}
    (all : finished.map Prod.fst = List.range m) (below : k < m)
    : ∃ ok, (k, ok) ∈ finished := by
  have member : k ∈ finished.map Prod.fst := by
    rw [all]
    exact List.mem_range.mpr below
  obtain ⟨⟨number, ok⟩, found, rfl⟩ := List.mem_map.mp member
  exact ⟨ok, found⟩

theorem TxInv.ok (inv : TxInv s h) : TxOk (s, h) := by
  refine ⟨fun d inside pending => ?_, fun k below => ?_, inv.unmodified, inv.once, inv.out⟩
  · rcases inv.phase with idle | ⟨p, m, len, sending⟩ | ⟨e, m, busy⟩
    · have none_ := idle.none_ d inside
      grind
    · have none_ := sending.none_ d inside
      grind
    · cases busy
      grind
  · rcases inv.phase with idle | ⟨p, m, len, sending⟩ | ⟨e, m, busy⟩
    · exact Or.inl (mem_finished_of_range idle.finished below)
    · have earlier := mem_finished_of_range (k := k) sending.finished
      cases sending
      grind
    · have earlier := mem_finished_of_range (k := k) busy.finished
      cases busy
      grind

theorem TxSys.slice_send (s : TxSys P) (p : Fin P) {packet : List UInt8} (some_ : packet.length ≠ 0)
    : slice (s.send p packet).txBuffer 0 (max packet.length ethZlen)
      = packet ++ List.replicate (ethZlen - packet.length) 0 := by
  have sent := rtl8139Send_eq s.txBuffer fun empty => some_ (List.length_eq_zero_iff.mpr empty)
  rw [rtl8139Send, if_neg some_] at sent
  rw [TxSys.send, if_neg some_]
  exact Option.some.inj sent

section

variable (inv : TxInv s h)
include inv

/-- A frame is put in the buffer of a descriptor that is not in use. -/
theorem TxInv.send {packet : List UInt8} (short : packet.length ≤ 1514) (idle : TxIdle s h)
    (quiet : s.isr = 0 ∧ s.handler = none)
    : TxInv (s.send p packet) (s.note (.send p packet) h) := by
  by_cases empty : packet.length = 0
  · simpa only [TxSys.send, TxSys.note, if_pos empty] using inv
  have stored := s.slice_send p empty
  simp only [TxSys.send, if_neg empty] at stored
  simp only [TxSys.send, TxSys.note, if_neg empty]
  refine ⟨inv.curTx, Or.inr (Or.inl ⟨p, h.given.length, max packet.length ethZlen, ?_⟩), ?_,
    inv.once, inv.out⟩
  · have calls := idle.calls
    refine ⟨idle.none_, ?_, Or.inl (update_self ..), update_self .., ?_, ?_, ?_, idle.finished,
      idle.wire, quiet⟩
    · intro q other
      exact (update_of_ne other ..).trans (idle.calls q)
    · exact List.length_append
    · simp only [ethZlen]
      omega
    · rw [List.getElem?_concat_length]
      exact congrArg some stored.symm
  · intro sent member
    have here := inv.unmodified sent member
    have below := idle.wire sent.1 (List.mem_map_of_mem member)
    grind

theorem TxInv.writeTxAddr {len : Nat} (here : s.calls p = .beforeAddr len)
    : TxInv (s.writeTxAddr p len) h := by
  rcases inv.phase with idle | ⟨q, m, len', sending⟩ | ⟨e, m, busy⟩
  · have := idle.calls p
    grind
  · have same : q = p := by
      have := sending.calls p
      grind
    subst same
    have equal : len' = len := by
      have := sending.mine
      grind
    subst equal
    refine ⟨inv.curTx, Or.inr (Or.inl ⟨q, m, len', ?_⟩), inv.unmodified, inv.once, inv.out⟩
    obtain ⟨none_, calls, mine, call, last, short, intact, finished, wire, quiet⟩ := sending
    refine ⟨?_, ?_, ?_, call, last, short, intact, finished, wire, quiet⟩
    all_goals
      simp only [TxSys.writeTxAddr, update_apply]
      grind
  · have := busy.calls p
    grind

theorem TxInv.writeTxStatus {len : Nat} (here : s.calls p = .beforeStatus len)
    : TxInv (s.writeTxStatus p len) (s.note (.txStatus p) h) := by
  rcases inv.phase with idle | ⟨q, m, len', sending⟩ | ⟨e, m, busy⟩
  · have := idle.calls p
    grind
  · have same : q = p := by
      have := sending.calls p
      grind
    subst same
    have equal : len' = len ∧ (s.desc s.curTx.toNat).txAddr = some 0 := by
      have := sending.mine
      grind
    obtain ⟨rfl, addr⟩ := equal
    have size := txStatus_size sending.short
    refine ⟨inv.curTx, Or.inr (Or.inr ⟨s.curTx.toNat, m, ?_⟩), inv.unmodified, inv.once, inv.out⟩
    have inside := inv.curTx
    cases sending
    constructor
    case inside | quiet => assumption
    all_goals
      simp only [TxSys.writeTxStatus, TxSys.note, TxSys.frame, TxDesc.size, update_apply]
      grind
  · have := busy.calls p
    grind

theorem TxInv.busy_of_pending (inside : d < numTxDesc) (pending : (s.desc d).pending = true)
    : ∃ m, TxBusy s h d m := by
  rcases inv.phase with idle | ⟨p, m, len, sending⟩ | ⟨e, m, busy⟩
  · have := idle.none_ d inside
    grind
  · have := sending.none_ d inside
    grind
  · have others := busy.others d inside
    have same : e = d := by grind
    exact ⟨m, same ▸ busy⟩

theorem TxInv.fetch (inside : d < numTxDesc) (pending : (s.desc d).pending = true)
    (unread : (s.desc d).fetched = false)
    : TxInv (s.fetch d) (s.note (.fetch d) h) := by
  obtain ⟨m, busy⟩ := inv.busy_of_pending inside pending
  have keys : (s.note (.fetch d) h).wire.map Prod.fst = h.wire.map Prod.fst ++ [m] := by
    simp only [TxSys.note, List.map_append, List.map_singleton, busy.owner]
  have new : m ∉ h.wire.map Prod.fst := by
    intro member
    have := busy.wire m member
    grind
  refine ⟨inv.curTx, Or.inr (Or.inr ⟨d, m, ?_⟩), ?_, ?_, ?_⟩
  · obtain ⟨-, -, others, calls, owner, last, intact, finished, wire, -, quiet⟩ := busy
    refine ⟨inside, ?_, ?_, calls, owner, last, ?_, finished, ?_, ?_, quiet⟩
    · simpa [TxSys.fetch] using pending
    · simp only [TxSys.fetch, update_apply]
      grind
    · simpa [TxSys.frame, TxSys.fetch, TxDesc.size, TxSys.note] using intact
    · simp only [keys, TxSys.fetch, update_self]
      grind
    · grind
  · intro sent member
    have here := inv.unmodified sent
    have intact := busy.intact
    have owner := busy.owner
    simp only [TxSys.note] at member ⊢
    grind
  · rw [keys]
    have once := inv.once
    grind
  · intro k ended
    rw [keys]
    exact List.mem_append_left _ (inv.out k ended)

/-- The card gives a descriptor back. -/
theorem TxInv.complete {ok : Bool} (inside : d < numTxDesc) (pending : (s.desc d).pending = true)
    (read : ok → (s.desc d).fetched)
    : TxInv (s.complete d ok) (s.note (.complete d ok) h) := by
  obtain ⟨m, busy⟩ := inv.busy_of_pending inside pending
  have out := inv.out
  refine ⟨inv.curTx, Or.inl ⟨?_, busy.calls, ?_, ?_⟩, inv.unmodified, inv.once, ?_⟩
  · have others := busy.others
    simp only [TxSys.complete, update_apply]
    grind
  · simp only [TxSys.note, List.map_append, List.map_cons, List.map_nil, busy.finished,
      busy.last, busy.owner, List.range_succ]
  · have wire := busy.wire
    have last := busy.last
    simp only [TxSys.note]
    grind
  · have fetched := busy.fetched
    have owner := busy.owner
    simp only [TxSys.note]
    grind

theorem TxInv.idle_of_interrupt (raised : s.isr ≠ 0 ∨ s.handler ≠ none)
    : TxIdle s h := by
  rcases inv.phase with idle | ⟨p, m, len, sending⟩ | ⟨d, m, busy⟩
  · exact idle
  · have := sending.quiet
    grind
  · have := busy.quiet
    grind

theorem TxInv.apply (idle : TxIdle s h) (effect : NicEffect)
    : TxInv (s.apply effect) h ∧ TxIdle (s.apply effect) h := by
  have inside : ((s.curTx + 1) % 4).toNat < numTxDesc := by
    rw [UInt32.toNat_mod]
    exact Nat.mod_lt _ (by decide)
  have still : TxIdle (s.apply effect) h := by
    obtain ⟨none_, calls, finished, wire⟩ := idle
    cases effect with
    | reset => exact ⟨fun _ _ => rfl, calls, finished, wire⟩
    | _ => exact ⟨none_, calls, finished, wire⟩
  refine ⟨⟨?_, Or.inl still, inv.unmodified, inv.once, inv.out⟩, still⟩
  cases effect with
  | nextTx => exact inside
  | reset => exact Nat.zero_lt_succ 3
  | _ => exact inv.curTx

theorem TxInv.applyAll (idle : TxIdle s h) (effects : List NicEffect)
    : TxInv (effects.foldl TxSys.apply s) h ∧ TxIdle (effects.foldl TxSys.apply s) h := by
  induction effects generalizing s with
  | nil => exact ⟨inv, idle⟩
  | cons effect rest ih =>
    obtain ⟨next, still⟩ := inv.apply idle effect
    exact ih next still

/-- Every patient step keeps the invariant. -/
theorem TxInv.step {action : TxAction P} (patient : TxPatient (s, h) action)
    (taken : s.step action = some next)
    : TxInv next (s.note action h) := by
  cases action with
  | send p packet =>
    obtain ⟨⟨short, -⟩, rfl⟩ := guarded taken
    obtain ⟨free, isr, handler, calls⟩ := patient
    refine inv.send short ?_ ⟨isr, handler⟩
    rcases inv.phase with idle | ⟨q, m, len, sending⟩ | ⟨d, m, busy⟩
    · exact idle
    · have mine := sending.mine
      have := calls q
      grind
    · have pending := busy.pending
      have := free d busy.inside
      grind
  | txAddr p =>
    simp only [TxSys.step] at taken
    split at taken
    · rename_i here
      cases taken
      exact inv.writeTxAddr here
    · cases taken
  | txStatus p =>
    simp only [TxSys.step] at taken
    split at taken
    · rename_i here
      cases taken
      exact inv.writeTxStatus here
    · cases taken
  | fetch =>
    obtain ⟨⟨inside, pending, unread⟩, rfl⟩ := guarded taken
    exact inv.fetch inside pending unread
  | complete =>
    obtain ⟨⟨inside, pending, read⟩, rfl⟩ := guarded taken
    exact inv.complete inside pending read
  | interrupt =>
    obtain ⟨raised, rfl⟩ := guarded taken
    obtain ⟨none_, calls, finished, wire⟩ := inv.idle_of_interrupt (Or.inl raised.2)
    exact ⟨inv.curTx, Or.inl ⟨none_, calls, finished, wire⟩, inv.unmodified, inv.once, inv.out⟩
  | pass =>
    simp only [TxSys.step] at taken
    split at taken
    · rename_i status running
      cases taken
      have idle := inv.idle_of_interrupt (Or.inr (by simp [running]))
      obtain ⟨after, none_, calls, finished, wire⟩ := inv.applyAll idle (nicintrPass status)
      exact ⟨after.curTx, Or.inl ⟨none_, calls, finished, wire⟩, after.unmodified, after.once,
        after.out⟩
    · cases taken

end

end

/-- As long as each frame is sent only after the transmission of the one before was handled, and
no two calls overlap, no frame is changed, lost or sent twice.
-/
theorem tx_frames_intact (P : Nat) (txBuffer : Int → UInt8) (actions : List (TxAction P))
    (patient : Along (withHistory TxSys.step TxSys.note) TxPatient
      (TxSys.boot P txBuffer, .none P) actions)
    : Throughout (withHistory TxSys.step TxSys.note) TxOk (TxSys.boot P txBuffer, .none P)
        actions := by
  have initially : TxInv (TxSys.boot P txBuffer) (.none P) :=
    ⟨Nat.zero_lt_succ 3, Or.inl ⟨fun _ _ => rfl, fun _ => rfl, rfl, nofun⟩, nofun, List.nodup_nil,
      nofun⟩
  have always : Throughout (withHistory TxSys.step TxSys.note) (fun now => TxInv now.1 now.2)
      (TxSys.boot P txBuffer, .none P) actions :=
    patient.invariant initially fun now action next inv allowed taken => by
      obtain ⟨stepped, noted⟩ := withHistory_eq_some taken
      rw [noted]
      exact inv.step allowed stepped
  exact always.mono fun _ inv => inv.ok

set_option maxRecDepth 20000

/-- A process sends two frames in a row. The second one replaces the first one, which the card has
not read yet: its descriptor and its bytes are gone.
-/
theorem second_frame_replaces_first
    : ¬ Throughout (withHistory TxSys.step TxSys.note) TxOk (TxSys.boot 1 fun _ => 0, .none 1)
        [.send 0 (List.replicate 60 1), .txAddr 0, .txStatus 0, .send 0 (List.replicate 60 2),
          .txAddr 0, .txStatus 0] := by
  intro always
  have final : (exec (withHistory TxSys.step TxSys.note) (TxSys.boot 1 fun _ => 0, .none 1)
        [.send 0 (List.replicate 60 1), .txAddr 0, .txStatus 0, .send 0 (List.replicate 60 2),
          .txAddr 0, .txStatus 0]).map
      (fun now => decide (0 < now.2.given.length ∧ now.2.finished = []
        ∧ (∀ d < numTxDesc, ¬ ((now.1.desc d).pending = true ∧ now.2.owner d = 0))
        ∧ ∀ p, now.1.calls p = .outside))
      = some true := by decide +kernel
  obtain ⟨reached, run, lost⟩ := Option.map_eq_some_iff.mp final
  obtain ⟨given, none_, gone, outside⟩ := of_decide_eq_true lost
  rcases (always.finish run).kept 0 given with ⟨ok, ended⟩ | ⟨d, inside, pending⟩ | ⟨p, calls, -⟩
  · rw [none_] at ended
    cases ended
  · exact gone d inside pending
  · exact calls (outside p)

/-- Two frames, the second one after the first one was handled. -/
def oneByOne : List (TxAction 1) :=
  [.send 0 (List.replicate 60 1), .txAddr 0, .txStatus 0, .fetch 0, .complete 0 true, .interrupt,
    .pass, .send 0 (List.replicate 60 2), .txAddr 0, .txStatus 0, .fetch 1]

/-- Witness: two frames, one after the other. -/
theorem tx_frames_intact_oneByOne
    : Along (withHistory TxSys.step TxSys.note) TxPatient (TxSys.boot 1 fun _ => 0, .none 1)
        oneByOne
      ∧ Throughout (withHistory TxSys.step TxSys.note) TxOk (TxSys.boot 1 fun _ => 0, .none 1)
        oneByOne := by
  have patient : Along (withHistory TxSys.step TxSys.note) TxPatient
      (TxSys.boot 1 fun _ => 0, .none 1) oneByOne := by
    decide +kernel
  exact ⟨patient, tx_frames_intact _ _ _ patient⟩

end Xv6Net
