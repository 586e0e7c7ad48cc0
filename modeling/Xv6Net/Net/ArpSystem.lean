import Xv6Net.Net.ArpCache
import Xv6Net.Socket.Calls

/-! The ARP cache under the processes that resolve addresses and the interrupts that answer
them. A section of `arp.c` that holds the cache lock is one step, and so is the later copy of
the address through the pointer that `arp_resolve` returned.
-/

namespace Xv6Net

open Library Memory Transition Function Kernel

/-- Where a process is on its way through `ip_send`. -/
inductive ArpPc where
  /-- Not in `ip_send`. -/
  | idle
  /-- In the `sleep` of `arp_resolve(dst)`, on the channel of slot `i`. -/
  | waiting (dst : UInt32) (i : Nat)
  /-- Back from `arp_resolve(dst)` with a pointer to the address in slot `i`. -/
  | resolved (dst : UInt32) (i : Nat)
  deriving DecidableEq

structure ArpSys where
  kernel : Kernel
  pc : Nat → ArpPc

inductive ArpAction where
  /-- A process enters `ip_send`, which calls `arp_resolve` unless it broadcasts. -/
  | send (env : Env) (pid : Nat) (dst : UInt32)
  /-- A process that was woken up returns from `arp_resolve`. -/
  | resume (pid : Nat)
  /-- `ether_send` copies the address that the pointer refers to. -/
  | copy (pid : Nat)
  /-- The interrupt handler calls `arp_add` with the address at `mac`. -/
  | add (env : Env) (ip : UInt32) (mac : Int)
  /-- The interrupt handler calls `arp_receive`. -/
  | receive (env : Env) (arpPkt : Int)
  /-- The clock shows another time. -/
  | clock (ticks : UInt32)
  | kill (pid : Nat)

/-- `sleep` up to `sched`. -/
def Kernel.sleep (k : Kernel) (pid : Nat) (chan : Chan) : Kernel :=
  k.setProc pid fun p => { p with chan := some chan, state := .sleeping }

/-- What follows `sched` in `sleep`. -/
def Kernel.tidyUp (k : Kernel) (pid : Nat) : Kernel :=
  k.setProc pid fun p => { p with chan := none }

def Kernel.AsleepOn (k : Kernel) (pid : Nat) (chan : Chan) : Prop :=
  (k.procs pid).state = .sleeping ∧ (k.procs pid).chan = some chan

namespace ArpSys

def Runnable (sys : ArpSys) (pid : Nat) : Prop :=
  pid < nProc ∧ (sys.kernel.procs pid).state = .runnable

instance (sys : ArpSys) (pid : Nat) : Decidable (sys.Runnable pid) :=
  inferInstanceAs (Decidable (_ ∧ _))

/-- The system after a process has gone on to `pc`. -/
def moveTo (sys : ArpSys) (pid : Nat) (kernel : Kernel) (pc : ArpPc) : ArpSys :=
  { kernel, pc := update sys.pc pid pc }

/-- The system after a call of the interrupt handler, if it returns. -/
def interrupt (sys : ArpSys) (out : Outcome Kernel Event Unit) : Option ArpSys :=
  out.value.map fun _ => { sys with kernel := out.state }

/-- One step of the system; `none` where the action is not possible, or panics. -/
def step (sys : ArpSys) : ArpAction → Option ArpSys
  | .send env pid dst =>
    if sys.Runnable pid ∧ sys.pc pid = .idle then
      if dst = 0xffffffff then
        some sys
      else
        let out := (arpResolve dst).run env sys.kernel
        match out.value with
        | none => none
        | some (.found i) => some (sys.moveTo pid out.state (.resolved dst i))
        | some (.sleeps i) =>
          some (sys.moveTo pid (out.state.sleep pid (.arp i)) (.waiting dst i))
    else
      none
  | .resume pid =>
    match sys.pc pid with
    | .waiting dst i =>
      if sys.Runnable pid then
        some (sys.moveTo pid (sys.kernel.tidyUp pid) (.resolved dst i))
      else
        none
    | _ => none
  | .copy pid =>
    match sys.pc pid with
    | .resolved _ _ =>
      if sys.Runnable pid then some (sys.moveTo pid sys.kernel .idle) else none
    | _ => none
  | .add env ip mac => sys.interrupt ((arpAdd ip mac).run env sys.kernel)
  | .receive env arpPkt => sys.interrupt ((arpReceive arpPkt).run env sys.kernel)
  | .clock ticks => some { sys with kernel := { sys.kernel with ticks } }
  | .kill pid => some { sys with kernel := sys.kernel.kill pid }

end ArpSys

inductive ArpStep (sys : ArpSys) : ArpAction → ArpSys → Prop where
  | broadcast (env : Env) (pid : Nat) : ArpStep sys (.send env pid 0xffffffff) sys
  | found (env : Env) (pid : Nat) (dst : UInt32) (i : Nat) (runnable : sys.Runnable pid)
      (found : arpSearch sys.kernel (sys.kernel.nextHop dst) = some i)
      : ArpStep sys (.send env pid dst) (sys.moveTo pid sys.kernel (.resolved dst i))
  | waits (env : Env) (pid : Nat) (dst : UInt32) (i : Nat) (runnable : sys.Runnable pid)
      (waited : arpRequested sys.kernel (sys.kernel.nextHop dst) = some i)
      : ArpStep sys (.send env pid dst)
          (sys.moveTo pid (sys.kernel.sleep pid (.arp i)) (.waiting dst i))
  | asks (env : Env) (pid : Nat) (dst : UInt32) (i : Nat) (runnable : sys.Runnable pid)
      (searched : arpSearch sys.kernel (sys.kernel.nextHop dst) = none)
      (waited : arpRequested sys.kernel (sys.kernel.nextHop dst) = none)
      (taken : sys.kernel.arpTaken = some i)
      : ArpStep sys (.send env pid dst)
          (sys.moveTo pid
            ((sys.kernel.request i (sys.kernel.nextHop dst)).sleep pid (.arp i))
            (.waiting dst i))
  | resume (pid : Nat) (dst : UInt32) (i : Nat) (runnable : sys.Runnable pid)
      (located : sys.pc pid = .waiting dst i)
      : ArpStep sys (.resume pid) (sys.moveTo pid (sys.kernel.tidyUp pid) (.resolved dst i))
  | copy (pid : Nat) (dst : UInt32) (i : Nat) (runnable : sys.Runnable pid)
      (located : sys.pc pid = .resolved dst i)
      : ArpStep sys (.copy pid) (sys.moveTo pid sys.kernel .idle)
  | cached (env : Env) (ip : UInt32) (mac : Int) (i : Nat)
      (found : arpSearch sys.kernel ip = some i)
      : ArpStep sys (.add env ip mac) sys
  | added (env : Env) (ip : UInt32) (mac : Int) (i : Nat)
      (searched : arpSearch sys.kernel ip = none)
      (waited : arpRequested sys.kernel ip = some i)
      : ArpStep sys (.add env ip mac)
          { sys with kernel := sys.kernel.answer i (slice env.frame mac 6) }
  | stored (env : Env) (ip : UInt32) (mac : Int) (i : Nat)
      (searched : arpSearch sys.kernel ip = none)
      (waited : arpRequested sys.kernel ip = none)
      (taken : sys.kernel.arpTaken = some i)
      : ArpStep sys (.add env ip mac)
          { sys with kernel := sys.kernel.store i ip (slice env.frame mac 6) }
  | ignored (env : Env) (arpPkt : Int) : ArpStep sys (.receive env arpPkt) sys
  | answered (env : Env) (arpPkt : Int) (i : Nat)
      (reply : htons (load16 env.frame (arpPkt + 6)) = 2)
      (waited : arpRequested sys.kernel (htonl (load32 env.frame (arpPkt + 14))) = some i)
      : ArpStep sys (.receive env arpPkt)
          { sys with kernel := sys.kernel.answer i (slice env.frame (arpPkt + 8) 6) }
  | clock (ticks : UInt32)
      : ArpStep sys (.clock ticks) { sys with kernel := { sys.kernel with ticks } }
  | kill (pid : Nat) : ArpStep sys (.kill pid) { sys with kernel := sys.kernel.kill pid }

variable {sys next : ArpSys} {action : ArpAction} {i : Nat}

theorem ArpSys.step_move (taken : sys.step action = some next)
    : ArpStep sys action next := by
  cases action with
  | send env pid dst =>
    simp only [step] at taken
    split at taken
    · rename_i ready
      split at taken
      · rename_i broadcast
        subst broadcast
        exact Option.some.inj taken ▸ .broadcast env pid
      · have spec := arpResolve_spec sys.kernel dst env
        generalize (arpResolve dst).run env sys.kernel = out at spec taken
        cases spec with
        | found i found => exact Option.some.inj taken ▸ .found env pid dst i ready.1 found
        | waits i searched waited =>
          exact Option.some.inj taken ▸ .waits env pid dst i ready.1 waited
        | asks i searched waited free =>
          exact Option.some.inj taken ▸ .asks env pid dst i ready.1 searched waited free
        | full => cases taken
    · cases taken
  | resume pid =>
    simp only [step] at taken
    split at taken
    · rename_i dst i located
      split at taken
      · rename_i runnable
        exact Option.some.inj taken ▸ .resume pid dst i runnable located
      · cases taken
    · cases taken
  | copy pid =>
    simp only [step] at taken
    split at taken
    · rename_i dst i located
      split at taken
      · rename_i runnable
        exact Option.some.inj taken ▸ .copy pid dst i runnable located
      · cases taken
    · cases taken
  | add env ip mac =>
    simp only [step, interrupt] at taken
    have spec := arpAdd_spec sys.kernel ip env mac
    generalize (arpAdd ip mac).run env sys.kernel = out at spec taken
    cases spec with
    | cached i found => exact Option.some.inj taken ▸ .cached env ip mac i found
    | answered i searched waited =>
      exact Option.some.inj taken ▸ .added env ip mac i searched waited
    | stored i searched waited free =>
      exact Option.some.inj taken ▸ .stored env ip mac i searched waited free
    | full => cases taken
  | receive env arpPkt =>
    simp only [step, interrupt] at taken
    have spec := arpReceive_spec sys.kernel env arpPkt
    generalize (arpReceive arpPkt).run env sys.kernel = out at spec taken
    cases spec with
    | ignored => exact Option.some.inj taken ▸ .ignored env arpPkt
    | answered i log reply waited =>
      exact Option.some.inj taken ▸ .answered env arpPkt i reply waited
  | clock ticks => exact Option.some.inj taken ▸ .clock ticks
  | kill pid => exact Option.some.inj taken ▸ .kill pid

def Kernel.liveSlots (k : Kernel) : Set Nat :=
  { i | i < arpCacheSize ∧ (k.arp i).Live k.ticks }

def Kernel.Unique (k : Kernel) : Prop :=
  Set.InjOn (fun i => (k.arp i).ip) k.liveSlots

variable {k : Kernel}

theorem Kernel.Unique.shrink {next : Kernel} (unique : k.Unique)
    (fewer : next.liveSlots ⊆ k.liveSlots) (same : ∀ i, (next.arp i).ip = (k.arp i).ip)
    : next.Unique := by
  intro i hi j hj holds
  simp only [same] at holds
  exact unique (fewer hi) (fewer hj) holds

/-- A slot taken for an address that no live slot holds becomes the only one that does. -/
theorem Kernel.Unique.take {next : Kernel} (unique : k.Unique) (absent : k.Absent (next.arp i).ip)
    (clock : next.ticks = k.ticks) (others : ∀ j, j ≠ i → next.arp j = k.arp j)
    : next.Unique := by
  have live (j : Nat) (other : j ≠ i) (hj : j ∈ next.liveSlots) : j ∈ k.liveSlots := by
    refine ⟨hj.1, ?_⟩
    rw [← others j other, ← clock]
    exact hj.2
  have alone (j : Nat) (other : j ≠ i) (hj : j ∈ next.liveSlots)
      (holds : (next.arp j).ip = (next.arp i).ip)
      : False := by
    rw [others j other] at holds
    exact absent j (live j other hj).1 holds (live j other hj).2
  intro j hj l hl holds
  by_cases first : j = i
  · by_cases second : l = i
    · exact first.trans second.symm
    · subst first
      exact (alone l second hl holds.symm).elim
  · by_cases second : l = i
    · subst second
      exact (alone j first hj holds).elim
    · simp only [others j first, others l second] at holds
      exact unique (live j first hj) (live l second hl) holds

theorem ArpMove.unique {next : Kernel} (move : ArpMove k next) (unique : k.Unique)
    : next.Unique := by
  cases move with
  | keep => exact unique
  | answer i mac inside waited =>
    refine unique.shrink ?_ ?_
    · intro j hj
      by_cases slot : j = i
      · exact ⟨hj.1, Or.inr (slot ▸ waited)⟩
      · have same : (k.answer i mac).arp j = k.arp j := update_of_ne slot ..
        exact ⟨hj.1, same ▸ hj.2⟩
    · intro j
      by_cases slot : j = i
      · subst slot
        simp [Kernel.answer, Kernel.wakeup, setArp, Kernel.mapping]
      · exact congrArg ArpEntry.ip (update_of_ne slot ..)
  | store i ip mac absent =>
    refine unique.take (i := i) ?_ rfl fun j other => update_of_ne other ..
    simpa [Kernel.store, setArp, Kernel.mapping] using absent
  | request i ip absent =>
    refine unique.take (i := i) ?_ rfl fun j other => update_of_ne other ..
    simpa [Kernel.request, setArp] using absent

/-- What a step does to the cache: the clock goes on, or it is a call of `arp.c`. -/
theorem ArpStep.cache (step : ArpStep sys action next)
    : (∃ ticks, action = .clock ticks ∧ next.kernel = { sys.kernel with ticks })
      ∨ ∃ k, ArpMove sys.kernel k ∧ next.kernel.arp = k.arp ∧ next.kernel.ticks = k.ticks := by
  cases step with
  | clock ticks => exact Or.inl ⟨ticks, rfl, rfl⟩
  | asks env pid dst i runnable searched waited taken =>
    exact Or.inr
      ⟨_, .request i _ (absent_of_none searched waited) taken, rfl, rfl⟩
  | added env ip mac i searched waited | answered env arpPkt i reply waited =>
    obtain ⟨inside, -, requested⟩ := arpRequested_spec waited
    exact Or.inr ⟨_, .answer i _ inside requested, rfl, rfl⟩
  | stored env ip mac i searched waited taken =>
    exact Or.inr
      ⟨_, .store i ip _ (absent_of_none searched waited) taken, rfl, rfl⟩
  | broadcast | found | waits | resume | copy | cached | ignored | kill =>
    exact Or.inr ⟨_, .keep, rfl, rfl⟩

/-- `arp_alloc` is called for an address and returns the slot. -/
def Kernel.Allocates (k : Kernel) (ip : UInt32) (i : Nat) : Prop :=
  arpSearch k ip = none ∧ arpRequested k ip = none ∧ k.arpTaken = some i

/-- The step takes the slot for another address. -/
def ArpSys.Evicts (sys : ArpSys) (i : Nat) : ArpAction → Prop
  | .send _ _ dst => sys.kernel.Allocates (sys.kernel.nextHop dst) i
  | .add _ ip _ => sys.kernel.Allocates ip i
  | _ => False

/-- A step does not touch a valid mapping unless it evicts it, and leaves no valid mapping of
a cached address to another hardware address.
-/
structure ArpStable (sys : ArpSys) (action : ArpAction) (next : ArpSys) : Prop where
  kept
    : ∀ i < arpCacheSize,
        (sys.kernel.arp i).Valid sys.kernel.ticks
        → ¬ sys.Evicts i action
        → next.kernel.arp i = sys.kernel.arp i
  notRedirected
    : ∀ i < arpCacheSize, ∀ j < arpCacheSize,
        (sys.kernel.arp i).Valid sys.kernel.ticks
        → (next.kernel.arp j).Valid next.kernel.ticks
        → (next.kernel.arp j).ip = (sys.kernel.arp i).ip
        → (next.kernel.arp j).mac = (sys.kernel.arp i).mac

def ArpSys.ClockForward (sys : ArpSys) : ArpAction → Prop
  | .clock ticks => sys.kernel.ticks ≤ ticks
  | _ => True

instance (sys : ArpSys) : (action : ArpAction) → Decidable (sys.ClockForward action)
  | .clock ticks => inferInstanceAs (Decidable (sys.kernel.ticks ≤ ticks))
  | .send .. | .resume _ | .copy _ | .add .. | .receive .. | .kill _ => isTrue trivial

theorem ArpEntry.Live.earlier {entry : ArpEntry} {ticks later : UInt32}
    (live : entry.Live later) (forward : ticks ≤ later)
    : entry.Live ticks := by
  rcases live with ⟨used, inTime⟩ | requested
  · exact Or.inl ⟨used, Std.le_trans forward inTime⟩
  · exact Or.inr requested

/-- The only slot that a call of `arp.c` changes is one that was waited for or evicted. -/
theorem ArpStep.kept (step : ArpStep sys action next)
    (valid : (sys.kernel.arp i).Valid sys.kernel.ticks) (spared : ¬ sys.Evicts i action)
    : next.kernel.arp i = sys.kernel.arp i := by
  cases step with
  | asks env pid dst slot runnable searched waited taken
  | stored env ip mac slot searched waited taken =>
    have other : i ≠ slot := by
      rintro rfl
      exact spared ⟨searched, waited, taken⟩
    exact update_of_ne other ..
  | added env ip mac slot searched waited | answered env arpPkt slot reply waited =>
    have other : i ≠ slot := by
      rintro rfl
      exact valid.not_requested (arpRequested_spec waited).2.2
    exact update_of_ne other ..
  | broadcast | found | waits | resume | copy | cached | ignored | clock | kill => rfl

theorem ArpMove.notRedirected {next : Kernel} (move : ArpMove k next) (unique : k.Unique) {j : Nat}
    (hi : i < arpCacheSize) (hj : j < arpCacheSize) (before : (k.arp i).Valid k.ticks)
    (after : (next.arp j).Valid next.ticks) (same : (next.arp j).ip = (k.arp i).ip)
    : (next.arp j).mac = (k.arp i).mac := by
  -- a slot that the call leaves alone is the one that was valid before
  have untouched (alone : next.arp j = k.arp j) (clock : next.ticks = k.ticks)
      : (next.arp j).mac = (k.arp i).mac := by
    rw [alone] at after same ⊢
    rw [clock] at after
    rw [unique ⟨hj, Or.inl after⟩ ⟨hi, Or.inl before⟩ same]
  cases move with
  | keep => exact untouched rfl rfl
  | answer slot mac inside waited =>
    by_cases changed : j = slot
    · subst changed
      have holds : (k.arp j).ip = (k.arp i).ip := by
        simpa [Kernel.answer, Kernel.wakeup, setArp, Kernel.mapping] using same
      obtain rfl := unique ⟨hj, Or.inr waited⟩ ⟨hi, Or.inl before⟩ holds
      exact absurd waited before.not_requested
    · exact untouched (update_of_ne changed ..) rfl
  | store slot ip mac absent =>
    by_cases changed : j = slot
    · subst changed
      have holds : ip = (k.arp i).ip := by
        simpa [Kernel.store, setArp, Kernel.mapping] using same
      exact absurd (Or.inl before) (absent i hi holds.symm)
    · exact untouched (update_of_ne changed ..) rfl
  | request slot =>
    by_cases changed : j = slot
    · subst changed
      exact absurd after.1 (by simp [Kernel.request, setArp])
    · exact untouched (update_of_ne changed ..) rfl

/-- Both halves of the invariant hold across a step with the clock going forward. -/
theorem ArpStep.unique (step : ArpStep sys action next) (unique : sys.kernel.Unique)
    (forward : sys.ClockForward action)
    : next.kernel.Unique := by
  rcases step.cache with ⟨ticks, rfl, clock⟩ | ⟨k, move, arp, clock⟩
  · rw [clock]
    exact unique.shrink (fun i hi => ⟨hi.1, hi.2.earlier forward⟩) fun i => rfl
  · have after := move.unique unique
    simpa only [Kernel.Unique, Kernel.liveSlots, arp, clock] using after

theorem ArpStep.stable (step : ArpStep sys action next) (unique : sys.kernel.Unique)
    (forward : sys.ClockForward action)
    : ArpStable sys action next := by
  refine ⟨fun i _ valid spared => step.kept valid spared, ?_⟩
  intro i hi j hj before after same
  rcases step.cache with ⟨ticks, rfl, clock⟩ | ⟨k, move, arp, clock⟩
  · rw [clock] at after same ⊢
    have live : (sys.kernel.arp j).Live sys.kernel.ticks :=
      ArpEntry.Live.earlier (Or.inl after) forward
    rw [unique ⟨hj, live⟩ ⟨hi, Or.inl before⟩ same]
  · rw [arp, clock] at after
    rw [arp] at same ⊢
    exact move.notRedirected unique hi hj before after same

/-- From the empty cache and with a clock that does not go back, at most one live slot holds
an address, and a valid mapping stays as it is until it is evicted.
-/
theorem arp_unique_and_stable (sys : ArpSys) (actions : List ArpAction)
    (empty : ∀ i < arpCacheSize, (sys.kernel.arp i).status = .empty)
    (forward : Along ArpSys.step ArpSys.ClockForward sys actions)
    : Throughout ArpSys.step (fun current => current.kernel.Unique) sys actions
      ∧ Along ArpSys.step
          (fun current action =>
            ∀ next, current.step action = some next → ArpStable current action next)
          sys actions := by
  have initially : sys.kernel.Unique := by
    intro i hi
    refine absurd hi.2 ((ArpEntry.free_iff_not_live _ _).mp (Or.inl ?_))
    exact empty i hi.1
  have kept (current : ArpSys) (action : ArpAction) (next : ArpSys)
      (unique : current.kernel.Unique) (clock : current.ClockForward action)
      (taken : current.step action = some next)
      : next.kernel.Unique :=
    (ArpSys.step_move taken).unique unique clock
  refine ⟨forward.invariant initially kept, forward.strengthen initially kept ?_⟩
  intro current action unique clock next taken
  exact (ArpSys.step_move taken).stable unique clock

set_option maxRecDepth 20000

def oneProcess : ArpSys :=
  { kernel :=
      { Kernel.boot 0xc0a80202 0xffffff00 0xc0a80201 with
        procs := fun pid =>
          { state := if pid = 0 then .runnable else .unused
            chan := none
            killed := false
            ofile := fun _ => none } }
    pc := fun _ => .idle }

/-- The memory that holds an ARP reply of the host `ip`. -/
def arpReplyFrom (ip : UInt32) (mac : List UInt8) : Env :=
  { frame := overlay (fun _ => 0) 0 (arpPacket 2 mac (htonl ip) [0, 0, 0, 0, 0, 0] 0)
    stale := fun _ => 0
    kalloc := none }

/-- The process asks for 192.168.2.4 and is answered, and another host is learned later. -/
def resolveOnce : List ArpAction :=
  let reply := arpReplyFrom 0xc0a80204 [1, 2, 3, 4, 5, 6]
  [.send reply 0 0xc0a80204, .receive reply 0, .resume 0, .copy 0, .clock 500,
    .add reply 0xc0a80206 8]

theorem arp_unique_and_stable_resolveOnce
    : (exec ArpSys.step oneProcess resolveOnce).isSome = true
      ∧ Throughout ArpSys.step (fun current => current.kernel.Unique) oneProcess resolveOnce
      ∧ Along ArpSys.step
          (fun current action =>
            ∀ next, current.step action = some next → ArpStable current action next)
          oneProcess resolveOnce :=
  ⟨by decide +kernel, arp_unique_and_stable oneProcess resolveOnce (by decide) (by decide +kernel)⟩

end Xv6Net
