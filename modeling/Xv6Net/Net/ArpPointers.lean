import Xv6Net.Net.ArpWaiters

/-! The pointers that `arp_resolve` returns. They lead into the cache, and the lock is given
up before the address is copied: the copy is right as long as no process is killed in its
sleep and no slot is taken from under a pointer.
-/

namespace Xv6Net

open Library Memory Transition Function

/-- A copy that `ether_send` makes on behalf of `ip_send(dst)`, with the slot it is taken
from.
-/
structure ArpCopy where
  dst : UInt32
  entry : ArpEntry

/-- The mappings that were learned, and the copies that were made. -/
structure ArpHistory where
  learned : List (UInt32 × List UInt8)
  copied : List ArpCopy

def noHistory : ArpHistory := { learned := [], copied := [] }

def noteArp (sys : ArpSys) (action : ArpAction) (history : ArpHistory) : ArpHistory :=
  match action with
  | .add env ip mac =>
    if arpSearch sys.kernel ip = none then
      { history with learned := (ip, slice env.frame mac 6) :: history.learned }
    else
      history
  | .receive env arpPkt =>
    let sender := htonl (load32 env.frame (arpPkt + 14))
    if htons (load16 env.frame (arpPkt + 6)) = 2 ∧ arpRequested sys.kernel sender ≠ none then
      { history with learned := (sender, slice env.frame (arpPkt + 8) 6) :: history.learned }
    else
      history
  | .copy pid =>
    match sys.pc pid with
    | .resolved dst i =>
      { history with copied := { dst, entry := sys.kernel.arp i } :: history.copied }
    | _ => history
  | _ => history

/-- The system together with its history. -/
abbrev arpStep : ArpSys × ArpHistory → ArpAction → Option (ArpSys × ArpHistory) :=
  withHistory ArpSys.step noteArp

/-- Every copy was taken from a slot that holds the next hop, with an address learned for it.
-/
def AddressesOk (current : ArpSys × ArpHistory) : Prop :=
  ∀ c ∈ current.2.copied,
    (current.1.kernel.nextHop c.dst, c.entry.mac) ∈ current.2.learned
    ∧ c.entry.ip = current.1.kernel.nextHop c.dst
    ∧ c.entry.status = .used

instance (current : ArpSys × ArpHistory) : Decidable (AddressesOk current) :=
  inferInstanceAs (Decidable (∀ c ∈ current.2.copied, _))

/-- The mapping in slot `i` has not timed out, and there is a free slot or an older mapping.
-/
def Kernel.Spares (k : Kernel) (i : Nat) : Prop :=
  (k.arp i).Valid k.ticks
  ∧ ((∃ j < arpCacheSize, (k.arp j).Free k.ticks)
    ∨ ∃ j < arpCacheSize,
        (k.arp j).status = .used ∧ (k.arp j).validUntil < (k.arp i).validUntil)

namespace ArpSys

/-- The process will use what slot `i` holds: it has the pointer, or was woken up. -/
def PointsTo (sys : ArpSys) (pid : Nat) (dst : UInt32) (i : Nat) : Prop :=
  sys.pc pid = .resolved dst i
  ∨ (sys.pc pid = .waiting dst i ∧ ¬ sys.kernel.AsleepOn pid (.arp i))

/-- Whatever slot is taken now, it is not one that a process points to. -/
def PointersSpared (sys : ArpSys) : Prop :=
  ∀ pid dst i, sys.PointsTo pid dst i → sys.kernel.Spares i

/-- A slot is allocated only while every slot in use is spared, and no process is killed in
its sleep.
-/
def Careful (sys : ArpSys) : ArpAction → Prop
  | .send _ _ dst => sys.kernel.Absent (sys.kernel.nextHop dst) → sys.PointersSpared
  | .add _ ip _ => sys.kernel.Absent ip → sys.PointersSpared
  | .kill pid => ∀ i, ¬ sys.kernel.AsleepOn pid (.arp i)
  | _ => True

/-- The state after boot: an empty cache, and nobody in `ip_send`. -/
structure Fresh (sys : ArpSys) : Prop where
  empty : ∀ i < arpCacheSize, (sys.kernel.arp i).status = .empty
  idle : ∀ pid, sys.pc pid = .idle
  awake : ∀ pid i, ¬ sys.kernel.AsleepOn pid (.arp i)

end ArpSys

theorem Kernel.Spares.ne_taken {k : Kernel} {i j : Nat} (spares : k.Spares i)
    (taken : k.arpTaken = some j)
    : i ≠ j := by
  rintro rfl
  obtain ⟨valid, alternative⟩ := spares
  rcases (arpTaken_spec taken).2 with free | ⟨oldest, allLive⟩
  · exact (ArpEntry.free_iff_not_live _ _).mp free (Or.inl valid)
  · rcases alternative with ⟨j, inside, free⟩ | ⟨j, inside, used, older⟩
    · exact (ArpEntry.free_iff_not_live _ _).mp free (allLive j inside)
    · have least := oldest.least j inside (by rw [used]; decide)
      exact Std.not_lt.mpr least older

/-- What the history and the pointers have to do with the cache. -/
structure AddressInv (current : ArpSys × ArpHistory) : Prop where
  waiters : current.1.WaitersOk
  learned
    : ∀ i < arpCacheSize,
        (current.1.kernel.arp i).status = .used
        → ((current.1.kernel.arp i).ip, (current.1.kernel.arp i).mac) ∈ current.2.learned
  pointers
    : ∀ pid dst i,
        current.1.PointsTo pid dst i
        → i < arpCacheSize
          ∧ (current.1.kernel.arp i).status = .used
          ∧ (current.1.kernel.arp i).ip = current.1.kernel.nextHop dst
  copies : AddressesOk current

variable {sys : ArpSys}

theorem ArpStep.nextHop {next : ArpSys} {action : ArpAction} (step : ArpStep sys action next)
    : next.kernel.nextHop = sys.kernel.nextHop := by
  cases step <;> rfl

section

variable {sys next : ArpSys} {history : ArpHistory} {action : ArpAction} {pid i : Nat}
  {dst : UInt32}

variable {caller slot : Nat} {kernel : Kernel}

theorem ArpSys.PointsTo.of_moveTo {pc : ArpPc}
    (points : (sys.moveTo caller kernel pc).PointsTo pid dst i) (other : pid ≠ caller)
    (same : sys.kernel.AsleepOn pid (.arp i) → kernel.AsleepOn pid (.arp i))
    : sys.PointsTo pid dst i := by
  have located : (sys.moveTo caller kernel pc).pc pid = sys.pc pid :=
    update_of_ne other ..
  rcases points with resolved | ⟨waiting, awake⟩
  · exact Or.inl (located.symm.trans resolved)
  · exact Or.inr ⟨located.symm.trans waiting, fun asleep => awake (same asleep)⟩

theorem ArpSys.PointsTo.of_sleep {target : UInt32}
    (points : (sys.moveTo caller (kernel.sleep caller (.arp slot)) (.waiting target slot)).PointsTo
      pid dst i)
    (same : kernel.procs = sys.kernel.procs)
    : sys.PointsTo pid dst i := by
  have asleep (chan : Chan) : kernel.AsleepOn pid chan ↔ sys.kernel.AsleepOn pid chan := by
    simp only [Kernel.AsleepOn, same]
  by_cases caller_ : pid = caller
  · subst caller_
    have located : (sys.moveTo pid (kernel.sleep pid (.arp slot)) (.waiting target slot)).pc pid
        = .waiting target slot := update_self ..
    rcases points with resolved | ⟨waiting, awake⟩
    · rw [located] at resolved
      cases resolved
    · rw [located] at waiting
      cases waiting
      exact absurd (Kernel.asleepOn_sleep.mpr (by simp)) awake
  · refine points.of_moveTo caller_ fun before => Kernel.asleepOn_sleep.mpr ?_
    rw [if_neg caller_]
    exact (asleep _).mpr before

/-- What the process will use after the step: the slot it pointed to, unchanged, or one found or
answered for it.
-/
inductive PointsFrom (sys next : ArpSys) (pid : Nat) (dst : UInt32) (i : Nat) : Prop where
  | before (points : sys.PointsTo pid dst i)
      (kept : (sys.kernel.arp i).status = .used → next.kernel.arp i = sys.kernel.arp i)
  | now (inside : i < arpCacheSize) (used : (next.kernel.arp i).status = .used)
      (holds : (next.kernel.arp i).ip = sys.kernel.nextHop dst)

/-- An answer goes to the processes that wait for it, and leaves other slots alone. -/
theorem PointsFrom.of_answer {mac : List UInt8} (waiters : sys.WaitersOk)
    (waited : (sys.kernel.arp slot).status = .requested)
    (points : ArpSys.PointsTo { sys with kernel := sys.kernel.answer slot mac } pid dst i)
    : PointsFrom sys { sys with kernel := sys.kernel.answer slot mac } pid dst i := by
  have kept (used : (sys.kernel.arp i).status = .used)
      : (sys.kernel.answer slot mac).arp i = sys.kernel.arp i := by
    refine update_of_ne ?_ ..
    rintro rfl
    rw [waited] at used
    cases used
  rcases points with resolved | ⟨waiting, awake⟩
  · exact .before (Or.inl resolved) kept
  · by_cases asleep : sys.kernel.AsleepOn pid (.arp i)
    · have answered : i = slot := by
        by_contra other
        refine awake (Kernel.asleepOn_answer.mpr ⟨asleep, fun same => other ?_⟩)
        exact Chan.arp.inj same
      subst answered
      obtain ⟨target, located, inside, -, holds⟩ := waiters pid i asleep
      have same : ArpPc.waiting target i = .waiting dst i := located.symm.trans waiting
      obtain ⟨rfl, -⟩ := ArpPc.waiting.inj same
      have entry : (sys.kernel.answer i mac).arp i
          = sys.kernel.mapping (sys.kernel.arp i).ip mac := update_self ..
      exact .now inside (congrArg ArpEntry.status entry)
        ((congrArg ArpEntry.ip entry).trans holds)
    · exact .before (Or.inr ⟨waiting, asleep⟩) kept

theorem ArpStep.pointsFrom (step : ArpStep sys action next) (waiters : sys.WaitersOk)
    (careful : sys.Careful action) (points : next.PointsTo pid dst i)
    : PointsFrom sys next pid dst i := by
  cases step with
  | broadcast | cached | ignored | clock => exact .before points fun _ => rfl
  | found env caller target slot runnable found =>
    by_cases same : pid = caller
    · subst same
      obtain ⟨inside, holds, valid⟩ := arpSearch_spec found
      have located : (sys.moveTo pid sys.kernel (.resolved target slot)).pc pid
          = .resolved target slot := update_self ..
      rcases points with resolved | ⟨waiting, -⟩
      · rw [located] at resolved
        cases resolved
        exact .now inside valid.1 holds
      · rw [located] at waiting
        cases waiting
    · exact .before (points.of_moveTo same fun asleep => asleep) fun _ => rfl
  | waits =>
    exact .before (points.of_sleep rfl) fun _ => rfl
  | asks env caller target slot runnable searched waited taken =>
    have before := points.of_sleep rfl
    have spared := careful (Kernel.absent_of_none searched waited) pid dst i before
    exact .before before fun _ => update_of_ne (spared.ne_taken taken) ..
  | resume caller target slot runnable located =>
    by_cases same : pid = caller
    · subst same
      have after : (sys.moveTo pid (sys.kernel.tidyUp pid) (.resolved target slot)).pc pid
          = .resolved target slot := update_self ..
      rcases points with resolved | ⟨waiting, -⟩
      · rw [after] at resolved
        cases resolved
        exact .before (Or.inr ⟨located, runnable.not_asleep⟩) fun _ => rfl
      · rw [after] at waiting
        cases waiting
    · refine .before (points.of_moveTo same fun asleep => ?_) fun _ => rfl
      simpa [Kernel.AsleepOn, Kernel.tidyUp, same] using asleep
  | copy caller =>
    by_cases same : pid = caller
    · subst same
      have after : (sys.moveTo pid sys.kernel .idle).pc pid = .idle :=
        update_self ..
      rcases points with resolved | ⟨waiting, -⟩
      · rw [after] at resolved
        cases resolved
      · rw [after] at waiting
        cases waiting
    · exact .before (points.of_moveTo same fun asleep => asleep) fun _ => rfl
  | added env ip mac slot searched waited | answered env arpPkt slot reply waited =>
    exact .of_answer waiters (arpRequested_spec waited).2.2 points
  | stored env ip mac slot searched waited taken =>
    have spared := careful (Kernel.absent_of_none searched waited) pid dst i points
    exact .before points fun _ => update_of_ne (spared.ne_taken taken) ..
  | kill killed =>
    refine .before ?_ fun _ => rfl
    rcases points with resolved | ⟨waiting, awake⟩
    · exact Or.inl resolved
    · refine Or.inr ⟨waiting, fun asleep => ?_⟩
      by_cases same : pid = killed
      · subst same
        exact careful i asleep
      · exact awake (by simpa [Kernel.AsleepOn, Kernel.kill, same] using asleep)

theorem noteArp_learned {mapping : UInt32 × List UInt8} (known : mapping ∈ history.learned)
    : mapping ∈ (noteArp sys action history).learned := by
  cases action with
  | add env ip mac | receive env arpPkt =>
    simp only [noteArp]
    split
    · exact List.mem_cons_of_mem _ known
    · exact known
  | copy =>
    simp only [noteArp]
    split
    · exact known
    · exact known
  | send | resume | clock | kill => exact known

theorem noteArp_copied {c : ArpCopy} (member : c ∈ (noteArp sys action history).copied)
    : c ∈ history.copied
      ∨ ∃ pid dst i, sys.pc pid = .resolved dst i ∧ c = { dst, entry := sys.kernel.arp i } := by
  cases action with
  | add env ip mac | receive env arpPkt =>
    simp only [noteArp] at member
    split at member
    · exact Or.inl member
    · exact Or.inl member
  | copy pid =>
    simp only [noteArp] at member
    split at member
    · rename_i dst i located
      rcases List.mem_cons.mp member with rfl | old
      · exact Or.inr ⟨pid, dst, i, located, rfl⟩
      · exact Or.inl old
    · exact Or.inl member
  | send | resume | clock | kill => exact Or.inl member

theorem ArpStep.learned (step : ArpStep sys action next)
    (learned
      : ∀ i < arpCacheSize,
          (sys.kernel.arp i).status = .used
          → ((sys.kernel.arp i).ip, (sys.kernel.arp i).mac) ∈ history.learned)
    (inside : i < arpCacheSize) (used : (next.kernel.arp i).status = .used)
    : ((next.kernel.arp i).ip, (next.kernel.arp i).mac)
      ∈ (noteArp sys action history).learned := by
  have old (same : next.kernel.arp i = sys.kernel.arp i)
      : ((next.kernel.arp i).ip, (next.kernel.arp i).mac)
        ∈ (noteArp sys action history).learned := by
    rw [same] at used ⊢
    exact noteArp_learned (learned i inside used)
  cases step with
  | broadcast | found | waits | resume | copy | cached | ignored | clock | kill => exact old rfl
  | asks env caller target slot =>
    by_cases changed : i = slot
    · subst changed
      have entry : (sys.kernel.request i (sys.kernel.nextHop target)).arp i
          = { sys.kernel.arp i with
              ip := sys.kernel.nextHop target, status := .requested } :=
        update_self ..
      exact absurd ((congrArg ArpEntry.status entry).symm.trans used) (by simp)
    · exact old (update_of_ne changed ..)
  | added env ip mac slot searched waited =>
    by_cases changed : i = slot
    · subst changed
      have entry : (sys.kernel.answer i (slice env.frame mac 6)).arp i
          = sys.kernel.mapping (sys.kernel.arp i).ip (slice env.frame mac 6) :=
        update_self ..
      simp only [entry, Kernel.mapping, (arpRequested_spec waited).2.1, noteArp, if_pos searched]
      exact List.mem_cons_self
    · exact old (update_of_ne changed ..)
  | stored env ip mac slot searched =>
    by_cases changed : i = slot
    · subst changed
      have entry : (sys.kernel.store i ip (slice env.frame mac 6)).arp i
          = sys.kernel.mapping ip (slice env.frame mac 6) :=
        update_self ..
      simp only [entry, Kernel.mapping, noteArp, if_pos searched]
      exact List.mem_cons_self
    · exact old (update_of_ne changed ..)
  | answered env arpPkt slot reply waited =>
    by_cases changed : i = slot
    · subst changed
      have entry : (sys.kernel.answer i (slice env.frame (arpPkt + 8) 6)).arp i
          = sys.kernel.mapping (sys.kernel.arp i).ip (slice env.frame (arpPkt + 8) 6) :=
        update_self ..
      have noted : htons (load16 env.frame (arpPkt + 6)) = 2
          ∧ arpRequested sys.kernel (htonl (load32 env.frame (arpPkt + 14))) ≠ none :=
        ⟨reply, by rw [waited]; exact Option.some_ne_none i⟩
      simp only [entry, Kernel.mapping, (arpRequested_spec waited).2.1, noteArp, if_pos noted]
      exact List.mem_cons_self
    · exact old (update_of_ne changed ..)

theorem AddressInv.step (inv : AddressInv (sys, history)) (careful : sys.Careful action)
    (step : ArpStep sys action next)
    : AddressInv (next, noteArp sys action history) := by
  refine ⟨inv.waiters.step step, fun i inside used => step.learned inv.learned inside used,
    ?_, ?_⟩
  · intro pid dst i points
    have hop : next.kernel.nextHop dst = sys.kernel.nextHop dst := by rw [step.nextHop]
    cases step.pointsFrom inv.waiters careful points with
    | before points kept =>
      obtain ⟨inside, used, holds⟩ := inv.pointers pid dst i points
      simp only [kept used, hop]
      exact ⟨inside, used, holds⟩
    | now inside used holds => exact ⟨inside, used, holds.trans hop.symm⟩
  · intro c member
    rw [step.nextHop]
    rcases noteArp_copied member with old | ⟨pid, dst, i, located, rfl⟩
    · obtain ⟨known, holds, used⟩ := inv.copies c old
      exact ⟨noteArp_learned known, holds, used⟩
    · obtain ⟨inside, used, holds⟩ := inv.pointers pid dst i (Or.inl located)
      have known := inv.learned i inside used
      rw [holds] at known
      exact ⟨noteArp_learned known, holds, used⟩

end

theorem ArpSys.Fresh.addressInv (fresh : sys.Fresh)
    : AddressInv (sys, noHistory) := by
  refine ⟨fun pid i asleep => absurd asleep (fresh.awake pid i), ?_, ?_, nofun⟩
  · intro i inside used
    rw [fresh.empty i inside] at used
    cases used
  · intro pid dst i points
    rcases points with resolved | ⟨waiting, -⟩
    · rw [fresh.idle pid] at resolved
      cases resolved
    · rw [fresh.idle pid] at waiting
      cases waiting

/-- In every careful run from boot, each hardware address that `ip_send` copies was learned
for the next hop of its destination, and is copied from a slot that holds it.
-/
theorem arp_addresses_right (sys : ArpSys) (actions : List ArpAction) (fresh : sys.Fresh)
    (careful
      : Along arpStep (fun current action => current.1.Careful action)
          (sys, noHistory) actions)
    : Throughout arpStep AddressesOk (sys, noHistory) actions := by
  have always := careful.invariant fresh.addressInv fun current action next inv allowed taken => by
    obtain ⟨stepped, noted⟩ := withHistory_eq_some taken
    have kept := inv.step allowed (ArpSys.step_move stepped)
    rwa [← noted] at kept
  exact always.mono fun _ inv => inv.copies

set_option maxRecDepth 20000

theorem oneProcess_fresh : oneProcess.Fresh :=
  ⟨by decide, fun _ => rfl, oneProcess_awake⟩

/-- A process asks for an address, is answered and copies it. -/
theorem arp_addresses_right_answered
    : (exec arpStep (oneProcess, noHistory) (resolveOnce.take 4)).map
          (fun final => final.2.copied.map fun c => c.entry.mac)
        = some [[1, 2, 3, 4, 5, 6]]
      ∧ Throughout arpStep AddressesOk (oneProcess, noHistory) (resolveOnce.take 4) := by
  refine ⟨by decide +kernel, arp_addresses_right oneProcess _ oneProcess_fresh ?_⟩
  have nobody : oneProcess.PointersSpared := by
    rintro pid dst i (resolved | ⟨waiting, -⟩)
    · cases resolved
    · cases waiting
  exact ⟨fun _ => nobody, fun _ _ => ⟨trivial, fun _ _ => ⟨trivial, fun _ _ => ⟨trivial,
    fun _ _ => trivial⟩⟩⟩⟩

/-- The process is killed while it waits for the answer. -/
def killedWaiter : List ArpAction :=
  [.send (arpReplyFrom 0 []) 0 0xc0a80204, .kill 0, .resume 0, .copy 0]

/-- It copies an address that nobody has sent. -/
theorem killed_waiter_copies_unanswered
    : ¬ Throughout arpStep AddressesOk (oneProcess, noHistory) killedWaiter := by
  intro always
  have wrong : (exec arpStep (oneProcess, noHistory) killedWaiter).map
      (fun final => decide (AddressesOk final)) = some false := by
    decide +kernel
  obtain ⟨final, run, notOk⟩ := Option.map_eq_some_iff.mp wrong
  exact of_decide_eq_false notOk (always.finish run)

end Xv6Net
