import Xv6Net.Library.Scan
import Xv6Net.Library.Transition
import Xv6Net.Net.Arp
import Xv6Net.Tcp.Disposition

/-! What the functions of `arp.c` do to the cache: they leave it as it is, answer a slot that
is waited for, or take a slot for an address that no live slot holds.
-/

namespace Xv6Net

open Library Memory

namespace ArpEntry

/-- The mapping has not timed out: `arp_search` finds it. -/
def Valid (entry : ArpEntry) (ticks : UInt32) : Prop :=
  entry.status = .used ∧ ticks ≤ entry.validUntil

/-- The slot stands for its address: it holds a valid mapping or is waited for. -/
def Live (entry : ArpEntry) (ticks : UInt32) : Prop :=
  entry.Valid ticks ∨ entry.status = .requested

/-- The slot is empty or its mapping has timed out. -/
def Free (entry : ArpEntry) (ticks : UInt32) : Prop :=
  entry.status = .empty ∨ (entry.status = .used ∧ entry.validUntil < ticks)

instance (entry : ArpEntry) (ticks : UInt32) : Decidable (entry.Valid ticks) :=
  inferInstanceAs (Decidable (_ ∧ _))

instance (entry : ArpEntry) (ticks : UInt32) : Decidable (entry.Live ticks) :=
  inferInstanceAs (Decidable (_ ∨ _))

instance (entry : ArpEntry) (ticks : UInt32) : Decidable (entry.Free ticks) :=
  inferInstanceAs (Decidable (_ ∨ _))

theorem free_iff_not_live (entry : ArpEntry) (ticks : UInt32)
    : entry.Free ticks ↔ ¬ entry.Live ticks := by
  cases status : entry.status with
  | empty | used | requested => simp [Free, Live, Valid, status]

theorem Valid.not_requested {entry : ArpEntry} {ticks : UInt32} (valid : entry.Valid ticks)
    : entry.status ≠ .requested := by
  rw [valid.1]
  decide

end ArpEntry

variable {k : Kernel} {ip : UInt32} {i : Nat}

theorem arpSearch_spec (found : arpSearch k ip = some i)
    : i < arpCacheSize ∧ (k.arp i).ip = ip ∧ (k.arp i).Valid k.ticks := by
  simpa [ArpEntry.Valid] using Scan.find_range_spec found

theorem arpSearch_eq_none
    : arpSearch k ip = none
      ↔ ∀ i < arpCacheSize, (k.arp i).ip = ip → ¬ (k.arp i).Valid k.ticks := by
  simp [arpSearch, ArpEntry.Valid]

theorem arpRequested_spec (found : arpRequested k ip = some i)
    : i < arpCacheSize ∧ (k.arp i).ip = ip ∧ (k.arp i).status = .requested := by
  simpa using Scan.find_range_spec found

theorem arpRequested_eq_none
    : arpRequested k ip = none
      ↔ ∀ i < arpCacheSize, (k.arp i).ip = ip → (k.arp i).status ≠ .requested := by
  simp [arpRequested]

theorem arpFree_spec (found : arpFree k = some i)
    : i < arpCacheSize ∧ (k.arp i).Free k.ticks := by
  simpa [ArpEntry.Free] using Scan.find_range_spec found

theorem arpFree_eq_none
    : arpFree k = none ↔ ∀ i < arpCacheSize, (k.arp i).Live k.ticks := by
  have free (i : Nat) : (k.arp i).Live k.ticks
      ↔ ¬ ((k.arp i).status = .empty
        ∨ ((k.arp i).status = .used ∧ (k.arp i).validUntil < k.ticks)) := by
    rw [← not_iff_not, not_not, ← ArpEntry.free_iff_not_live]
    rfl
  simp only [free]
  simp [arpFree]

/-- The slot is the first of those with the smallest `valid_until` that nobody waits for. -/
def Kernel.Oldest (k : Kernel) (i : Nat) : Prop :=
  Scan.FirstLeast (fun j => (k.arp j).status ≠ .requested) (fun j => (k.arp j).validUntil)
    0xffffffff arpCacheSize i

theorem arpOldest_eq_some_iff : arpOldest k = some i ↔ k.Oldest i :=
  Scan.leastBelow_eq_some_iff (fun j => (k.arp j).status ≠ .requested)
    (fun j => (k.arp j).validUntil) 0xffffffff

def Kernel.Absent (k : Kernel) (ip : UInt32) : Prop :=
  ∀ i < arpCacheSize, (k.arp i).ip = ip → ¬ (k.arp i).Live k.ticks

/-- The two scans that precede `arp_alloc` find nothing exactly for an absent address. -/
theorem Kernel.absent_iff
    : k.Absent ip ↔ arpSearch k ip = none ∧ arpRequested k ip = none := by
  rw [arpSearch_eq_none, arpRequested_eq_none]
  constructor
  · intro absent
    exact ⟨fun i inside holds valid => absent i inside holds (Or.inl valid),
      fun i inside holds requested => absent i inside holds (Or.inr requested)⟩
  · rintro ⟨searched, waited⟩ i inside holds (valid | requested)
    · exact searched i inside holds valid
    · exact waited i inside holds requested

theorem Kernel.absent_of_none (searched : arpSearch k ip = none) (waited : arpRequested k ip = none)
    : k.Absent ip :=
  absent_iff.mpr ⟨searched, waited⟩

/-- The slot that `arp_alloc` returns. -/
def Kernel.arpTaken (k : Kernel) : Option Nat := (arpFree k).or (arpOldest k)

/-- `arp_alloc` takes a free slot, or with none left the oldest one that nobody waits for. -/
theorem arpTaken_spec (taken : k.arpTaken = some i)
    : i < arpCacheSize
      ∧ ((k.arp i).Free k.ticks
        ∨ (k.Oldest i ∧ ∀ j < arpCacheSize, (k.arp j).Live k.ticks)) := by
  rcases Option.or_eq_some_iff.mp taken with free | ⟨none_, oldest⟩
  · obtain ⟨inside, free⟩ := arpFree_spec free
    exact ⟨inside, Or.inl free⟩
  · have spec := arpOldest_eq_some_iff.mp oldest
    exact ⟨spec.inside, Or.inr ⟨spec, arpFree_eq_none.mp none_⟩⟩

/-- `arp_alloc` does not take an entry that somebody waits for. -/
theorem arpTaken_not_requested (taken : k.arpTaken = some i)
    : (k.arp i).status ≠ .requested := by
  intro requested
  rcases (arpTaken_spec taken).2 with free | ⟨oldest, -⟩
  · exact (ArpEntry.free_iff_not_live _ _).mp free (Or.inr requested)
  · exact oldest.fits requested

def Kernel.mapping (k : Kernel) (ip : UInt32) (mac : List UInt8) : ArpEntry :=
  { ip, mac, validUntil := k.ticks + arpTtlTicks, status := .used }

/-- The cache after the answer that slot `i` was waiting for. -/
def Kernel.answer (k : Kernel) (i : Nat) (mac : List UInt8) : Kernel :=
  (k.setArp i fun entry => k.mapping entry.ip mac).wakeup (.arp i)

/-- The cache after a mapping was stored in slot `i`. -/
def Kernel.store (k : Kernel) (i : Nat) (ip : UInt32) (mac : List UInt8) : Kernel :=
  k.setArp i fun _ => k.mapping ip mac

/-- The cache after slot `i` was taken for an address that is asked for. -/
def Kernel.request (k : Kernel) (i : Nat) (ip : UInt32) : Kernel :=
  k.setArp i fun entry => { entry with ip, status := .requested }

/-- Everything that a call of `arp.c` can do to the cache. -/
inductive ArpMove (k : Kernel) : Kernel → Prop where
  | keep : ArpMove k k
  | answer (i : Nat) (mac : List UInt8) (inside : i < arpCacheSize)
      (waited : (k.arp i).status = .requested)
      : ArpMove k (k.answer i mac)
  | store (i : Nat) (ip : UInt32) (mac : List UInt8) (absent : k.Absent ip)
      (taken : k.arpTaken = some i)
      : ArpMove k (k.store i ip mac)
  | request (i : Nat) (ip : UInt32) (absent : k.Absent ip) (taken : k.arpTaken = some i)
      : ArpMove k (k.request i ip)

theorem Kernel.setArp_setArp (k : Kernel) (i : Nat) (f g : ArpEntry → ArpEntry)
    : (k.setArp i f).setArp i g = k.setArp i (fun entry => g (f entry)) := by
  simp [setArp]

variable (env : Env) (k ip)

/-- A free entry, or the oldest one. -/
theorem arpAlloc_run
    : arpAlloc.run env k
      = match k.arpTaken with
        | none => ⟨none, k, []⟩
        | some i => ⟨some i, k.setArp i fun entry => { entry with status := .empty }, []⟩ := by
  simp only [arpAlloc, run_bind, run_get, andThen_some, Kernel.arpTaken]
  cases (arpFree k).or (arpOldest k) with
  | none | some i => rfl

theorem arpStore_run (i : Nat) (mac : Int)
    : (arpStore i ip mac).run env k
      = ⟨some (), k.store i ip (slice env.frame mac 6), [.read mac 6]⟩ := by
  have six : moveCount haddrSize = 6 := rfl
  simp only [arpStore, run_bind, run_modify, andThen_some, rxBytes_run,
    after_mk, six, Kernel.setArp_setArp]
  rfl

/-- The outcomes of `arp_add`. -/
inductive ArpAdded (mac : Int) : Outcome Kernel Event Unit → Prop where
  | cached (i : Nat) (found : arpSearch k ip = some i) : ArpAdded mac ⟨some (), k, []⟩
  | answered (i : Nat) (searched : arpSearch k ip = none) (waited : arpRequested k ip = some i)
      : ArpAdded mac ⟨some (), k.answer i (slice env.frame mac 6), [.read mac 6]⟩
  | stored (i : Nat) (searched : arpSearch k ip = none) (waited : arpRequested k ip = none)
      (taken : k.arpTaken = some i)
      : ArpAdded mac ⟨some (), k.store i ip (slice env.frame mac 6), [.read mac 6]⟩
  | full (searched : arpSearch k ip = none) (waited : arpRequested k ip = none)
      (taken : k.arpTaken = none)
      : ArpAdded mac ⟨none, k, []⟩

/-- What `arp_add` does, by what the cache holds. -/
theorem arpAdd_spec (mac : Int) : ArpAdded k ip env mac ((arpAdd ip mac).run env k) := by
  simp only [arpAdd, run_bind, run_get, andThen_some, after_nil]
  cases searched : arpSearch k ip with
  | some i => exact .cached i searched
  | none =>
    cases waited : arpRequested k ip with
    | some i =>
      have holds : (k.arp i).ip = ip := (arpRequested_spec waited).2.1
      have same : k.store i ip (slice env.frame mac 6)
          = k.setArp i fun entry => k.mapping entry.ip (slice env.frame mac 6) := by
        simp only [Kernel.store, Kernel.setArp, holds]
      simp only [run_bind, arpStore_run, andThen_some, run_modify, after_mk, List.append_nil, same]
      exact .answered i searched waited
    | none =>
      simp only [run_bind, arpAlloc_run]
      cases taken : k.arpTaken with
      | none => exact .full searched waited taken
      | some i =>
        have same : (k.setArp i fun entry => { entry with status := .empty }).store i ip
            (slice env.frame mac 6) = k.store i ip (slice env.frame mac 6) :=
          Kernel.setArp_setArp ..
        simp only [andThen_some, arpStore_run, after_nil, same]
        exact .stored i searched waited taken

/-- The outcomes of `arp_resolve`, up to where it gives up the lock. -/
inductive ArpResolved : Outcome Kernel Event ArpLookup → Prop where
  | found (i : Nat) (found : arpSearch k (k.nextHop ip) = some i)
      : ArpResolved ⟨some (.found i), k, []⟩
  | waits (i : Nat) (searched : arpSearch k (k.nextHop ip) = none)
      (waited : arpRequested k (k.nextHop ip) = some i)
      : ArpResolved ⟨some (.sleeps i), k, []⟩
  | asks (i : Nat) (searched : arpSearch k (k.nextHop ip) = none)
      (waited : arpRequested k (k.nextHop ip) = none) (taken : k.arpTaken = some i)
      (log : List Event)
      : ArpResolved ⟨some (.sleeps i), k.request i (k.nextHop ip), log⟩
  | full (searched : arpSearch k (k.nextHop ip) = none)
      (waited : arpRequested k (k.nextHop ip) = none) (taken : k.arpTaken = none)
      : ArpResolved ⟨none, k, []⟩

theorem arpResolve_spec : ArpResolved k ip ((arpResolve ip).run env k) := by
  simp only [arpResolve, run_bind, run_get, andThen_some, after_nil]
  cases searched : arpSearch k (k.nextHop ip) with
  | some i => exact .found i searched
  | none =>
    cases waited : arpRequested k (k.nextHop ip) with
    | some i => exact .waits i searched waited
    | none =>
      simp only [run_bind, arpAlloc_run]
      cases taken : k.arpTaken with
      | none => exact .full searched waited taken
      | some i =>
        simp only [andThen_some, run_modify, arpRequest, run_bind, run_get, run_emit, run_pure,
          after_mk, Kernel.setArp_setArp]
        exact .asks i searched waited taken _

/-- The outcomes of `arp_receive`. -/
inductive ArpReceived (arpPkt : Int) : Outcome Kernel Event Unit → Prop where
  | ignored (log : List Event) : ArpReceived arpPkt ⟨some (), k, log⟩
  | answered (i : Nat) (log : List Event) (reply : htons (load16 env.frame (arpPkt + 6)) = 2)
      (waited : arpRequested k (htonl (load32 env.frame (arpPkt + 14))) = some i)
      : ArpReceived arpPkt ⟨some (), k.answer i (slice env.frame (arpPkt + 8) 6), log⟩

/-- What a packet does to the cache, by its operation. -/
theorem arpReceive_spec (arpPkt : Int)
    : ArpReceived k env arpPkt ((arpReceive arpPkt).run env k) := by
  have six : moveCount haddrSize = 6 := rfl
  simp only [arpReceive, run_bind, run_ite, rxLoad16_run, rxLoad32_run, run_get, andThen_some]
  split
  · simp only [arpReply, run_bind, run_ite, run_get, rxLoad32_run,
      rxBytes_run, andThen_some, run_emit, run_pure]
    split
    · exact .ignored _
    · exact .ignored _
  · split
    · rename_i reply
      cases waited : arpRequested k (htonl (load32 env.frame (arpPkt + 14))) with
      | none => exact .ignored _
      | some i =>
        simp only [run_bind, rxBytes_run, andThen_some, run_modify, after_mk, six]
        exact .answered i _ reply waited
    · exact .ignored _

section

variable {env : Env} {k : Kernel} {i : Nat}

/-- `arp_alloc` returns the first free slot, or else a used one that is valid for the shortest time;
it changes the status of that slot only, and panics exactly when every slot is waited for.
-/
structure RightVictim (k : Kernel) (out : Outcome Kernel Event Nat) : Prop where
  free
    : ∀ i < arpCacheSize, (k.arp i).Free k.ticks → (∀ j < i, ¬ (k.arp j).Free k.ticks)
        → out.value = some i
  oldest
    : (∀ i < arpCacheSize, ¬ (k.arp i).Free k.ticks)
        → (∃ i < arpCacheSize, (k.arp i).status = .used)
        → ∃ i < arpCacheSize, out.value = some i ∧ (k.arp i).status = .used
          ∧ ∀ j < arpCacheSize, (k.arp j).status = .used
            → (k.arp i).validUntil ≤ (k.arp j).validUntil
  taken
    : ∀ i, out.value = some i
        → i < arpCacheSize ∧ (k.arp i).status ≠ .requested
          ∧ out.state = k.setArp i fun entry => { entry with status := .empty }
  full : out.value = none ↔ ∀ i < arpCacheSize, (k.arp i).status = .requested

theorem arpFree_eq_some_iff
    : arpFree k = some i
      ↔ i < arpCacheSize ∧ (k.arp i).Free k.ticks ∧ ∀ j < i, ¬ (k.arp j).Free k.ticks := by
  simp only [arpFree, List.find?_range_eq_some, ArpEntry.Free, List.mem_range, decide_eq_true_eq,
    Bool.not_eq_true', decide_eq_false_iff_not]
  tauto

theorem not_lt_longest {time : UInt32} : ¬ time < 0xffffffff ↔ time = 0xffffffff := by
  constructor
  · intro notLess
    have bound := time.toNat_lt
    have large := UInt32.le_iff_toNat_le.mp (UInt32.not_lt.mp notLess)
    exact UInt32.toNat_inj.mp (Nat.le_antisymm (Nat.le_of_lt_succ bound) large)
  · rintro rfl
    decide

/-- Nothing is taken exactly when no slot is free and no mapping is valid for less than the longest
time.
-/
theorem arpTaken_eq_none
    : k.arpTaken = none
      ↔ ∀ i < arpCacheSize, (k.arp i).status ≠ .requested
          → (k.arp i).status = .used ∧ (k.arp i).validUntil = 0xffffffff := by
  constructor
  · intro none_ i inside unasked
    obtain ⟨noFree, noOldest⟩ := Option.or_eq_none_iff.mp none_
    rcases arpFree_eq_none.mp noFree i inside with valid | requested
    · refine ⟨valid.1, ?_⟩
      rcases Scan.leastBelow_spec (fun j => (k.arp j).status ≠ .requested)
        (fun j => (k.arp j).validUntil) 0xffffffff arpCacheSize with ⟨j, -, first_⟩ | ⟨-, least⟩
      · rw [arpOldest_eq_some_iff.mpr first_] at noOldest
        cases noOldest
      · exact not_lt_longest.mp (UInt32.not_lt.mpr (least i inside unasked))
    · exact absurd requested unasked
  · intro stuck
    refine Option.or_eq_none_iff.mpr ⟨arpFree_eq_none.mpr fun i inside => ?_, ?_⟩
    · by_cases requested : (k.arp i).status = .requested
      · exact Or.inr requested
      · obtain ⟨used, longest⟩ := stuck i inside requested
        refine Or.inl ⟨used, ?_⟩
        rw [longest]
        exact UInt32.le_iff_toNat_le.mpr (Nat.le_of_lt_succ k.ticks.toNat_lt)
    · cases found : arpOldest k with
      | none => rfl
      | some i =>
        have oldest := arpOldest_eq_some_iff.mp found
        exact absurd oldest.below (not_lt_longest.mpr (stuck i oldest.inside oldest.fits).2)

/-- The choice is right exactly if every slot is waited for, or one that is not waited for is empty
or valid for less than the longest time there is.
-/
theorem arpAlloc_right_iff (env : Env) (k : Kernel)
    : RightVictim k (arpAlloc.run env k)
      ↔ (∀ i < arpCacheSize, (k.arp i).status = .requested)
        ∨ ∃ i < arpCacheSize, (k.arp i).status ≠ .requested
          ∧ ((k.arp i).status = .empty ∨ (k.arp i).validUntil < 0xffffffff) := by
  rw [arpAlloc_run]
  constructor
  · intro right
    by_contra neither
    obtain ⟨unasked, stuck⟩ := not_or.mp neither
    have none_ : k.arpTaken = none := by
      refine arpTaken_eq_none.mpr fun i inside notRequested => ?_
      have fixed : ¬ ((k.arp i).status = .empty ∨ (k.arp i).validUntil < 0xffffffff) :=
        fun open_ => stuck ⟨i, inside, notRequested, open_⟩
      obtain ⟨notEmpty, longest⟩ := not_or.mp fixed
      -- the search for the oldest entry starts from the latest time
      refine ⟨?_, not_lt_longest.mp longest⟩
      cases status : (k.arp i).status with
      | empty => exact absurd status notEmpty
      | used => rfl
      | requested => exact absurd status notRequested
    rw [none_] at right
    exact unasked (right.full.mp rfl)
  · intro possible
    cases taken : k.arpTaken with
    | none =>
      have requested : ∀ i < arpCacheSize, (k.arp i).status = .requested := by
        rcases possible with requested | ⟨i, inside, unasked, open_⟩
        · exact requested
        · obtain ⟨used, longest⟩ := arpTaken_eq_none.mp taken i inside unasked
          rcases open_ with empty | shorter
          · rw [used] at empty
            cases empty
          · exact absurd shorter (not_lt_longest.mpr longest)
      refine ⟨fun i inside free => ?_, fun _ ⟨i, inside, used⟩ => ?_, nofun, ?_⟩
      · exact absurd (.inr (requested i inside)) ((ArpEntry.free_iff_not_live _ _).mp free)
      · rw [requested i inside] at used
        cases used
      · exact iff_of_true rfl requested
    | some i =>
      obtain ⟨inside, kind⟩ := arpTaken_spec taken
      have unasked := arpTaken_not_requested taken
      refine ⟨fun j within free earlier => ?_, fun noFree _ => ?_, ?_, ?_⟩
      · have first_ := arpFree_eq_some_iff.mpr ⟨within, free, earlier⟩
        rw [Kernel.arpTaken, first_, Option.some_or] at taken
        exact taken.symm
      · rcases kind with free | ⟨oldest, -⟩
        · exact absurd free (noFree i inside)
        · refine ⟨i, inside, rfl, ?_, fun j within used => oldest.least j within ?_⟩
          · cases status : (k.arp i).status with
            | empty => exact absurd (.inl status) (noFree i inside)
            | used => rfl
            | requested => exact absurd status unasked
          · rw [used]
            decide
      · rintro _ ⟨⟩
        exact ⟨inside, unasked, rfl⟩
      · exact iff_of_false nofun fun requested => unasked (requested i inside)

/-- A cache of mappings that are all valid for the longest time there is: `arp_alloc` panics. -/
def everlastingCache : Kernel :=
  { Kernel.boot 0 0 0 with
    arp := fun _ => { ip := 0, mac := [], validUntil := 0xffffffff, status := .used } }

theorem everlasting_cache_panics
    : ¬ RightVictim everlastingCache
        (arpAlloc.run { frame := fun _ => 0, stale := fun _ => 0, kalloc := none }
          everlastingCache) := by
  intro right
  have panics := right.full.mp (by decide)
  exact nomatch panics 0 (by decide)

end

end Xv6Net
