import Mathlib.Algebra.Group.Nat.Defs
import Mathlib.Data.Set.Insert

/-! `umalloc.c`, with `sbrk` as `sys_sbrk` and `growproc` implement it. Addresses and sizes are
32-bit words, and sizes are counted in headers of eight bytes. `malloc` does not return where it
stores the header of a new block beyond the last page of the process; the other headers it uses lie
in memory.
-/

namespace Xv6Net.Malloc

open Function

/-- `union header`. -/
structure Header where
  ptr : UInt32
  size : UInt32

/-- The headers in memory, the size of the process, and the bytes that `sbrk` has supplied. -/
structure Heap where
  header : UInt32 → Header
  freep : UInt32
  sz : UInt32
  supplied : Nat → Bool

/-- The address of `base`, and whether there is memory to grow to a size. -/
structure Env where
  base : UInt32
  memory : UInt32 → Bool

def Heap.set (h : Heap) (p : UInt32) (value : Header) : Heap :=
  { h with header := update h.header p value }

/-- The loop of `free` that finds the place of a block. -/
def freeLoop (h : Heap) (bp : UInt32) : Nat → UInt32 → Option UInt32
  | 0, _ => none
  | fuel + 1, p =>
    let next := (h.header p).ptr
    if bp > p ∧ bp < next then some p
    else if p ≥ next ∧ (bp > p ∨ bp < next) then some p
    else freeLoop h bp fuel next

/-- `t` becomes the block after `r`, and the two are joined where they are adjacent. -/
def attach (h : Heap) (r t : UInt32) : Heap :=
  let block := h.header r
  if r + 8 * block.size = t then
    h.set r { ptr := (h.header t).ptr, size := block.size + (h.header t).size }
  else h.set r { block with ptr := t }

def free (fuel : Nat) (h : Heap) (ap : UInt32) : Option Heap :=
  let bp := ap - 8
  match freeLoop h bp fuel h.freep with
  | none => none
  | some p =>
    let h := attach h bp (h.header p).ptr
    let h := attach h p bp
    some { h with freep := p }

abbrev kernBase : UInt32 := 0x80000000

/-- `sbrk` returned -1. -/
abbrev failed : UInt32 := 0xFFFFFFFF

/-- The size of the process after it has grown. -/
def Heap.grow (h : Heap) (newsz : UInt32) : Heap :=
  { h with
    sz := newsz
    supplied := fun a => h.supplied a || (decide (h.sz.toNat ≤ a) && decide (a < newsz.toNat)) }

/-- `sbrk`; an argument with its highest bit set is negative. -/
def sbrk (env : Env) (h : Heap) (n : UInt32) : Heap × UInt32 :=
  let newsz := h.sz + n
  if n = 0 then (h, h.sz)
  else if n < kernBase then
    -- allocuvm
    if newsz ≥ kernBase then (h, failed)
    else if newsz < h.sz then (h, h.sz)
    else if env.memory newsz then (h.grow newsz, h.sz)
    else (h, failed)
  else if newsz ≥ h.sz then
    -- deallocuvm returns the old size, and 0 is taken for a failure
    if h.sz = 0 then (h, failed) else (h, h.sz)
  else
    let h' := { h with supplied := fun a => h.supplied a && decide (a < newsz.toNat) }
    if newsz = 0 then (h', failed) else ({ h' with sz := newsz }, h.sz)

/-- `morecore`; it returns `freep`, or null if `sbrk` fails. -/
def morecore (env : Env) (fuel : Nat) (h : Heap) (nu : UInt32) : Option (Heap × UInt32) :=
  let nu := if nu < 4096 then 4096 else nu
  let (h, p) := sbrk env h (nu * 8)
  if p = failed then some (h, 0)
  else if p.toNat + 8 ≤ (h.sz.toNat + 4095) / 4096 * 4096 then
    (free fuel (h.set p { h.header p with size := nu }) (p + 8)).map fun h => (h, h.freep)
  else none

/-- The loop of `malloc`; the pointer 0 is null. -/
def mallocLoop (env : Env) (nunits : UInt32)
    : Nat → Heap → UInt32 → UInt32 → Option (Heap × UInt32)
  | 0, _, _, _ => none
  | fuel + 1, h, prevp, p =>
    let block := h.header p
    if block.size ≥ nunits then
      if block.size = nunits then
        let h := h.set prevp { h.header prevp with ptr := block.ptr }
        some ({ h with freep := prevp }, p + 8)
      else
        let left := block.size - nunits
        let h := h.set p { block with size := left }
        let q := p + 8 * left
        let h := h.set q { h.header q with size := nunits }
        some ({ h with freep := prevp }, q + 8)
    else if p = h.freep then
      match morecore env fuel h nunits with
      | none => none
      | some (h, p) =>
        if p = 0 then some (h, 0) else mallocLoop env nunits fuel h p (h.header p).ptr
    else mallocLoop env nunits fuel h p block.ptr

def units (nbytes : UInt32) : UInt32 := (nbytes + 8 - 1) / 8 + 1

/-- The list of `base` alone, made by the first call. -/
def start (env : Env) (h : Heap) : Heap :=
  if h.freep = 0 then { h.set env.base { ptr := env.base, size := 0 } with freep := env.base }
  else h

/-- `malloc`; `none` where it does not return within the fuel. -/
def malloc (env : Env) (fuel : Nat) (h : Heap) (nbytes : UInt32) : Option (Heap × UInt32) :=
  let h := start env h
  mallocLoop env (units nbytes) fuel h h.freep (h.header h.freep).ptr

/-- A block of this size at the address lies in memory that `sbrk` has supplied. -/
def Within (h : Heap) (p : UInt32) (size : Nat) : Prop :=
  p.toNat + 8 ≤ h.sz.toNat ∧ p.toNat + 8 * size ≤ h.sz.toNat
    ∧ ∀ i < 8 * size, h.supplied (p.toNat + i) = true

/-- The free list stays among these blocks, which are supplied memory; `base` has no memory. -/
structure Listed (h : Heap) (nodes : Set UInt32) : Prop where
  first_ : h.freep ∈ nodes
  next : ∀ p ∈ nodes, (h.header p).ptr ∈ nodes
  within : ∀ p ∈ nodes, Within h p (h.header p).size.toNat

/-- What every state of the heap satisfies, before its first use and after. -/
structure HeapState (env : Env) (h : Heap) : Prop where
  top : h.sz < kernBase
  room : env.base.toNat + 8 ≤ h.sz.toNat
  list : h.freep = 0 ∨ ∃ nodes, Listed h nodes

/-- The block before the pointer is large enough for the bytes, and they are supplied memory. -/
def Usable (h : Heap) (ap nbytes : UInt32) : Prop :=
  nbytes.toNat ≤ 8 * ((h.header (ap - 8)).size.toNat - 1)
    ∧ ∀ i < nbytes.toNat, h.supplied (ap.toNat + i) = true

variable {env : Env} {h h' : Heap} {nodes : Set UInt32} {p q r t ap nunits nbytes : UInt32}
  {value : Header} {fuel : Nat}

/-- The address behind so many headers, where the addresses do not wrap. -/
theorem toNat_after (fits : p.toNat + 8 * nunits.toNat < 2 ^ 32)
    : (p + 8 * nunits).toNat = p.toNat + 8 * nunits.toNat := by
  rw [UInt32.toNat_add, UInt32.toNat_mul, show (8 : UInt32).toNat = 8 from rfl]
  omega

theorem header_set : (h.set p value).header = update h.header p value := rfl

theorem Listed.set (listed : Listed h nodes) (next : value.ptr ∈ nodes)
    (within : Within h r value.size.toNat)
    : Listed (h.set r value) (insert r nodes) where
  first_ := Set.mem_insert_of_mem r listed.first_
  next q member := by
    rw [header_set]
    rcases eq_or_ne q r with rfl | other
    · rw [update_self]
      exact Set.mem_insert_of_mem q next
    · rw [update_of_ne other]
      exact Set.mem_insert_of_mem r (listed.next q (Set.mem_of_mem_insert_of_ne member other))
  within q member := by
    rw [header_set]
    rcases eq_or_ne q r with rfl | other
    · rw [update_self]
      exact within
    · rw [update_of_ne other]
      exact listed.within q (Set.mem_of_mem_insert_of_ne member other)

theorem Listed.set_mem (listed : Listed h nodes) (member : r ∈ nodes) (next : value.ptr ∈ nodes)
    (within : Within h r value.size.toNat)
    : Listed (h.set r value) nodes :=
  Set.insert_eq_of_mem member ▸ listed.set next within

theorem Listed.set_outside (listed : Listed h nodes) (outside : r ∉ nodes)
    : Listed (h.set r value) nodes where
  first_ := listed.first_
  next q member := by
    rw [header_set, update_of_ne (ne_of_mem_of_not_mem member outside)]
    exact listed.next q member
  within q member := by
    rw [header_set, update_of_ne (ne_of_mem_of_not_mem member outside)]
    exact listed.within q member

variable {size newsz n : UInt32}

theorem Listed.resize (listed : Listed h nodes) (within : Within h r size.toNat)
    : Listed (h.set r { h.header r with size := size }) nodes := by
  by_cases member : r ∈ nodes
  · exact listed.set_mem member (listed.next r member) within
  · exact listed.set_outside member

/-- A part of a block. -/
theorem Within.part {size skip less : Nat} (within : Within h p size) (some_ : 0 < less)
    (fits : skip + less ≤ size) (place : q.toNat = p.toNat + 8 * skip)
    : Within h q less := by
  obtain ⟨-, inside, bytes⟩ := within
  refine ⟨by omega, by omega, fun i below => ?_⟩
  rw [place, Nat.add_assoc]
  exact bytes _ (by omega)

/-- Adjacent blocks are one block. -/
theorem Within.join {size' : UInt32} (top : h.sz < kernBase) (first_ : Within h p size.toNat)
    (second : Within h q size'.toNat) (adjacent : p + 8 * size = q)
    : Within h p (size + size').toNat := by
  have bound : h.sz.toNat < 2 ^ 31 := UInt32.lt_iff_toNat_lt.mp top
  obtain ⟨room, fits, bytes⟩ := first_
  obtain ⟨-, fits', bytes'⟩ := second
  have place : q.toNat = p.toNat + 8 * size.toNat := by
    rw [← adjacent, toNat_after (by omega)]
  have sum : (size + size').toNat = size.toNat + size'.toNat := by
    rw [UInt32.toNat_add]
    omega
  refine ⟨room, by omega, fun i inside => ?_⟩
  rcases Nat.lt_or_ge i (8 * size.toNat) with before | behind
  · exact bytes i before
  · have byte := bytes' (i - 8 * size.toNat) (by omega)
    rwa [show q.toNat + (i - 8 * size.toNat) = p.toNat + i by omega] at byte

theorem Listed.attach (listed : Listed h nodes) (top : h.sz < kernBase)
    (within : Within h r (h.header r).size.toNat) (member : t ∈ nodes)
    : Listed (attach h r t) (insert r nodes) := by
  rw [Malloc.attach]
  split
  · rename_i adjacent
    exact listed.set (listed.next t member) (within.join top (listed.within t member) adjacent)
  · exact listed.set member within

theorem sz_attach (h : Heap) (r t : UInt32) : (attach h r t).sz = h.sz := by
  rw [attach]
  split <;> rfl

theorem freeLoop_mem {bp : UInt32} (listed : Listed h nodes) (member : p ∈ nodes)
    (found : freeLoop h bp fuel p = some q)
    : q ∈ nodes := by
  induction fuel generalizing p with
  | zero => cases found
  | succ fuel ih =>
    rw [freeLoop] at found
    split at found
    · exact Option.some.inj found ▸ member
    · split at found
      · exact Option.some.inj found ▸ member
      · exact ih (listed.next p member) found

/-- A block of supplied memory joins the list. -/
theorem Listed.free (listed : Listed h nodes) (top : h.sz < kernBase)
    (within : Within h (ap - 8) (h.header (ap - 8)).size.toNat) (freed : free fuel h ap = some h')
    : Listed h' (insert (ap - 8) nodes) ∧ h'.sz = h.sz := by
  rw [Malloc.free] at freed
  simp only at freed
  split at freed
  · cases freed
  · rename_i p found
    have member := freeLoop_mem listed listed.first_ found
    have one := listed.attach top within (listed.next p member)
    have inside := Set.mem_insert_of_mem (ap - 8) member
    have two := one.attach (by rwa [sz_attach]) (one.within p inside) (Set.mem_insert _ _)
    rw [Set.insert_eq_of_mem inside] at two
    cases freed
    exact ⟨⟨inside, two.next, two.within⟩, (sz_attach ..).trans (sz_attach ..)⟩

theorem Within.grow {size : Nat} (within : Within h p size) (more : h.sz ≤ newsz)
    : Within (h.grow newsz) p size := by
  obtain ⟨room, fits, bytes⟩ := within
  have more := UInt32.le_iff_toNat_le.mp more
  refine ⟨room.trans more, fits.trans more, fun i inside => ?_⟩
  simp only [Heap.grow, bytes i inside, Bool.true_or]

theorem Listed.grow (listed : Listed h nodes) (more : h.sz ≤ newsz)
    : Listed (h.grow newsz) nodes :=
  ⟨listed.first_, listed.next, fun p member => (listed.within p member).grow more⟩

/-- With a positive argument `sbrk` fails, or supplies the memory above the old size. -/
theorem sbrk_positive (top : h.sz < kernBase) (some_ : n ≠ 0) (positive : n < kernBase)
    : sbrk env h n = (h, failed)
      ∨ sbrk env h n = (h.grow (h.sz + n), h.sz) ∧ h.sz + n < kernBase
        ∧ (h.sz + n).toNat = h.sz.toNat + n.toNat := by
  have bound : h.sz.toNat < 2 ^ 31 := UInt32.lt_iff_toNat_lt.mp top
  have bound' : n.toNat < 2 ^ 31 := UInt32.lt_iff_toNat_lt.mp positive
  have sum : (h.sz + n).toNat = h.sz.toNat + n.toNat := by
    rw [UInt32.toNat_add]
    omega
  rw [sbrk, if_neg some_, if_pos positive]
  by_cases large : h.sz + n ≥ kernBase
  · exact Or.inl (if_pos large)
  · have up : ¬ h.sz + n < h.sz := fun down => by
      have := UInt32.lt_iff_toNat_lt.mp down
      omega
    rw [if_neg large, if_neg up]
    split
    · exact Or.inr ⟨rfl, UInt32.not_le.mp large, sum⟩
    · exact Or.inl rfl

theorem morecore_listed {h' : Heap} (listed : Listed h nodes) (top : h.sz < kernBase)
    (small : nunits.toNat < 2 ^ 28) (ran : morecore env fuel h nunits = some (h', p))
    : (p = 0 ∨ p = h'.freep) ∧ h'.sz < kernBase ∧ h.sz ≤ h'.sz ∧ ∃ nodes, Listed h' nodes := by
  rw [morecore] at ran
  simp only at ran
  generalize asked : (if nunits < 4096 then (4096 : UInt32) else nunits) = nu at ran
  have range : 4096 ≤ nu.toNat ∧ nu.toNat < 2 ^ 28 := by
    rw [← asked]
    split
    · decide
    · rename_i many
      exact ⟨UInt32.le_iff_toNat_le.mp (UInt32.not_lt.mp many), small⟩
  have bytes : (nu * 8).toNat = 8 * nu.toNat := by
    rw [UInt32.toNat_mul, show (8 : UInt32).toNat = 8 from rfl]
    omega
  have some_ : nu * 8 ≠ 0 := fun zero => by
    rw [zero, UInt32.toNat_zero] at bytes
    omega
  have positive : nu * 8 < kernBase := UInt32.lt_iff_toNat_lt.mpr (by
    rw [bytes]
    change 8 * nu.toNat < 2 ^ 31
    omega)
  rcases @sbrk_positive env h _ top some_ positive with refused | ⟨grown, below, sum⟩
  · rw [refused, if_pos rfl] at ran
    cases ran
    exact ⟨Or.inl rfl, top, UInt32.le_refl _, nodes, listed⟩
  · have more : h.sz ≤ h.sz + nu * 8 := UInt32.le_iff_toNat_le.mpr (by omega)
    have bound : h.sz.toNat < 2 ^ 31 := UInt32.lt_iff_toNat_lt.mp top
    have new : h.sz ∉ nodes := fun member => by
      have := (listed.within _ member).1
      omega
    have valid : h.sz ≠ failed := fun last => absurd (last ▸ top) (by decide)
    rw [grown, if_neg valid] at ran
    split at ran
    · obtain ⟨g, freed, same⟩ := Option.map_eq_some_iff.mp ran
      cases same
      have back : h.sz + 8 - 8 = h.sz := by grind
      -- the new block is the memory above the old size
      have within : Within (h.grow (h.sz + nu * 8)) h.sz nu.toNat := by
        refine ⟨?_, ?_, fun i inside => ?_⟩
        · change _ ≤ (h.sz + nu * 8).toNat
          omega
        · change _ ≤ (h.sz + nu * 8).toNat
          omega
        · simp only [Heap.grow, Bool.or_eq_true, Bool.and_eq_true, decide_eq_true_eq]
          omega
      obtain ⟨after, sz⟩ := ((listed.grow more).set_outside new).free below
        (by rw [back, header_set, update_self]; exact within) freed
      exact ⟨Or.inr rfl, sz ▸ below, sz ▸ more, _, after⟩
    · cases ran

theorem mallocLoop_gives (listed : Listed h nodes) (top : h.sz < kernBase)
    (room : env.base.toNat + 8 ≤ h.sz.toNat) (some_ : 0 < nunits.toNat)
    (small : nunits.toNat < 2 ^ 28) (before : q ∈ nodes) (member : p ∈ nodes)
    (ran : mallocLoop env nunits fuel h q p = some (h', ap))
    : HeapState env h'
      ∧ (ap ≠ 0
        → Within h' (ap - 8) nunits.toNat ∧ (h'.header (ap - 8)).size = nunits) := by
  induction fuel generalizing h nodes q p with
  | zero => cases ran
  | succ fuel ih =>
    rw [mallocLoop] at ran
    simp only at ran
    have within := listed.within p member
    have bound : h.sz.toNat < 2 ^ 31 := UInt32.lt_iff_toNat_lt.mp top
    have back : ∀ x : UInt32, x + 8 - 8 = x := fun x => by grind
    split at ran
    · rename_i enough
      split at ran
      · rename_i exact_
        cases ran
        have after : Listed (h.set q ⟨(h.header p).ptr, (h.header q).size⟩) nodes :=
          listed.set_mem before (listed.next p member) (listed.within q before)
        refine ⟨⟨top, room, Or.inr ⟨nodes, before, after.next, after.within⟩⟩, fun _ => ?_⟩
        rw [back]
        refine ⟨exact_ ▸ within, ?_⟩
        rw [header_set]
        rcases eq_or_ne p q with rfl | other
        · rw [update_self]
          exact exact_
        · rw [update_of_ne other]
          exact exact_
      · rename_i larger
        cases ran
        have less : nunits.toNat < (h.header p).size.toNat :=
          Nat.lt_of_le_of_ne (UInt32.le_iff_toNat_le.mp enough)
            fun same => larger (UInt32.toNat_inj.mp same.symm)
        generalize split_ : (h.header p).size - nunits = left
        have rest : left.toNat = (h.header p).size.toNat - nunits.toNat := by
          rw [← split_, UInt32.toNat_sub_of_le _ _ enough]
        have inside := within.2.1
        have place : (p + 8 * left).toNat = p.toNat + 8 * left.toNat := toNat_after (by omega)
        -- the block is cut off at the end of the free one
        have kept : Within h p left.toNat :=
          @Within.part h p p _ 0 _ within (by omega) (by omega) rfl
        have block : Within h (p + 8 * left) nunits.toNat :=
          within.part some_ (by omega) place
        have after := (listed.resize kept).resize block
        refine ⟨⟨top, room, Or.inr ⟨nodes, before, after.next, after.within⟩⟩, fun _ => ?_⟩
        rw [back]
        refine ⟨block, ?_⟩
        rw [header_set, update_self]
    · split at ran
      · split at ran
        · cases ran
        · rename_i more
          obtain ⟨given, below, up, nodes, after⟩ := morecore_listed listed top small more
          have room := room.trans (UInt32.le_iff_toNat_le.mp up)
          split at ran
          · cases ran
            exact ⟨⟨below, room, Or.inr ⟨nodes, after⟩⟩, fun ne => absurd rfl ne⟩
          · rename_i found
            obtain rfl := given.resolve_left found
            exact ih after below room after.first_ (after.next _ after.first_) ran
      · exact ih listed top room member (listed.next p member) ran

theorem start_listed (state : HeapState env h)
    : ∃ nodes, Listed (start env h) nodes := by
  rw [start]
  split
  · refine ⟨{env.base}, rfl, ?_, ?_⟩
    · rintro p rfl
      rw [header_set, update_self]
      rfl
    · rintro p rfl
      rw [header_set, update_self]
      exact ⟨state.room, (Nat.le_add_right _ 8).trans state.room, by simp⟩
  · rename_i used
    exact state.list.resolve_left used

theorem sz_start (env : Env) (h : Heap) : (start env h).sz = h.sz := by
  rw [start]
  split <;> rfl

/-- The bytes of a request that does not wrap. -/
theorem toNat_units (small : nbytes.toNat + 7 < 2 ^ 32)
    : (units nbytes).toNat = (nbytes.toNat + 7) / 8 + 1 := by
  have sum : (nbytes + 8 - 1).toNat = nbytes.toNat + 7 := by
    rw [show nbytes + 8 - 1 = nbytes + 7 by grind, UInt32.toNat_add]
    exact Nat.mod_eq_of_lt small
  rw [units, UInt32.toNat_add, UInt32.toNat_div, sum]
  change ((nbytes.toNat + 7) / 8 + 1) % 2 ^ 32 = _
  omega

/-- A request that does not wrap keeps the state and gets its bytes. -/
theorem malloc_gives (state : HeapState env h) (small : nbytes.toNat ≤ 0x7FFFFFF0)
    (ran : malloc env fuel h nbytes = some (h', ap))
    : HeapState env h' ∧ (ap ≠ 0 → Usable h' ap nbytes) := by
  obtain ⟨nodes, listed⟩ := start_listed state
  have count : (units nbytes).toNat = (nbytes.toNat + 7) / 8 + 1 := toNat_units (by omega)
  have same := sz_start env h
  obtain ⟨after, block⟩ := mallocLoop_gives listed (same ▸ state.top) (same ▸ state.room)
    (by omega) (by omega) listed.first_ (listed.next _ listed.first_) ran
  refine ⟨after, fun found => ?_⟩
  obtain ⟨⟨room, -, bytes⟩, size⟩ := block found
  have bound : h'.sz.toNat < 2 ^ 31 := UInt32.lt_iff_toNat_lt.mp after.top
  have place : ap.toNat = (ap - 8).toNat + 8 := by
    rw [← UInt32.sub_add_cancel ap 8, UInt32.toNat_add, UInt32.sub_add_cancel,
      show (8 : UInt32).toNat = 8 from rfl]
    omega
  refine ⟨by rw [size]; omega, fun i inside => ?_⟩
  rw [place, Nat.add_assoc]
  exact bytes _ (by omega)

/-- So does a `free` of supplied memory. -/
theorem free_heapState (state : HeapState env h) (used : h.freep ≠ 0)
    (within : Within h (ap - 8) (h.header (ap - 8)).size.toNat) (freed : free fuel h ap = some h')
    : HeapState env h' := by
  obtain ⟨nodes, listed⟩ := state.list.resolve_left used
  obtain ⟨after, sz⟩ := listed.free state.top within freed
  exact ⟨sz ▸ state.top, sz ▸ state.room, Or.inr ⟨_, after⟩⟩

/-- There is memory for every size. -/
def roomy : Env := { base := 8, memory := fun _ => true }

/-- The heap of a process of 2052 bytes that has not used it. -/
def fresh : Heap where
  header _ := ⟨0, 0⟩
  freep := 0
  sz := 2052
  supplied _ := false

theorem fresh_heapState : HeapState roomy fresh := ⟨by decide, by decide, Or.inl rfl⟩

/-- A size that is no positive `int` supplies nothing, and `sbrk` does not fail. -/
theorem sbrk_not_positive (size : h.sz = 2052) (empty : ∀ a, h.supplied a = false)
    (wrapped : n = 0 ∨ kernBase ≤ n) (units : n.toNat % 8 = 0)
    : ∃ sz supplied, sbrk env h n = ({ h with sz := sz, supplied := supplied }, 2052)
      ∧ 0 < sz.toNat ∧ ∀ a, supplied a = false := by
  rw [sbrk, size]
  by_cases zero : n = 0
  · rw [if_pos zero]
    exact ⟨2052, h.supplied, by rw [← size], by decide, empty⟩
  have large : 2 ^ 31 ≤ n.toNat := UInt32.le_iff_toNat_le.mp (wrapped.resolve_left zero)
  have sum : (2052 + n).toNat = (2052 + n.toNat) % 2 ^ 32 := UInt32.toNat_add _ _
  rw [if_neg zero, if_neg (UInt32.not_lt.mpr (wrapped.resolve_left zero))]
  split
  · rw [if_neg (by decide)]
    exact ⟨2052, h.supplied, by rw [← size], by decide, empty⟩
  · have some_ : 2052 + n ≠ 0 := fun none => by
      rw [none, UInt32.toNat_zero] at sum
      omega
    rw [if_neg some_]
    refine ⟨_, _, rfl, ?_, fun a => by simp only [empty, Bool.false_and]⟩
    exact Nat.pos_of_ne_zero fun none => some_ (UInt32.toNat_inj.mp none)

/-- The block that `morecore` then puts on the list is no memory of the heap. -/
theorem morecore_phantom (wrapped : nunits * 8 = 0 ∨ kernBase ≤ nunits * 8) (large : 4096 ≤ nunits)
    : ∃ h', morecore roomy 1 (start roomy fresh) nunits = some (h', 8)
      ∧ (∀ a, h'.supplied a = false)
      ∧ (h'.header 8).ptr = 2052 ∧ (h'.header 2052).size = nunits := by
  have multiple : (nunits * 8).toNat % 8 = 0 := by
    rw [UInt32.toNat_mul, show (8 : UInt32).toNat = 8 from rfl]
    omega
  obtain ⟨sz, supplied, ran, some_, empty⟩ :=
    @sbrk_not_positive roomy (start roomy fresh) _ rfl (fun _ => rfl) wrapped multiple
  have apart : (2052 : UInt32) + 8 * nunits ≠ 8 := fun same => by
    have value := congrArg UInt32.toNat same
    rw [UInt32.toNat_add, UInt32.mul_comm, show (2052 : UInt32).toNat = 2052 from rfl,
      show (8 : UInt32).toNat = 8 from rfl] at value
    omega
  have mapped : (2052 : UInt32).toNat + 8 ≤ (sz.toNat + 4095) / 4096 * 4096 := by
    change 2060 ≤ _
    omega
  rw [morecore, if_neg (UInt32.not_lt.mpr large), ran]
  simp only [if_neg (show (2052 : UInt32) ≠ failed by decide), if_pos mapped]
  simp [free, freeLoop, attach, Heap.set, start, fresh, roomy, apart, empty]

/-- And `malloc` returns it. -/
theorem malloc_phantom (wrapped : units nbytes * 8 = 0 ∨ kernBase ≤ units nbytes * 8)
    (large : 4096 ≤ units nbytes)
    : ∃ h', malloc roomy 2 fresh nbytes = some (h', 2060) ∧ ∀ a, h'.supplied a = false := by
  obtain ⟨g, grown, empty, next, size⟩ := morecore_phantom wrapped large
  have small : ¬ (0 : UInt32) ≥ units nbytes := fun none => by
    have := UInt32.le_iff_toNat_le.mp large
    have := UInt32.le_iff_toNat_le.mp none
    rw [show (4096 : UInt32).toNat = 4096 from rfl, UInt32.toNat_zero] at *
    omega
  have first_ : (start roomy fresh).header 8 = ⟨8, 0⟩ := rfl
  have only : (start roomy fresh).freep = 8 := rfl
  refine ⟨{ g.set 8 { g.header 8 with ptr := (g.header 2052).ptr } with freep := 8 }, ?_, empty⟩
  rw [malloc, only, first_, mallocLoop, first_, if_neg small, only, if_pos rfl, grown]
  simp only
  rw [if_neg (by decide), next, mallocLoop, size, if_pos (UInt32.le_refl _), if_pos rfl]
  rfl

/-- A request of one header gets a block without bytes. -/
theorem malloc_one (one : units nbytes = 1)
    : ∃ h', malloc roomy 2 fresh nbytes = some (h', 34820) ∧ (h'.header (34820 - 8)).size = 1 := by
  rw [malloc, one]
  exact ⟨_, rfl, by decide⟩

/-- The bytes of a call are usable, whatever the heap and `sbrk` do, exactly if neither the rounding
nor the size in bytes leaves the positive `int`s.
-/
theorem malloc_usable_iff (nbytes : UInt32)
    : (∀ env h fuel h' ap, HeapState env h → malloc env fuel h nbytes = some (h', ap) → ap ≠ 0
        → Usable h' ap nbytes)
      ↔ nbytes ≤ 0x7FFFFFF0 := by
  constructor
  · intro usable
    by_contra large
    have large := UInt32.lt_iff_toNat_lt.mp (UInt32.not_le.mp large)
    rw [show (0x7FFFFFF0 : UInt32).toNat = 0x7FFFFFF0 from rfl] at large
    have top := nbytes.toNat_lt
    by_cases wraps : nbytes.toNat + 7 < 2 ^ 32
    · -- the size in bytes is no positive number, and `sbrk` supplies nothing
      have count := toNat_units wraps
      have bytes : (units nbytes * 8).toNat = (units nbytes).toNat * 8 % 2 ^ 32 :=
        UInt32.toNat_mul _ _
      have wrapped : units nbytes * 8 = 0 ∨ kernBase ≤ units nbytes * 8 := by
        rcases Nat.lt_or_ge (units nbytes).toNat (2 ^ 29) with less | same
        · refine Or.inr (UInt32.le_iff_toNat_le.mpr ?_)
          change 2 ^ 31 ≤ _
          omega
        · refine Or.inl (UInt32.toNat_inj.mp ?_)
          change _ = 0
          omega
      have enough : 4096 ≤ units nbytes := by
        refine UInt32.le_iff_toNat_le.mpr ?_
        change 4096 ≤ _
        omega
      obtain ⟨h', ran, empty⟩ := malloc_phantom wrapped enough
      have byte := (usable _ _ _ _ _ fresh_heapState ran (by decide)).2 0 (by omega)
      rw [empty] at byte
      cases byte
    · -- the rounding wraps, and the block is one header
      have one : units nbytes = 1 := by
        apply UInt32.toNat_inj.mp
        rw [units, show nbytes + 8 - 1 = nbytes + 7 by grind, UInt32.toNat_add, UInt32.toNat_div,
          UInt32.toNat_add]
        change ((nbytes.toNat + 7) % 2 ^ 32 / 8 + 1) % 2 ^ 32 = 1
        omega
      obtain ⟨h', ran, size⟩ := malloc_one one
      have room := (usable _ _ _ _ _ fresh_heapState ran (by decide)).1
      rw [size] at room
      change nbytes.toNat ≤ 0 at room
      omega
  · intro small env h fuel h' ap state ran
    exact (malloc_gives state (UInt32.le_iff_toNat_le.mp small) ran).2

/-- `nbytes + 7` wraps: the block of a request for almost all of memory has no usable byte. -/
theorem malloc_wraps
    : HeapState roomy fresh
      ∧ ∃ h', malloc roomy 2 fresh 0xFFFFFFFF = some (h', 34820)
        ∧ ¬ Usable h' 34820 0xFFFFFFFF := by
  obtain ⟨h', ran, size⟩ := @malloc_one 0xFFFFFFFF rfl
  refine ⟨fresh_heapState, h', ran, fun usable => ?_⟩
  have room := usable.1
  rw [size] at room
  exact absurd room (by decide)

end Xv6Net.Malloc
