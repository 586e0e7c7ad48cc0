import Xv6Net.Kernel.MemMove
import Xv6Net.Library.Bytes

/-!
`copyout` of `vm.c`, which copies bytes to user addresses of a page directory. The memory is that
of kernel pointers, where the frame at `pa` is at `P2V(pa)`; page tables, the source and the user's
pages all lie in it. The null pointer of `walkpgdir` is `none`, and a dereference of it is a fault.
-/

namespace Xv6Net.Vm

open Function Library.Memory

abbrev pteP : UInt32 := 1

abbrev pteU : UInt32 := 4

/-- `PDX`. -/
def pdx (va : UInt32) : UInt32 := (va >>> 22) &&& 0x3FF

/-- `PTX`. -/
def ptx (va : UInt32) : UInt32 := (va >>> 12) &&& 0x3FF

/-- `PTE_ADDR`. -/
def pteAddr (pte : UInt32) : UInt32 := pte &&& ~~~ 0xFFF

/-- `PGROUNDDOWN`. -/
def pgRoundDown (a : UInt32) : UInt32 := a &&& ~~~ 0xFFF

abbrev kernBase : UInt32 := 0x80000000

/-- `P2V`. -/
def p2v (pa : UInt32) : UInt32 := pa + kernBase

abbrev Memory := UInt32 → UInt8

/-- The word at an address, low byte first. -/
def word (mem : Memory) (a : UInt32) : UInt32 :=
  (mem a).toUInt32 ||| (mem (a + 1)).toUInt32 <<< 8 ||| (mem (a + 2)).toUInt32 <<< 16
    ||| (mem (a + 3)).toUInt32 <<< 24

/-- `&pgdir[PDX(va)]`. -/
def pdeAt (pgdir va : UInt32) : UInt32 := pgdir + 4 * pdx va

/-- `&pgtab[PTX(va)]` in the page table that the directory entry names. -/
def pteAt (mem : Memory) (pgdir va : UInt32) : UInt32 :=
  p2v (pteAddr (word mem (pdeAt pgdir va))) + 4 * ptx va

/-- `walkpgdir(pgdir, va, 0)`. -/
def walkpgdir (mem : Memory) (pgdir va : UInt32) : Option UInt32 :=
  if word mem (pdeAt pgdir va) &&& pteP ≠ 0 then some (pteAt mem pgdir va) else none

/-- `uva2ka`; `none` is the fault at `*pte` with a null pointer. -/
def uva2ka (mem : Memory) (pgdir uva : UInt32) : Option UInt32 :=
  match walkpgdir mem pgdir uva with
  | none => none
  | some pte =>
    if word mem pte &&& pteP = 0 then some 0
    else if word mem pte &&& pteU = 0 then some 0
    else some (p2v (pteAddr (word mem pte)))

/-- The loop of `copyout`: what it returns and the memory it leaves, `none` if it faults. -/
def copyoutLoop (pgdir : UInt32)
    : Nat → Memory → UInt32 → UInt32 → UInt32 → Option (Int × Memory)
  | 0, mem, _, _, _ => some (0, mem)
  | fuel + 1, mem, va, buf, len =>
    if len = 0 then some (0, mem)
    else
      let va0 := pgRoundDown va
      match uva2ka mem pgdir va0 with
      | none => none
      | some pa0 =>
        if pa0 = 0 then some (-1, mem)
        else
          let n := if 4096 - (va - va0) > len then len else 4096 - (va - va0)
          copyoutLoop pgdir fuel (memmove mem (pa0 + (va - va0)) buf n).1 (va0 + 4096) (buf + n)
            (len - n)

/-- `copyout`; every pass copies at least one byte. -/
def copyout (mem : Memory) (pgdir va p len : UInt32) : Option (Int × Memory) :=
  copyoutLoop pgdir len.toNat mem va p len

/-- The page of the address is present and the user may access it. -/
def UserPage (mem : Memory) (pgdir va : UInt32) : Prop :=
  word mem (pdeAt pgdir va) &&& pteP ≠ 0 ∧ word mem (pdeAt pgdir va) &&& pteU ≠ 0
    ∧ word mem (pteAt mem pgdir va) &&& pteP ≠ 0 ∧ word mem (pteAt mem pgdir va) &&& pteU ≠ 0
deriving Decidable

/-- The frame that the page of a user address is mapped to. -/
def frame (mem : Memory) (pgdir va : UInt32) : UInt32 := pteAddr (word mem (pteAt mem pgdir va))

/-- Where the byte of a user address lies in its frame. -/
def home (mem : Memory) (pgdir va : UInt32) : UInt32 :=
  p2v (frame mem pgdir va) + (va - pgRoundDown va)

/-- The memory with the first `k` bytes of the source in the frames of their addresses, in order if
two pages share a frame.
-/
def stored (mem : Memory) (pgdir va p : UInt32) : Nat → Memory
  | 0 => mem
  | k + 1 => update (stored mem pgdir va p k) (home mem pgdir (va + UInt32.ofNat k))
      (mem (p + UInt32.ofNat k))

/-- The first `k` addresses are accessible. -/
abbrev Accessible (mem : Memory) (pgdir va : UInt32) (k : Nat) : Prop :=
  ∀ i < k, UserPage mem pgdir (va + UInt32.ofNat i)

/-- `copyout` does what it is for: it returns 0 exactly if the whole range is accessible, and then
has stored the bytes in their frames; else it returns -1 and has only stored bytes of accessible
pages before the end of the range.
-/
def RespectsSpace (mem : Memory) (pgdir va p len : UInt32) : Prop :=
  ∃ result mem', copyout mem pgdir va p len = some (result, mem')
    ∧ (result = 0 ↔ Accessible mem pgdir va len.toNat)
    ∧ (result = 0 → mem' = stored mem pgdir va p len.toNat)
    ∧ (result ≠ 0 → result = -1 ∧ ∃ k < len.toNat,
        Accessible mem pgdir va k ∧ mem' = stored mem pgdir va p k)

/-- The addresses that are read for the byte of a user address: its directory entry, its page table
entry and its place in the source.
-/
def reads (mem : Memory) (pgdir va p : UInt32) : List UInt32 :=
  [0, 1, 2, 3].map (pdeAt pgdir va + ·) ++ [0, 1, 2, 3].map (pteAt mem pgdir va + ·) ++ [p]

/-- The arguments are as the kernel has them: the source does not wrap around, directory entries are
made by `walkpgdir` with `PTE_U`, frames lie below `KERNBASE`, and the bytes that the range is
mapped to hold neither the entries of the range nor the source.
-/
structure Ready (mem : Memory) (pgdir va p len : UInt32) : Prop where
  source : p.toNat + len.toNat ≤ 2 ^ 32
  directory : ∀ i < len.toNat, word mem (pdeAt pgdir (va + UInt32.ofNat i)) &&& pteP ≠ 0
    → word mem (pdeAt pgdir (va + UInt32.ofNat i)) &&& pteU ≠ 0
  below : ∀ i < len.toNat, UserPage mem pgdir (va + UInt32.ofNat i)
    → frame mem pgdir (va + UInt32.ofNat i) < kernBase
  apart : ∀ i < len.toNat, UserPage mem pgdir (va + UInt32.ofNat i) → ∀ j < len.toNat,
    home mem pgdir (va + UInt32.ofNat i)
      ∉ reads mem pgdir (va + UInt32.ofNat j) (p + UInt32.ofNat j)

variable {mem mem' : Memory} {pgdir va va' p len : UInt32} {k : Nat}

theorem toNat_roundDown (a : UInt32) : (pgRoundDown a).toNat = a.toNat / 4096 * 4096 := by
  have mask : (~~~ 0xFFF : UInt32).toNat = 2 ^ 32 - 2 ^ 12 := rfl
  rw [pgRoundDown, UInt32.toNat_and, mask, and_high_mask (by decide) a.toNat_lt]
  rfl

theorem toNat_ofNat {n : Nat} (small : n < 2 ^ 32) : (UInt32.ofNat n).toNat = n :=
  UInt32.toNat_ofNat_of_lt' small

/-- Indices depend only on the page of an address. -/
theorem index_congr (shift : UInt32) (high : 12 ≤ shift.toNat % 32)
    (same : va.toNat / 4096 = va'.toNat / 4096)
    : va >>> shift &&& 0x3FF = va' >>> shift &&& 0x3FF := by
  refine congrArg (· &&& 0x3FF) (UInt32.toNat_inj.mp ?_)
  obtain ⟨more, split⟩ := Nat.exists_eq_add_of_le high
  rw [UInt32.toNat_shiftRight, UInt32.toNat_shiftRight, split, Nat.shiftRight_eq_div_pow,
    Nat.shiftRight_eq_div_pow, Nat.pow_add, ← Nat.div_div_eq_div_mul, ← Nat.div_div_eq_div_mul]
  exact congrArg (· / 2 ^ more) same

/-- The entries for an address depend only on its page. -/
theorem of_same_page (mem : Memory) (pgdir : UInt32) (same : va.toNat / 4096 = va'.toNat / 4096)
    : pdeAt pgdir va = pdeAt pgdir va' ∧ pteAt mem pgdir va = pteAt mem pgdir va'
      ∧ pgRoundDown va = pgRoundDown va' := by
  have dir : pdx va = pdx va' := index_congr 22 (by decide) same
  have index : ptx va = ptx va' := index_congr 12 (by decide) same
  have down : pgRoundDown va = pgRoundDown va' :=
    UInt32.toNat_inj.mp (by rw [toNat_roundDown, toNat_roundDown, same])
  refine ⟨?_, ?_, down⟩
  · rw [pdeAt, pdeAt, dir]
  · rw [pteAt, pteAt, pdeAt, pdeAt, dir, index]

theorem userPage_congr (same : va.toNat / 4096 = va'.toNat / 4096)
    : UserPage mem pgdir va ↔ UserPage mem pgdir va' := by
  obtain ⟨dir, entry, -⟩ := of_same_page mem pgdir same
  rw [UserPage, UserPage, dir, entry]

theorem uva2ka_congr (same : va.toNat / 4096 = va'.toNat / 4096)
    : uva2ka mem pgdir va = uva2ka mem pgdir va' := by
  obtain ⟨dir, entry, -⟩ := of_same_page mem pgdir same
  rw [uva2ka, uva2ka, walkpgdir, walkpgdir, dir, entry]

theorem word_congr {a : UInt32} (same : ∀ b ∈ [0, 1, 2, 3].map (a + ·), mem b = mem' b)
    : word mem a = word mem' a := by
  simp only [List.map_cons, List.map_nil, List.mem_cons, List.not_mem_nil, or_false,
    forall_eq_or_imp, forall_eq, UInt32.add_zero] at same
  obtain ⟨first_, second, third, fourth⟩ := same
  rw [word, word, first_, second, third, fourth]

/-- The walk reads only the two entries of the address. -/
theorem uva2ka_same (same : ∀ a ∈ reads mem pgdir va p, mem' a = mem a)
    : uva2ka mem' pgdir va = uva2ka mem pgdir va := by
  have dir : word mem' (pdeAt pgdir va) = word mem (pdeAt pgdir va) :=
    word_congr fun a entry => same a (List.mem_append_left _ (List.mem_append_left _ entry))
  have place : pteAt mem' pgdir va = pteAt mem pgdir va := by rw [pteAt, pteAt, dir]
  have entry : word mem' (pteAt mem pgdir va) = word mem (pteAt mem pgdir va) :=
    word_congr fun a entry => same a (List.mem_append_left _ (List.mem_append_right _ entry))
  rw [uva2ka, uva2ka, walkpgdir, walkpgdir, dir, place]
  by_cases table : word mem (pdeAt pgdir va) &&& pteP = 0
  · simp only [table, ne_eq, not_true_eq_false, if_false]
  · simp only [table, ne_eq, not_false_eq_true, if_true, entry]

/-- What `uva2ka` gives for an address that the user may access. -/
theorem UserPage.uva2ka_eq (user : UserPage mem pgdir va)
    : uva2ka mem pgdir va = some (p2v (frame mem pgdir va)) := by
  obtain ⟨table, -, present, allowed⟩ := user
  rw [uva2ka, walkpgdir, if_pos table]
  simp only
  rw [if_neg present, if_neg allowed, frame]

theorem p2v_ne_zero {pa : UInt32} (below : pa < kernBase) : p2v pa ≠ 0 := by
  rw [p2v]
  intro zero
  have same : pa = kernBase := by grind
  exact UInt32.ne_of_lt below same

/-- What `uva2ka` gives for an address that the user may not access. -/
theorem uva2ka_of_not_user (not_user : ¬ UserPage mem pgdir va)
    (directory : word mem (pdeAt pgdir va) &&& pteP ≠ 0
      → word mem (pdeAt pgdir va) &&& pteU ≠ 0)
    : uva2ka mem pgdir va
      = if word mem (pdeAt pgdir va) &&& pteP = 0 then none else some 0 := by
  rw [uva2ka, walkpgdir]
  by_cases table : word mem (pdeAt pgdir va) &&& pteP = 0
  · rw [if_neg (not_not.mpr table), if_pos table]
  · rw [if_pos table, if_neg table]
    simp only
    split
    case isTrue => rfl
    case isFalse present =>
      rw [if_pos]
      by_contra allowed
      exact not_user ⟨table, directory table, present, allowed⟩

/-- Bytes outside the frames of the range are as they were. -/
theorem stored_apply {a : UInt32} (apart : ∀ i < k, home mem pgdir (va + UInt32.ofNat i) ≠ a)
    : stored mem pgdir va p k a = mem a := by
  induction k with
  | zero => rfl
  | succ k ih =>
    rw [stored, update_of_ne (apart k (by omega)).symm]
    exact ih fun i before => apart i (by omega)

/-- What lies in one page is stored as one block. -/
theorem stored_block {c n : Nat} {dst : UInt32} (small : n ≤ 2 ^ 32)
    (block : ∀ i < n, home mem pgdir (va + UInt32.ofNat (c + i)) = dst + UInt32.ofNat i)
    (a : UInt32)
    : stored mem pgdir va p (c + n) a
      = if (a - dst).toNat < n then mem (p + UInt32.ofNat c + (a - dst))
        else stored mem pgdir va p c a := by
  induction n with
  | zero => rfl
  | succ n ih =>
    rw [← Nat.add_assoc, stored, block n (by omega), update_apply]
    split
    case isTrue here =>
      subst here
      rw [add_sub_cancel_left, toNat_ofNat (by omega), if_pos (by omega), UInt32.ofNat_add,
        UInt32.add_assoc]
    case isFalse elsewhere =>
      rw [ih (by omega) fun i before => block i (by omega)]
      have other : (a - dst).toNat ≠ n := by
        rintro rfl
        rw [UInt32.ofNat_toNat] at elsewhere
        exact elsewhere (by abel)
      congr 1
      simp only [eq_iff_iff]
      omega

/-- The bytes from `c` on that lie in the page of the `c`-th one. -/
theorem same_page {c i : Nat} (room : (va + UInt32.ofNat c).toNat % 4096 + i < 4096)
    : (va + UInt32.ofNat (c + i)).toNat / 4096 = (va + UInt32.ofNat c).toNat / 4096 := by
  have bound := (va + UInt32.ofNat c).toNat_lt
  rw [UInt32.ofNat_add, ← UInt32.add_assoc, UInt32.toNat_add, toNat_ofNat (by omega)]
  omega

theorem toNat_offset (a : UInt32) : (a - pgRoundDown a).toNat = a.toNat % 4096 := by
  have down := toNat_roundDown a
  rw [UInt32.toNat_sub_of_le _ _ (UInt32.le_iff_toNat_le.mpr (by omega)), down]
  omega

theorem toNat_home (mem : Memory) (pgdir a : UInt32)
    : (home mem pgdir a).toNat % 4096 = a.toNat % 4096 := by
  have aligned := toNat_roundDown (word mem (pteAt mem pgdir a))
  have base : kernBase.toNat = 524288 * 4096 := rfl
  rw [home, UInt32.toNat_add, toNat_offset, p2v, UInt32.toNat_add, base, frame, pteAddr]
  rw [pgRoundDown] at aligned
  omega

theorem home_add {c i : Nat} (room : (va + UInt32.ofNat c).toNat % 4096 + i < 4096)
    : home mem pgdir (va + UInt32.ofNat (c + i))
      = home mem pgdir (va + UInt32.ofNat c) + UInt32.ofNat i := by
  obtain ⟨-, entry, down⟩ := of_same_page mem pgdir (same_page room)
  rw [home, home, frame, frame, entry, down, UInt32.ofNat_add]
  abel

/-- How many bytes a pass copies. -/
theorem toNat_count (a rest : UInt32)
    : (if 4096 - (a - pgRoundDown a) > rest then rest else 4096 - (a - pgRoundDown a)).toNat
      = min (4096 - a.toNat % 4096) rest.toNat := by
  have offset := toNat_offset a
  have page : (4096 : UInt32).toNat = 4096 := rfl
  have left : (4096 - (a - pgRoundDown a)).toNat = 4096 - a.toNat % 4096 := by
    rw [UInt32.toNat_sub_of_le _ _ (UInt32.le_iff_toNat_le.mpr (by omega)), offset, page]
  split
  case isTrue more =>
    have := UInt32.lt_iff_toNat_lt.mp more
    omega
  case isFalse less =>
    have := UInt32.le_iff_toNat_le.mp (UInt32.not_lt.mp less)
    omega

/-- What is read for the rest of the range is as it was, whatever has been stored. -/
theorem Ready.unchanged (ready : Ready mem pgdir va p len) (upTo : k ≤ len.toNat)
    (accessible : Accessible mem pgdir va k) {j : Nat} (inside : j < len.toNat) (a : UInt32)
    (read : a ∈ reads mem pgdir (va + UInt32.ofNat j) (p + UInt32.ofNat j))
    : stored mem pgdir va p k a = mem a := by
  refine stored_apply fun i before same => ?_
  exact ready.apart i (by omega) (accessible i before) j inside (same ▸ read)

/-- One pass stores the bytes of its page. -/
theorem Ready.pass (ready : Ready mem pgdir va p len) {c : Nat} {n : UInt32}
    (upTo : c + n.toNat ≤ len.toNat) (room : (va + UInt32.ofNat c).toNat % 4096 + n.toNat ≤ 4096)
    (accessible : Accessible mem pgdir va c)
    : (memmove (stored mem pgdir va p c) (home mem pgdir (va + UInt32.ofNat c))
        (p + UInt32.ofNat c) n).1
      = stored mem pgdir va p (c + n.toNat) := by
  have source := ready.source
  have bound := len.toNat_lt
  have offset := toNat_home mem pgdir (va + UInt32.ofNat c)
  have target := (home mem pgdir (va + UInt32.ofNat c)).toNat_lt
  have start : (p + UInt32.ofNat c).toNat = (p.toNat + c) % 2 ^ 32 := by
    rw [UInt32.toNat_add, toNat_ofNat (by omega)]
  by_cases none_ : n = 0
  · subst none_
    simp [memmove, copyUp, copyDown]
  have some_ : n.toNat ≠ 0 := fun zero => none_ (UInt32.toNat_inj.mp zero)
  funext a
  rw [memmove_apply _ (by omega) (by omega),
    stored_block (by omega) fun i before => home_add (by omega)]
  split
  case isFalse => rfl
  case isTrue near =>
    generalize a - home mem pgdir (va + UInt32.ofNat c) = i at near
    have place : p + UInt32.ofNat c + i = p + UInt32.ofNat (c + i.toNat) := by
      rw [UInt32.ofNat_add, UInt32.ofNat_toNat, UInt32.add_assoc]
    rw [place]
    exact ready.unchanged (by omega) accessible (j := c + i.toNat) (by omega) _ (by simp [reads])

/-- What `copyout` gives if exactly the first `k` bytes are stored. -/
def outcome (mem : Memory) (pgdir va p len : UInt32) (k : Nat) : Option (Int × Memory) :=
  if k = len.toNat then some (0, stored mem pgdir va p k)
  else if word mem (pdeAt pgdir (va + UInt32.ofNat k)) &&& pteP = 0 then none
  else some (-1, stored mem pgdir va p k)

/-- The loop goes up to the first page that the user may not access. The induction is on the passes,
after which the first `c` bytes are stored.
-/
theorem Ready.copyoutLoop_eq (ready : Ready mem pgdir va p len) {fuel c : Nat} {rest : UInt32}
    (enough : rest.toNat ≤ fuel) (total : c + rest.toNat = len.toNat)
    (place : rest ≠ 0 → va' = va + UInt32.ofNat c) (accessible : Accessible mem pgdir va c)
    : ∃ k ≤ len.toNat, Accessible mem pgdir va k
        ∧ (k = len.toNat ∨ ¬ UserPage mem pgdir (va + UInt32.ofNat k))
        ∧ copyoutLoop pgdir fuel (stored mem pgdir va p c) va' (p + UInt32.ofNat c) rest
          = outcome mem pgdir va p len k := by
  induction fuel generalizing c va' rest with
  | zero =>
    have all : c = len.toNat := by omega
    exact ⟨c, by omega, accessible, Or.inl all, (if_pos all).symm⟩
  | succ fuel ih =>
    rw [copyoutLoop]
    by_cases none_ : rest = 0
    · subst none_
      exact ⟨c, by omega, accessible, Or.inl total, (if_pos total).symm⟩
    have some_ : rest.toNat ≠ 0 := fun zero => none_ (UInt32.toNat_inj.mp zero)
    rw [if_neg none_]
    obtain rfl := place none_
    have down := toNat_roundDown (va + UInt32.ofNat c)
    have bound := (va + UInt32.ofNat c).toNat_lt
    have walk : uva2ka (stored mem pgdir va p c) pgdir (pgRoundDown (va + UInt32.ofNat c))
        = uva2ka mem pgdir (va + UInt32.ofNat c) := by
      have same := uva2ka_same (ready.unchanged (by omega) accessible (j := c) (by omega))
      exact (uva2ka_congr (by omega)).trans same
    simp only [walk]
    by_cases user : UserPage mem pgdir (va + UInt32.ofNat c)
    case neg =>
      have unfinished : c ≠ len.toNat := by omega
      refine ⟨c, by omega, accessible, Or.inr user, ?_⟩
      rw [uva2ka_of_not_user user (ready.directory c (by omega)), outcome, if_neg unfinished]
      by_cases table : word mem (pdeAt pgdir (va + UInt32.ofNat c)) &&& pteP = 0
      · simp only [if_pos table]
      · simp only [if_neg table, if_true]
    case pos =>
      have count := toNat_count (va + UInt32.ofNat c) rest
      rw [user.uva2ka_eq]
      simp only
      rw [if_neg (p2v_ne_zero (ready.below c (by omega) user))]
      generalize (if 4096 - (va + UInt32.ofNat c - pgRoundDown (va + UInt32.ofNat c)) > rest
        then rest else 4096 - (va + UInt32.ofNat c - pgRoundDown (va + UInt32.ofNat c))) = n at *
      have later : (rest - n).toNat = rest.toNat - n.toNat :=
        UInt32.toNat_sub_of_le _ _ (UInt32.le_iff_toNat_le.mpr (by omega))
      have copied := ready.pass (c := c) (n := n) (by omega) (by omega) accessible
      have next : p + UInt32.ofNat c + n = p + UInt32.ofNat (c + n.toNat) := by
        rw [UInt32.ofNat_add, UInt32.ofNat_toNat, UInt32.add_assoc]
      rw [home] at copied
      rw [copied, next]
      refine @ih _ (c + n.toNat) (rest - n) (by omega) (by omega) ?_ ?_
      · -- a pass that does not end the copy ends at the end of its page
        intro more
        have unfinished : (rest - n).toNat ≠ 0 := fun zero => more (UInt32.toNat_inj.mp zero)
        rw [UInt32.ofNat_add, ← UInt32.add_assoc]
        apply UInt32.toNat_inj.mp
        rw [UInt32.toNat_add, UInt32.toNat_add _ (UInt32.ofNat n.toNat), down, UInt32.ofNat_toNat,
          show (4096 : UInt32).toNat = 4096 from rfl]
        omega
      · intro i before
        by_cases earlier : i < c
        · exact accessible i earlier
        · obtain ⟨i, rfl⟩ := Nat.exists_eq_add_of_le (Nat.not_lt.mp earlier)
          exact (userPage_congr (same_page (by omega))).mpr user

/-- `copyout` respects the address space exactly if every page of the range up to the first one that
the user may not access has a page table.
-/
theorem copyout_respects_iff (mem : Memory) (pgdir va p len : UInt32)
    (ready : Ready mem pgdir va p len)
    : RespectsSpace mem pgdir va p len
      ↔ ∀ k < len.toNat, Accessible mem pgdir va k
        → word mem (pdeAt pgdir (va + UInt32.ofNat k)) &&& pteP ≠ 0 := by
  obtain ⟨k, upTo, accessible, stop, ran⟩ := @Ready.copyoutLoop_eq _ _ va va _ _ ready _ 0 _ le_rfl
    (Nat.zero_add _) (fun _ => (UInt32.add_zero va).symm) (fun _ before => absurd before (by omega))
  have copied : copyout mem pgdir va p len = outcome mem pgdir va p len k := by
    rwa [show UInt32.ofNat 0 = 0 from rfl, UInt32.add_zero] at ran
  have first_ {m : Nat} (before : Accessible mem pgdir va m) (inside : m < len.toNat) : m ≤ k := by
    rcases stop with all | refused
    · omega
    · exact Nat.le_of_not_lt fun later => refused (before k later)
  rw [RespectsSpace, copied, outcome]
  constructor
  · rintro ⟨result, mem', returned, -⟩ m inside before
    rcases (first_ before inside).lt_or_eq with earlier | rfl
    · exact (accessible m earlier).1
    · intro table
      rw [if_neg (by omega), if_pos table] at returned
      cases returned
  · intro tables
    by_cases all : k = len.toNat
    · subst all
      exact ⟨0, _, if_pos rfl, by simpa using accessible, by simp⟩
    · have refused := stop.resolve_left all
      refine ⟨-1, _, by rw [if_neg all, if_neg (tables k (by omega) accessible)], ?_, by simp, ?_⟩
      · exact ⟨by simp, fun user => absurd (user k (by omega)) refused⟩
      · exact fun _ => ⟨rfl, k, by omega, accessible, rfl⟩

/-- A page directory at 0x2000 and a page table at 0x3000 with two user pages from 0x400000 on, in
the frames 0x4000 and 0x5000.
-/
def twoPages (a : UInt32) : UInt8 :=
  if a = 0x80002004 ∨ a = 0x80003000 ∨ a = 0x80003004 then 7
  else if a = 0x80002005 then 0x30
  else if a = 0x80003001 then 0x40
  else if a = 0x80003005 then 0x50
  else if a = 0x80006000 then 65
  else 0

/-- Two bytes are copied across the boundary of the pages; three bytes at the end of the second page
are not, as the next page is not present.
-/
theorem copyout_respects_iff_two
    : (RespectsSpace twoPages 0x80002000 0x400FFF 0x80006000 2
        ∧ (copyout twoPages 0x80002000 0x400FFF 0x80006000 2).map Prod.fst = some 0)
      ∧ RespectsSpace twoPages 0x80002000 0x401FFE 0x80006000 3
        ∧ (copyout twoPages 0x80002000 0x401FFE 0x80006000 3).map Prod.fst = some (-1) :=
  ⟨⟨(copyout_respects_iff _ _ _ _ _ ⟨by decide, by decide, by decide, by decide⟩).mpr (by decide),
      by decide⟩,
    (copyout_respects_iff _ _ _ _ _ ⟨by decide, by decide, by decide, by decide⟩).mpr (by decide),
    by decide⟩

/-- Where the page directory maps nothing at all, `copyout` does not return -1: it faults. -/
theorem copyout_without_table
    : copyout (fun _ => 0) 0x80002000 0x400000 0x80006000 1 = none
      ∧ ∀ va, ¬ UserPage (fun _ => 0) 0x80002000 va :=
  ⟨by decide, fun va user => user.1 (by simp [word])⟩

end Xv6Net.Vm
