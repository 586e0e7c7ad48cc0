import Xv6Net.Fs.Operations
import Xv6Net.Fs.SystemCalls
import Xv6Net.Library.SlotMap

/-! A directory as a finite map: `dirlink`, `dirlookup` and the clearing of an entry by
`sys_unlink`, each by a process that locks the directory for it, against a map from the names, cut
as `namecmp` cuts them, to inode numbers and places.
-/

namespace Xv6Net.Fs

open Library Memory Program Transition

/-- What an entry holds: nothing if it is empty, and else the name and the inode number. -/
def Dirent.slot (de : Dirent) : Option (List UInt8 × Nat) :=
  if de.inum = 0 then none else some (upToZero dirSiz de.name, de.inum.toNat)

/-- The entries of a directory with these contents. -/
def slotsOf (bytes : List UInt8) (j : Nat) : Option (List UInt8 × Nat) := (direntAt bytes j).slot

variable {de : Dirent} {bytes cells : List UInt8} {k : Nat}

/-- `namecmp` compares what the map has as keys. -/
theorem Dirent.is_iff_slot {name : List UInt8}
    : de.Is name ↔ de.slot = some (upToZero dirSiz name, de.inum.toNat) := by
  rw [Is, slot, namecmp, strncmp_eq_zero]
  by_cases empty : de.inum = 0
  · simp [empty]
  · simp [empty, eq_comm]

theorem Dirent.slot_eq_none : de.slot = none ↔ de.inum = 0 := by
  simp [slot]

/-- A name that `dirlink` has stored is found again. -/
theorem Dirent.slot_of_strncpy {inum : Nat} (name : List UInt8) (set_ : inum ≠ 0)
    (small : inum < 65536)
    : Dirent.slot { inum := UInt16.ofNat inum, name := strncpy (cstring name) dirSiz }
      = some (upToZero dirSiz name, inum) := by
  have number : (UInt16.ofNat inum).toNat = inum := UInt16.toNat_ofNat_of_lt' small
  have positive : UInt16.ofNat inum ≠ 0 := by
    intro zero
    rw [zero] at number
    exact set_ number.symm
  rw [slot, if_neg positive, upToZero_strncpy, number]

/-- Writing one entry leaves the other entries as they are. -/
theorem window_splice (long : cells.length = 16) (inside : 16 * k ≤ bytes.length) (j : Nat)
    : ((splice bytes (16 * k) cells).drop (16 * j)).take 16
      = if j = k then cells else (bytes.drop (16 * j)).take 16 := by
  have front : (bytes.take (16 * k)).length = 16 * k := List.length_take_of_le inside
  rw [splice, long]
  rcases Nat.lt_trichotomy j k with before | rfl | behind
  · rw [if_neg (by omega), List.append_assoc, List.drop_append_of_le_length (by omega),
      List.take_append_of_le_length (by rw [List.length_drop]; omega), List.drop_take,
      List.take_take, Nat.min_eq_left (by omega)]
  · rw [if_pos rfl, List.append_assoc, List.drop_left' front, List.take_left' long]
  · have length : (bytes.take (16 * k) ++ cells).length = 16 * k + 16 := by
      rw [List.length_append, front, long]
    have rest : 16 * j = (bytes.take (16 * k) ++ cells).length + (16 * j - (16 * k + 16)) := by
      omega
    rw [if_neg (by omega), rest, List.drop_length_add_append, List.drop_drop]
    congr 2
    omega

theorem length_splice {off : Nat} (inside : off ≤ bytes.length)
    : (splice bytes off cells).length = max bytes.length (off + cells.length) := by
  simp only [splice, List.length_append, List.length_take, List.length_drop]
  omega

/-- So it is an update of the slots. -/
theorem slotsOf_splice (long : de.name.length = 14) (inside : 16 * k ≤ bytes.length)
    : slotsOf (splice bytes (16 * k) de.bytes) = Function.update (slotsOf bytes) k de.slot := by
  have length := Dirent.length_bytes long
  funext j
  rw [slotsOf, direntAt, window_splice length inside]
  by_cases here : j = k
  · rw [if_pos here, here, Function.update_self, Dirent.ofBytes_bytes]
  · rw [if_neg here, Function.update_of_ne here]
    rfl

/-- A directory that can be searched: its slot has been read, and it has whole entries. -/
structure Searchable (sb : Superblock) (dp n : Nat) (s : FsState) : Prop where
  ok : FsOk sb s
  cached : Cached s dp
  directory : (s.icache dp).copy.type = tDir
  whole : (s.icache dp).copy.size.toNat = 16 * n

def dirBytes (dp : Nat) (s : FsState) : List UInt8 := contents s.disk (s.icache dp).copy

section

variable {env : FsEnv} {s : FsState} {dp n : Nat} {name : List UInt8} {ok : FsEvent → Prop}
  {halt : Prop}

theorem Searchable.file (h : Searchable env.sb dp n s) : (s.icache dp).copy.type ≠ tDev := by
  rw [h.directory]
  decide

theorem Searchable.small (h : Searchable env.sb dp n s) : n ≤ 4480 := by
  have small := h.ok.small h.cached
  rw [Dinode.blocks, h.whole] at small
  omega

section

variable (h : Searchable env.sb dp n s)
include h

variable {i fuel : Nat}

/-- `readi` returns one entry. -/
theorem Searchable.read (inside : i < n)
    : (readi dp (UInt32.ofNat (16 * i)) 16).run env s
      = ⟨some (16, ((dirBytes dp s).drop (16 * i)).take 16), s, []⟩ := by
  have small := h.small
  have whole := h.whole
  have count : (16 : UInt32).toNat = 16 := rfl
  have length : (((dirBytes dp s).drop (16 * i)).take 16).length = 16 := by
    rw [List.length_take, List.length_drop, dirBytes, length_contents]
    omega
  rw [readi_run h.ok h.cached h.file, toNat_offset (by omega), count, if_neg (by omega)]
  rw [dirBytes] at length ⊢
  simp only [length]
  rfl

/-- The loop passes all entries. By induction on the fuel. -/
theorem Searchable.dirlookupLoop_miss (misses : ∀ j < n, ¬ (direntAt (dirBytes dp s) j).Is name)
    (enough : n < i + fuel)
    : Ensures ok halt (dirlookupLoop dp name fuel (16 * i)) env s fun r after =>
        r = none ∧ after = s := by
  induction fuel generalizing i with
  | zero => exact .pure ⟨rfl, rfl⟩
  | succ fuel ih =>
    have whole := h.whole
    rw [dirlookupLoop]
    refine inode_next (.ite (fun inside => ?_) fun _ => .pure ⟨rfl, rfl⟩)
    have inside : i < n := by omega
    refine .next (h.read inside) (.ite (fun short => (short rfl).elim) fun _ => ?_)
    exact .ite (fun hit => (misses i inside hit).elim) fun _ => @ih (i + 1) (by omega)

theorem Searchable.dirlookup_miss (misses : ∀ j < n, ¬ (direntAt (dirBytes dp s) j).Is name)
    : Ensures ok halt (dirlookup dp name) env s fun r after => r = none ∧ after = s := by
  have whole := h.whole
  rw [dirlookup]
  refine inode_next (.ite (fun other => (other h.directory).elim) fun _ => ?_)
  exact h.dirlookupLoop_miss (i := 0) misses (by omega)

/-- The search of `dirlink` ends at the first entry that is empty. -/
theorem Searchable.emptyDirentLoop_ensures (enough : n < i + fuel)
    (before : i ≤ SlotMap.firstFree (slotsOf (dirBytes dp s)) n)
    : Ensures ok halt (emptyDirentLoop dp fuel (16 * i)) env s fun off after =>
        off = 16 * SlotMap.firstFree (slotsOf (dirBytes dp s)) n ∧ after = s := by
  have last : SlotMap.firstFree (slotsOf (dirBytes dp s)) n ≤ n := SlotMap.firstFree_le
  induction fuel generalizing i with
  | zero => omega
  | succ fuel ih =>
    have whole := h.whole
    rw [emptyDirentLoop]
    refine inode_next (.ite (fun inside => ?_) fun _ => .pure ⟨by omega, rfl⟩)
    have inside : i < n := by omega
    refine .next (h.read inside) (.ite (fun short => (short rfl).elim) fun _ => ?_)
    refine .ite (fun empty => ?_) fun set_ => ?_
    · have free : slotsOf (dirBytes dp s) i = none := Dirent.slot_eq_none.mpr empty
      refine .pure ⟨?_, rfl⟩
      rcases Nat.lt_or_eq_of_le before with earlier | here
      · have taken := SlotMap.taken_of_lt_firstFree earlier
        rw [free] at taken
        cases taken
      · rw [← here]
    · refine @ih (i + 1) (by omega) ?_
      rcases Nat.lt_or_eq_of_le before with earlier | here
      · exact earlier
      · have free : slotsOf (dirBytes dp s) i = none := by
          rw [here] at inside ⊢
          exact SlotMap.free_of_firstFree_lt inside
        exact (set_ (Dirent.slot_eq_none.mp free)).elim

/-- `dirlookup` returns what the map has for the name. -/
theorem Searchable.dirlookup_map {map : List UInt8 → Option (Nat × Nat)}
    (stands : SlotMap.StandsFor (slotsOf (dirBytes dp s)) n map)
    (free : ∃ jp < nInode, (s.icache jp).ref = 0)
    : Ensures ok halt (dirlookup dp name) env s fun r after =>
        match map (upToZero dirSiz name) with
        | none => r = none ∧ after = s
        | some (inum, k) => ∃ ip, r = some (ip, 16 * k) ∧ Got rootDev inum ip s after := by
  cases entry : map (upToZero dirSiz name) with
  | none =>
    refine h.dirlookup_miss fun j inside hit => ?_
    exact stands.ne_of_none entry inside _ (Dirent.is_iff_slot.mp hit)
  | some place =>
    obtain ⟨inum, k⟩ := place
    obtain ⟨inside, there⟩ := (stands _ _ _).mp entry
    have number : (direntAt (dirBytes dp s) k).inum.toNat = inum := by
      rw [slotsOf, Dirent.slot] at there
      split at there
      · cases there
      · exact (Prod.mk.inj (Option.some.inj there)).2
    have hit : (direntAt (dirBytes dp s) k).Is name := by
      rw [Dirent.is_iff_slot, number]
      exact there
    have misses : ∀ j < k, ¬ (direntAt (dirBytes dp s) j).Is name := by
      intro j before is
      have same := stands.unique (by omega) inside (Dirent.is_iff_slot.mp is) there
      omega
    have dev := h.ok.dev dp h.cached.1 h.cached.2.1
    have whole := h.whole
    rw [← number, ← dev]
    refine dirlookup_hit (fun j upTo => h.read (by omega)) (by omega) misses hit ?_ h.directory
    intro full
    obtain ⟨jp, inside, unused⟩ := free
    exact (full jp inside unused).elim

end

end

/-- A call of `dirlink` or `dirlookup`, or the clearing of the entry of a name. -/
inductive DirOp where
  | link (name : List UInt8) (inum : UInt32)
  | lookup (name : List UInt8)
  | clear (name : List UInt8)

/-- What `dirlink` returns; inode number and offset of the entry found; the offset of the one
cleared.
-/
inductive DirAnswer where
  | linked (r : Int)
  | found (entry : Option (Nat × Nat))
  | cleared (off : Option Nat)
deriving DecidableEq

/-- The callers lock the directory for the call, and then put the inode that `dirlookup` has
returned.
-/
def DirOp.program (dp : Nat) : DirOp → FsM DirAnswer
  | .link name inum => do
    ilock dp
    let r ← dirlink dp name inum.toNat
    iunlock dp
    return .linked r
  | .lookup name => do
    ilock dp
    match ← dirlookup dp name with
    | none =>
      iunlock dp
      return .found none
    | some (ip, off) =>
      let node ← inode ip
      iunlock dp
      iput ip
      return .found (some (node.inum, off))
  | .clear name => do
    ilock dp
    match ← dirlookup dp name with
    | none =>
      iunlock dp
      return .cleared none
    | some (ip, off) =>
      if (← writei dp SysFile.clearedDirent (UInt32.ofNat off) 16) ≠ 16 then
        panic .unlinkWritei
      else
        iunlock dp
        iput ip
        return .cleared (some off)

/-- The directory between two calls: its slot is referenced, none is locked, and another one is
free.
-/
structure Resting (sb : Superblock) (dp n : Nat) (s : FsState) : Prop where
  ok : FsOk sb s
  slot : dp < nInode
  referenced : 0 < (s.icache dp).ref
  table : (s.icache dp).inum < sb.ninodes
  directory : (dinodeAt sb s.disk (s.icache dp).inum).type = tDir
  whole : (dinodeAt sb s.disk (s.icache dp).inum).size.toNat = 16 * n
  free : ∃ jp < nInode, (s.icache jp).ref = 0
  unlocked : ∀ jp < nInode, (s.icache jp).locked = false

/-- During a call, beside what it did to the directory: it has these references, and only the
directory may be locked.
-/
structure During (sb : Superblock) (dp : Nat) (extra : Nat → Int) (s t : FsState) : Prop where
  ok : FsOk sb t
  refs : ∀ jp, (t.icache jp).ref = (s.icache jp).ref + extra jp
  inum : (t.icache dp).inum = (s.icache dp).inum
  locks : ∀ jp < nInode, jp ≠ dp → (t.icache jp).locked = false

def oneTo (ip jp : Nat) : Int := if jp = ip then 1 else 0

section

variable {env : FsEnv} {sb : Superblock} {s t t' : FsState} {dp ip n : Nat} {extra : Nat → Int}
  {ok : FsEvent → Prop} {halt : Prop}

/-- `ilock` of the directory, with its contents as they are on the disk. -/
theorem Resting.lock (h : Resting env.sb dp n s)
    : Ensures ok halt (ilock dp) env s fun _ t =>
        During env.sb dp (fun _ => 0) s t ∧ Searchable env.sb dp n t
        ∧ (t.icache dp).locked = true
        ∧ dirBytes dp t = fileAt env.sb s.disk (s.icache dp).inum
        ∧ t.disk = s.disk
        ∧ ∃ jp < nInode, (t.icache jp).ref = 0 := by
  have used : (dinodeAt env.sb s.disk (s.icache dp).inum).type ≠ 0 := by
    rw [h.directory]
    decide
  have referenced := h.referenced
  refine (ilock_slot (fun low => absurd low (by omega))
    (fun locked => absurd ((h.unlocked dp h.slot).symm.trans locked) (by decide))
    (fun _ valid => (h.ok.synced dp ⟨h.slot, referenced, valid⟩).2)
    (fun none_ => absurd none_ used)).weaken ?_
  rintro _ t ⟨-, -, after⟩
  have slots : ∀ jp, jp ≠ dp → t.icache jp = s.icache jp := by
    intro jp other
    rw [after]
    exact withSlot_of_ne _ other
  have slot : t.icache dp
      = { s.icache dp with
          locked := true, valid := true, copy := dinodeAt env.sb s.disk (s.icache dp).inum } := by
    rw [after]
    exact withSlot_self ..
  have disk : t.disk = s.disk := by rw [after]; rfl
  have locked : Locked env.sb dp s t :=
    .of_slot h.ok h.slot referenced ⟨h.table, used⟩ disk slots slot
  have refs := slots_rel (fun x y => y.ref = x.ref) (fun _ => rfl) (by rw [slot]) slots
  refine ⟨⟨locked.ok, fun jp => ?_, by rw [slot], fun jp inside other => ?_⟩,
    ⟨locked.ok, locked.cached, ?_, ?_⟩, by rw [slot], ?_, disk, ?_⟩
  · rw [refs jp, Int.add_zero]
  · rw [slots jp other]
    exact h.unlocked jp inside
  · rw [slot]
    exact h.directory
  · rw [slot]
    exact h.whole
  · rw [dirBytes, slot, disk]
    rfl
  · obtain ⟨jp, inside, free⟩ := h.free
    exact ⟨jp, inside, (refs jp).trans free⟩

/-- `iget` of the entry leaves the directory locked, with its contents. -/
theorem During.got {inum : Nat} (h : During sb dp (fun _ => 0) s t)
    (got : Got rootDev inum ip t t') (referenced : 0 < (t.icache dp).ref)
    : During sb dp (oneTo ip) s t'
      ∧ (t'.icache dp).locked = (t.icache dp).locked
      ∧ (t'.icache dp).valid = (t.icache dp).valid
      ∧ (t'.icache dp).copy = (t.icache dp).copy
      ∧ ((t'.icache ip).valid = false ∨ 2 ≤ (t'.icache ip).ref) := by
  have lock := got.locked
  have own : (t'.icache dp).inum = (t.icache dp).inum
      ∧ (t'.icache dp).valid = (t.icache dp).valid
      ∧ (t'.icache dp).copy = (t.icache dp).copy := by
    by_cases here : dp = ip
    · subst here
      rcases got.slot with ⟨-, -, -, slot⟩ | ⟨-, free, -⟩
      · rw [slot]
        exact ⟨rfl, rfl, rfl⟩
      · omega
    · rw [got.slots dp here]
      exact ⟨rfl, rfl, rfl⟩
  refine ⟨⟨got.ok h.ok, fun jp => ?_, own.1.trans h.inum, fun jp inside other => ?_⟩, lock dp,
    own.2.1, own.2.2, ?_⟩
  · have before := h.refs jp
    by_cases here : jp = ip
    · rw [oneTo, if_pos here]
      rw [here] at before ⊢
      rcases got.slot with ⟨-, -, -, slot⟩ | ⟨-, free, slot⟩
      · rw [slot]
        simp only
        omega
      · rw [slot]
        simp only
        omega
    · rw [oneTo, if_neg here, got.slots jp here]
      exact before
  · rw [lock jp]
    exact h.locks jp inside other
  · rcases got.slot with ⟨before, -, -, slot⟩ | ⟨-, -, slot⟩
    · right
      rw [slot]
      simp only
      omega
    · left
      rw [slot]

theorem During.referenced (h : During sb dp (oneTo ip) s t) (before : 0 < (s.icache dp).ref)
    : 0 < (t.icache dp).ref := by
  rw [h.refs dp, oneTo]
  split <;> omega

/-- `writei` changes no lock and no reference. -/
theorem During.stored {off : Nat} {cells : List UInt8} (h : During sb dp extra s t)
    (stored : Stored sb dp off cells t t')
    : During sb dp extra s t'
      ∧ (∀ jp, (t'.icache jp).locked = (t.icache jp).locked)
      ∧ (∀ jp, (t'.icache jp).valid = (t.icache jp).valid)
      ∧ ∀ jp, (t'.icache jp).ref = (t.icache jp).ref := by
  have same := slots_rel (fun x y => y.ref = x.ref ∧ y.locked = x.locked ∧ y.valid = x.valid)
    (fun _ => ⟨rfl, rfl, rfl⟩) (by rw [stored.elsewhere.slot]; exact ⟨rfl, rfl, rfl⟩)
    stored.elsewhere.slots
  refine ⟨⟨stored.ok, fun jp => ?_, stored.elsewhere.inum.trans h.inum, fun jp inside other => ?_⟩,
    fun jp => (same jp).2.1, fun jp => (same jp).2.2, fun jp => (same jp).1⟩
  · rw [(same jp).1]
    exact h.refs jp
  · rw [(same jp).2.1]
    exact h.locks jp inside other

theorem During.unlock (h : During env.sb dp extra s t)
    (locked : (t.icache dp).locked = true) (referenced : 0 < (t.icache dp).ref)
    : Ensures ok halt (iunlock dp) env t fun _ t' =>
        During env.sb dp extra s t'
        ∧ (∀ jp < nInode, (t'.icache jp).locked = false)
        ∧ t'.disk = t.disk
        ∧ ∀ jp, (t'.icache jp).valid = (t.icache jp).valid
          ∧ (t'.icache jp).ref = (t.icache jp).ref := by
  refine (iunlock_held locked referenced).weaken ?_
  rintro _ _ rfl
  set t' := withSlot t dp fun node => { node with locked := false } with new
  have slot : t'.icache dp = { t.icache dp with locked := false } := withSlot_self ..
  have slots : ∀ jp, jp ≠ dp → t'.icache jp = t.icache jp := fun jp other => withSlot_of_ne _ other
  have same := slots_rel (fun x y => y.valid = x.valid ∧ y.ref = x.ref) (fun _ => ⟨rfl, rfl⟩)
    (by rw [slot]; exact ⟨rfl, rfl⟩) slots
  have unlocked : ∀ jp < nInode, (t'.icache jp).locked = false := by
    intro jp inside
    by_cases here : jp = dp
    · rw [here, slot]
    · rw [slots jp here]
      exact h.locks jp inside here
  refine ⟨⟨h.ok.withSlot rfl rfl referenced rfl rfl, fun jp => ?_, ?_,
    fun jp inside _ => unlocked jp inside⟩, unlocked, rfl, same⟩
  · rw [(same jp).2]
    exact h.refs jp
  · rw [slot]
    exact h.inum

/-- `iput` of a reference that is not the last one to a file in use frees nothing. -/
theorem During.put (h : During env.sb dp (oneTo ip) s t)
    (free : (t.icache ip).locked = false) (referenced : 0 < (t.icache ip).ref)
    (loose : (t.icache ip).valid = false ∨ 2 ≤ (t.icache ip).ref)
    : Ensures ok halt (iput ip) env t fun _ t' =>
        During env.sb dp (fun _ => 0) s t'
        ∧ (∀ jp, (t'.icache jp).locked = (t.icache jp).locked)
        ∧ t'.disk = t.disk
        ∧ (t'.icache dp).copy = (t.icache dp).copy := by
  have kept : ¬ ((t.icache ip).valid = true ∧ (t.icache ip).copy.nlink = 0
      ∧ (t.icache ip).ref = 1) := by
    rintro ⟨valid, -, last⟩
    rcases loose with gone | more
    · rw [gone] at valid
      cases valid
    · omega
  refine (iput_kept free kept).weaken ?_
  rintro _ _ rfl
  set t' := withSlot t ip fun node => { node with locked := false, ref := node.ref - 1 } with new
  have slot : t'.icache ip = { t.icache ip with locked := false, ref := (t.icache ip).ref - 1 } :=
    withSlot_self ..
  have slots : ∀ jp, jp ≠ ip → t'.icache jp = t.icache jp := fun jp other => withSlot_of_ne _ other
  have lock := slots_rel (fun x y => y.locked = x.locked) (fun _ => rfl) (by rw [slot, free]) slots
  have own := slots_rel (fun x y => y.inum = x.inum ∧ y.copy = x.copy) (fun _ => ⟨rfl, rfl⟩)
    (by rw [slot]; exact ⟨rfl, rfl⟩) slots dp
  refine ⟨⟨h.ok.withSlot rfl rfl referenced rfl rfl, fun jp => ?_, own.1.trans h.inum,
    fun jp inside other => ?_⟩, lock, rfl, own.2⟩
  · have before := h.refs jp
    by_cases here : jp = ip
    · rw [oneTo, if_pos here] at before
      rw [here] at before ⊢
      rw [slot]
      simp only
      omega
    · rw [oneTo, if_neg here] at before
      rw [slots jp here]
      exact before
  · rw [lock jp]
    exact h.locks jp inside other

/-- At the end of a call all locks are free and the directory is whole. -/
theorem Resting.after {n' : Nat} (h : Resting sb dp n s) (during : During sb dp (fun _ => 0) s t)
    (unlocked : ∀ jp < nInode, (t.icache jp).locked = false)
    (directory : (dinodeAt sb t.disk (s.icache dp).inum).type = tDir)
    (whole : (dinodeAt sb t.disk (s.icache dp).inum).size.toNat = 16 * n')
    : Resting sb dp n' t := by
  have refs : ∀ jp, (t.icache jp).ref = (s.icache jp).ref := by
    intro jp
    rw [during.refs jp, Int.add_zero]
  refine ⟨during.ok, h.slot, ?_, ?_, ?_, ?_, ?_, unlocked⟩
  · rw [refs dp]
    exact h.referenced
  · rw [during.inum]
    exact h.table
  · rw [during.inum]
    exact directory
  · rw [during.inum]
    exact whole
  · obtain ⟨jp, inside, free⟩ := h.free
    exact ⟨jp, inside, (refs jp).trans free⟩

end

/-- The names in a directory, with the inode number and the place of each. -/
abbrev DirMap := List UInt8 → Option (Nat × Nat)

/-- The name as a directory compares it. -/
abbrev key (name : List UInt8) : List UInt8 := upToZero dirSiz name

/-- The first entry that is empty, or the end of the directory. -/
def freeEntry (bytes : List UInt8) : Nat := SlotMap.firstFree (slotsOf bytes) (bytes.length / 16)

namespace DirOp

def answer (map : DirMap) : DirOp → DirAnswer
  | .link name _ => if map (key name) = none then .linked 0 else .linked (-1)
  | .lookup name => .found ((map (key name)).map fun entry => (entry.1, 16 * entry.2))
  | .clear name => .cleared ((map (key name)).map fun entry => 16 * entry.2)

/-- What a call has to make of the contents: a new name takes the first empty entry or a new one at
the end, and a name that is cleared leaves an empty entry.
-/
def contents (map : DirMap) (bytes : List UInt8) : DirOp → List UInt8
  | .link name inum =>
    if map (key name) = none then
      splice bytes (16 * freeEntry bytes)
        (Dirent.bytes
          { inum := UInt16.ofNat inum.toNat, name := strncpy (cstring name) dirSiz })
    else bytes
  | .lookup _ => bytes
  | .clear name =>
    match map (key name) with
    | none => bytes
    | some (_, i) => splice bytes (16 * i) (List.replicate 16 0)

def update (map : DirMap) (bytes : List UInt8) : DirOp → DirMap
  | .link name inum =>
    if map (key name) = none then
      Function.update map (key name) (some (inum.toNat, freeEntry bytes))
    else map
  | .lookup _ => map
  | .clear name => Function.update map (key name) none

/-- The arguments of `dirlink` fit: the inode number is no zero and fits in sixteen bits, a name
that is there is not one of the directory itself, and there is room for a new one.
-/
def Fits (sb : Superblock) (dp : Nat) (s : FsState) (map : DirMap) : DirOp → Prop
  | .link name inum =>
    inum ≠ 0 ∧ inum.toNat < 65536
      ∧ match map (key name) with
        | some (i, _) => i ≠ (s.icache dp).inum
        | none =>
          let bytes := fileAt sb s.disk (s.icache dp).inum
          16 * freeEntry bytes + 16 ≤ 71680
            ∧ blocksFor (max bytes.length (16 * freeEntry bytes + 16))
              ≤ freeCount sb s.disk + blocksFor bytes.length
  | _ => True

end DirOp

section

variable {env : FsEnv} {s : FsState} {dp n : Nat} {map : DirMap}

/-- What a call does that answers as the map says. -/
structure Obeys (sb : Superblock) (dp : Nat) (map : DirMap) (op : DirOp) (s : FsState)
    (r : DirAnswer) (t : FsState)
    : Prop where
  answer : r = op.answer map
  inum : (t.icache dp).inum = (s.icache dp).inum
  contents
    : fileAt sb t.disk (s.icache dp).inum
      = op.contents map (fileAt sb s.disk (s.icache dp).inum)
  rests : ∃ n, Resting sb dp n t

section

variable (h : Resting env.sb dp n s)
include h

theorem Resting.length
    : (fileAt env.sb s.disk (s.icache dp).inum).length = 16 * n := by
  rw [fileAt, length_contents, h.whole]

variable {op : DirOp} {r : DirAnswer} {t : FsState}

/-- A call that writes nothing. -/
theorem Resting.obeys_same (during : During env.sb dp (fun _ => 0) s t)
    (unlocked : ∀ jp < nInode, (t.icache jp).locked = false) (disk : t.disk = s.disk)
    (answer : r = op.answer map) (same : op.contents map (fileAt env.sb s.disk (s.icache dp).inum)
      = fileAt env.sb s.disk (s.icache dp).inum)
    : Obeys env.sb dp map op s r t := by
  refine ⟨answer, during.inum, ?_, n, h.after during unlocked ?_ ?_⟩
  · rw [disk, same]
  · rw [disk]
    exact h.directory
  · rw [disk]
    exact h.whole

/-- `dirlookup` under the lock of the directory. -/
theorem Resting.lookup_ensures
    (stands : SlotMap.StandsFor (slotsOf (fileAt env.sb s.disk (s.icache dp).inum)) n map)
    (name : List UInt8)
    : Ensures Sound False ((DirOp.lookup name).program dp) env s
        (Obeys env.sb dp map (.lookup name) s) := by
  rw [DirOp.program]
  refine h.lock.bind ?_
  rintro _ t ⟨during, searchable, locked, bytes, disk, free⟩
  have referenced : 0 < (t.icache dp).ref := searchable.cached.2.1
  rw [← bytes] at stands
  refine (searchable.dirlookup_map stands free).bind fun r mid found => ?_
  cases entry : map (key name) with
  | none =>
    rw [entry] at found
    obtain ⟨rfl, rfl⟩ := found
    refine (during.unlock locked referenced).bind ?_
    rintro _ last ⟨during, unlocked, disk', -⟩
    refine .pure (h.obeys_same during unlocked (disk'.trans disk) ?_ rfl)
    simp [DirOp.answer, entry]
  | some place =>
    obtain ⟨inum, k⟩ := place
    rw [entry] at found
    obtain ⟨ip, rfl, got⟩ := found
    obtain ⟨during, lock, -, -, loose⟩ := during.got got referenced
    refine inode_next ?_
    refine (during.unlock (lock.trans locked) (during.referenced h.referenced)).bind ?_
    rintro _ later ⟨during, unlocked, disk', same⟩
    refine (during.put (unlocked ip got.inside) ?_ ?_).bind ?_
    · rw [(same ip).2]
      exact got.referenced
    · rw [(same ip).1, (same ip).2]
      exact loose
    · rintro _ last ⟨during, locks, disk'', -⟩
      refine .pure (h.obeys_same during (fun jp inside => ?_)
        (disk''.trans (disk'.trans (got.disk.trans disk))) ?_ rfl)
      · rw [locks jp]
        exact unlocked jp inside
      · simp [DirOp.answer, entry, got.inum_eq]

/-- A call that writes one entry. -/
theorem Resting.obeys_stored {m k : Nat} {mid later : FsState}
    {cells : List UInt8} (searchable : Searchable env.sb dp m mid)
    (stored : Stored env.sb dp (16 * k) cells mid later)
    (during : During env.sb dp (fun _ => 0) s t)
    (unlocked : ∀ jp < nInode, (t.icache jp).locked = false) (disk : t.disk = later.disk)
    (inum : (mid.icache dp).inum = (s.icache dp).inum) (inside : k ≤ m) (long : cells.length = 16)
    (answer : r = op.answer map)
    (contents : op.contents map (fileAt env.sb s.disk (s.icache dp).inum)
      = splice (dirBytes dp mid) (16 * k) cells)
    : Obeys env.sb dp map op s r t := by
  have cached : Cached later dp := by
    rw [Cached, stored.elsewhere.slot]
    exact searchable.cached
  have number : (later.icache dp).inum = (s.icache dp).inum := stored.elsewhere.inum.trans inum
  have copy := (stored.ok.synced dp cached).2
  rw [number] at copy
  have bytes : fileAt env.sb later.disk (s.icache dp).inum
      = splice (dirBytes dp mid) (16 * k) cells := by
    rw [← number, ← stored.ok.contents_eq cached]
    exact stored.contents
  refine ⟨answer, during.inum, ?_, max m (k + 1), h.after during unlocked ?_ ?_⟩
  · rw [disk, bytes, contents]
  · rw [disk, ← copy, stored.fields]
    exact searchable.directory
  · have length := congrArg List.length bytes
    have whole := searchable.whole
    rw [length_splice (by rw [dirBytes, length_contents]; omega), fileAt, length_contents, dirBytes,
      length_contents, long, whole] at length
    rw [disk, length]
    omega

end

theorem slice_clearedDirent : slice SysFile.clearedDirent 0 16 = List.replicate 16 0 := rfl

section

variable (h : Resting env.sb dp n s)
  (stands : SlotMap.StandsFor (slotsOf (fileAt env.sb s.disk (s.icache dp).inum)) n map)
include h stands

/-- `sys_unlink` clears the entry that it has looked up. -/
theorem Resting.clear_ensures (name : List UInt8)
    : Ensures Sound False ((DirOp.clear name).program dp) env s
        (Obeys env.sb dp map (.clear name) s) := by
  rw [DirOp.program]
  refine h.lock.bind ?_
  rintro _ t ⟨during, searchable, locked, bytes, disk, free⟩
  have referenced : 0 < (t.icache dp).ref := searchable.cached.2.1
  rw [← bytes] at stands
  refine (searchable.dirlookup_map stands free).bind fun r mid found => ?_
  cases entry : map (key name) with
  | none =>
    rw [entry] at found
    obtain ⟨rfl, rfl⟩ := found
    refine (during.unlock locked referenced).bind ?_
    rintro _ last ⟨during, unlocked, disk', -⟩
    refine .pure (h.obeys_same during unlocked (disk'.trans disk) ?_ ?_)
    · simp [DirOp.answer, entry]
    · simp [DirOp.contents, entry]
  | some place =>
    obtain ⟨inum, k⟩ := place
    have inside := ((stands _ _ _).mp entry).1
    rw [entry] at found
    obtain ⟨ip, rfl, got⟩ := found
    obtain ⟨during, lock, valid, copy, loose⟩ := during.got got referenced
    have referenced' := during.referenced h.referenced
    have searchable' : Searchable env.sb dp n mid :=
      ⟨during.ok, ⟨h.slot, referenced', valid.trans searchable.cached.2.2⟩,
        copy ▸ searchable.directory, copy ▸ searchable.whole⟩
    have small := searchable.small
    have whole := searchable'.whole
    have off := toNat_offset (i := k) (by omega)
    have count : (16 : UInt32).toNat = 16 := rfl
    -- the entry is inside the file, so the write does not extend it
    have fits : ¬ Refused (mid.icache dp).copy (UInt32.ofNat (16 * k)) 16 := by
      rw [Refused, off, count]
      omega
    refine ((writei_ensures during.ok searchable'.cached searchable'.file fits).mono ?_
      fun _ _ => id).bind ?_
    · rw [off, count, Nat.max_eq_left (by omega)]
      omega
    rintro _ later ⟨rfl, stored⟩
    rw [off, count, slice_clearedDirent] at stored
    refine .ite (fun short => (short rfl).elim) fun _ => ?_
    obtain ⟨during', locks, valids, refs⟩ := during.stored stored
    refine (during'.unlock ((locks dp).trans (lock.trans locked))
      (during'.referenced h.referenced)).bind ?_
    rintro _ open_ ⟨during', unlocked, disk', same⟩
    refine (during'.put (unlocked ip got.inside) ?_ ?_).bind ?_
    · rw [(same ip).2, refs ip]
      exact got.referenced
    · rw [(same ip).1, (same ip).2, refs ip, valids ip]
      exact loose
    · rintro _ last ⟨during', locks', disk'', -⟩
      refine .pure (h.obeys_stored searchable' stored during' (fun jp inside => ?_)
        (disk''.trans disk') during.inum (by omega) rfl ?_ ?_)
      · rw [locks' jp]
        exact unlocked jp inside
      · simp [DirOp.answer, entry]
      · rw [DirOp.contents, entry, ← bytes, dirBytes, dirBytes, copy, got.disk]

/-- `dirlink` refuses a name that is there, and takes the first free entry for another. -/
theorem Resting.link_ensures {name : List UInt8} {inum : UInt32}
    (fits : (DirOp.link name inum).Fits env.sb dp s map)
    : Ensures Sound False ((DirOp.link name inum).program dp) env s
        (Obeys env.sb dp map (.link name inum) s) := by
  obtain ⟨-, -, room⟩ := fits
  rw [DirOp.program]
  refine h.lock.bind ?_
  rintro _ t ⟨during, searchable, locked, bytes, disk, free⟩
  have referenced : 0 < (t.icache dp).ref := searchable.cached.2.1
  have length := h.length
  rw [dirlink, Program.bind_assoc]
  rw [← bytes] at stands
  refine (searchable.dirlookup_map stands free).bind fun r mid found => ?_
  cases entry : map (key name) with
  | some place =>
    obtain ⟨i, k⟩ := place
    rw [entry] at found room
    obtain ⟨ip, rfl, got⟩ := found
    -- the entry is not one of the directory, whose lock is held
    have other : ip ≠ dp := by
      rintro rfl
      have number := got.inum_eq
      rcases got.slot with ⟨-, -, here, -⟩ | ⟨-, unused, -⟩
      · rw [during.inum] at here
        exact room here.symm
      · omega
    obtain ⟨during, lock, -, -, loose⟩ := during.got got referenced
    rw [Program.bind_assoc]
    refine (during.put (during.locks ip got.inside other) got.referenced loose).bind ?_
    rintro _ later ⟨during, locks, disk', -⟩
    rw [Program.pure_bind]
    refine (during.unlock ((locks dp).trans (lock.trans locked)) ?_).bind ?_
    · rw [during.refs dp, Int.add_zero]
      exact h.referenced
    · rintro _ last ⟨during, unlocked, disk'', -⟩
      refine .pure (h.obeys_same during unlocked
        (disk''.trans (disk'.trans (got.disk.trans disk))) ?_ ?_)
      · simp [DirOp.answer, entry]
      · simp [DirOp.contents, entry]
  | none =>
    rw [entry] at found room
    obtain ⟨rfl, rfl⟩ := found
    simp only [← bytes] at room length
    have whole := searchable.whole
    have number : (dirBytes dp mid).length / 16 = n := by omega
    rw [freeEntry, number, length] at room
    have last : SlotMap.firstFree (slotsOf (dirBytes dp mid)) n ≤ n := SlotMap.firstFree_le
    rw [Program.bind_assoc]
    refine inode_next ?_
    rw [Program.bind_assoc]
    refine (searchable.emptyDirentLoop_ensures (i := 0) (by omega) (Nat.zero_le _)).bind ?_
    rintro _ current ⟨rfl, rfl⟩
    have place : freeEntry (dirBytes dp current)
        = SlotMap.firstFree (slotsOf (dirBytes dp current)) n := by
      rw [freeEntry, number]
    rw [← place] at room last ⊢
    have off := toNat_offset (i := freeEntry (dirBytes dp current)) (by omega)
    have count : (16 : UInt32).toNat = 16 := rfl
    have accepted : ¬ Refused (current.icache dp).copy
        (UInt32.ofNat (16 * freeEntry (dirBytes dp current))) 16 := by
      rw [Refused, off, count]
      omega
    rw [Program.bind_assoc]
    refine ((writei_ensures during.ok searchable.cached searchable.file accepted).mono ?_
      fun _ _ => id).bind ?_
    · rw [off, count, whole, disk]
      omega
    rintro _ later ⟨rfl, stored⟩
    rw [off, count, slice_direntMemory _ (length_strncpy ..)] at stored
    rw [if_neg (fun short => short rfl), Program.pure_bind]
    obtain ⟨during', locks, -, refs⟩ := during.stored stored
    refine (during'.unlock ((locks dp).trans locked) (by rw [refs dp]; exact referenced)).bind ?_
    rintro _ last_ ⟨during', unlocked, disk', -⟩
    refine .pure (h.obeys_stored searchable stored during' unlocked disk' during.inum last ?_ ?_ ?_)
    · exact Dirent.length_bytes (length_strncpy ..)
    · simp [DirOp.answer, entry]
    · rw [DirOp.contents, if_pos entry, bytes]

end

end

namespace DirOp

instance (sb : Superblock) (dp : Nat) (s : FsState) (map : DirMap)
    : (op : DirOp) → Decidable (op.Fits sb dp s map)
  | .link name _ =>
    have : Decidable (match map (key name) with
        | some (i, _) => i ≠ (s.icache dp).inum
        | none =>
          let bytes := fileAt sb s.disk (s.icache dp).inum
          16 * freeEntry bytes + 16 ≤ 71680
            ∧ blocksFor (max bytes.length (16 * freeEntry bytes + 16))
              ≤ freeCount sb s.disk + blocksFor bytes.length) :=
      match map (key name) with
      | some _ => inferInstanceAs (Decidable (_ ≠ _))
      | none => inferInstanceAs (Decidable (_ ∧ _))
    inferInstanceAs (Decidable (_ ∧ _ ∧ _))
  | .lookup _ | .clear _ => isTrue trivial

/-- The history of the names: a `dirlink` that succeeds sets a name, with its inode number and the
entry it has taken, and the clearing of an entry unsets it.
-/
def note (env : FsEnv) (dp : Nat) (s : FsState) (op : DirOp) (map : DirMap) : DirMap :=
  match op, ((op.program dp).run env s).value with
  | .link name inum, some (.linked r) =>
    if r = 0 then
      Function.update map (key name)
        (some (inum.toNat, freeEntry (fileAt env.sb s.disk (s.icache dp).inum)))
    else map
  | .clear name, some (.cleared (some _)) => Function.update map (key name) none
  | _, _ => map

/-- The call returns what the history of the names says, and so do the contents it leaves. -/
structure Answered (env : FsEnv) (dp : Nat) (current : FsState × DirMap) (op : DirOp) : Prop where
  answer : ((op.program dp).run env current.1).value = some (op.answer current.2)
  contents
    : fileAt env.sb ((op.program dp).run env current.1).state.disk (current.1.icache dp).inum
      = op.contents current.2 (fileAt env.sb current.1.disk (current.1.icache dp).inum)

end DirOp

/-- The calls one after the other, beside the history; a call that does not return ends the run. -/
def dirStep (env : FsEnv) (dp : Nat) : FsState × DirMap → DirOp → Option (FsState × DirMap) :=
  withHistory
    (fun s op => ((op.program dp).run env s).value.map fun _ => ((op.program dp).run env s).state)
    (DirOp.note env dp)

/-- No two entries that are not empty have the same name. -/
def NoTwins (env : FsEnv) (dp : Nat) (current : FsState × DirMap) : Prop :=
  ∀ j k : Nat,
    let bytes := fileAt env.sb current.1.disk (current.1.icache dp).inum
    16 * j < bytes.length → 16 * k < bytes.length
      → (direntAt bytes j).inum ≠ 0 → (direntAt bytes k).inum ≠ 0
      → namecmp (direntAt bytes j).name (direntAt bytes k).name = 0
      → j = k

structure DirInv (env : FsEnv) (dp : Nat) (current : FsState × DirMap) : Prop where
  rests : ∃ n, Resting env.sb dp n current.1
  stands
    : SlotMap.StandsFor (slotsOf (fileAt env.sb current.1.disk (current.1.icache dp).inum))
        ((fileAt env.sb current.1.disk (current.1.icache dp).inum).length / 16) current.2

section

variable {env : FsEnv} {dp : Nat} {current next : FsState × DirMap} {op : DirOp}

theorem DirInv.ensures (inv : DirInv env dp current) (fits : op.Fits env.sb dp current.1 current.2)
    : Ensures Sound False (op.program dp) env current.1
        (Obeys env.sb dp current.2 op current.1) := by
  obtain ⟨n, rests⟩ := inv.rests
  have stands := inv.stands
  rw [rests.length, Nat.mul_div_cancel_left n (by decide)] at stands
  cases op with
  | link => exact rests.link_ensures stands fits
  | lookup name => exact rests.lookup_ensures stands name
  | clear name => exact rests.clear_ensures stands name

theorem DirInv.answered (inv : DirInv env dp current) (fits : op.Fits env.sb dp current.1 current.2)
    : op.Answered env dp current := by
  obtain ⟨r, ended, obeys⟩ := (inv.ensures fits).total
  refine ⟨?_, obeys.contents⟩
  rw [ended, obeys.answer]

/-- No name is in two entries. -/
theorem DirInv.noTwins (inv : DirInv env dp current) : NoTwins env dp current := by
  intro j k bytes inside inside' used used' same
  obtain ⟨n, rests⟩ := inv.rests
  have length := rests.length
  rw [namecmp, strncmp_eq_zero] at same
  have count : bytes.length = 16 * n := length
  have here : slotsOf bytes j
      = some (upToZero dirSiz (direntAt bytes j).name, (direntAt bytes j).inum.toNat) := if_neg used
  have there : slotsOf bytes k
      = some (upToZero dirSiz (direntAt bytes k).name, (direntAt bytes k).inum.toNat) :=
    if_neg used'
  rw [← same] at there
  exact inv.stands.unique (show j < bytes.length / 16 by omega)
    (show k < bytes.length / 16 by omega) here there

variable {s : FsState} {map : DirMap}

theorem DirOp.note_eq (answered : ((op.program dp).run env s).value = some (op.answer map))
    : op.note env dp s map = op.update map (fileAt env.sb s.disk (s.icache dp).inum) := by
  unfold note
  rw [answered]
  cases op with
  | lookup => rfl
  | link name =>
    by_cases absent : map (key name) = none
    · simp [answer, update, absent]
    · simp [answer, update, absent]
  | clear name =>
    cases entry : map (key name) with
    | none =>
      simp only [answer, update, entry, Option.map_none]
      rw [← entry, Function.update_eq_self]
    | some => simp [answer, update, entry]

/-- The contents after a call stand for the map after it. -/
theorem DirOp.stands {bytes : List UInt8} {n : Nat}
    (fits : op.Fits env.sb dp s map) (length : bytes.length = 16 * n)
    (stands : SlotMap.StandsFor (slotsOf bytes) n map)
    : SlotMap.StandsFor (slotsOf (op.contents map bytes)) ((op.contents map bytes).length / 16)
        (op.update map bytes) := by
  have number : bytes.length / 16 = n := by omega
  cases op with
  | lookup =>
    rw [contents, update, number]
    exact stands
  | link name inum =>
    rw [contents, update]
    by_cases absent : map (key name) = none
    · obtain ⟨set_, small, -⟩ := fits
      have positive : inum.toNat ≠ 0 := fun zero => set_ (UInt32.toNat_inj.mp zero)
      have long : (strncpy (cstring name) dirSiz).length = 14 := length_strncpy ..
      have last : freeEntry bytes ≤ n := number ▸ SlotMap.firstFree_le
      have grown := @length_splice bytes
        (Dirent.bytes { inum := UInt16.ofNat inum.toNat, name := strncpy (cstring name) dirSiz })
        (16 * freeEntry bytes) (by omega)
      rw [Dirent.length_bytes long] at grown
      have count : max bytes.length (16 * freeEntry bytes + 16) / 16
          = max n (freeEntry bytes + 1) := by
        omega
      rw [if_pos absent, if_pos absent, grown, count, slotsOf_splice long (by omega),
        Dirent.slot_of_strncpy name positive small]
      refine stands.insert _ absent last fun inside => ?_
      rw [freeEntry, number] at inside ⊢
      exact SlotMap.free_of_firstFree_lt inside
    · rw [if_neg absent, if_neg absent, number]
      exact stands
  | clear name =>
    cases entry : map (key name) with
    | none =>
      simp only [contents, update, entry]
      rw [← entry, Function.update_eq_self, number]
      exact stands
    | some place =>
      obtain ⟨inum, k⟩ := place
      obtain ⟨inside, there⟩ := (stands _ _ _).mp entry
      have empty : List.replicate 16 0
          = Dirent.bytes { inum := 0, name := List.replicate 14 0 } := rfl
      have same : (splice bytes (16 * k) (List.replicate 16 0)).length = bytes.length := by
        rw [length_splice (by omega), List.length_replicate]
        omega
      simp only [contents, update, entry]
      rw [same, number, empty, slotsOf_splice rfl (by omega)]
      exact stands.erase inside there

/-- One call keeps the invariant. -/
theorem DirInv.kept (inv : DirInv env dp current)
    (fits : op.Fits env.sb dp current.1 current.2) (taken : dirStep env dp current op = some next)
    : DirInv env dp next := by
  obtain ⟨r, ended, obeys⟩ := (inv.ensures fits).total
  obtain ⟨stepped, noted⟩ := withHistory_eq_some taken
  rw [ended] at stepped
  have state : ((op.program dp).run env current.1).state = next.1 := Option.some.inj stepped
  rw [state] at obeys
  obtain ⟨n, rests⟩ := inv.rests
  have stands := inv.stands
  rw [rests.length, Nat.mul_div_cancel_left n (by decide)] at stands
  refine ⟨obeys.rests, ?_⟩
  rw [obeys.inum, obeys.contents, noted, DirOp.note_eq (by rw [ended, obeys.answer])]
  exact DirOp.stands fits rests.length stands

end

/-- A directory is a finite map on names, cut to `DIRSIZ` bytes. In every run of calls on an empty
directory whose arguments fit, each call returns, and answers as the history says: `dirlookup` finds
a name exactly if the last `dirlink` of it has not been cleared since, with that inode number and
the offset of the entry; `dirlink` fails exactly if the name is there, and else takes the first
empty entry or a new one at the end. The other entries stay, and no name has two entries.
-/
theorem directory_is_map (env : FsEnv) (dp : Nat) (s : FsState) (empty : Resting env.sb dp 0 s)
    (ops : List DirOp)
    (fits : Along (dirStep env dp) (fun current op => op.Fits env.sb dp current.1 current.2)
      (s, fun _ => none) ops)
    : Along (dirStep env dp) (fun current op => op.Answered env dp current) (s, fun _ => none) ops
      ∧ Throughout (dirStep env dp) (NoTwins env dp) (s, fun _ => none) ops := by
  have initially : DirInv env dp (s, fun _ => none) := by
    refine ⟨⟨0, empty⟩, ?_⟩
    have none_ : (fileAt env.sb s.disk (s.icache dp).inum).length / 16 = 0 := by rw [empty.length]
    rw [none_]
    exact .empty
  have kept : ∀ current op next, DirInv env dp current → op.Fits env.sb dp current.1 current.2
      → dirStep env dp current op = some next → DirInv env dp next :=
    fun current op next inv fits taken => inv.kept fits taken
  refine ⟨fits.strengthen initially kept fun current op inv fits => inv.answered fits, ?_⟩
  exact (fits.invariant initially kept).mono fun current inv => inv.noTwins

/-- An empty directory, which is inode 1, is in the first slot. -/
def emptyDir : FsState :=
  { disk := storeDinode smallSb (fun b i => if b = 4 ∧ i = 0 then 31 else 0) 1 (freshDinode tDir)
    icache := fun ip =>
      { dev := rootDev, inum := 1, ref := if ip = 0 then 1 else 0, locked := false, valid := true
        copy := freshDinode tDir } }

theorem emptyDir_rests : Resting smallSb 0 0 emptyDir := by
  have stored : dinodeAt smallSb emptyDir.disk 1 = freshDinode tDir := dinodeAt_storeDinode
  have only : ∀ ip, 0 < (emptyDir.icache ip).ref → ip = 0 := by
    intro ip referenced
    by_contra other
    simp [emptyDir, other] at referenced
  have owned : BlocksOwned smallSb emptyDir.disk := by
    refine .of_empty ?_ (by decide)
    rintro i ⟨inside, type⟩
    have only : i = 1 := by
      have free : ∀ j < 8, j ≠ 1 → (dinodeAt smallSb emptyDir.disk j).type = 0 := by decide
      by_contra other
      exact type (free i inside other)
    rw [only, stored]
    exact ⟨rfl, rfl⟩
  refine ⟨⟨owned, ?_, fun _ _ _ => rfl, fun ip _ => ?_⟩, by decide, by decide, by decide, ?_, ?_,
    ⟨1, by decide, rfl⟩, fun _ _ => rfl⟩
  · intro ip _ jp _ first_ second _
    rw [only ip first_, only jp second]
  · refine ⟨⟨show 1 < 8 by decide, ?_⟩, stored.symm⟩
    change (dinodeAt smallSb emptyDir.disk 1).type ≠ 0
    rw [stored]
    decide
  · exact congrArg Dinode.type stored
  · exact congrArg (fun d => d.size.toNat) stored

/-- Names are set, looked for, cleared and set again. -/
def someCalls : List DirOp :=
  [.link [46] 1, .link [97] 2, .link [97] 3, .lookup [97], .clear [97], .lookup [97],
    .link [98] 4, .lookup [46]]

set_option maxRecDepth 20000 in
/-- Witness: calls on an empty directory. -/
theorem directory_is_map_someCalls
    : Along (dirStep smallEnv 0) (fun current op => op.Answered smallEnv 0 current)
        (emptyDir, fun _ => none) someCalls
      ∧ Throughout (dirStep smallEnv 0) (NoTwins smallEnv 0) (emptyDir, fun _ => none) someCalls :=
  directory_is_map smallEnv 0 emptyDir emptyDir_rests someCalls (by decide +kernel)

set_option maxRecDepth 20000 in
/-- An inode number of more than sixteen bits is cut, here to zero, so that the entry stays empty.
A second `dirlink` of a name of the directory itself puts an inode whose lock the caller holds, and
never returns.
-/
theorem dirlink_fails
    : Resting smallSb 0 0 emptyDir
      ∧ ¬ Along (dirStep smallEnv 0) (fun current op => op.Answered smallEnv 0 current)
          (emptyDir, fun _ => none) [.link [97] 65536, .lookup [97]]
      ∧ ¬ Along (dirStep smallEnv 0) (fun current op => op.Answered smallEnv 0 current)
          (emptyDir, fun _ => none) [.link [46] 1, .link [46] 2] := by
  have answers : ∀ ops, Along (dirStep smallEnv 0)
      (fun current op => op.Answered smallEnv 0 current)
        (emptyDir, fun _ => none) ops
      → Along (dirStep smallEnv 0) (fun current op =>
          ((op.program 0).run smallEnv current.1).value = some (op.answer current.2))
        (emptyDir, fun _ => none) ops :=
    fun ops answered => answered.mono fun current op answered => answered.answer
  refine ⟨emptyDir_rests, fun answered => ?_, fun answered => ?_⟩
  · exact absurd (answers _ answered) (by decide +kernel)
  · exact absurd (answers _ answered) (by decide +kernel)

end Xv6Net.Fs
