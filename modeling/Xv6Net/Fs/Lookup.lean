import Xv6Net.Fs.Directories
import Xv6Net.Fs.InodeCache
import Mathlib.Data.List.TakeWhile

/-! What `dirlookup` finds: names as directories compare them, and the entries of a directory as
parts of its contents.
-/

namespace Xv6Net

open Library Memory Program

/-- The string in the first `n` bytes: what is before the first zero. -/
def upToZero (n : Nat) (bytes : List UInt8) : List UInt8 := (bytes.take n).takeWhile (· ≠ 0)

theorem cstring_succ (s : List UInt8) : (fun i => cstring s (i + 1)) = cstring s.tail := by
  cases s <;> rfl

theorem upToZero_succ (n : Nat) (s : List UInt8)
    : upToZero (n + 1) s
      = if cstring s 0 = 0 then [] else cstring s 0 :: upToZero n s.tail := by
  cases s with
  | nil => rfl
  | cons c =>
    rw [upToZero, List.take_succ_cons, List.takeWhile_cons]
    by_cases zero : c = 0
    · simp [cstring, zero]
    · simp [cstring, zero, upToZero]

/-- By induction on the length. -/
theorem strncmp_eq_zero (s t : List UInt8) (n : Nat)
    : strncmp (cstring s) (cstring t) n = 0 ↔ upToZero n s = upToZero n t := by
  induction n generalizing s t with
  | zero => simp [strncmp, upToZero]
  | succ n ih =>
    rw [strncmp, cstring_succ, cstring_succ, upToZero_succ, upToZero_succ]
    by_cases both : cstring s 0 ≠ 0 ∧ cstring s 0 = cstring t 0
    · obtain ⟨set, same⟩ := both
      rw [if_pos ⟨set, same⟩, ih, ← same, if_neg set, if_neg set, List.cons.injEq]
      exact (and_iff_right rfl).symm
    · rw [if_neg both]
      have difference : ((cstring s 0).toNat : Int) - (cstring t 0).toNat = 0
          ↔ cstring s 0 = cstring t 0 := by
        rw [← UInt8.toNat_inj]
        omega
      rw [difference]
      by_cases zero : cstring s 0 = 0
      · rw [if_pos zero, zero]
        by_cases zero' : cstring t 0 = 0
        · simp [zero']
        · rw [if_neg zero']
          simp [Ne.symm zero']
      · have other : cstring s 0 ≠ cstring t 0 := fun same => both ⟨zero, same⟩
        rw [if_neg zero]
        by_cases zero' : cstring t 0 = 0
        · simp [zero', zero]
        · simp [zero', other]

theorem length_strncpy (t : Nat → UInt8) (n : Nat) : (strncpy t n).length = n := by
  induction n generalizing t with
  | zero => rfl
  | succ n ih =>
    rw [strncpy]
    split
    · rw [List.length_cons, ih]
    · rw [List.length_replicate]

theorem upToZero_strncpy (s : List UInt8) (n : Nat)
    : upToZero n (strncpy (cstring s) n) = upToZero n s := by
  induction n generalizing s with
  | zero => rfl
  | succ n ih =>
    rw [strncpy, cstring_succ]
    by_cases zero : cstring s 0 = 0
    · rw [if_neg (not_not_intro zero), upToZero_succ n s, if_pos zero, List.replicate_succ]
      rfl
    · have first_ : cstring (cstring s 0 :: strncpy (cstring s.tail) n) 0 = cstring s 0 := rfl
      rw [if_pos zero, upToZero_succ, upToZero_succ n s, first_, if_neg zero, if_neg zero,
        List.tail_cons, ih]

theorem upToZero_of_not_mem {n : Nat} {s : List UInt8} (string : 0 ∉ s)
    : upToZero n s = s.take n := by
  refine List.takeWhile_eq_self_iff.mpr fun c member => ?_
  have set : c ≠ 0 := fun zero => string (zero ▸ List.mem_of_mem_take member)
  simpa using set

namespace Fs

/-- The entry with this index of a directory with these contents. -/
def direntAt (bytes : List UInt8) (j : Nat) : Dirent :=
  Dirent.ofBytes ((bytes.drop (16 * j)).take 16)

/-- The test of `dirlookup`. -/
def Dirent.Is (de : Dirent) (name : List UInt8) : Prop := de.inum ≠ 0 ∧ namecmp name de.name = 0

theorem Dirent.ofBytes_bytes (de : Dirent) : Dirent.ofBytes de.bytes = de := by
  apply Dirent.ext
  · have read := load16_overlay (fun _ => 0) 0 de.inum
    simpa [ofBytes, bytes, load16, overlay, bytes16] using read
  · rfl

theorem Dirent.length_bytes {de : Dirent} (long : de.name.length = 14)
    : de.bytes.length = 16 := by
  rw [bytes, List.length_append, length_bytes16, long]

/-- A stored name is found by the names that agree in 14 bytes. -/
theorem Dirent.is_iff {inum : UInt16} (set : inum ≠ 0) (name stored : List UInt8)
    : Dirent.Is { inum, name := strncpy (cstring stored) dirSiz } name
      ↔ upToZero dirSiz name = upToZero dirSiz stored := by
  rw [Is, namecmp, strncmp_eq_zero, upToZero_strncpy]
  exact and_iff_right set

section

variable {env : FsEnv} {s : FsState} {dp k : Nat} {name bytes : List UInt8} {halt : Prop}
  {ok : FsEvent → Prop}

variable {fuel i : Nat}

section

variable
    (reads : ∀ j ≤ k, (readi dp (UInt32.ofNat (16 * j)) 16).run env s
      = ⟨some (16, (bytes.drop (16 * j)).take 16), s, []⟩)
    (inside : 16 * k < (s.icache dp).copy.size.toNat)
    (misses : ∀ j < k, ¬ (direntAt bytes j).Is name) (hit : (direntAt bytes k).Is name)
    (full : (∀ jp < nInode, (s.icache jp).ref ≠ 0) → ok (.panic .igetNoInodes) ∧ halt)
include reads inside misses hit full

/-- The loop of `dirlookup` ends at the first entry with the name, if it can read up to there. -/
theorem dirlookupLoop_hit (before : i ≤ k) (enough : k < i + fuel)
    : Ensures ok halt (dirlookupLoop dp name fuel (16 * i)) env s fun r after =>
        ∃ ip, r = some (ip, 16 * k)
          ∧ Got (s.icache dp).dev (direntAt bytes k).inum.toNat ip s after := by
  induction fuel generalizing i with
  | zero => omega
  | succ fuel ih =>
    rw [dirlookupLoop]
    refine inode_next ?_
    rw [if_pos (show 16 * i < (s.icache dp).copy.size.toNat by omega)]
    refine .next (reads i before) ?_
    rw [if_neg (by simp)]
    refine .ite (fun found => ?_) fun missed => ?_
    · obtain rfl : i = k := by
        by_contra other
        exact misses i (by omega) found
      exact (iget_ensures full).bind fun ip after got => .pure ⟨ip, rfl, got⟩
    · have other : i ≠ k := by
        rintro rfl
        exact missed hit
      exact @ih (i + 1) (by omega) (by omega)

theorem dirlookup_hit (directory : (s.icache dp).copy.type = tDir)
    : Ensures ok halt (dirlookup dp name) env s fun r after =>
        ∃ ip, r = some (ip, 16 * k)
          ∧ Got (s.icache dp).dev (direntAt bytes k).inum.toNat ip s after := by
  rw [dirlookup]
  refine inode_next ?_
  rw [if_neg (not_not_intro directory)]
  exact dirlookupLoop_hit reads inside misses hit full (Nat.zero_le k) (by omega)

end

theorem slice_direntMemory (de : Dirent) (long : de.name.length = 14)
    : slice (direntMemory de) 0 16 = de.bytes := by
  have length := Dirent.length_bytes long
  apply List.ext_getElem
  · rw [length_slice, length]
  · intro i inside inside'
    simp [slice, direntMemory, inside']

theorem toNat_offset {i : Nat} (small : i ≤ 4480) : (UInt32.ofNat (16 * i)).toNat = 16 * i :=
  UInt32.toNat_ofNat_of_lt' (by rw [UInt32.size]; omega)

section

variable (fs : FsOk env.sb s) (cached : Cached s dp)
include fs cached

theorem readDirent_ensures (directory : (s.icache dp).copy.type = tDir)
    (inside : 16 * i < (s.icache dp).copy.size.toNat)
    : Ensures ok halt (readi dp (UInt32.ofNat (16 * i)) 16) env s fun r after =>
        after = s ∧ r.2 = ((contents s.disk (s.icache dp).copy).drop (16 * i)).take 16
          ∧ (r.1 = 16 → 16 * i + 16 ≤ (s.icache dp).copy.size.toNat) := by
  have small := fs.small cached
  rw [Dinode.blocks] at small
  have off := toNat_offset (i := i) (by omega)
  have count : (16 : UInt32).toNat = 16 := rfl
  have file : (s.icache dp).copy.type ≠ tDev := by
    rw [directory]
    decide
  refine .of_run (readi_run fs cached file) ⟨rfl, ?_⟩
  rw [off, count, if_neg (by omega)]
  refine ⟨rfl, fun whole => ?_⟩
  simp only [List.length_take, List.length_drop, length_contents] at whole
  omega

/-- What `dirlookup` finds in a directory. -/
def Found (name bytes : List UInt8) (s : FsState) (r : Option (Nat × Nat)) (s' : FsState) : Prop :=
  match r with
  | none => s' = s ∧ ∀ j, 16 * j < bytes.length → ¬ (direntAt bytes j).Is name
  | some (ip, off) =>
    ∃ k, off = 16 * k ∧ 16 * k + 16 ≤ bytes.length ∧ (direntAt bytes k).Is name
      ∧ Got rootDev (direntAt bytes k).inum.toNat ip s s'

/-- The first entry with the name. By induction on the fuel. -/
theorem dirlookupLoop_ensures (directory : (s.icache dp).copy.type = tDir)
    (enough : (s.icache dp).copy.size.toNat < 16 * (i + fuel))
    (misses : ∀ j < i, ¬ (direntAt (contents s.disk (s.icache dp).copy) j).Is name)
    : Ensures Sound True (dirlookupLoop dp name fuel (16 * i)) env s
        (Found name (contents s.disk (s.icache dp).copy) s) := by
  have length := length_contents s.disk (s.icache dp).copy
  induction fuel generalizing i with
  | zero => exact .pure ⟨rfl, fun j inside => misses j (by omega)⟩
  | succ fuel ih =>
    rw [dirlookupLoop]
    refine inode_next (.ite (fun inside => ?_) fun beyond => ?_)
    · refine (readDirent_ensures fs cached directory inside).bind ?_
      rintro ⟨n, _⟩ _ ⟨rfl, rfl, whole⟩
      refine .ite (fun _ => panic_ensures (by decide) trivial) fun sixteen => ?_
      have whole := whole (not_not.mp sixteen)
      refine .ite (fun hit => ?_) fun miss => ?_
      · rw [fs.dev dp cached.1 cached.2.1]
        refine (iget_ensures fun _ => ⟨⟨nofun, nofun⟩, trivial⟩).bind fun ip after got => ?_
        exact .pure ⟨i, rfl, by omega, hit, got⟩
      · refine @ih (i + 1) (by omega) fun j before => ?_
        rcases Nat.lt_succ_iff_lt_or_eq.mp before with earlier | rfl
        · exact misses j earlier
        · exact miss
    · exact .pure ⟨rfl, fun j inside => misses j (by omega)⟩

theorem dirlookup_ensures
    : Ensures Sound True (dirlookup dp name) env s fun r after =>
        (s.icache dp).copy.type = tDir
        ∧ Found name (contents s.disk (s.icache dp).copy) s r after := by
  rw [dirlookup]
  refine inode_next (.ite (fun _ => panic_ensures (by decide) trivial) fun directory => ?_)
  have directory : (s.icache dp).copy.type = tDir := not_not.mp directory
  exact (dirlookupLoop_ensures (i := 0) fs cached directory (by omega) nofun).weaken
    fun r after found => ⟨directory, found⟩

/-- The place where `dirlink` puts an entry: the first one that is empty, or the end. -/
structure Vacant (bytes : List UInt8) (k : Nat) : Prop where
  inside : 16 * k ≤ bytes.length
  empty : 16 * k = bytes.length ∨ 16 * k + 16 ≤ bytes.length ∧ (direntAt bytes k).inum = 0

theorem emptyDirentLoop_ensures (directory : (s.icache dp).copy.type = tDir)
    (enough : (s.icache dp).copy.size.toNat < 16 * (i + fuel))
    (start : 16 * i ≤ (s.icache dp).copy.size.toNat)
    : Ensures Sound True (emptyDirentLoop dp fuel (16 * i)) env s fun off after =>
        after = s ∧ ∃ k, off = 16 * k ∧ Vacant (contents s.disk (s.icache dp).copy) k := by
  have length := length_contents s.disk (s.icache dp).copy
  induction fuel generalizing i with
  | zero => omega
  | succ fuel ih =>
    rw [emptyDirentLoop]
    refine inode_next (.ite (fun inside => ?_) fun beyond => ?_)
    · refine (readDirent_ensures fs cached directory inside).bind ?_
      rintro ⟨n, _⟩ _ ⟨rfl, rfl, whole⟩
      refine .ite (fun _ => panic_ensures (by decide) trivial) fun sixteen => ?_
      have whole := whole (not_not.mp sixteen)
      refine .ite (fun empty => ?_) fun _ => @ih (i + 1) (by omega) (by omega)
      exact .pure ⟨rfl, i, rfl, by omega, Or.inr ⟨by omega, empty⟩⟩
    · exact .pure ⟨rfl, i, rfl, by omega, Or.inl (by omega)⟩

/-- What `dirlink` does: the name has an entry, and the reference to its inode is dropped again, or
the entry is stored at a vacant place.
-/
inductive Entered (sb : Superblock) (dp : Nat) (name : List UInt8) (inum : Nat) (s : FsState)
    : Int → FsState → Prop where
  | refused {mid s' : FsState} {ip off : Nat}
      (found : Found name (contents s.disk (s.icache dp).copy) s (some (ip, off)) mid)
      (dropped : Dropped sb ip mid s')
      : Entered sb dp name inum s (-1) s'
  | stored {k : Nat} {s' : FsState}
      (missing : Found name (contents s.disk (s.icache dp).copy) s none s)
      (vacant : Vacant (contents s.disk (s.icache dp).copy) k)
      (stored : Stored sb dp (16 * k)
        (Dirent.bytes { inum := UInt16.ofNat inum, name := strncpy (cstring name) dirSiz }) s s')
      : Entered sb dp name inum s 0 s'

/-- `dirlink` writes one entry, if the name is not there. -/
theorem dirlink_ensures {inum : Nat}
    : Ensures Sound True (dirlink dp name inum) env s fun r after =>
        (s.icache dp).copy.type = tDir ∧ Entered env.sb dp name inum s r after := by
  rw [dirlink]
  refine (dirlookup_ensures fs cached).bind ?_
  rintro (_ | ⟨ip, off⟩) mid ⟨directory, found⟩
  · obtain ⟨rfl, misses⟩ := found
    refine inode_next ?_
    refine (emptyDirentLoop_ensures (i := 0) fs cached directory (by omega) (by omega)).bind ?_
    rintro _ current ⟨rfl, k, rfl, vacant⟩
    have small := fs.small cached
    have start := vacant.inside
    rw [length_contents] at start
    rw [Dinode.blocks] at small
    have file : (current.icache dp).copy.type ≠ tDev := by
      rw [directory]
      decide
    have off := toNat_offset (i := k) (by omega)
    have cells := slice_direntMemory
      { inum := UInt16.ofNat inum, name := strncpy (cstring name) dirSiz }
      (length_strncpy _ _)
    by_cases refused : Refused (current.icache dp).copy (UInt32.ofNat (16 * k)) 16
    · exact .next (writei_refused file refused) (panic_ensures (by decide) trivial)
    · refine ((writei_ensures fs cached file refused).mono (fun _ => trivial)
        fun _ _ => id).bind ?_
      rintro _ after ⟨rfl, stored⟩
      refine .ite (fun _ => panic_ensures (by decide) trivial) fun _ => ?_
      refine .pure ⟨directory, .stored ⟨rfl, misses⟩ vacant ?_⟩
      rw [off] at stored
      rw [← cells]
      exact stored
  · obtain ⟨k, place, inside, is, got⟩ := found
    refine ((iput_ensures (got.ok fs) got.inside got.referenced).mono (fun _ => trivial)
      fun _ _ => id).bind fun _ after dropped => ?_
    exact .pure ⟨directory, .refused ⟨k, place, inside, is, got⟩ dropped⟩

end

end

end Fs

end Xv6Net
