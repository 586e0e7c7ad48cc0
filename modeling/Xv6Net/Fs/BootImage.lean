import Xv6Net.Fs.MkfsImage

/-! The kernel finds the files of an image that `mkfs` has built. -/

namespace Xv6Net

open Library Memory Program

namespace Fs

/-- A slot that has been read agrees with the disk. -/
def Synced (sb : Superblock) (s : FsState) : Prop :=
  ∀ ip, Cached s ip → (s.icache ip).copy = dinodeAt sb s.disk (s.icache ip).inum

/-- No slot is locked, and the slots agree with the disk. -/
structure Idle (sb : Superblock) (s : FsState) : Prop where
  unlocked : ∀ ip < nInode, (s.icache ip).locked = false
  synced : Synced sb s

section

variable {env : FsEnv} {sb : Superblock} {s s' : FsState} {ip : Nat} {halt : Prop}
  {ok : FsEvent → Prop}

variable {dev : UInt32} {inum : Nat}

theorem Got.synced (got : Got dev inum ip s s') (synced : Synced sb s)
    : Synced sb s' := by
  intro jp cached
  rw [got.disk]
  by_cases here : jp = ip
  · subst here
    rcases got.slot with ⟨referenced, -, -, slot⟩ | ⟨-, -, slot⟩
    · rw [Cached, slot] at cached
      rw [slot]
      exact synced jp ⟨cached.1, referenced, cached.2.2⟩
    · rw [Cached, slot] at cached
      exact Bool.noConfusion cached.2.2
  · rw [Cached, got.slots jp here] at cached
    rw [got.slots jp here]
    exact synced jp cached

theorem Idle.ilock_ensures (idle : Idle env.sb s) (inside : ip < nInode)
    (referenced : 0 < (s.icache ip).ref)
    (used : (dinodeAt env.sb s.disk (s.icache ip).inum).type ≠ 0)
    : Ensures ok halt (ilock ip) env s fun _ after =>
        after = withSlot s ip fun node =>
          { node with
            locked := true, valid := true, copy := dinodeAt env.sb s.disk node.inum } := by
  refine (ilock_slot (fun low => absurd low (by omega)) (fun locked => ?_)
    (fun _ valid => idle.synced ip ⟨inside, referenced, valid⟩) fun free => absurd free used).weaken
    fun _ _ locked => locked.2.2
  rw [idle.unlocked ip inside] at locked
  exact Bool.noConfusion locked

/-- `iput` of a file that has a link frees nothing. -/
theorem iput_linked (free : (s.icache ip).locked = false) (linked : (s.icache ip).copy.nlink ≠ 0)
    : Ensures ok halt (iput ip) env s fun _ after =>
        after = withSlot s ip fun node => { node with locked := false, ref := node.ref - 1 } :=
  iput_kept free fun last => linked last.2.1

theorem iunlockput_linked (locked : (s.icache ip).locked = true)
    (referenced : 0 < (s.icache ip).ref)
    (linked : (s.icache ip).copy.nlink ≠ 0)
    : Ensures ok halt (iunlockput ip) env s fun _ after =>
        after = withSlot s ip fun node => { node with locked := false, ref := node.ref - 1 } := by
  rw [iunlockput]
  refine (iunlock_held locked referenced).bind ?_
  rintro _ _ rfl
  have put : Ensures ok halt (iput ip) env _ _ :=
    iput_linked (s := withSlot s ip fun node => { node with locked := false })
      (by rw [withSlot_self]) (by rw [withSlot_self]; exact linked)
  refine put.weaken ?_
  rintro _ _ rfl
  rw [withSlot_withSlot]

theorem Synced.withSlot {change : Inode → Inode} (synced : Synced sb s)
    (slot : Cached (withSlot s ip change) ip
      → (change (s.icache ip)).copy = dinodeAt sb s.disk (change (s.icache ip)).inum)
    : Synced sb (withSlot s ip change) := by
  intro jp cached
  by_cases here : jp = ip
  · rw [here] at cached ⊢
    rw [withSlot_self]
    exact slot cached
  · rw [Cached, withSlot_of_ne change here] at cached
    rw [withSlot_of_ne change here]
    exact synced jp cached

end

theorem skipelem_slash {name : List UInt8} (some_ : name ≠ []) (plain : slash ∉ name)
    : skipelem (slash :: name) = some ([], name.take dirSiz) := by
  have other : ∀ c ∈ name, decide (c ≠ slash) = true := fun c member =>
    decide_eq_true fun same => plain (same ▸ member)
  have start : (slash :: name).dropWhile (· = slash) = name := by
    cases name with
    | nil => exact absurd rfl some_
    | cons c =>
      have first_ : c ≠ slash := fun same => plain (same ▸ List.mem_cons_self ..)
      simp [first_]
  rw [skipelem]
  simp only
  rw [start, if_neg some_, List.dropWhile_eq_nil_iff.mpr other,
    List.takeWhile_eq_self_iff.mpr other, List.dropWhile_nil]

section

variable {env : FsEnv} {s : FsState} {k : Nat} {name bytes : List UInt8} {halt : Prop}
  {ok : FsEvent → Prop}

/-- What a walk to an inode leaves: a reference to its slot. -/
structure Reached (sb : Superblock) (inum ip : Nat) (s s' : FsState) : Prop where
  inside : ip < nInode
  referenced : 0 < (s'.icache ip).ref
  inum : (s'.icache ip).inum = inum
  disk : s'.disk = s.disk
  idle : Idle sb s'

/-- The last step of a walk, from a directory that can be read up to the entry with the name. -/
theorem namexLoop_entry {dp fuel : Nat} (idle : Idle env.sb s) (held : dp < nInode)
    (referenced : 0 < (s.icache dp).ref) (free : ∃ jp < nInode, (s.icache jp).ref = 0)
    (some_ : name ≠ []) (plain : slash ∉ name) {d : Dinode}
    (here : dinodeAt env.sb s.disk (s.icache dp).inum = d)
    (directory : d.type = tDir) (linked : d.nlink ≠ 0)
    (reads : ∀ mid : FsState, mid.disk = s.disk → (mid.icache dp).copy = d
      → ∀ j ≤ k, (readi dp (UInt32.ofNat (16 * j)) 16).run env mid
        = ⟨some (16, (bytes.drop (16 * j)).take 16), mid, []⟩)
    (inside : 16 * k < d.size.toNat) (misses : ∀ j < k, ¬ (direntAt bytes j).Is (name.take dirSiz))
    (hit : (direntAt bytes k).Is (name.take dirSiz))
    (other : (direntAt bytes k).inum.toNat ≠ (s.icache dp).inum)
    : Ensures ok halt (namexLoop false (fuel + 2) (slash :: name) [] dp) env s fun r after =>
        ∃ ip, r = some (ip, name.take dirSiz)
          ∧ Reached env.sb (direntAt bytes k).inum.toNat ip s after := by
  have used : (dinodeAt env.sb s.disk (s.icache dp).inum).type ≠ 0 := by
    rw [here, directory]
    decide
  rw [namexLoop, skipelem_slash some_ plain]
  simp only
  refine (idle.ilock_ensures held referenced used).bind fun _ mid locked => inode_next ?_
  have slot : mid.icache dp = { s.icache dp with locked := true, valid := true, copy := d } := by
    rw [locked, withSlot_self, here]
  have synced : Synced env.sb mid := by
    rw [locked]
    exact idle.synced.withSlot fun _ => rfl
  have disk : mid.disk = s.disk := by rw [locked, withSlot_disk]
  have copy : (mid.icache dp).copy = d := by rw [slot]
  rw [copy, if_neg (not_not_intro directory), if_neg (by simp)]
  -- `iget` finds a free slot, which is not that of the directory
  have room : (∀ jp < nInode, (mid.icache jp).ref ≠ 0) → ok (.panic .igetNoInodes) ∧ halt := by
    intro full
    obtain ⟨jp, inside', zero⟩ := free
    have apart : jp ≠ dp := by
      rintro rfl
      omega
    refine absurd zero ?_
    rw [← withSlot_of_ne _ apart, ← locked]
    exact full jp inside'
  refine (dirlookup_hit (reads mid disk copy) (copy ▸ inside) misses hit room
    (copy ▸ directory)).bind ?_
  rintro _ found ⟨ip, rfl, got⟩
  -- the entry names another inode, so it gets another slot
  have apart : dp ≠ ip := by
    rintro rfl
    have inum := got.inum_eq
    rcases got.slot with ⟨-, -, same, -⟩ | ⟨-, zero, -⟩
    · rw [slot] at same
      exact other same.symm
    · rw [slot] at zero
      simp only at zero
      omega
  have kept : found.icache dp = mid.icache dp := got.slots dp apart
  simp only
  refine (iunlockput_linked (by rw [kept, slot]) (by rw [kept, slot]; exact referenced)
    (by rw [kept, slot]; exact linked)).bind ?_
  rintro _ _ rfl
  rw [namexLoop]
  refine .pure ⟨ip, rfl, got.inside, ?_, ?_, ?_, ?_, ?_⟩
  · rw [withSlot_of_ne _ apart.symm]
    exact got.referenced
  · rw [withSlot_of_ne _ apart.symm]
    exact got.inum_eq
  · rw [withSlot_disk, got.disk, disk]
  · intro jp inside'
    by_cases same : jp = dp
    · rw [same, withSlot_self]
    · rw [withSlot_of_ne _ same, got.locked, locked, withSlot_of_ne _ same]
      exact idle.unlocked jp inside'
  · refine (got.synced synced).withSlot fun cached => ?_
    rw [Cached, withSlot_self] at cached
    refine got.synced synced dp ⟨held, ?_, cached.2.2⟩
    rw [kept, slot]
    exact referenced

/-- A path in the root directory leads to the inode of its entry, if there are two free slots and
the directory can be read up to the entry.
-/
theorem namei_entry (cwd : Nat) (idle : Idle env.sb s)
    (free : ∃ ip < nInode, ∃ jp < nInode, ip ≠ jp ∧ (s.icache ip).ref = 0 ∧ (s.icache jp).ref = 0)
    (some_ : name ≠ []) (plain : slash ∉ name)
    (directory : (dinodeAt env.sb s.disk rootIno).type = tDir)
    (linked : (dinodeAt env.sb s.disk rootIno).nlink ≠ 0)
    (reads : ∀ dp (mid : FsState), mid.disk = s.disk
      → (mid.icache dp).copy = dinodeAt env.sb s.disk rootIno
      → ∀ j ≤ k, (readi dp (UInt32.ofNat (16 * j)) 16).run env mid
        = ⟨some (16, (bytes.drop (16 * j)).take 16), mid, []⟩)
    (inside : 16 * k < (dinodeAt env.sb s.disk rootIno).size.toNat)
    (misses : ∀ j < k, ¬ (direntAt bytes j).Is (name.take dirSiz))
    (hit : (direntAt bytes k).Is (name.take dirSiz))
    (other : (direntAt bytes k).inum.toNat ≠ rootIno)
    : Ensures ok halt (namei cwd (slash :: name)) env s fun r after =>
        ∃ ip, r = some ip ∧ Reached env.sb (direntAt bytes k).inum.toNat ip s after := by
  obtain ⟨fp, inside', gp, inside'', different, zero, zero'⟩ := free
  have walked : Ensures ok halt (namex cwd (slash :: name) false) env s fun r after =>
      ∃ ip, r = some (ip, name.take dirSiz)
        ∧ Reached env.sb (direntAt bytes k).inum.toNat ip s after := by
    rw [namex, if_pos (show (slash :: name).head? = some slash from rfl)]
    refine (iget_ensures fun full => absurd zero (full fp inside')).bind fun dp mid got => ?_
    have inum := got.inum_eq
    have free : ∃ jp < nInode, (mid.icache jp).ref = 0 := by
      by_cases taken : fp = dp
      · exact ⟨gp, inside'', by rw [got.slots gp (taken ▸ different.symm)]; exact zero'⟩
      · exact ⟨fp, inside', by rw [got.slots fp taken]; exact zero⟩
    have idle' : Idle env.sb mid :=
      ⟨fun jp inside' => (got.locked jp).trans (idle.unlocked jp inside'), got.synced idle.synced⟩
    have here : dinodeAt env.sb mid.disk (mid.icache dp).inum = dinodeAt env.sb s.disk rootIno := by
      rw [inum, got.disk]
    obtain ⟨fuel, enough⟩ : ∃ fuel, (slash :: name).length + 1 = fuel + 2 := ⟨name.length, rfl⟩
    rw [enough]
    refine (namexLoop_entry idle' got.inside got.referenced free some_ plain here directory linked
      (fun last disk => reads dp last (disk.trans got.disk)) inside misses hit
      (inum ▸ other)).weaken ?_
    rintro _ after ⟨ip, rfl, reached⟩
    exact ⟨ip, rfl, { reached with disk := reached.disk.trans got.disk }⟩
  rw [namei]
  refine walked.bind ?_
  rintro _ after ⟨ip, rfl, reached⟩
  exact .pure ⟨ip, rfl, reached⟩

end

end Fs

/-- The name that a file has in the root directory. -/
def InputFile.entryName (file : InputFile) : List UInt8 := file.strippedName.take dirSiz

namespace Mkfs

open Fs

section

variable {s : Mkfs} {files : List InputFile}

def finished (s : Mkfs) : Nat → Block :=
  storeDinode mkfsSb s.image 1 (adjusted (dinodeAt mkfsSb s.image 1))

theorem dinodeAt_finished : dinodeAt mkfsSb s.finished 1 = adjusted (dinodeAt mkfsSb s.image 1) :=
  dinodeAt_storeDinode

section

variable (h : s.Catalog (entriesOf files))
include h

theorem Catalog.root_shaped
    : Shaped s.finished (adjusted (dinodeAt mkfsSb s.image 1))
        (holds (dinodeAt mkfsSb s.image 1).blocks) := by
  intro k last
  rw [finished, h.root_pointer]
  exact h.owned.shaped h.root_used k last

/-- The bytes of the root directory are where they were before its size was adjusted. -/
theorem Catalog.root_byte {o : Nat} (inside : o < 16 * (files.length + 2))
    : byteAt s.finished (adjusted (dinodeAt mkfsSb s.image 1)) o
      = byteAt s.image (dinodeAt mkfsSb s.image 1) o := by
  have size := h.root_size
  have block : live mkfsSb s.image (1, o / 512) := by
    refine ⟨h.root_used, Or.inl ?_⟩
    rw [Dinode.blocks, size]
    omega
  have data := (h.owned.mapped.data_of_live block).1
  have kept : s.finished (pointer s.image (dinodeAt mkfsSb s.image 1) (o / 512))
      = s.image (pointer s.image (dinodeAt mkfsSb s.image 1) (o / 512)) := by
    refine storeDinode_of_le h.root_used.1 ?_
    rw [Superblock.dataStart] at data
    omega
  rw [byteAt, byteAt, Int.toNat_natCast, finished, h.root_pointer]
  rw [finished] at kept
  rw [kept]

theorem Catalog.root_adjusted (few : files.length + 2 ≤ 200)
    : (adjusted (dinodeAt mkfsSb s.image 1)).size.toNat
      = (16 * (files.length + 2) / 512 + 1) * 512 := by
  have size := h.root_size
  rw [adjusted_size (by omega), size]

variable {j : Nat}

theorem Catalog.root_entry (few : files.length + 2 ≤ 200) (inside : j < files.length + 2)
    : ((Fs.contents s.finished (adjusted (dinodeAt mkfsSb s.image 1))).drop (16 * j)).take 16
      = ((rootBytes files).drop (16 * j)).take 16 := by
  have size := h.root_size
  have adjusted_ := h.root_adjusted few
  have written : Fs.contents s.image (dinodeAt mkfsSb s.image 1) = rootBytes files :=
    h.contents 0 (by simp [entriesOf])
  have whole : min 16 ((adjusted (dinodeAt mkfsSb s.image 1)).size.toNat - 16 * j) = 16 := by omega
  have whole' : min 16 ((dinodeAt mkfsSb s.image 1).size.toNat - 16 * j) = 16 := by omega
  rw [← written, drop_take_contents _ _ _ (by omega), drop_take_contents _ _ _ (by omega), whole,
    whole']
  refine slice_congr fun o low high => ?_
  obtain ⟨o, rfl⟩ := Int.eq_ofNat_of_zero_le (Int.le_trans (Int.natCast_nonneg _) low)
  exact h.root_byte (by omega)

/-- The entries of the root, as `dirlookup` reads them. -/
theorem Catalog.readi_root (few : files.length + 2 ≤ 200) {env : FsEnv} {mid : FsState} {dp : Nat}
    (disk : mid.disk = s.finished)
    (copy : (mid.icache dp).copy = adjusted (dinodeAt mkfsSb s.image 1))
    (inside : j < files.length + 2)
    : (readi dp (UInt32.ofNat (16 * j)) 16).run env mid
      = ⟨some (16, ((rootBytes files).drop (16 * j)).take 16), mid, []⟩ := by
  have size := h.root_size
  have adjusted_ := h.root_adjusted few
  have off : (UInt32.ofNat (16 * j)).toNat = 16 * j := by
    refine UInt32.toNat_ofNat_of_lt' ?_
    rw [UInt32.size]
    omega
  have count : (16 : UInt32).toNat = 16 := rfl
  have length : (((rootBytes files).drop (16 * j)).take 16).length = 16 := by
    rw [List.length_take, List.length_drop, length_rootBytes]
    omega
  have type : (adjusted (dinodeAt mkfsSb s.image 1)).type = tDir :=
    (h.types 0 (by simp [entriesOf])).1
  rw [readi_shaped (dinodeAt mkfsSb s.image 1).blocks]
  · rw [copy, disk, off, count, if_neg (by omega), h.root_entry few inside]
    simp only [length, Nat.cast_ofNat]
  · rw [copy, disk]
    exact h.root_shaped
  · rw [Dinode.blocks]
    omega
  · rw [copy, off, count, Dinode.blocks]
    omega
  · rw [copy, type]
    decide

end

end

/-- The names have no slash, and differ as entries of the root directory, also from `.` and `..`. -/
structure Named (files : List InputFile) : Prop where
  strings : ∀ file ∈ files, 0 ∉ file.name ∧ slash ∉ file.name
  distinct : (files.map InputFile.entryName).Nodup
  dots : ∀ file ∈ files, file.entryName ≠ [46] ∧ file.entryName ≠ [46, 46]

/-- The superblock that `readsb` finds. -/
def ReadsSb (disk : Nat → Block) (sb : Superblock) : Prop :=
  (load32 (disk 1) 0).toNat = sb.size ∧ (load32 (disk 1) 8).toNat = sb.ninodes
    ∧ (load32 (disk 1) 20).toNat = sb.inodestart ∧ (load32 (disk 1) 24).toNat = sb.bmapstart

/-- `namei`, `ilock` and `readi` from the start: the type of the inode, and what is read. -/
def readFile (cwd : Nat) (path : List UInt8) (n : UInt32)
    : FsM (Option (UInt16 × Int × List UInt8)) := do
  match ← namei cwd path with
  | none => return none
  | some ip =>
    ilock ip
    let node ← inode ip
    let r ← readi ip 0 n
    return some (node.copy.type, r)

theorem not_mem_strippedName {file : InputFile} {c : UInt8} (absent : c ∉ file.name)
    : c ∉ file.strippedName := by
  rw [InputFile.strippedName]
  split
  · exact fun member => absent (List.mem_of_mem_tail member)
  · exact absent

variable {j : Nat}

theorem part_flatMap {α : Type} (f : α → List UInt8) {n : Nat} (long : ∀ x, (f x).length = n)
    {l : List α} (inside : j < l.length)
    : ((l.flatMap f).drop (n * j)).take n = f l[j] := by
  induction l generalizing j with
  | nil => cases inside
  | cons x rest ih =>
    cases j with
    | zero =>
      rw [Nat.mul_zero, List.drop_zero, List.flatMap_cons, List.take_append_of_le_length,
        List.take_of_length_le, List.getElem_cons_zero]
      · rw [long]
      · rw [long]
    | succ j =>
      have skip : n * (j + 1) = (f x).length + n * j := by
        rw [long, Nat.mul_succ, Nat.add_comm]
      rw [skip, List.flatMap_cons, ← List.drop_drop, List.drop_left, List.getElem_cons_succ]
      exact ih (Nat.lt_of_succ_lt_succ inside)

variable {files : List InputFile} {s : Mkfs}

theorem direntAt_rootBytes {entry : Nat × List UInt8} (there : (rootEntries files)[j]? = some entry)
    : direntAt (rootBytes files) j
      = { inum := UInt16.ofNat entry.1, name := strncpy (cstring entry.2) dirSiz } := by
  obtain ⟨inside, here⟩ := List.getElem?_eq_some_iff.mp there
  have part := part_flatMap (fun entry : Nat × List UInt8 => dirent entry.1 entry.2)
    (fun entry => length_dirent entry.1 entry.2) inside
  rw [direntAt, rootBytes, part, here, dirent, Dirent.ofBytes_bytes, xshort_eq]

section

variable {s : Mkfs} {files : List InputFile} {i : Nat}

theorem direntAt_file (inside : i < files.length)
    : direntAt (rootBytes files) (i + 2)
      = { inum := UInt16.ofNat (i + 2)
          name := strncpy (cstring files[i].strippedName) dirSiz } := by
  have there : (rootEntries files)[i + 2]? = some (i + 2, files[i].strippedName) := by
    simp [rootEntries, inside]
  exact direntAt_rootBytes there

/-- The entry of a file has its name. -/
theorem Named.hit (inside : i < files.length) (few : files.length + 2 ≤ 200)
    : (direntAt (rootBytes files) (i + 2)).Is files[i].entryName
      ∧ (direntAt (rootBytes files) (i + 2)).inum.toNat = i + 2 := by
  have inum : (UInt16.ofNat (i + 2)).toNat = i + 2 := by
    refine UInt16.toNat_ofNat_of_lt' ?_
    rw [UInt16.size]
    omega
  rw [direntAt_file inside]
  refine ⟨(Dirent.is_iff ?_ _ _).mpr ?_, inum⟩
  · intro zero
    rw [zero] at inum
    cases inum
  · rw [InputFile.entryName, upToZero, upToZero, List.take_take, Nat.min_self]

/-- No entry before it has. -/
theorem Named.misses (named : Named files) (inside : i < files.length) {j : Nat}
    (before : j < i + 2)
    : ¬ (direntAt (rootBytes files) j).Is files[i].entryName := by
  have string : upToZero dirSiz files[i].entryName = files[i].entryName := by
    have absent : 0 ∉ files[i].entryName := fun member =>
      not_mem_strippedName (named.strings _ (List.getElem_mem inside)).1
        (List.mem_of_mem_take member)
    rw [upToZero_of_not_mem absent, InputFile.entryName, List.take_take, Nat.min_self]
  have dots := named.dots _ (List.getElem_mem inside)
  match j with
  | 0 =>
    have dot : direntAt (rootBytes files) 0 = _ := direntAt_rootBytes rfl
    rw [dot, Dirent.is_iff (by decide), string]
    exact dots.1
  | 1 =>
    have dotdot : direntAt (rootBytes files) 1 = _ := direntAt_rootBytes rfl
    rw [dotdot, Dirent.is_iff (by decide), string]
    exact dots.2
  | j + 2 =>
    have inside' : j < files.length := by omega
    have name : upToZero dirSiz files[j].strippedName = files[j].entryName :=
      upToZero_of_not_mem
        (not_mem_strippedName (named.strings _ (List.getElem_mem inside')).1)
    rw [direntAt_file inside']
    intro is
    have same := (strncmp_eq_zero ..).mp is.2
    rw [upToZero_strncpy, string, name] at same
    have bound : i < (files.map InputFile.entryName).length := by simpa using inside
    have bound' : j < (files.map InputFile.entryName).length := by simpa using inside'
    have index : i = j := named.distinct.getElem_inj_iff.mp
      (show (files.map InputFile.entryName)[i] = (files.map InputFile.entryName)[j] by
        simpa using same)
    omega

theorem Catalog.file_inode (h : s.Catalog (entriesOf files)) (inside : i < files.length)
    : (dinodeAt mkfsSb s.finished (i + 2)).type = tFile
      ∧ (dinodeAt mkfsSb s.finished (i + 2)).blocks ≤ 140
      ∧ Shaped s.finished (dinodeAt mkfsSb s.finished (i + 2))
          (holds (dinodeAt mkfsSb s.finished (i + 2)).blocks)
      ∧ Fs.contents s.finished (dinodeAt mkfsSb s.finished (i + 2)) = files[i].bytes := by
  have inFiles : i + 1 < (entriesOf files).length := by simpa [entriesOf] using inside
  have entry : (entriesOf files)[i + 1] = (tFile, files[i].bytes) := by simp [entriesOf]
  have spares : Spares mkfsSb 1 s.image s.finished := storeDinode_spares h.owned h.root_used.1 _
  have used : allocated mkfsSb s.image (i + 2) := h.used inFiles
  have other : i + 2 ≠ 1 := by omega
  have same := spares.dinodes _ used.1 other
  refine ⟨?_, ?_, fun k last => ?_, ?_⟩
  · rw [same, (h.types (i + 1) inFiles).1, entry]
  · rw [same]
    exact h.owned.small _ used
  · rw [spares.pointer_eq other used (h.owned.shaped used), same]
    exact h.owned.shaped used k last
  · have written := h.contents (i + 1) inFiles
    rw [entry] at written
    exact (spares.fileAt_eq h.owned other used).trans written

variable {env : FsEnv} {st : FsState}

theorem Catalog.readi_file (h : s.Catalog (entriesOf files)) (inside : i < files.length) {ip : Nat}
    (n : UInt32) (disk : st.disk = s.finished)
    (copy : (st.icache ip).copy = dinodeAt mkfsSb s.finished (i + 2))
    : (readi ip 0 n).run env st
      = ⟨some (Int.ofNat (files[i].bytes.take n.toNat).length, files[i].bytes.take n.toNat),
          st, []⟩ := by
  obtain ⟨type, small, shaped, bytes⟩ := h.file_inode inside
  have bound := n.toNat_lt
  have zero : (0 : UInt32).toNat = 0 := rfl
  rw [readi_shaped _ (copy ▸ disk ▸ shaped) (copy ▸ small)]
  · rw [copy, disk, bytes, zero, if_neg (by omega), List.drop_zero]
    rfl
  · rw [Dinode.blocks]
    omega
  · rw [copy, type]
    decide

/-- The conditions for a walk in an image: nothing is locked, and two slots are free. -/
structure Ready (s : Mkfs) (st : FsState) : Prop where
  disk : st.disk = s.finished
  idle : Idle mkfsSb st
  free : ∃ ip < nInode, ∃ jp < nInode, ip ≠ jp ∧ (st.icache ip).ref = 0 ∧ (st.icache jp).ref = 0

section

variable (h : s.Catalog (entriesOf files)) (named : Named files) (few : files.length + 2 ≤ 200)
  (inside : i < files.length) (some_ : files[i].strippedName ≠ []) (sb : env.sb = mkfsSb)
  (ready : Ready s st) (cwd : Nat)
include h named few inside some_ sb ready cwd

variable {ok : FsEvent → Prop} {halt : Prop}

/-- `namei` finds the file by its name in the root. -/
theorem Catalog.namei_file
    : Ensures ok halt (namei cwd (slash :: files[i].strippedName)) env st fun r after =>
        ∃ ip, r = some ip ∧ Reached mkfsSb (i + 2) ip st after := by
  have root : dinodeAt env.sb st.disk rootIno = adjusted (dinodeAt mkfsSb s.image 1) := by
    rw [sb, ready.disk]
    exact dinodeAt_finished
  have inRoot : 0 < (entriesOf files).length := by simp [entriesOf]
  obtain ⟨hit, inum⟩ := Named.hit inside few
  have size := h.root_size
  have adjusted_ := h.root_adjusted few
  have string := named.strings _ (List.getElem_mem inside)
  rw [← inum, ← sb]
  refine namei_entry cwd (sb ▸ ready.idle) ready.free some_ (not_mem_strippedName string.2) ?_ ?_
    ?_ ?_ (fun j before => named.misses inside before) hit ?_
  · rw [root]
    exact (h.types 0 inRoot).1
  · rw [root]
    exact fun zero => absurd ((h.types 0 inRoot).2.symm.trans zero) (by decide)
  · intro dp mid disk copy j last
    exact h.readi_root few (disk.trans ready.disk) (copy.trans root) (by omega)
  · rw [root, adjusted_]
    omega
  · rw [inum]
    exact show i + 2 ≠ 1 by omega

/-- So it is opened and read, with its contents. -/
theorem Catalog.readFile_ensures (n : UInt32)
    : Ensures ok halt (readFile cwd (slash :: files[i].strippedName) n) env st fun r _ =>
        r = some (tFile, Int.ofNat (files[i].bytes.take n.toNat).length,
          files[i].bytes.take n.toNat) := by
  have type := (h.file_inode inside).1
  rw [readFile]
  refine (h.namei_file named few inside some_ sb ready cwd).bind ?_
  rintro _ mid ⟨ip, rfl, reached⟩
  have node : dinodeAt env.sb mid.disk (mid.icache ip).inum
      = dinodeAt mkfsSb s.finished (i + 2) := by
    rw [sb, reached.inum, reached.disk, ready.disk]
  simp only
  refine (Idle.ilock_ensures (sb ▸ reached.idle) reached.inside reached.referenced ?_).bind ?_
  · rw [node, type]
    decide
  · rintro _ after locked
    have copy : (after.icache ip).copy = dinodeAt mkfsSb s.finished (i + 2) := by
      rw [locked, withSlot_self]
      exact node
    have disk : after.disk = s.finished := by
      rw [locked, withSlot_disk, reached.disk, ready.disk]
    refine inode_next (.next (h.readi_file inside n disk copy) (.pure ?_))
    rw [copy, type]

end

end

theorem Catalog.low_finished (h : s.Catalog (entriesOf files)) {b : Nat} (low : b < 32)
    : s.finished b = start.disk b := by
  have other : b ≠ mkfsSb.iblock 1 := by
    have : 32 ≤ mkfsSb.iblock 1 := Nat.le_add_left ..
    omega
  have bitmap : b ≠ mkfsSb.bmapstart := by
    have : mkfsSb.bmapstart = 58 := rfl
    omega
  rw [finished, storeDinode, Function.update_of_ne other, h.low b low, image_of_ne bitmap]

/-- The superblock of an image is the one that `mkfs` builds it for. -/
theorem Catalog.readsSb_iff (h : s.Catalog (entriesOf files)) (sb : Superblock)
    : ReadsSb s.finished sb ↔ sb = mkfsSb := by
  have stored : (load32 (start.disk 1) 0).toNat = 1000 ∧ (load32 (start.disk 1) 8).toNat = 200
      ∧ (load32 (start.disk 1) 20).toNat = 32 ∧ (load32 (start.disk 1) 24).toNat = 58 := by decide
  rw [ReadsSb, h.low_finished (by decide), stored.1, stored.2.1, stored.2.2.1, stored.2.2.2]
  constructor
  · obtain ⟨size, ninodes, inodestart, bmapstart, _, _, _⟩ := sb
    rintro ⟨rfl, rfl, rfl, rfl⟩
    rfl
  · rintro rfl
    exact ⟨rfl, rfl, rfl, rfl⟩

/-- For every list of files that fits, with names that are not empty once a leading `_` is dropped:
the kernel that takes its superblock from the image, in any idle state with two free slots, finds
each file under its name, and reads the bytes of the file.
-/
theorem image_files_read (files : List InputFile) (named : Named files) (fits : Fits files)
    (some_ : ∀ file ∈ files, file.strippedName ≠ [])
    : ∃ img, mkfs files = some img ∧ ReadsSb img.disk mkfsSb ∧ load32 (img.disk 2) 0 = 0
        ∧ ∀ (env : FsEnv) (st : FsState), ReadsSb img.disk env.sb → st.disk = img.disk
          → Idle env.sb st
          → (∃ ip < nInode, ∃ jp < nInode,
              ip ≠ jp ∧ (st.icache ip).ref = 0 ∧ (st.icache jp).ref = 0)
          → ∀ file ∈ files, ∀ (cwd : Nat) (n : UInt32),
              ((readFile cwd (slash :: file.strippedName) n).run env st).value
                = some (some (tFile, Int.ofNat (file.bytes.take n.toNat).length,
                    file.bytes.take n.toNat)) := by
  obtain ⟨s, img, run, catalog, disk, -⟩ :=
    mkfs_spec (fun file member => (named.strings file member).2) fits
  have disk : img.disk = s.finished := disk
  rw [run]
  refine ⟨img, rfl, ?_, ?_, ?_⟩
  · rw [disk]
    exact (catalog.readsSb_iff _).mpr rfl
  · rw [disk, catalog.low_finished (by decide)]
    decide
  · intro env st sb same idle free file member cwd n
    rw [disk] at sb same
    have sb := (catalog.readsSb_iff _).mp sb
    obtain ⟨i, inside, rfl⟩ := List.getElem_of_mem member
    have read : Ensures (fun _ => True) False _ env st _ :=
      catalog.readFile_ensures named fits.inodes inside (some_ _ member) sb
        ⟨same, sb ▸ idle, free⟩ cwd n
    obtain ⟨r, ended, rfl⟩ := read.total
    exact ended

def bootEnv : FsEnv := { sb := mkfsSb, devRead := fun _ => none, devWrite := fun _ => none }

theorem unused_idle (sb : Superblock) (disk : Nat → Block) : Idle sb (unused disk) := by
  refine ⟨fun _ _ => rfl, fun ip cached => ?_⟩
  have valid : false = true := cached.2.2
  cases valid

theorem unused_free (disk : Nat → Block)
    : ∃ ip < nInode, ∃ jp < nInode, ip ≠ jp
        ∧ ((unused disk).icache ip).ref = 0 ∧ ((unused disk).icache jp).ref = 0 :=
  ⟨0, by decide, 1, by decide, by decide, rfl, rfl⟩

/-- Witness: the file `hi`. -/
theorem image_files_read_hi
    : ∃ img, mkfs [hiFile] = some img
        ∧ ((readFile 0 (slash :: [104, 105]) 512).run bootEnv (unused img.disk)).value
          = some (some (tFile, 2, [104, 105])) := by
  obtain ⟨img, run, sb, -, reads⟩ := image_files_read [hiFile] ⟨by decide, by decide, by decide⟩
    ⟨by decide, by decide, by decide⟩ (by decide)
  exact ⟨img, run, reads bootEnv (unused img.disk) sb rfl (unused_idle _ _) (unused_free _)
    hiFile (List.mem_singleton_self _) 0 512⟩

/-- The path that is left of a name that is only `_` leads to the root directory. -/
theorem Catalog.readFile_slash (h : s.Catalog (entriesOf files)) (few : files.length + 2 ≤ 200)
    {env : FsEnv} (sb : env.sb = mkfsSb) {st : FsState} (ready : Ready s st) (cwd : Nat)
    {ok : FsEvent → Prop} {halt : Prop}
    : Ensures ok halt (readFile cwd [slash] 0) env st fun r _ => r = some (tDir, 0, []) := by
  have type : (adjusted (dinodeAt mkfsSb s.image 1)).type = tDir :=
    (h.types 0 (by simp [entriesOf])).1
  have size := h.root_size
  obtain ⟨fp, inside, gp, inside', different, zero, zero'⟩ := ready.free
  have walked : Ensures ok halt (namei cwd [slash]) env st fun r after =>
      ∃ ip, r = some ip ∧ Got rootDev rootIno ip st after := by
    rw [namei, namex, if_pos (show [slash].head? = some slash from rfl)]
    have found : Ensures ok halt (do
        let ip ← iget rootDev rootIno
        namexLoop false ([slash].length + 1) [slash] [] ip) env st fun r after =>
        ∃ ip, r = some (ip, []) ∧ Got rootDev rootIno ip st after :=
      (iget_ensures fun full => absurd zero (full fp inside)).bind fun ip after got =>
        .pure ⟨ip, rfl, got⟩
    refine found.bind ?_
    rintro _ after ⟨ip, rfl, got⟩
    exact .pure ⟨ip, rfl, got⟩
  rw [readFile]
  refine walked.bind ?_
  rintro _ mid ⟨ip, rfl, got⟩
  have node : dinodeAt env.sb mid.disk (mid.icache ip).inum
      = adjusted (dinodeAt mkfsSb s.image 1) := by
    rw [sb, got.inum_eq, got.disk, ready.disk]
    exact dinodeAt_finished
  have idle : Idle env.sb mid := by
    rw [sb]
    exact ⟨fun jp inside => (got.locked jp).trans (ready.idle.unlocked jp inside),
      got.synced ready.idle.synced⟩
  simp only
  refine (idle.ilock_ensures got.inside got.referenced ?_).bind ?_
  · rw [node, type]
    decide
  · rintro _ after locked
    have copy : (after.icache ip).copy = adjusted (dinodeAt mkfsSb s.image 1) := by
      rw [locked, withSlot_self]
      exact node
    have disk : after.disk = s.finished := by
      rw [locked, withSlot_disk, got.disk, ready.disk]
    have read : (readi ip 0 0).run env after = ⟨some (0, []), after, []⟩ := by
      have none_ : (0 : UInt32).toNat = 0 := rfl
      rw [readi_shaped (dinodeAt mkfsSb s.image 1).blocks]
      · rw [none_, if_neg (by omega)]
        rfl
      · rw [copy, disk]
        exact h.root_shaped
      · rw [Dinode.blocks]
        omega
      · rw [none_]
        omega
      · rw [copy, type]
        decide
    refine inode_next (.next read (.pure ?_))
    rw [copy, type]

/-- A file `_`. -/
def underscoreFile : InputFile := { name := [95], reads := [] }

/-- The name of the file `_` is empty, and its path is that of the root directory. -/
theorem underscore_not_read
    : Named [underscoreFile] ∧ Fits [underscoreFile]
        ∧ ∃ img, mkfs [underscoreFile] = some img
          ∧ ((readFile 0 (slash :: underscoreFile.strippedName) 0).run bootEnv
              (unused img.disk)).value = some (some (tDir, 0, [])) := by
  have named : Named [underscoreFile] := ⟨by decide, by decide, by decide⟩
  have fits : Fits [underscoreFile] := ⟨by decide, by decide, by decide⟩
  obtain ⟨s, img, run, catalog, disk, -⟩ :=
    mkfs_spec (fun file member => (named.strings file member).2) fits
  have read : Ensures (fun _ => True) False _ bootEnv (unused img.disk) _ :=
    catalog.readFile_slash fits.inodes rfl ⟨disk, unused_idle _ _, unused_free _⟩ 0
  obtain ⟨r, ended, rfl⟩ := read.total
  exact ⟨named, fits, img, run, ended⟩

end Mkfs

end Xv6Net
