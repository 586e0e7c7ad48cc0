import Xv6Net.Fs.Mkfs
import Xv6Net.Fs.Lookup

/-! What the image that `mkfs` builds holds: the root directory with its entries, and the files. -/

namespace Xv6Net.Mkfs

open Library Memory Fs

/-- The blocks that inodes with these contents take up. -/
def blocksOf (entries : List (UInt16 × List UInt8)) : Nat :=
  (entries.map fun entry => blocksFor entry.2.length).sum

/-- The inodes of the image, from the first one on, with their types and contents. -/
structure Catalog (s : Mkfs) (entries : List (UInt16 × List UInt8)) : Prop where
  owned : BlocksOwned mkfsSb s.image
  fresh : s.Fresh
  freeinode : s.freeinode = entries.length + 1
  inodes : ∀ i, allocated mkfsSb s.image i ↔ 1 ≤ i ∧ i ≤ entries.length
  types : ∀ i (inside : i < entries.length),
    (dinodeAt mkfsSb s.image (i + 1)).type = entries[i].1
    ∧ (dinodeAt mkfsSb s.image (i + 1)).nlink = 1
  contents : ∀ i (inside : i < entries.length),
    fileAt mkfsSb s.image (i + 1) = entries[i].2
  blocks : s.freeblock = mkfsSb.dataStart + blocksOf entries
  /-- The blocks before the inodes. -/
  low : ∀ b < 32, s.image b = start.image b

variable {s s' : Mkfs} {entries : List (UInt16 × List UInt8)}

variable {i : Nat} {type : UInt16} {p done : List UInt8} {front : List (UInt16 × List UInt8)}
  {files : List InputFile}

theorem sum_map_set {α : Type} (f : α → Nat) (x : α) {l : List α} (inside : i < l.length)
    : ((l.set i x).map f).sum + f l[i] = (l.map f).sum + f x := by
  induction l generalizing i with
  | nil => cases inside
  | cons first_ rest ih =>
    cases i with
    | zero =>
      simp only [List.set_cons_zero, List.map_cons, List.sum_cons, List.getElem_cons_zero]
      omega
    | succ =>
      have later := ih (Nat.lt_of_succ_lt_succ inside)
      simp only [List.set_cons_succ, List.map_cons, List.sum_cons, List.getElem_cons_succ]
      omega

theorem Catalog.size_eq (h : s.Catalog entries) (inside : i < entries.length)
    : (dinodeAt mkfsSb s.image (i + 1)).size.toNat = entries[i].2.length := by
  rw [← h.contents i inside, fileAt, length_contents]

theorem Catalog.used (h : s.Catalog entries) (inside : i < entries.length)
    : allocated mkfsSb s.image (i + 1) :=
  (h.inodes (i + 1)).mpr ⟨Nat.succ_pos i, inside⟩

/-- `ialloc` of `mkfs` adds an empty file. -/
theorem Catalog.create (h : s.Catalog entries) (used : type ≠ 0) (room : entries.length + 1 < 200)
    : ∃ s', s.ialloc type = some (s', entries.length + 1)
      ∧ s'.Catalog (entries ++ [(type, [])]) := by
  have fresh : Fresh { s with freeinode := s.freeinode + 1 } :=
    ⟨h.fresh.low, h.fresh.high, h.fresh.clear⟩
  let din : Dinode := { type, major := 0, minor := 0, nlink := 1, size := 0, addrs := fun _ => 0 }
  obtain ⟨s', run, image, fresh', freeblock, freeinode⟩ := winode_run room fresh din
  have before : Mkfs.image { s with freeinode := s.freeinode + 1 } = s.image := rfl
  rw [before] at image
  -- inodes are taken in order, so the next one is free
  have free : (dinodeAt mkfsSb s.image (entries.length + 1)).type = 0 := by
    by_contra set
    have := (h.inodes (entries.length + 1)).mp ⟨room, set⟩
    omega
  have spares := storeDinode_spares h.owned room din
  have stored : dinodeAt mkfsSb s'.image (entries.length + 1) = din := by
    rw [image]
    exact dinodeAt_storeDinode
  have owned : BlocksOwned mkfsSb s'.image := by
    rw [image]
    exact h.owned.store_empty room free rfl rfl
  rw [← image] at spares
  refine ⟨s', ?_, owned, fresh', ?_, ?_, ?_, ?_, ?_, ?_⟩
  · rw [ialloc, h.freeinode]
    simp only [xshort_eq, xint_eq]
    rw [h.freeinode] at run
    rw [run]
    rfl
  · rw [freeinode, List.length_append, List.length_singleton]
    exact congrArg (· + 1) h.freeinode
  · intro i
    rw [List.length_append, List.length_singleton]
    by_cases new : i = entries.length + 1
    · rw [new, allocated, stored]
      refine iff_of_true ⟨room, used⟩ ?_
      omega
    · rw [spares.allocated_iff new, h.inodes]
      omega
  · intro i inside
    rw [List.length_append, List.length_singleton] at inside
    by_cases new : i = entries.length
    · subst new
      rw [stored, List.getElem_concat_length rfl]
      exact ⟨rfl, rfl⟩
    · have old : i < entries.length := by omega
      rw [spares.dinodes (i + 1) (h.used old).1 (by omega), List.getElem_append_left old]
      exact h.types i old
  · intro i inside
    rw [List.length_append, List.length_singleton] at inside
    by_cases new : i = entries.length
    · subst new
      rw [fileAt, stored, List.getElem_concat_length rfl]
      rfl
    · have old : i < entries.length := by omega
      rw [spares.fileAt_eq h.owned (by omega) (h.used old), List.getElem_append_left old]
      exact h.contents i old
  · have none_ : blocksFor 0 = 0 := rfl
    rw [freeblock, blocksOf, List.map_append, List.sum_append, List.map_singleton,
      List.sum_singleton, List.length_nil, none_]
    exact h.blocks
  · intro b low
    have other : b ≠ mkfsSb.iblock (entries.length + 1) := by
      have : 32 ≤ mkfsSb.iblock (entries.length + 1) := Nat.le_add_left ..
      omega
    rw [image, storeDinode, Function.update_of_ne other]
    exact h.low b low

/-- `iappend` adds bytes to one file. -/
theorem Catalog.append_at (h : s.Catalog entries) (inside : i < entries.length)
    (some_ : p ≠ []) (fits : entries[i].2.length + p.length ≤ 71680)
    (room : mkfsSb.dataStart + blocksOf (entries.set i (entries[i].1, entries[i].2 ++ p)) ≤ 1000)
    : ∃ s', s.iappend (i + 1) p = some s'
        ∧ s'.Catalog (entries.set i (entries[i].1, entries[i].2 ++ p)) := by
  have sum := sum_map_set (fun entry => blocksFor entry.2.length)
    (entries[i].1, entries[i].2 ++ p) inside
  have blocks := h.blocks
  rw [blocksOf] at blocks room
  have used := h.used inside
  simp only [List.length_append] at sum
  obtain ⟨s', din', run, stored, fresh, freeinode, low⟩ :=
    iappend_spec h.owned h.fresh used (h.size_eq inside) some_ fits (by omega)
  have spares : Spares mkfsSb (i + 1) s.image s'.image := stored.elsewhere.spares
  obtain ⟨used', same⟩ : allocated mkfsSb s'.image (i + 1)
      ∧ din' = dinodeAt mkfsSb s'.image (i + 1) :=
    stored.ok.synced 0 scratch_cached
  have fields : din'
      = { dinodeAt mkfsSb s.image (i + 1) with size := din'.size, addrs := din'.addrs } :=
    stored.fields
  -- a write at the end of the file appends
  have after : fileAt mkfsSb s'.image (i + 1) = entries[i].2 ++ p := by
    have spliced : fileAt mkfsSb s'.image (i + 1)
        = splice (fileAt mkfsSb s.image (i + 1)) entries[i].2.length p := by
      rw [fileAt, ← same]
      exact stored.contents
    rw [spliced, h.contents i inside, splice, List.take_length,
      List.drop_eq_nil_of_le (Nat.le_add_right ..), List.append_nil]
  refine ⟨s', run, stored.ok.owned, fresh, ?_, ?_, ?_, ?_, ?_, ?_⟩
  · rw [freeinode, h.freeinode, List.length_set]
  · intro j
    rw [List.length_set]
    by_cases here : j = i + 1
    · rw [here]
      exact iff_of_true used' ⟨Nat.succ_pos i, inside⟩
    · rw [spares.allocated_iff here, h.inodes]
  · intro j inside'
    rw [List.length_set] at inside'
    by_cases here : j = i
    · subst here
      rw [List.getElem_set_self, ← same, fields]
      exact h.types j inside
    · rw [List.getElem_set_of_ne (Ne.symm here),
        spares.dinodes (j + 1) (h.used inside').1 (by omega)]
      exact h.types j inside'
  · intro j inside'
    rw [List.length_set] at inside'
    by_cases here : j = i
    · subst here
      rw [List.getElem_set_self]
      exact after
    · rw [List.getElem_set_of_ne (Ne.symm here),
        spares.fileAt_eq h.owned (by omega) (h.used inside')]
      exact h.contents j inside'
  · have spent : freeCount mkfsSb s'.image + blocksFor din'.size.toNat
        = freeCount mkfsSb s.image + blocksFor (dinodeAt mkfsSb s.image (i + 1)).size.toNat :=
      stored.spent
    have size : din'.size.toNat = entries[i].2.length + p.length := by
      rw [same, ← length_contents s'.image, ← fileAt, after, List.length_append]
    have high := fresh.high
    have high' := h.fresh.high
    rw [freeCount_image, freeCount_image, size, h.size_eq inside] at spent
    rw [blocksOf]
    omega
  · intro b below
    rw [low b below]
    exact h.low b below

theorem Catalog.append {back : List (UInt16 × List UInt8)}
    (h : s.Catalog (front ++ (type, done) :: back)) (some_ : p ≠ [])
    (fits : done.length + p.length ≤ 71680)
    (room : mkfsSb.dataStart + blocksOf (front ++ (type, done ++ p) :: back) ≤ 1000)
    : ∃ s', s.iappend (front.length + 1) p = some s'
        ∧ s'.Catalog (front ++ (type, done ++ p) :: back) := by
  have inside : front.length < (front ++ (type, done) :: back).length := by simp
  have there : (front ++ (type, done) :: back)[front.length] = (type, done) := by simp
  have next : (front ++ (type, done) :: back).set front.length (type, done ++ p)
      = front ++ (type, done ++ p) :: back := by simp
  have appended := h.append_at inside some_
  rw [there, next] at appended
  exact appended fits room

/-- Before the root there is no file. -/
theorem start_catalog : start.Catalog [] := by
  have zero : ∀ b, b ≠ 1 → start.disk b = fun _ => 0 := fun b other =>
    Function.update_of_ne other ..
  have none_ : ∀ i, ¬ allocated mkfsSb start.image i := by
    rintro i ⟨inside, type⟩
    have low : mkfsSb.iblock i < mkfsSb.bmapstart := mkfsSb.iblock_lt inside
    have high : 32 ≤ mkfsSb.iblock i := Nat.le_add_left ..
    refine type ?_
    rw [dinodeAt, image_of_ne low.ne, zero _ (by omega)]
    simp [readDinode, load16]
  refine ⟨.of_empty (fun i used => absurd used (none_ i)) ?_, ⟨le_rfl, by decide, ?_⟩, rfl, ?_,
    by simp, by simp, rfl, fun _ _ => rfl⟩
  · intro b inside
    have inside' : b < 1000 := inside
    exact marked_image (by omega)
  · intro b beyond
    have beyond' : 59 ≤ b := beyond
    exact zero b (by omega)
  · intro i
    refine iff_of_false (none_ i) ?_
    rw [List.length_nil]
    omega

theorem length_dirent (inum : Nat) (name : List UInt8) : (dirent inum name).length = 16 := by
  rw [dirent, Dirent.bytes, List.length_append, length_bytes16, length_strncpy]
  rfl

theorem dirent_ne_nil (inum : Nat) (name : List UInt8) : dirent inum name ≠ [] := by
  intro empty
  have length := length_dirent inum name
  rw [empty] at length
  cases length

/-- The entries of the root directory: inode numbers and names. -/
def rootEntries (files : List InputFile) : List (Nat × List UInt8) :=
  (1, [46]) :: (1, [46, 46]) :: files.mapIdx fun i file => (i + 2, file.strippedName)

def rootBytes (files : List InputFile) : List UInt8 :=
  (rootEntries files).flatMap fun entry => dirent entry.1 entry.2

def entriesOf (files : List InputFile) : List (UInt16 × List UInt8) :=
  (tDir, rootBytes files) :: files.map fun file => (tFile, file.bytes)

theorem rootBytes_concat (done : List InputFile) (file : InputFile)
    : rootBytes (done ++ [file])
      = rootBytes done ++ dirent (done.length + 2) file.strippedName := by
  rw [rootBytes, rootBytes, rootEntries, rootEntries, List.mapIdx_concat]
  simp

theorem length_rootBytes (files : List InputFile)
    : (rootBytes files).length = 16 * (files.length + 2) := by
  rw [rootBytes, List.length_flatMap]
  simp only [length_dirent, List.map_const', List.sum_replicate_nat, rootEntries, List.length_cons,
    List.length_mapIdx]
  omega

theorem blocksFor_mono {size size' : Nat} (more : size ≤ size')
    : blocksFor size ≤ blocksFor size' :=
  blockCount_mono (by omega)

@[simp]
theorem blocksOf_cons (entry : UInt16 × List UInt8) (rest : List (UInt16 × List UInt8))
    : blocksOf (entry :: rest) = blocksFor entry.2.length + blocksOf rest :=
  rfl

@[simp]
theorem blocksOf_append (front back : List (UInt16 × List UInt8))
    : blocksOf (front ++ back) = blocksOf front + blocksOf back := by
  simp [blocksOf]

/-- The loop that copies a file, by induction on what `read` returns. -/
theorem appendReads_spec (h : s.Catalog (front ++ [(type, done)])) (reads : List (List UInt8))
    (fits : (done ++ (reads.takeWhile (· ≠ [])).flatten).length ≤ 71680)
    (room : mkfsSb.dataStart
      + blocksOf (front ++ [(type, done ++ (reads.takeWhile (· ≠ [])).flatten)]) ≤ 1000)
    : ∃ s', s.appendReads (front.length + 1) reads = some s'
        ∧ s'.Catalog (front ++ [(type, done ++ (reads.takeWhile (· ≠ [])).flatten)]) := by
  induction reads generalizing s done with
  | nil => exact ⟨s, rfl, by simpa using h⟩
  | cons buf rest ih =>
    by_cases empty : buf = []
    · refine ⟨s, by rw [appendReads, if_pos empty], ?_⟩
      simpa [empty] using h
    · have whole : (buf :: rest).takeWhile (· ≠ []) = buf :: rest.takeWhile (· ≠ []) := by
        simp [empty]
      rw [whole, List.flatten_cons, ← List.append_assoc] at fits room ⊢
      have more : blocksFor (done ++ buf).length
          ≤ blocksFor (done ++ buf ++ (rest.takeWhile (· ≠ [])).flatten).length :=
        blocksFor_mono (by simp only [List.length_append]; omega)
      have fits' : done.length + buf.length ≤ 71680 := by
        rw [List.length_append, List.length_append] at fits
        omega
      have room' : mkfsSb.dataStart + blocksOf (front ++ [(type, done ++ buf)]) ≤ 1000 := by
        simp only [blocksOf_append, blocksOf_cons] at room ⊢
        omega
      obtain ⟨mid, run, catalog⟩ := h.append empty fits' room'
      obtain ⟨s', run', catalog'⟩ := ih catalog fits room
      refine ⟨s', ?_, catalog'⟩
      rw [appendReads, if_neg empty, run]
      exact run'

/-- A turn of the loop of `mkfs`: the inode, the name in the root, the contents. -/
theorem addFile_spec {done : List InputFile} {file : InputFile} (h : s.Catalog (entriesOf done))
    (name : slash ∉ file.name) (count : done.length + 2 < 200) (small : file.bytes.length ≤ 71680)
    (room : mkfsSb.dataStart + blocksOf (entriesOf (done ++ [file])) ≤ 1000)
    : ∃ s', s.addFile 1 file = some s' ∧ s'.Catalog (entriesOf (done ++ [file])) := by
  have total : entriesOf (done ++ [file])
      = ((tDir, rootBytes done ++ dirent (done.length + 2) file.strippedName)
          :: done.map fun file => (tFile, file.bytes)) ++ [(tFile, file.bytes)] := by
    rw [entriesOf, rootBytes_concat, List.map_append]
    rfl
  have length : (entriesOf done).length = done.length + 1 := by simp [entriesOf]
  rw [total] at room ⊢
  generalize entry : dirent (done.length + 2) file.strippedName = de at room ⊢
  generalize before : done.map (fun file => (tFile, file.bytes)) = files at room ⊢
  have opened : s.Catalog ((tDir, rootBytes done) :: files) := by
    rw [← before]
    exact h
  have inodes : files.length = done.length := by rw [← before, List.length_map]
  obtain ⟨made, run, catalog⟩ := opened.create (show tFile ≠ 0 by decide)
    (by rw [List.length_cons]; omega)
  have root : made.Catalog ([] ++ (tDir, rootBytes done) :: (files ++ [(tFile, [])])) := catalog
  have some_ : de ≠ [] := by
    rw [← entry]
    exact dirent_ne_nil _ _
  have long : de.length = 16 := by rw [← entry, length_dirent]
  have size := length_rootBytes done
  have none_ : blocksFor ([] : List UInt8).length = 0 := rfl
  obtain ⟨entered, run', catalog'⟩ := root.append some_ (by omega) (by
    simp only [List.nil_append, List.cons_append, blocksOf_append, blocksOf_cons] at room ⊢
    omega)
  have file_ : entered.Catalog (((tDir, rootBytes done ++ de) :: files) ++ [(tFile, [])]) :=
    catalog'
  obtain ⟨s', run'', catalog''⟩ := appendReads_spec file_ file.reads small room
  refine ⟨s', ?_, catalog''⟩
  rw [List.length_cons, inodes] at run run''
  rw [addFile, if_neg name, run]
  simp only [Option.bind_eq_bind, Option.bind_some]
  rw [entry]
  exact (congrArg (Option.bind · _) run').trans run''

theorem blocksOf_entriesOf_le (done rest : List InputFile)
    : blocksOf (entriesOf done) ≤ blocksOf (entriesOf (done ++ rest)) := by
  have more : blocksFor (rootBytes done).length ≤ blocksFor (rootBytes (done ++ rest)).length := by
    refine blocksFor_mono ?_
    rw [length_rootBytes, length_rootBytes, List.length_append]
    omega
  rw [entriesOf, entriesOf, List.map_append]
  simp only [blocksOf_cons, blocksOf_append]
  omega

/-- By induction on the files. -/
theorem addFiles_spec (files : List InputFile) {done : List InputFile}
    (h : s.Catalog (entriesOf done)) (names : ∀ file ∈ files, slash ∉ file.name)
    (count : done.length + files.length + 2 ≤ 200)
    (small : ∀ file ∈ files, file.bytes.length ≤ 71680)
    (room : mkfsSb.dataStart + blocksOf (entriesOf (done ++ files)) ≤ 1000)
    : ∃ s', files.foldlM (addFile 1) s = some s' ∧ s'.Catalog (entriesOf (done ++ files)) := by
  induction files generalizing s done with
  | nil =>
    refine ⟨s, rfl, ?_⟩
    rw [List.append_nil]
    exact h
  | cons file rest ih =>
    have split : done ++ file :: rest = (done ++ [file]) ++ rest := by simp
    rw [split] at room ⊢
    rw [List.length_cons] at count
    have fewer := blocksOf_entriesOf_le (done ++ [file]) rest
    obtain ⟨mid, run, catalog⟩ := addFile_spec h (names file (List.mem_cons_self ..)) (by omega)
      (small file (List.mem_cons_self ..)) (by omega)
    obtain ⟨s', run', catalog'⟩ := ih catalog
      (fun other mem => names other (List.mem_cons_of_mem _ mem))
      (by rw [List.length_append, List.length_singleton]; omega)
      (fun other mem => small other (List.mem_cons_of_mem _ mem)) room
    refine ⟨s', ?_, catalog'⟩
    rw [List.foldlM_cons, run]
    exact run'

/-- The arguments fit in `NINODES` inodes, the largest file and `FSSIZE` blocks. -/
structure Fits (files : List InputFile) : Prop where
  inodes : files.length + 2 ≤ 200
  small : ∀ file ∈ files, file.bytes.length ≤ 71680
  blocks : mkfsSb.dataStart + blocksFor (16 * (files.length + 2))
    + (files.map fun file => blocksFor file.bytes.length).sum ≤ 1000

theorem Fits.room (fits : Fits files)
    : mkfsSb.dataStart + blocksOf (entriesOf files) ≤ 1000 := by
  have blocks := fits.blocks
  have sum : blocksOf (files.map fun file => (tFile, file.bytes))
      = (files.map fun file => blocksFor file.bytes.length).sum := by
    rw [blocksOf, List.map_map]
    rfl
  rw [entriesOf, blocksOf_cons, length_rootBytes, sum]
  omega

/-- The root directory with the size that it gets at the end. -/
def adjusted (root : Dinode) : Dinode :=
  { root with size := UInt32.ofNat (rootSize root.size.toNat) }

/-- The image before and after the size of the root is rounded up. -/
theorem mkfs_spec (names : ∀ file ∈ files, slash ∉ file.name) (fits : Fits files)
    : ∃ s img : Mkfs, mkfs files = some img
        ∧ s.Catalog (entriesOf files)
        ∧ img.disk = storeDinode mkfsSb s.image 1 (adjusted (dinodeAt mkfsSb s.image 1))
        ∧ img.freeblock = s.freeblock := by
  have room := fits.room
  have least := blocksOf_entriesOf_le [] files
  rw [List.nil_append] at least
  obtain ⟨made, run, catalog⟩ := start_catalog.create (show tDir ≠ 0 by decide) (by decide)
  have empty : made.Catalog ([] ++ (tDir, []) :: []) := catalog
  obtain ⟨dot, run1, catalog1⟩ := empty.append (dirent_ne_nil 1 [46]) (by decide) (by decide)
  obtain ⟨dots, run2, catalog2⟩ :=
    catalog1.append (dirent_ne_nil 1 [46, 46]) (by decide) (by decide)
  have root : dots.Catalog (entriesOf []) := catalog2
  obtain ⟨s, run3, catalog3⟩ :=
    addFiles_spec files root names (by have := fits.inodes; simpa using this)
    fits.small (by simpa using room)
  rw [List.nil_append] at catalog3
  obtain ⟨last, run4, image, fresh, freeblock, -⟩ :=
    winode_run (by decide : 1 < 200) catalog3.fresh (adjusted (dinodeAt mkfsSb s.image 1))
  have high := fresh.high
  refine ⟨s, last.wsect mkfsSb.bmapstart (bitmapOf last.freeblock), ?_, catalog3, image, freeblock⟩
  have run5 : last.balloc last.freeblock
      = some (last.wsect mkfsSb.bmapstart (bitmapOf last.freeblock)) := if_pos (by omega)
  simp only [List.length_nil, Nat.zero_add] at run run1 run2
  simp only [mkfs, run, Option.bind_eq_bind, Option.bind_some, if_true, run1, run2, run3,
    rinode_run (by decide : 1 < 200), xint_eq]
  rw [← adjusted, run4]
  exact run5

/-- The image keeps the block ownership of the kernel: the inodes have their blocks, which are
different ones between the metadata and `freeblock`, and the bitmap marks what is below
`freeblock`.
-/
structure ImageOwned (disk : Nat → Block) (freeblock : Nat) : Prop where
  pointers : ∀ i, allocated mkfsSb disk i → ∀ k < (dinodeAt mkfsSb disk i).blocks,
    pointer disk (dinodeAt mkfsSb disk i) k ≠ 0
  data : ∀ i, allocated mkfsSb disk i → ∀ k ≤ 140, pointer disk (dinodeAt mkfsSb disk i) k ≠ 0
    → mkfsSb.dataStart ≤ pointer disk (dinodeAt mkfsSb disk i) k
      ∧ pointer disk (dinodeAt mkfsSb disk i) k < freeblock
  distinct : ∀ i j, allocated mkfsSb disk i → allocated mkfsSb disk j → ∀ k ≤ 140, ∀ l ≤ 140,
    pointer disk (dinodeAt mkfsSb disk i) k ≠ 0
    → pointer disk (dinodeAt mkfsSb disk i) k = pointer disk (dinodeAt mkfsSb disk j) l
    → i = j ∧ k = l
  bitmap : ∀ b < 4096, marked mkfsSb disk b = true ↔ b < freeblock

theorem BlocksOwned.imageOwned {disk : Nat → Block} {freeblock : Nat}
    (owned : BlocksOwned mkfsSb disk)
    (marks : ∀ b < 4096, marked mkfsSb disk b = decide (b < freeblock))
    : ImageOwned disk freeblock := by
  refine ⟨?_, ?_, owned.distinct, ?_⟩
  · intro i used k inside
    have small := owned.small i used
    exact (owned.pointers i used k (by omega)).mpr inside
  · intro i used k last set
    obtain ⟨low, high⟩ := owned.data i used k last set
    have high' : pointer disk (dinodeAt mkfsSb disk i) k < 1000 := high
    have mark := (owned.bitmap _ low high).mpr ⟨i, k, used, last, rfl⟩
    rw [marks _ (by omega), decide_eq_true_eq] at mark
    exact ⟨low, mark⟩
  · intro b inside
    rw [marks b inside, decide_eq_true_eq]

section

variable {files : List InputFile}

theorem Catalog.root_size (h : s.Catalog (entriesOf files))
    : (dinodeAt mkfsSb s.image 1).size.toNat = 16 * (files.length + 2) := by
  have size := h.size_eq (show 0 < (entriesOf files).length by simp [entriesOf])
  rw [← length_rootBytes]
  exact size

theorem Catalog.root_used (h : s.Catalog (entriesOf files)) : allocated mkfsSb s.image 1 :=
  h.used (show 0 < (entriesOf files).length by simp [entriesOf])

variable {root : Dinode}

theorem adjusted_size (small : root.size.toNat ≤ 71680)
    : (adjusted root).size.toNat = (root.size.toNat / 512 + 1) * 512 := by
  refine UInt32.toNat_ofNat_of_lt' ?_
  rw [rootSize, UInt32.size]
  omega

/-- Rounding up adds a block if the size was a multiple already. -/
theorem adjusted_blocks (small : root.size.toNat ≤ 71680)
    : (adjusted root).blocks = root.size.toNat / 512 + 1 := by
  rw [Dinode.blocks, adjusted_size small]
  omega

/-- Otherwise the root has all the blocks of its new size. -/
theorem Catalog.adjusted_owned (h : s.Catalog (entriesOf files)) (small : files.length + 2 ≤ 200)
    (part : (files.length + 2) % 32 ≠ 0)
    : BlocksOwned mkfsSb
        (storeDinode mkfsSb s.image 1 (adjusted (dinodeAt mkfsSb s.image 1))) := by
  set root := dinodeAt mkfsSb s.image 1 with here
  have size : root.size.toNat = 16 * (files.length + 2) := h.root_size
  have ok : FsOk mkfsSb (s.scratch 1 root) := scratch_ok h.owned h.root_used
  have blocks : (adjusted root).blocks = root.blocks := by
    rw [adjusted_blocks (by omega), Dinode.blocks]
    omega
  have still : Elsewhere mkfsSb 0 (s.scratch 1 root) (s.scratch 1 (adjusted root)) := by
    refine ⟨fun ip other => ?_, rfl, fun _ _ _ => rfl, fun _ _ _ _ => rfl⟩
    simp only [scratch, if_neg other]
  have w : Working mkfsSb (s.scratch 1 (adjusted root)) 0 (holds (adjusted root).blocks) := by
    rw [blocks]
    exact (ok.working scratch_cached).keep still (fun _ _ => rfl) fun _ _ => rfl
  have shaped : Shaped s.image (adjusted root) (holds (adjusted root).blocks) := by
    rw [blocks]
    exact ok.shaped scratch_cached
  have few : (adjusted root).blocks ≤ 140 := by
    rw [blocks]
    exact ok.small scratch_cached
  have owned := (ok.commit scratch_cached still w shaped few h.root_used.2).1.owned
  simpa only [updated, scratch, if_true] using owned

theorem Catalog.root_pointer (h : s.Catalog (entriesOf files)) (k : Nat)
    : pointer (storeDinode mkfsSb s.image 1 (adjusted (dinodeAt mkfsSb s.image 1)))
        (adjusted (dinodeAt mkfsSb s.image 1)) k
      = pointer s.image (dinodeAt mkfsSb s.image 1) k := by
  have used := h.root_used
  refine pointer_storeDinode used.1 fun present => ?_
  have data := h.owned.data 1 used 140 (Nat.le_refl _) ((pointer_indirect_ne ..).mpr present)
  rw [pointer_indirect] at data
  exact data.1

/-- Where the last block of the root directory is full, the adjusted size counts a block that is
not there.
-/
theorem Catalog.adjusted_missing (h : s.Catalog (entriesOf files))
    (small : files.length + 2 ≤ 200) (full : (files.length + 2) % 32 = 0)
    : let disk := storeDinode mkfsSb s.image 1 (adjusted (dinodeAt mkfsSb s.image 1))
      allocated mkfsSb disk 1
        ∧ ∃ k < (dinodeAt mkfsSb disk 1).blocks, pointer disk (dinodeAt mkfsSb disk 1) k = 0 := by
  intro disk
  have size := h.root_size
  have stored : dinodeAt mkfsSb disk 1 = adjusted (dinodeAt mkfsSb s.image 1) :=
    dinodeAt_storeDinode
  have used := h.root_used
  have shaped := h.owned.shaped used
  have blocks : (dinodeAt mkfsSb s.image 1).blocks = (files.length + 2) / 32 := by
    rw [Dinode.blocks, size]
    omega
  refine ⟨⟨used.1, ?_⟩, (files.length + 2) / 32, ?_, ?_⟩
  · rw [stored]
    exact used.2
  · rw [stored, adjusted_blocks (by omega), size]
    omega
  · rw [stored, h.root_pointer]
    by_contra set
    have has := (shaped _ (by omega)).mp set
    rw [blocks, holds] at has
    omega

end

/-- For every list of files that fits, the image keeps the block ownership of the kernel exactly if
the entries of the root directory do not fill its last block.
-/
theorem image_owned_iff (files : List InputFile) (names : ∀ file ∈ files, slash ∉ file.name)
    (fits : Fits files)
    : ∃ img, mkfs files = some img
        ∧ (ImageOwned img.disk img.freeblock ↔ (files.length + 2) % 32 ≠ 0) := by
  obtain ⟨s, img, run, catalog, disk, freeblock⟩ := mkfs_spec names fits
  refine ⟨img, run, ?_⟩
  rw [disk, freeblock]
  constructor
  · intro owned full
    obtain ⟨used, k, inside, zero⟩ := catalog.adjusted_missing fits.inodes full
    exact owned.pointers 1 used k inside zero
  · intro part
    refine BlocksOwned.imageOwned (catalog.adjusted_owned fits.inodes part) fun b inside => ?_
    rw [marked_storeDinode (by decide), marked_image inside]

/-- `n` empty files called `a`, `aa` and so on. -/
def emptyFiles (n : Nat) : List InputFile :=
  (List.range n).map fun i => { name := List.replicate (i + 1) 97, reads := [] }

/-- A file `_hi` with the contents `hi`. -/
def hiFile : InputFile := { name := [95, 104, 105], reads := [[104], [105]] }

/-- Witness: an image with one file. -/
theorem image_owned_iff_one
    : ∃ img, mkfs [hiFile] = some img
        ∧ (ImageOwned img.disk img.freeblock ↔ ([hiFile].length + 2) % 32 ≠ 0) :=
  image_owned_iff [hiFile] (by decide) ⟨by decide, by decide, by decide⟩

/-- With thirty files the root directory has 32 entries, which fill one block. -/
theorem thirty_files_miss_block
    : ∃ img, mkfs (emptyFiles 30) = some img ∧ ¬ ImageOwned img.disk img.freeblock := by
  have fits : Fits (emptyFiles 30) := ⟨by decide, by decide, by decide⟩
  obtain ⟨s, img, run, catalog, disk, -⟩ := mkfs_spec (by decide) fits
  refine ⟨img, run, fun owned => ?_⟩
  rw [disk] at owned
  obtain ⟨used, k, inside, zero⟩ := catalog.adjusted_missing fits.inodes (by decide)
  exact owned.pointers 1 used k inside zero

end Xv6Net.Mkfs
