import Xv6Net.Fs.BlockMap

/-! A consistent file system: every block belongs to at most one inode, the bitmap says which
blocks belong to one, and the inode cache agrees with the disk.
-/

namespace Xv6Net.Fs

open Library Memory Program Function

/-- Block ownership: an inode in use has its pointers set exactly for the blocks of its contents
and, from the thirteenth block on, the indirect block. All these pointers are different data
blocks, and the bitmap marks a data block exactly if there is a pointer to it.
-/
structure BlocksOwned (sb : Superblock) (disk : Nat → Block) : Prop where
  small : ∀ i, allocated sb disk i → (dinodeAt sb disk i).blocks ≤ 140
  pointers
    : ∀ i, allocated sb disk i → ∀ k < 140,
        pointer disk (dinodeAt sb disk i) k ≠ 0 ↔ k < (dinodeAt sb disk i).blocks
  indirect
    : ∀ i, allocated sb disk i
        → (pointer disk (dinodeAt sb disk i) 140 ≠ 0 ↔ 12 * 512 < (dinodeAt sb disk i).size.toNat)
  data
    : ∀ i, allocated sb disk i → ∀ k ≤ 140, pointer disk (dinodeAt sb disk i) k ≠ 0
        → sb.dataStart ≤ pointer disk (dinodeAt sb disk i) k
          ∧ pointer disk (dinodeAt sb disk i) k < sb.size
  distinct
    : ∀ i j, allocated sb disk i → allocated sb disk j → ∀ k ≤ 140, ∀ l ≤ 140,
        pointer disk (dinodeAt sb disk i) k ≠ 0
        → pointer disk (dinodeAt sb disk i) k = pointer disk (dinodeAt sb disk j) l
        → i = j ∧ k = l
  bitmap
    : ∀ b, sb.dataStart ≤ b → b < sb.size
        → (marked sb disk b = true
          ↔ ∃ i k, allocated sb disk i ∧ k ≤ 140 ∧ pointer disk (dinodeAt sb disk i) k = b)
  reserved : ∀ b < sb.dataStart, marked sb disk b = true

section

variable {sb : Superblock} {disk : Nat → Block}

theorem twelve_lt_blocks (d : Dinode) : 12 < d.blocks ↔ 12 * 512 < d.size.toNat := by
  rw [Dinode.blocks]
  omega

theorem BlocksOwned.shaped (h : BlocksOwned sb disk) {i : Nat} (used : allocated sb disk i)
    : Shaped disk (dinodeAt sb disk i) (holds (dinodeAt sb disk i).blocks) := by
  intro k last
  have small := h.small i used
  rcases Nat.lt_or_ge k 140 with inside | top
  · rw [h.pointers i used k inside, holds]
    omega
  · obtain rfl : k = 140 := by omega
    rw [h.indirect i used, ← twelve_lt_blocks, holds]
    omega

theorem BlocksOwned.set_of_live (h : BlocksOwned sb disk) {i k : Nat} (lives : live sb disk (i, k))
    : k ≤ 140 ∧ pointer disk (dinodeAt sb disk i) k ≠ 0 := by
  obtain ⟨used, has⟩ := lives
  have small := h.small i used
  have last : k ≤ 140 := by
    simp only [holds] at has
    omega
  exact ⟨last, (h.shaped used k last).mpr has⟩

/-- The inodes on the disk, as one map from places to blocks. -/
theorem BlocksOwned.mapped (h : BlocksOwned sb disk)
    : Mapped sb disk (dinodeAt sb disk) (live sb disk) := by
  refine ⟨⟨?_, ?_⟩, h.reserved, ?_, ?_⟩
  · rintro ⟨i, k⟩ ⟨j, l⟩ first_ second equal
    obtain ⟨lastK, setK⟩ := h.set_of_live first_
    obtain ⟨rfl, rfl⟩ := h.distinct i j first_.1 second.1 k lastK l (h.set_of_live second).1
      setK equal
    rfl
  · intro b
    constructor
    · rintro ⟨low, high, mark⟩
      obtain ⟨i, k, used, last, there⟩ := (h.bitmap b low high).mp mark
      refine ⟨(i, k), ⟨used, (h.shaped used k last).mp ?_⟩, there⟩
      rw [there]
      rw [Superblock.dataStart] at low
      omega
    · rintro ⟨⟨i, k⟩, lives, rfl⟩
      obtain ⟨last, set⟩ := h.set_of_live lives
      have place := h.data i lives.1 k last set
      exact ⟨place.1, place.2, (h.bitmap _ place.1 place.2).mpr ⟨i, k, lives.1, last, rfl⟩⟩
  · rintro ⟨i, k⟩ lives
    exact (h.set_of_live lives).1
  · rintro i k ⟨used, has⟩ low
    refine ⟨used, Or.inr ⟨rfl, ?_⟩⟩
    simp only [holds] at has ⊢
    omega

/-- The invariant of the block map and the shapes of the inodes give block ownership. -/
theorem BlocksOwned.of_mapped (mapped : Mapped sb disk (dinodeAt sb disk) (live sb disk))
    (shaped : ∀ i, allocated sb disk i
      → Shaped disk (dinodeAt sb disk i) (holds (dinodeAt sb disk i).blocks)
        ∧ (dinodeAt sb disk i).blocks ≤ 140)
    : BlocksOwned sb disk := by
  have lives : ∀ i, allocated sb disk i → ∀ k ≤ 140, pointer disk (dinodeAt sb disk i) k ≠ 0
      → live sb disk (i, k) :=
    fun i used k last set => ⟨used, ((shaped i used).1 k last).mp set⟩
  refine ⟨fun i used => (shaped i used).2, ?_, ?_, ?_, ?_, ?_, mapped.reserved⟩
  · intro i used k inside
    rw [(shaped i used).1 k (by omega), holds]
    omega
  · intro i used
    have small := (shaped i used).2
    rw [(shaped i used).1 140 (Nat.le_refl _), ← twelve_lt_blocks, holds]
    omega
  · intro i used k last set
    exact mapped.data_of_live (lives i used k last set)
  · intro i j used used' k last l last' set equal
    have set' : pointer disk (dinodeAt sb disk j) l ≠ 0 := equal ▸ set
    have same := mapped.owns.distinct (lives i used k last set) (lives j used' l last' set') equal
    exact Prod.mk.inj same
  · intro b low high
    constructor
    · intro mark
      obtain ⟨⟨i, k⟩, lives', there⟩ := (mapped.owns.used_iff b).mp ⟨low, high, mark⟩
      exact ⟨i, k, lives'.1, mapped.bounded _ lives', there⟩
    · rintro ⟨i, k, used, last, rfl⟩
      have set : pointer disk (dinodeAt sb disk i) k ≠ 0 := by
        rw [Superblock.dataStart] at low
        omega
      exact (mapped.owns.used_of_live (lives i used k last set)).2.2

/-- A disk whose inodes in use are empty, with only the blocks before the data marked, is
consistent.
-/
theorem BlocksOwned.of_empty
    (empty : ∀ i, allocated sb disk i
      → (dinodeAt sb disk i).size = 0 ∧ (dinodeAt sb disk i).addrs = fun _ => 0)
    (marks : ∀ b < sb.size, marked sb disk b = decide (b < sb.dataStart))
    : BlocksOwned sb disk := by
  have zero : ∀ i, allocated sb disk i → ∀ k, pointer disk (dinodeAt sb disk i) k = 0 := by
    intro i used k
    simp [pointer, (empty i used).2]
  have blocks : ∀ i, allocated sb disk i → (dinodeAt sb disk i).blocks = 0 := by
    intro i used
    simp [Dinode.blocks, (empty i used).1]
  have fits := sb.bitmapFits
  refine ⟨?_, ?_, ?_, ?_, ?_, ?_, ?_⟩
  · intro i used
    rw [blocks i used]
    omega
  · intro i used k _
    simp [zero i used, blocks i used]
  · intro i used
    simp [zero i used, (empty i used).1]
  · intro i used k _ set
    exact (set (zero i used k)).elim
  · intro i j used _ k _ l _ set
    exact (set (zero i used k)).elim
  · intro b low high
    rw [marks b high, decide_eq_true_eq]
    constructor
    · omega
    · rintro ⟨i, k, used, -, rfl⟩
      rw [zero i used, Superblock.dataStart] at low
      omega
  · intro b low
    rw [marks b (by rw [Superblock.dataStart] at low; omega), decide_eq_true low]

end

/-- The slot holds an inode of the table that has been read from disk. -/
def Cached (s : FsState) (ip : Nat) : Prop :=
  ip < nInode ∧ 0 < (s.icache ip).ref ∧ (s.icache ip).valid = true

/-- The disk is consistent, no inode is in two slots, and a slot that has been read agrees with
the disk.
-/
structure FsOk (sb : Superblock) (s : FsState) : Prop where
  owned : BlocksOwned sb s.disk
  unique
    : ∀ ip < nInode, ∀ jp < nInode, 0 < (s.icache ip).ref → 0 < (s.icache jp).ref
        → (s.icache ip).inum = (s.icache jp).inum → ip = jp
  dev : ∀ ip < nInode, 0 < (s.icache ip).ref → (s.icache ip).dev = rootDev
  synced
    : ∀ ip, Cached s ip
        → allocated sb s.disk (s.icache ip).inum
          ∧ (s.icache ip).copy = dinodeAt sb s.disk (s.icache ip).inum

section

variable {sb : Superblock} {s s' : FsState} {ip : Nat} {held : Nat → Prop}

theorem view_of_synced (same : (s.icache ip).copy = dinodeAt sb s.disk (s.icache ip).inum)
    : view sb s ip = dinodeAt sb s.disk := by
  rw [view, same, update_eq_self]

/-- An inode in the cache may be worked on. -/
theorem FsOk.working (ok : FsOk sb s) (cached : Cached s ip)
    : Working sb s ip (holds (s.icache ip).copy.blocks) := by
  obtain ⟨used, same⟩ := ok.synced ip cached
  refine ⟨used.1, ?_, fun i _ used => ⟨ok.owned.shaped used, ok.owned.small i used⟩⟩
  rw [view_of_synced same]
  refine ok.owned.mapped.congr ?_ (fun _ _ _ => rfl) fun _ _ => rfl
  rintro ⟨i, k⟩
  by_cases here : i = (s.icache ip).inum
  · rw [here, workKeys_self, same, live]
    exact (and_iff_right used).symm
  · rw [workKeys_of_ne here]

theorem FsOk.shaped (ok : FsOk sb s) (cached : Cached s ip)
    : Shaped s.disk (s.icache ip).copy (holds (s.icache ip).copy.blocks) := by
  obtain ⟨used, same⟩ := ok.synced ip cached
  rw [same]
  exact ok.owned.shaped used

theorem FsOk.small (ok : FsOk sb s) (cached : Cached s ip) : (s.icache ip).copy.blocks ≤ 140 := by
  obtain ⟨used, same⟩ := ok.synced ip cached
  rw [same]
  exact ok.owned.small _ used

/-- Work on an inode ends in a consistent disk once the inode is on disk as it is in the slot. -/
theorem Working.owned (w : Working sb s ip held)
    (same : (s.icache ip).copy = dinodeAt sb s.disk (s.icache ip).inum)
    (keys : ∀ k, held k ↔ (s.icache ip).copy.type ≠ 0 ∧ holds (s.icache ip).copy.blocks k)
    (shaped : (s.icache ip).copy.type ≠ 0
      → Shaped s.disk (s.icache ip).copy (holds (s.icache ip).copy.blocks)
        ∧ (s.icache ip).copy.blocks ≤ 140)
    : BlocksOwned sb s.disk := by
  refine .of_mapped ?_ ?_
  · have mapped := w.mapped
    rw [view_of_synced same] at mapped
    refine mapped.congr ?_ (fun _ _ _ => rfl) fun _ _ => rfl
    rintro ⟨i, k⟩
    by_cases here : i = (s.icache ip).inum
    · rw [here, workKeys_self, keys k, same, live, allocated]
      simp [w.inside]
    · rw [workKeys_of_ne here]
  · intro i used
    by_cases here : i = (s.icache ip).inum
    · rw [here, ← same]
      refine shaped ?_
      rw [same, ← here]
      exact used.2
    · exact w.others i here used

/-- Afterwards the other inodes and slots are as they were. -/
theorem FsOk.changed (ok : FsOk sb s) (cached : Cached s ip) (elsewhere : Elsewhere sb ip s s')
    (owned : BlocksOwned sb s'.disk) (used : (s'.icache ip).copy.type ≠ 0)
    (same : (s'.icache ip).copy = dinodeAt sb s'.disk (s'.icache ip).inum)
    : FsOk sb s' := by
  have slot := slots_rel
    (fun x y => y.ref = x.ref ∧ y.inum = x.inum ∧ y.dev = x.dev ∧ y.valid = x.valid)
    (fun _ => ⟨rfl, rfl, rfl, rfl⟩) (by rw [elsewhere.slot]; exact ⟨rfl, rfl, rfl, rfl⟩)
    elsewhere.slots
  refine ⟨owned, ?_, ?_, ?_⟩
  · intro jp inside kp inside' referenced referenced' equal
    rw [(slot jp).1] at referenced
    rw [(slot kp).1] at referenced'
    rw [(slot jp).2.1, (slot kp).2.1] at equal
    exact ok.unique jp inside kp inside' referenced referenced' equal
  · intro jp inside referenced
    rw [(slot jp).1] at referenced
    rw [(slot jp).2.2.1]
    exact ok.dev jp inside referenced
  · intro jp cached'
    have before : Cached s jp := by
      refine ⟨cached'.1, ?_, ?_⟩
      · rw [← (slot jp).1]
        exact cached'.2.1
      · rw [← (slot jp).2.2.2]
        exact cached'.2.2
    by_cases here : jp = ip
    · rw [here]
      refine ⟨⟨?_, same ▸ used⟩, same⟩
      rw [elsewhere.inum]
      exact (ok.synced ip cached).1.1
    · obtain ⟨⟨table, type⟩, equal⟩ := ok.synced jp before
      have other : (s.icache jp).inum ≠ (s.icache ip).inum := fun same =>
        here (ok.unique jp before.1 ip cached.1 before.2.1 cached.2.1 same)
      rw [elsewhere.slots jp here]
      have kept := elsewhere.spares.dinodes _ table other
      exact ⟨⟨table, kept ▸ type⟩, equal.trans kept.symm⟩

end

/-- The disk after an inode has been stored in the table. -/
def storeDinode (sb : Superblock) (disk : Nat → Block) (i : Nat) (d : Dinode) : Nat → Block :=
  update disk (sb.iblock i)
    (overlay (disk (sb.iblock i)) (64 * (i % 8 : Nat)) d.bytes)

section

variable {sb : Superblock} {disk : Nat → Block} {i : Nat} {d : Dinode}

theorem dinodeAt_storeDinode : dinodeAt sb (storeDinode sb disk i d) i = d := by
  rw [dinodeAt, storeDinode, update_self, readDinode_overlay]

/-- The other inodes in the same block stay. -/
theorem dinodeAt_storeDinode_of_ne {j : Nat} (other : j ≠ i)
    : dinodeAt sb (storeDinode sb disk i d) j = dinodeAt sb disk j := by
  rw [dinodeAt, dinodeAt, storeDinode]
  by_cases block : sb.iblock j = sb.iblock i
  · rw [block, update_self, readDinode_overlay_disjoint]
    rw [Dinode.length_bytes]
    rw [Superblock.iblock, Superblock.iblock] at block
    omega
  · rw [update_of_ne block]

theorem storeDinode_of_le {c : Nat} (inside : i < sb.ninodes) (beyond : sb.bmapstart ≤ c)
    : storeDinode sb disk i d c = disk c := by
  have low := sb.iblock_lt inside
  rw [storeDinode, update_of_ne (by omega)]

theorem marked_storeDinode {b : Nat} (inside : i < sb.ninodes)
    : marked sb (storeDinode sb disk i d) b = marked sb disk b := by
  refine marked_congr (storeDinode_of_le inside ?_)
  rw [Superblock.bblock]
  omega

theorem pointer_storeDinode {e : Dinode} (inside : i < sb.ninodes) {k : Nat}
    (data : e.addrs 12 ≠ 0 → sb.dataStart ≤ (e.addrs 12).toNat)
    : pointer (storeDinode sb disk i d) e k = pointer disk e k := by
  refine pointer_congr (fun present => storeDinode_of_le inside ?_) k
  have low := data present
  rw [Superblock.dataStart] at low
  omega

end

section

variable {sb : Superblock} {s : FsState} {ip : Nat} {held : Nat → Prop}

/-- The state after `iupdate` of the slot. -/
def updated (sb : Superblock) (s : FsState) (ip : Nat) : FsState :=
  { s with disk := storeDinode sb s.disk (s.icache ip).inum (s.icache ip).copy }

theorem iupdate_ensures {env : FsEnv} {halt : Prop} {post : Unit → FsState → Prop}
    (holds_ : post () (updated env.sb s ip))
    : Ensures Sound halt (iupdate ip) env s post :=
  sb_next (inode_next (updateBlock_ensures holds_))

theorem iupdate_next {env : FsEnv} {halt : Prop} {β : Type} {next : Unit → FsM β}
    {post : β → FsState → Prop} (rest : Ensures Sound halt (next ()) env (updated env.sb s ip) post)
    : Ensures Sound halt (iupdate ip >>= next) env s post := by
  have changed : Ensures Sound halt (iupdate ip) env s fun _ after => after = updated env.sb s ip :=
    iupdate_ensures rfl
  refine changed.bind ?_
  rintro _ _ rfl
  exact rest

theorem Working.updated_elsewhere (w : Working sb s ip held)
    : Elsewhere sb ip s (updated sb s ip) := by
  refine ⟨fun _ _ => rfl, rfl, fun i _ other => dinodeAt_storeDinode_of_ne other, ?_⟩
  intro i k other lives
  have data := (w.mapped.data_of_live ((workKeys_of_ne other).mpr lives)).1
  rw [view_of_ne other, Superblock.dataStart] at data
  exact storeDinode_of_le w.inside (by omega)

theorem Working.indirect_data (w : Working sb s ip held)
    (shaped : Shaped s.disk (s.icache ip).copy held) (present : (s.icache ip).copy.addrs 12 ≠ 0)
    : sb.dataStart ≤ ((s.icache ip).copy.addrs 12).toNat := by
  have data := (w.mapped.data_of_live (workKeys_self.mpr (shaped.indirect.mp present))).1
  rw [view_self, pointer_indirect] at data
  exact data

/-- `iupdate` brings the inode to the disk. -/
theorem Working.updated_keeps (w : Working sb s ip held)
    (shaped : Shaped s.disk (s.icache ip).copy held)
    : Working sb (updated sb s ip) ip held
      ∧ Shaped (updated sb s ip).disk (s.icache ip).copy held := by
  have same : ∀ k, pointer (updated sb s ip).disk (s.icache ip).copy k
      = pointer s.disk (s.icache ip).copy k :=
    fun k => pointer_storeDinode w.inside (w.indirect_data shaped)
  refine ⟨w.keep w.updated_elsewhere (fun k _ => same k) fun b _ => marked_storeDinode w.inside, ?_⟩
  intro k last
  rw [same]
  exact shaped k last

/-- A change to the copy of an inode, and then `iupdate`, keeps the file system consistent. -/
theorem FsOk.commit {s' : FsState} (ok : FsOk sb s) (cached : Cached s ip)
    (elsewhere : Elsewhere sb ip s s') (w : Working sb s' ip (holds (s'.icache ip).copy.blocks))
    (shaped : Shaped s'.disk (s'.icache ip).copy (holds (s'.icache ip).copy.blocks))
    (small : (s'.icache ip).copy.blocks ≤ 140) (type : (s'.icache ip).copy.type ≠ 0)
    : FsOk sb (updated sb s' ip) ∧ Elsewhere sb ip s (updated sb s' ip) := by
  obtain ⟨w', shaped'⟩ := w.updated_keeps shaped
  have same : (s'.icache ip).copy = dinodeAt sb (updated sb s' ip).disk (s'.icache ip).inum :=
    dinodeAt_storeDinode.symm
  have whole := elsewhere.trans (ok.working cached) w.updated_elsewhere
  refine ⟨ok.changed cached whole ?_ type same, whole⟩
  refine w'.owned same (fun k => ?_) fun _ => ⟨shaped', small⟩
  exact (and_iff_right type).symm

end

end Xv6Net.Fs
