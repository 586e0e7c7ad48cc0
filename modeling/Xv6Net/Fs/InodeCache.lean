import Xv6Net.Fs.Truncation

/-! The inode cache: what `iget`, `ilock`, `ialloc` and the reference counts do to a consistent
file system.
-/

namespace Xv6Net.Fs

open Library Memory Program

/-- A disk with an inode cache that has not been used yet. -/
def unused (disk : Nat → Block) : FsState :=
  { disk
    icache := fun _ =>
      { dev := 0, inum := 0, ref := 0, locked := false, valid := false, copy := freshDinode 0 } }

/-- `iget` has returned a slot: the one that held the inode, with one more reference, or a free
one.
-/
structure Got (dev : UInt32) (inum ip : Nat) (s s' : FsState) : Prop where
  inside : ip < nInode
  disk : s'.disk = s.disk
  slots : ∀ jp, jp ≠ ip → s'.icache jp = s.icache jp
  slot
    : 0 < (s.icache ip).ref ∧ (s.icache ip).dev = dev ∧ (s.icache ip).inum = inum
        ∧ s'.icache ip = { s.icache ip with ref := (s.icache ip).ref + 1 }
      ∨ (∀ jp < nInode, ¬ (0 < (s.icache jp).ref ∧ (s.icache jp).dev = dev
          ∧ (s.icache jp).inum = inum))
        ∧ (s.icache ip).ref = 0
        ∧ s'.icache ip = { s.icache ip with dev, inum, ref := 1, valid := false }

section

variable {env : FsEnv} {sb : Superblock} {s s' : FsState} {dev : UInt32} {inum ip : Nat}
  {halt : Prop}

/-- A slot that has the inode, or else an empty one. -/
theorem iget_ensures {ok : FsEvent → Prop}
    (full : (∀ jp < nInode, (s.icache jp).ref ≠ 0) → ok (.panic .igetNoInodes) ∧ halt)
    : Ensures ok halt (iget dev inum) env s fun ip after => Got dev inum ip s after := by
  rw [iget]
  refine .next rfl ?_
  cases found : (List.range nInode).find? (fun ip => decide
      ((s.icache ip).ref > 0 ∧ (s.icache ip).dev = dev ∧ (s.icache ip).inum = inum)) with
  | some ip =>
    have here := List.find?_some found
    have inside := List.mem_range.mp (List.mem_of_find?_eq_some found)
    simp only [decide_eq_true_eq] at here
    simp only
    refine setInode_next (.pure ⟨inside, rfl, fun jp other => withSlot_of_ne _ other, ?_⟩)
    exact Or.inl ⟨here.1, here.2.1, here.2.2, withSlot_self ..⟩
  | none =>
    cases empty : (List.range nInode).find? (fun ip => decide ((s.icache ip).ref = 0)) with
    | none =>
      have full' : ∀ jp < nInode, (s.icache jp).ref ≠ 0 := by
        intro jp inside
        simpa using List.find?_eq_none.mp empty jp (List.mem_range.mpr inside)
      exact panic_halts (full full')
    | some =>
      have free := List.find?_some empty
      have inside := List.mem_range.mp (List.mem_of_find?_eq_some empty)
      simp only [decide_eq_true_eq] at free
      simp only
      refine setInode_next (.pure ⟨inside, rfl, fun jp other => withSlot_of_ne _ other, ?_⟩)
      refine Or.inr ⟨fun jp inside' => ?_, free, withSlot_self ..⟩
      have none_ := List.find?_eq_none.mp found jp (List.mem_range.mpr inside')
      simpa using none_

theorem Got.locked (got : Got dev inum ip s s')
    : ∀ jp, (s'.icache jp).locked = (s.icache jp).locked := by
  refine slots_rel (fun x y => y.locked = x.locked) (fun _ => rfl) ?_ got.slots
  rcases got.slot with ⟨-, -, -, slot⟩ | ⟨-, -, slot⟩ <;> rw [slot]

theorem Got.referenced (got : Got dev inum ip s s') : 0 < (s'.icache ip).ref := by
  rcases got.slot with ⟨before, -, -, slot⟩ | ⟨-, -, slot⟩
  · rw [slot]
    simp only
    omega
  · rw [slot]
    exact Int.one_pos

theorem Got.inum_eq (got : Got dev inum ip s s') : (s'.icache ip).inum = inum := by
  rcases got.slot with ⟨-, -, here, slot⟩ | ⟨-, -, slot⟩
  · rw [slot]
    exact here
  · rw [slot]

/-- The inode is not read yet, so there is nothing to go wrong. -/
theorem Got.ok (got : Got rootDev inum ip s s') (ok : FsOk sb s) : FsOk sb s' := by
  rcases got.slot with ⟨before, dev, here, slot⟩ | ⟨absent, free, slot⟩
  · refine ok.slot_changed got.disk got.slots ?_ ?_ ?_ ?_ <;> rw [slot]
    · exact fun _ => before
    · exact fun valid => ⟨valid, rfl⟩
  · have inum' : (s'.icache ip).inum = inum := by rw [slot]
    have other : ∀ jp < nInode, jp ≠ ip → 0 < (s'.icache jp).ref
        → (s'.icache jp).inum ≠ inum := by
      intro jp inside other referenced equal
      rw [got.slots jp other] at referenced equal
      exact absent jp inside ⟨referenced, ok.dev jp inside referenced, equal⟩
    refine ⟨got.disk ▸ ok.owned, ?_, ?_, ?_⟩
    · intro jp inside kp inside' referenced referenced' equal
      by_cases first_ : jp = ip
      · by_cases second : kp = ip
        · rw [first_, second]
        · rw [first_, inum'] at equal
          exact (other kp inside' second referenced' equal.symm).elim
      · by_cases second : kp = ip
        · rw [second, inum'] at equal
          exact (other jp inside first_ referenced equal).elim
        · rw [got.slots jp first_] at referenced equal
          rw [got.slots kp second] at referenced' equal
          exact ok.unique jp inside kp inside' referenced referenced' equal
    · intro jp inside referenced
      by_cases here : jp = ip
      · rw [here, slot]
      · rw [got.slots jp here] at referenced ⊢
        exact ok.dev jp inside referenced
    · intro jp cached
      have here : jp ≠ ip := by
        rintro rfl
        rw [Cached, slot] at cached
        exact Bool.noConfusion cached.2.2
      rw [Cached, got.slots jp here] at cached
      rw [got.slots jp here, got.disk]
      exact ok.synced jp cached

end

/-- `ilock` has returned: the slot holds the inode as it is on disk. -/
structure Locked (sb : Superblock) (ip : Nat) (s s' : FsState) : Prop where
  ok : FsOk sb s'
  cached : Cached s' ip
  disk : s'.disk = s.disk
  slots : ∀ jp, jp ≠ ip → s'.icache jp = s.icache jp
  slot
    : s'.icache ip
      = { s.icache ip with
          locked := true, valid := true, copy := dinodeAt sb s.disk (s.icache ip).inum }

section

variable {env : FsEnv} {s : FsState} {ip : Nat}

theorem Locked.of_slot {sb : Superblock} {s' : FsState} (ok : FsOk sb s) (inside : ip < nInode)
    (referenced : 0 < (s.icache ip).ref) (used : allocated sb s.disk (s.icache ip).inum)
    (disk : s'.disk = s.disk) (slots : ∀ jp, jp ≠ ip → s'.icache jp = s.icache jp)
    (slot : s'.icache ip
      = { s.icache ip with
          locked := true, valid := true, copy := dinodeAt sb s.disk (s.icache ip).inum })
    : Locked sb ip s s' := by
  refine ⟨?_, ?_, disk, slots, slot⟩
  · refine ok.slot_read disk slots ?_ ?_ (fun _ => referenced) fun _ => ⟨used, ?_⟩
    all_goals rw [slot]
  · rw [Cached, slot]
    exact ⟨inside, referenced, rfl⟩

variable {ok : FsEvent → Prop} {halt : Prop}

/-- `ilock` of a slot that agrees with the disk if it has been read. -/
theorem ilock_slot (unreferenced : (s.icache ip).ref < 1 → ok (.panic .ilock) ∧ halt)
    (stuck : (s.icache ip).locked = true → halt)
    (synced : 0 < (s.icache ip).ref → (s.icache ip).valid = true
      → (s.icache ip).copy = dinodeAt env.sb s.disk (s.icache ip).inum)
    (free : (dinodeAt env.sb s.disk (s.icache ip).inum).type = 0
      → ok (.panic .ilockNoType) ∧ halt)
    : Ensures ok halt (ilock ip) env s fun _ after =>
        0 < (s.icache ip).ref
        ∧ ((s.icache ip).valid = false → (dinodeAt env.sb s.disk (s.icache ip).inum).type ≠ 0)
        ∧ after = withSlot s ip fun node =>
            { node with
              locked := true, valid := true, copy := dinodeAt env.sb s.disk node.inum } := by
  rw [ilock]
  refine inode_next (.ite (fun low => panic_halts (unreferenced low)) fun referenced => ?_)
  have referenced : 0 < (s.icache ip).ref := by omega
  refine acquiresleep_next stuck fun _ => inode_next ?_
  rw [withSlot_self]
  refine .ite (fun valid => ?_) fun invalid => ?_
  · have valid : (s.icache ip).valid = true := valid
    refine .pure ⟨referenced, fun invalid => absurd (valid.symm.trans invalid) (by decide), ?_⟩
    rw [withSlot, withSlot, ← synced referenced valid]
    simp only [← valid]
  · refine sb_next (bread_next (setInode_next (inode_next ?_)))
    rw [withSlot_withSlot, withSlot_self, withSlot_disk]
    refine .ite (fun none_ => panic_halts (free none_)) fun used => ?_
    exact .pure ⟨referenced, fun _ => used, rfl⟩

/-- The slot has the inode as it is on the disk. -/
theorem ilock_ensures (ok : FsOk env.sb s) (inside : ip < nInode)
    (table : (s.icache ip).inum < env.sb.ninodes)
    : Ensures Sound True (ilock ip) env s fun _ after => Locked env.sb ip s after := by
  refine (ilock_slot (fun _ => ⟨⟨nofun, nofun⟩, trivial⟩) (fun _ => trivial)
    (fun referenced valid => (ok.synced ip ⟨inside, referenced, valid⟩).2)
    fun _ => ⟨⟨nofun, nofun⟩, trivial⟩).weaken ?_
  rintro _ _ ⟨referenced, used, rfl⟩
  refine .of_slot ok inside referenced ⟨table, ?_⟩ rfl (fun jp => withSlot_of_ne _)
    (withSlot_self ..)
  cases valid : (s.icache ip).valid with
  | true => exact (ok.synced ip ⟨inside, referenced, valid⟩).1.2
  | false => exact used valid

theorem iunlock_held (locked : (s.icache ip).locked = true) (referenced : 0 < (s.icache ip).ref)
    : Ensures ok halt (iunlock ip) env s fun _ after =>
        after = withSlot s ip fun node => { node with locked := false } := by
  rw [iunlock]
  refine inode_next ?_
  have held : ¬ ((s.icache ip).locked = false ∨ (s.icache ip).ref < 1) := by
    rw [locked]
    simp only [Bool.true_eq_false, false_or]
    omega
  rw [if_neg held]
  exact setInode_ensures rfl

end

/-- `ialloc` has stored a new inode and returned a slot for it. -/
structure Allocated (sb : Superblock) (type : UInt16) (inum ip : Nat) (s s' : FsState) : Prop where
  ok : FsOk sb s'
  positive : 0 < inum
  table : inum < sb.ninodes
  free : (dinodeAt sb s.disk inum).type = 0
  spares : Spares sb inum s.disk s'.disk
  dinode : dinodeAt sb s'.disk inum = freshDinode type
  got : Got rootDev inum ip { s with disk := s'.disk } s'

section

variable {env : FsEnv} {sb : Superblock} {s : FsState} {inum : Nat} {type : UInt16}

variable {disk : Nat → Block}

theorem storeDinode_spares (owned : BlocksOwned sb disk) (table : inum < sb.ninodes) (d : Dinode)
    : Spares sb inum disk (storeDinode sb disk inum d) := by
  refine ⟨fun i _ other => dinodeAt_storeDinode_of_ne other, fun i k _ lives => ?_⟩
  have data := (owned.mapped.data_of_live lives).1
  rw [Superblock.dataStart] at data
  exact storeDinode_of_le table (by omega)

theorem BlocksOwned.store_empty {d : Dinode} (owned : BlocksOwned sb disk)
    (table : inum < sb.ninodes) (free : (dinodeAt sb disk inum).type = 0) (size : d.size = 0)
    (addrs : d.addrs = fun _ => 0)
    : BlocksOwned sb (storeDinode sb disk inum d) := by
  have spares := storeDinode_spares owned table d
  have stored : dinodeAt sb (storeDinode sb disk inum d) inum = d := dinodeAt_storeDinode
  have empty : ∀ k, ¬ holds d.blocks k := by
    intro k
    simp [holds, Dinode.blocks, size]
  refine .of_mapped (owned.mapped.congr ?_ ?_ fun b _ => marked_storeDinode table) ?_
  · rintro ⟨i, k⟩
    by_cases here : i = inum
    · rw [here, live, live, allocated, allocated, stored]
      simp [free, empty k]
    · exact spares.live_iff here
  · intro i k lives
    have other : i ≠ inum := by
      rintro rfl
      exact lives.1.2 free
    exact spares.pointer_eq other lives.1 (owned.shaped lives.1) k
  · intro i used
    by_cases here : i = inum
    · rw [here, stored]
      refine ⟨fun k last => ?_, by simp [Dinode.blocks, size]⟩
      rw [shaped_of_zero addrs k last]
      simp [empty k]
    · have used' := (spares.allocated_iff here).mp used
      rw [spares.dinodes i used.1 here]
      refine ⟨fun k last => ?_, owned.small i used'⟩
      have same := spares.pointer_eq here used' (owned.shaped used') k
      rw [spares.dinodes i used.1 here] at same
      rw [same]
      exact owned.shaped used' k last

theorem FsOk.store_fresh (ok : FsOk sb s) (table : inum < sb.ninodes)
    (free : (dinodeAt sb s.disk inum).type = 0)
    : FsOk sb { s with disk := storeDinode sb s.disk inum (freshDinode type) } := by
  refine ⟨ok.owned.store_empty table free rfl rfl, ok.unique, ok.dev, fun ip cached => ?_⟩
  obtain ⟨used, copy⟩ := ok.synced ip cached
  have other : (s.icache ip).inum ≠ inum := by
    rintro rfl
    exact used.2 free
  have kept := (storeDinode_spares ok.owned table (freshDinode type)).dinodes _ used.1 other
  exact ⟨⟨used.1, kept ▸ used.2⟩, copy.trans kept.symm⟩

theorem iallocLoop_ensures (ok : FsOk env.sb s) {fuel : Nat} (positive : 0 < inum)
    : Ensures Sound True (iallocLoop rootDev type fuel inum) env s fun ip after =>
        ∃ inum, Allocated env.sb type inum ip s after := by
  induction fuel generalizing inum with
  | zero => exact panic_ensures (by decide) trivial
  | succ fuel ih =>
    rw [iallocLoop]
    refine sb_next (.ite (fun table => ?_) fun _ => panic_ensures (by decide) trivial)
    refine bread_next (.ite (fun free => ?_) fun _ => ih (Nat.succ_pos inum))
    refine updateBlock_next ?_
    refine (iget_ensures fun _ => ⟨⟨nofun, nofun⟩, trivial⟩).weaken fun ip after got => ⟨inum, ?_⟩
    have disk : after.disk = storeDinode env.sb s.disk inum (freshDinode type) := got.disk
    refine ⟨got.ok (ok.store_fresh table free), positive, table, free, ?_, ?_, ?_⟩
    · rw [disk]
      exact storeDinode_spares ok.owned table _
    · rw [disk]
      exact dinodeAt_storeDinode
    · rw [disk]
      exact got

/-- `ialloc` takes an inode that is free on the disk. -/
theorem ialloc_ensures (ok : FsOk env.sb s)
    : Ensures Sound True (ialloc rootDev type) env s fun ip after =>
        ∃ inum, Allocated env.sb type inum ip s after :=
  sb_next (iallocLoop_ensures ok Nat.one_pos)

end

end Xv6Net.Fs
