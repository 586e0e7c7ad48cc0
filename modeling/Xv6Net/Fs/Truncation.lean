import Xv6Net.Fs.FileData

/-! `itrunc` gives back every block of an inode, and `iput` frees an inode that has no links and
no other references.
-/

namespace Xv6Net.Fs

open Library Memory Program Function

section

variable {sb : Superblock} {s : FsState} {ip : Nat} {held : Nat → Prop}

/-- The state after `bfree` of the block. -/
def released (sb : Superblock) (s : FsState) (b : Nat) : FsState :=
  { s with disk := release sb s.disk b }

theorem released_of_le {b c : Nat} (inside : b < sb.size) (data : sb.dataStart ≤ c)
    : (released sb s b).disk c = s.disk c := by
  have bitmap := (sb.bblock_lt inside).2
  exact release_of_ne (by omega)

variable {k : Nat}

section

variable (w : Working sb s ip held)
include w

theorem Working.marked_of_held (has : held k)
    : marked sb s.disk (pointer s.disk (s.icache ip).copy k) = true := by
  have used := (w.mapped.owns.used_of_live (workKeys_self.mpr has)).2.2
  simp only [view_self] at used
  exact used

theorem Working.data_of_held (has : held k)
    : sb.dataStart ≤ pointer s.disk (s.icache ip).copy k
      ∧ pointer s.disk (s.icache ip).copy k < sb.size := by
  have data := w.mapped.data_of_live (workKeys_self.mpr has)
  rw [view_self] at data
  exact data

/-- `bfree` of a block that the inode holds. -/
theorem Working.release (has : held k) (last : k = 140 → ∀ j, held j → 12 ≤ j → j = 140)
    : Working sb (released sb s (pointer s.disk (s.icache ip).copy k)) ip (fun j => j ≠ k ∧ held j)
      ∧ Elsewhere sb ip s (released sb s (pointer s.disk (s.icache ip).copy k)) := by
  have inside := (w.data_of_held has).2
  have bitmap := sb.bblock_lt inside
  have elsewhere : Elsewhere sb ip s (released sb s (pointer s.disk (s.icache ip).copy k)) := by
    refine ⟨fun _ _ => rfl, rfl, fun i table _ => ?_, fun i j other lives => ?_⟩
    · have low := sb.iblock_lt table
      exact dinodeAt_congr (release_of_ne (by omega))
    · have data := (w.mapped.data_of_live ((workKeys_of_ne other).mpr lives)).1
      rw [view_of_ne other] at data
      exact released_of_le inside data
  refine ⟨w.unassign elsewhere has last (fun j _ has' => ?_) fun c _ => marked_release, elsewhere⟩
  have kept : ∀ i, workKeys sb s ip held (i, 140)
      → (released sb s (pointer s.disk (s.icache ip).copy k)).disk
          (pointer s.disk (view sb s ip i) 140)
        = s.disk (pointer s.disk (view sb s ip i) 140) :=
    fun i lives => released_of_le inside (w.mapped.data_of_live lives).1
  have same := w.mapped.pointer_eq kept (workKeys_self.mpr has')
  rw [view_self] at same
  exact same

theorem Working.clearAddr {i : Fin 13} (absent : ¬ held (addrKey i))
    : Working sb
        (withSlot s ip fun node =>
          { node with copy := { node.copy with addrs := update node.copy.addrs i 0 } })
        ip held
      ∧ Elsewhere sb ip s
        (withSlot s ip fun node =>
          { node with copy := { node.copy with addrs := update node.copy.addrs i 0 } }) := by
  have elsewhere : Elsewhere sb ip s
      (withSlot s ip fun node =>
        { node with copy := { node.copy with addrs := update node.copy.addrs i 0 } }) := by
    refine ⟨fun jp other => ?_, ?_, .refl⟩
    · simp [withSlot, other]
    · simp [withSlot]
  refine ⟨w.keep elsewhere (fun j has => ?_) fun _ _ => rfl, elsewhere⟩
  have small : j ≤ 140 := w.mapped.bounded _ (workKeys_self.mpr has)
  have other : j ≠ addrKey i := fun same => absent (same ▸ has)
  simp only [withSlot, update_self]
  by_cases direct : j < 12
  · rw [pointer_direct _ _ direct, pointer_direct _ _ direct]
    have apart : (⟨j, by omega⟩ : Fin 13) ≠ i := by
      rintro rfl
      rw [addrKey, if_neg (by simp [Fin.ext_iff]; omega)] at other
      exact other rfl
    simp only [update_of_ne apart]
  · have indirect := workKeys_self.mp (w.mapped.closed _ j (workKeys_self.mpr has) (by omega))
    have apart : i ≠ 12 := by
      rintro rfl
      exact absent indirect
    exact pointer_update_addrs (fun _ _ => rfl) (fun same => (apart same).elim) small other

end

end

/-- The pointers of an inode with `len` blocks from pointer `i` on. -/
def holdsFrom (len i k : Nat) : Prop := i ≤ k ∧ holds len k

def cleared (addrs : Fin 13 → UInt32) (i : Nat) (j : Fin 13) : UInt32 :=
  if j.val < i then 0 else addrs j

theorem cleared_zero (addrs : Fin 13 → UInt32) : cleared addrs 0 = addrs := by
  funext j
  simp [cleared]

theorem cleared_succ (addrs : Fin 13 → UInt32) {i : Nat} (inside : i < 13)
    : cleared addrs (i + 1) = update (cleared addrs i) ⟨i, inside⟩ 0 := by
  funext j
  by_cases here : j = ⟨i, inside⟩
  · rw [here, update_self, cleared, if_pos (Nat.lt_succ_self i)]
  · rw [update_of_ne here, cleared, cleared]
    have other : j.val ≠ i := fun same => here (Fin.ext same)
    have cases_ : j.val < i + 1 ↔ j.val < i := by omega
    simp only [cases_]

theorem cleared_all (addrs : Fin 13 → UInt32) : cleared addrs 13 = fun _ => 0 := by
  funext j
  exact if_pos j.isLt

theorem cleared_succ_of_zero {addrs : Fin 13 → UInt32} {i : Nat} {inside : i < 13}
    (zero : addrs ⟨i, inside⟩ = 0)
    : cleared addrs (i + 1) = cleared addrs i := by
  rw [cleared_succ addrs inside, update_eq_self_iff, cleared, if_neg (Nat.lt_irrefl i), zero]

/-- `itrunc` in the middle: the pointers before `k` are given back, and of the slot only the
entries before `i` are cleared. Only the bitmap changes on disk.
-/
structure Truncating (sb : Superblock) (ip len i k : Nat) (s s' : FsState) : Prop where
  working : Working sb s' ip (holdsFrom len k)
  elsewhere : Elsewhere sb ip s s'
  copy
    : (s'.icache ip).copy
      = { (s.icache ip).copy with addrs := cleared (s.icache ip).copy.addrs i }
  data : ∀ c, sb.dataStart ≤ c → s'.disk c = s.disk c

section

variable {env : FsEnv} {s s' : FsState} {ip len i k : Nat} {halt : Prop}

/-- One block less, in the order in which the loops go. -/
theorem Truncating.release (t : Truncating env.sb ip len i k s s')
    (w : Working env.sb s ip (holds len)) (has : holds len k) (entry : k < 140)
    {addr : UInt32} (there : addr.toNat = pointer s'.disk (s'.icache ip).copy k)
    : Ensures Sound halt (bfree addr) env s' fun _ after =>
        Truncating env.sb ip len i (k + 1) s after ∧ after.icache = s'.icache := by
  have held : holdsFrom len k k := ⟨Nat.le_refl k, has⟩
  have inside := (t.working.data_of_held held).2
  obtain ⟨working, elsewhere⟩ := t.working.release held (by omega)
  rw [← there] at inside working elsewhere
  refine bfree_ensures ?_ ⟨⟨?_, t.elsewhere.trans w elsewhere, t.copy, ?_⟩, rfl⟩
  · rw [there]
    exact t.working.marked_of_held held
  · have same : (fun j => j ≠ k ∧ holdsFrom len k j) = holdsFrom len (k + 1) := by
      funext j
      refine propext ⟨fun ⟨other, low, has⟩ => ⟨by omega, has⟩, fun ⟨low, has⟩ => ?_⟩
      exact ⟨by omega, by omega, has⟩
    exact same ▸ working
  · intro c low
    exact (released_of_le inside low).trans (t.data c low)

theorem Truncating.skip (t : Truncating env.sb ip len i k s s') (absent : ¬ holds len k)
    : Truncating env.sb ip len i (k + 1) s s' := by
  have same : holdsFrom len k = holdsFrom len (k + 1) := by
    funext j
    simp only [holdsFrom, eq_iff_iff]
    constructor
    · rintro ⟨low, has⟩
      refine ⟨?_, has⟩
      rcases Nat.lt_or_ge k j with later | here
      · exact later
      · obtain rfl : j = k := by omega
        exact (absent has).elim
    · rintro ⟨low, has⟩
      exact ⟨by omega, has⟩
  exact ⟨same ▸ t.working, t.elsewhere, t.copy, t.data⟩

/-- A turn of the first loop. -/
theorem itruncDirect_ensures (t : Truncating env.sb ip len i i s s')
    (w : Working env.sb s ip (holds len))
    (shaped : Shaped s.disk (s.icache ip).copy (holds len)) (direct : i < 12)
    : Ensures Sound halt (itruncDirect ip i) env s' fun _ after =>
        Truncating env.sb ip len (i + 1) (i + 1) s after := by
  have inside : i < 13 := by omega
  have entry : (s'.icache ip).copy.addrs ⟨i, inside⟩ = (s.icache ip).copy.addrs ⟨i, inside⟩ := by
    rw [t.copy]
    exact if_neg (Nat.lt_irrefl i)
  have set : (s.icache ip).copy.addrs ⟨i, inside⟩ ≠ 0 ↔ holds len i := by
    rw [← shaped i (by omega), pointer_direct _ _ direct, toNat_ne_zero]
  rw [itruncDirect]
  refine inode_next ?_
  rw [dif_pos inside]
  refine .ite (fun present => ?_) fun absent => ?_
  · have has := set.mp (entry ▸ present)
    refine (t.release w has (by omega) (by rw [pointer_direct _ _ direct])).bind ?_
    rintro _ after ⟨freed, same⟩
    rw [setAddr, setCopy]
    refine setInode_ensures ?_
    have place : addrKey ⟨i, inside⟩ = i := by
      rw [addrKey, if_neg (by simp [Fin.ext_iff]; omega)]
    have absent : ¬ holdsFrom len (i + 1) (addrKey ⟨i, inside⟩) := by
      rw [place, holdsFrom]
      omega
    obtain ⟨working, elsewhere⟩ := freed.working.clearAddr absent
    refine ⟨working, freed.elsewhere.trans w elsewhere, ?_, freed.data⟩
    simp only [withSlot, update_self, freed.copy, cleared_succ _ inside]
  · have zero : (s.icache ip).copy.addrs ⟨i, inside⟩ = 0 := by
      rw [← entry]
      exact not_not.mp absent
    have skipped := t.skip (fun has => set.mpr has zero)
    refine .pure ⟨skipped.working, skipped.elsewhere, ?_, skipped.data⟩
    rw [skipped.copy, cleared_succ_of_zero zero]

/-- A turn of the second loop. -/
theorem itruncIndirect_ensures {j : Nat} (t : Truncating env.sb ip len 12 (12 + j) s s')
    (w : Working env.sb s ip (holds len)) (shaped : Shaped s.disk (s.icache ip).copy (holds len))
    (inside : j < 128) (present : (s.icache ip).copy.addrs 12 ≠ 0)
    : Ensures Sound halt (itruncIndirect ((s.icache ip).copy.addrs 12) j) env s' fun _ after =>
        Truncating env.sb ip len 12 (12 + (j + 1)) s after := by
  have low := w.indirect_data shaped present
  have block : s'.disk ((s.icache ip).copy.addrs 12).toNat
      = s.disk ((s.icache ip).copy.addrs 12).toNat := t.data _ low
  have indirect : (s'.icache ip).copy.addrs 12 = (s.icache ip).copy.addrs 12 := by
    rw [t.copy]
    rfl
  have entry : pointer s'.disk (s'.icache ip).copy (12 + j)
      = (load32 (s'.disk ((s.icache ip).copy.addrs 12).toNat) (4 * (j : Nat))).toNat := by
    rw [pointer_entry _ (by omega) (by omega) (by rw [indirect]; exact present), indirect,
      Nat.add_sub_cancel_left]
  have set : load32 (s'.disk ((s.icache ip).copy.addrs 12).toNat) (4 * (j : Nat)) ≠ 0
      ↔ holds len (12 + j) := by
    rw [← shaped (12 + j) (by omega), pointer_entry _ (by omega) (by omega) present,
      Nat.add_sub_cancel_left, block, toNat_ne_zero]
  rw [itruncIndirect]
  refine bread_next (.ite (fun nonzero => ?_) fun zero => ?_)
  · exact (t.release w (set.mp nonzero) (by omega) entry.symm).weaken fun _ _ freed => freed.1
  · exact .pure (t.skip fun has => zero (set.mpr has))

/-- `itrunc` gives back all blocks of the inode and leaves it empty. -/
structure Truncated (sb : Superblock) (ip : Nat) (s s' : FsState) : Prop where
  working : Working sb s' ip fun _ => False
  elsewhere : Elsewhere sb ip s s'
  copy : (s'.icache ip).copy = { (s.icache ip).copy with size := 0, addrs := fun _ => 0 }

theorem shaped_of_zero {disk : Nat → Block} {d : Dinode} (zero : d.addrs = fun _ => 0)
    : Shaped disk d fun _ => False := by
  intro k _
  simp [pointer, zero]

theorem itruncEnd_ensures (w : Working env.sb s ip (holds len))
    (working : Working env.sb s' ip fun _ => False) (elsewhere : Elsewhere env.sb ip s s')
    (copy : (s'.icache ip).copy = { (s.icache ip).copy with addrs := fun _ => 0 })
    : Ensures Sound halt
        (do
          setCopy ip fun copy => { copy with size := 0 }
          iupdate ip)
        env s' fun _ after => Truncated env.sb ip s after := by
  rw [setCopy]
  refine setInode_next (iupdate_ensures ?_)
  set sized := withSlot s' ip fun node => { node with copy := { node.copy with size := 0 } }
    with new
  have slot : (sized.icache ip).copy
      = { (s.icache ip).copy with size := 0, addrs := fun _ => 0 } := by
    simp [new, withSlot, copy]
  have still : Elsewhere env.sb ip s' sized := by
    refine ⟨fun jp other => ?_, ?_, .refl⟩
    · simp [new, withSlot, other]
    · simp [new, withSlot]
  have working' : Working env.sb sized ip fun _ => False :=
    working.keep still (fun _ impossible => impossible.elim) fun _ _ => rfl
  refine ⟨(working'.updated_keeps (shaped_of_zero ?_)).1, ?_, slot⟩
  · rw [slot]
  · exact (elsewhere.trans w still).trans w working'.updated_elsewhere

/-- `itrunc` frees the blocks of the file, and no other. -/
theorem itrunc_ensures (w : Working env.sb s ip (holds len))
    (shaped : Shaped s.disk (s.icache ip).copy (holds len)) (small : len ≤ 140)
    : Ensures Sound halt (itrunc ip) env s fun _ after => Truncated env.sb ip s after := by
  have start : Truncating env.sb ip len 0 0 s s := by
    refine ⟨?_, .refl, by rw [cleared_zero], fun _ _ => rfl⟩
    have same : holds len = holdsFrom len 0 := by
      funext k
      simp [holdsFrom]
    exact same ▸ w
  have direct : ∀ i t, 0 ≤ i → i < 0 + 12 → Truncating env.sb ip len i i s t
      → Ensures Sound halt (itruncDirect ip i) env t fun _ after =>
        Truncating env.sb ip len (i + 1) (i + 1) s after :=
    fun i t _ high mid => itruncDirect_ensures mid w shaped (by omega)
  rw [itrunc]
  refine inode_next (.emit_next ⟨nofun, nofun⟩ ?_)
  refine (Ensures.forRange direct start).bind fun _ mid half => ?_
  have indirect : (mid.icache ip).copy.addrs 12 = (s.icache ip).copy.addrs 12 := by
    rw [half.copy]
    rfl
  have has := shaped.indirect
  refine inode_next ?_
  rw [indirect]
  refine .ite (fun present => ?_) fun absent => ?_
  · -- the blocks in the indirect block, and then that block itself
    have entries : ∀ j t, 0 ≤ j → j < 0 + 128 → Truncating env.sb ip len 12 (12 + j) s t
        → Ensures Sound halt (itruncIndirect ((s.icache ip).copy.addrs 12) j) env t
          fun _ after => Truncating env.sb ip len 12 (12 + (j + 1)) s after :=
      fun j t _ high mid => itruncIndirect_ensures mid w shaped (by omega) present
    refine (Ensures.forRange entries half).bind fun _ last done => ?_
    have there : ((s.icache ip).copy.addrs 12).toNat
        = pointer last.disk (last.icache ip).copy 140 := by
      rw [pointer_indirect, done.copy]
      rfl
    have held : holdsFrom len (12 + (0 + 128)) 140 := ⟨by omega, has.mp present⟩
    have only : ∀ k, holdsFrom len (12 + (0 + 128)) k → k = 140 := by
      intro k
      simp only [holdsFrom, holds]
      omega
    obtain ⟨working, elsewhere⟩ := done.working.release held fun _ k holding _ => only k holding
    have none_ : (fun k => k ≠ 140 ∧ holdsFrom len (12 + (0 + 128)) k) = fun _ => False := by
      funext k
      exact propext ⟨fun h => h.1 (only k h.2), False.elim⟩
    rw [none_] at working
    have marked_ : marked env.sb last.disk ((s.icache ip).copy.addrs 12).toNat = true := by
      rw [there]
      exact done.working.marked_of_held held
    rw [← there] at working elsewhere
    refine bfree_next marked_ ?_
    rw [setAddr, setCopy]
    refine setInode_next ?_
    obtain ⟨working', elsewhere'⟩ := working.clearAddr (i := 12) id
    refine itruncEnd_ensures w working'
      ((done.elsewhere.trans w elsewhere).trans w elsewhere') ?_
    have all := cleared_succ (s.icache ip).copy.addrs (by decide : 12 < 13)
    rw [cleared_all] at all
    simp only [withSlot, update_self, done.copy]
    rw [all]
    rfl
  · have zero : (s.icache ip).copy.addrs 12 = 0 := not_not.mp absent
    -- without an indirect block the file has direct blocks only
    have few : len ≤ 12 := by
      by_contra more
      exact absent (has.mpr (Or.inr ⟨rfl, by omega⟩))
    refine itruncEnd_ensures w ?_ half.elsewhere ?_
    · have none_ : holdsFrom len (0 + 12) = fun _ => False := by
        funext k
        simp only [holds, holdsFrom, eq_iff_iff, iff_false]
        omega
      exact none_ ▸ half.working
    · have all := cleared_succ_of_zero zero
      rw [cleared_all] at all
      rw [half.copy, all]

end

variable {sb : Superblock} {s s' : FsState} {ip : Nat} {env : FsEnv}

/-- One slot changes and keeps its inode; what is cached afterwards has to be looked at again. -/
theorem FsOk.of_slots (ok : FsOk sb s) (owned : BlocksOwned sb s'.disk)
    (slots : ∀ jp, jp ≠ ip → s'.icache jp = s.icache jp)
    (inum : (s'.icache ip).inum = (s.icache ip).inum) (dev : (s'.icache ip).dev = (s.icache ip).dev)
    (ref : 0 < (s'.icache ip).ref → 0 < (s.icache ip).ref)
    (synced : ∀ jp, Cached s' jp → allocated sb s'.disk (s.icache jp).inum
      ∧ (s'.icache jp).copy = dinodeAt sb s'.disk (s.icache jp).inum)
    : FsOk sb s' := by
  have same := slots_rel (fun x y => y.inum = x.inum ∧ y.dev = x.dev ∧ (0 < y.ref → 0 < x.ref))
    (fun _ => ⟨rfl, rfl, id⟩) ⟨inum, dev, ref⟩ slots
  refine ⟨owned, ?_, ?_, ?_⟩
  · intro jp inside kp inside' referenced referenced' equal
    rw [(same jp).1, (same kp).1] at equal
    exact ok.unique jp inside kp inside' ((same jp).2.2 referenced) ((same kp).2.2 referenced')
      equal
  · intro jp inside referenced
    rw [(same jp).2.1]
    exact ok.dev jp inside ((same jp).2.2 referenced)
  · intro jp cached
    rw [(same jp).1]
    exact synced jp cached

section

variable (ok : FsOk sb s) (disk : s'.disk = s.disk)
  (slots : ∀ jp, jp ≠ ip → s'.icache jp = s.icache jp)
  (inum : (s'.icache ip).inum = (s.icache ip).inum) (dev : (s'.icache ip).dev = (s.icache ip).dev)
  (ref : 0 < (s'.icache ip).ref → 0 < (s.icache ip).ref)
include ok disk slots inum dev ref

/-- A change of a slot that keeps its inode and, if it was read, its agreement with the disk keeps
the file system consistent.
-/
theorem FsOk.slot_read (read : Cached s' ip → allocated sb s.disk (s.icache ip).inum
      ∧ (s'.icache ip).copy = dinodeAt sb s.disk (s.icache ip).inum)
    : FsOk sb s' := by
  refine ok.of_slots (disk ▸ ok.owned) slots inum dev ref fun jp cached => ?_
  rw [disk]
  by_cases here : jp = ip
  · rw [here] at cached ⊢
    exact read cached
  · rw [Cached, slots jp here] at cached
    rw [slots jp here]
    exact ok.synced jp cached

/-- A change of a slot without a new reference or a read keeps the file system consistent. -/
theorem FsOk.slot_changed (valid : (s'.icache ip).valid = true
      → (s.icache ip).valid = true ∧ (s'.icache ip).copy = (s.icache ip).copy)
    : FsOk sb s' := by
  refine ok.slot_read disk slots inum dev ref fun cached => ?_
  obtain ⟨before, copy⟩ := valid cached.2.2
  rw [copy]
  exact ok.synced ip ⟨cached.1, ref cached.2.1, before⟩

end

/-- What `iput` does: it drops a reference and frees the inode if that was the last one and it has
no links.
-/
structure Dropped (sb : Superblock) (ip : Nat) (s s' : FsState) : Prop where
  ok : FsOk sb s'
  slots : ∀ jp, jp ≠ ip → s'.icache jp = s.icache jp
  ref : (s'.icache ip).ref = (s.icache ip).ref - 1
  inum : (s'.icache ip).inum = (s.icache ip).inum
  unlocked : (s'.icache ip).locked = false
  inode
    : s'.disk = s.disk
        ∧ (s'.icache ip).valid = (s.icache ip).valid ∧ (s'.icache ip).copy = (s.icache ip).copy
      ∨ Cached s ip ∧ (s.icache ip).copy.nlink = 0 ∧ (s.icache ip).ref = 1
        ∧ Spares sb (s.icache ip).inum s.disk s'.disk
        ∧ (dinodeAt sb s'.disk (s.icache ip).inum).type = 0
        ∧ (dinodeAt sb s'.disk (s.icache ip).inum).nlink = 0

theorem FsOk.forgotten (ok : FsOk sb s) (inside : ip < nInode) (referenced : 0 < (s.icache ip).ref)
    (owned : BlocksOwned sb s'.disk) (spares : Spares sb (s.icache ip).inum s.disk s'.disk)
    (slots : ∀ jp, jp ≠ ip → s'.icache jp = s.icache jp)
    (inum : (s'.icache ip).inum = (s.icache ip).inum) (dev : (s'.icache ip).dev = (s.icache ip).dev)
    (gone : (s'.icache ip).valid = false)
    : FsOk sb s' := by
  refine ok.of_slots owned slots inum dev (fun _ => referenced) fun jp cached => ?_
  have here : jp ≠ ip := by
    rintro rfl
    rw [Cached, gone] at cached
    exact Bool.noConfusion cached.2.2
  rw [Cached, slots jp here] at cached
  obtain ⟨⟨table, type⟩, copy⟩ := ok.synced jp cached
  have other : (s.icache jp).inum ≠ (s.icache ip).inum := fun equal =>
    here (ok.unique jp cached.1 ip inside cached.2.1 referenced equal)
  have kept := spares.dinodes _ table other
  rw [slots jp here]
  exact ⟨⟨table, kept ▸ type⟩, copy.trans kept.symm⟩

theorem acquiresleep_next {β : Type} {halt : Prop} {ok : FsEvent → Prop} {next : Unit → FsM β}
    {post : β → FsState → Prop} (stuck : (s.icache ip).locked = true → halt)
    (rest : (s.icache ip).locked = false
      → Ensures ok halt (next ()) env (withSlot s ip fun node => { node with locked := true }) post)
    : Ensures ok halt (acquiresleep ip >>= next) env s post := by
  have acquired : Ensures ok halt (acquiresleep ip) env s fun _ after =>
      after = withSlot s ip (fun node => { node with locked := true })
      ∧ (s.icache ip).locked = false := by
    rw [acquiresleep]
    refine inode_next (.ite (fun locked => .stop (stuck locked)) fun free => ?_)
    exact setInode_ensures ⟨rfl, Bool.eq_false_iff.mpr free⟩
  refine acquired.bind ?_
  rintro _ _ ⟨rfl, free⟩
  exact rest free

/-- `iput` of a reference that is not the last one to a removed inode only drops it. -/
theorem iput_kept {halt : Prop} {ok : FsEvent → Prop} (free : (s.icache ip).locked = false)
    (kept : ¬ ((s.icache ip).valid = true ∧ (s.icache ip).copy.nlink = 0 ∧ (s.icache ip).ref = 1))
    : Ensures ok halt (iput ip) env s fun _ after =>
        after = withSlot s ip fun node => { node with locked := false, ref := node.ref - 1 } := by
  rw [iput]
  refine acquiresleep_next (fun locked => absurd (free.symm.trans locked) (by decide))
    fun _ => inode_next ?_
  rw [withSlot_self]
  refine .ite (fun last => absurd last kept) fun _ => ?_
  refine setInode_next (setInode_ensures ?_)
  rw [withSlot_withSlot, withSlot_withSlot]

/-- The last reference to a file without links frees its blocks and its inode. -/
theorem iput_ensures (ok : FsOk env.sb s) (inside : ip < nInode)
    (referenced : 0 < (s.icache ip).ref)
    : Ensures Sound ((s.icache ip).locked = true) (iput ip) env s fun _ after =>
        Dropped env.sb ip s after := by
  set taken := withSlot s ip fun node => { node with locked := true } with new
  have slot : taken.icache ip = { s.icache ip with locked := true } := withSlot_self ..
  have slots : ∀ jp, jp ≠ ip → taken.icache jp = s.icache jp :=
    fun jp other => withSlot_of_ne _ other
  have ok' : FsOk env.sb taken := by
    refine ok.slot_changed rfl slots ?_ ?_ ?_ ?_ <;> rw [slot]
    · exact id
    · exact fun valid => ⟨valid, rfl⟩
  rw [iput]
  refine acquiresleep_next id fun _ => inode_next (.ite (fun last => ?_) fun _ => ?_)
  · -- the last reference to a file without links
    rw [slot] at last
    have cached : Cached taken ip := by
      rw [Cached, slot]
      exact ⟨inside, referenced, last.1⟩
    refine (itrunc_ensures (ok'.working cached) (ok'.shaped cached) (ok'.small cached)).bind
      fun _ mid truncated => ?_
    rw [setCopy]
    refine setInode_next (iupdate_next (setInode_next (setInode_next (setInode_ensures ?_))))
    rw [withSlot_withSlot, withSlot_withSlot]
    set typed := withSlot mid ip fun node => { node with copy := { node.copy with type := 0 } }
      with final
    have still : Elsewhere env.sb ip mid typed :=
      ⟨fun jp other => withSlot_of_ne _ other, by rw [final, withSlot_self], .refl⟩
    have copy : (typed.icache ip).copy
        = { (s.icache ip).copy with type := 0, size := 0, addrs := fun _ => 0 } := by
      rw [final, withSlot_self, truncated.copy, slot]
    have working : Working env.sb typed ip fun _ => False :=
      truncated.working.keep still (fun _ impossible => impossible.elim) fun _ _ => rfl
    have whole : Elsewhere env.sb ip taken (updated env.sb typed ip) :=
      (truncated.elsewhere.trans (ok'.working cached) still).trans (ok'.working cached)
        working.updated_elsewhere
    have stored : dinodeAt env.sb (updated env.sb typed ip).disk (typed.icache ip).inum
        = (typed.icache ip).copy := dinodeAt_storeDinode
    have owned : BlocksOwned env.sb (updated env.sb typed ip).disk := by
      refine (working.updated_keeps (shaped_of_zero ?_)).1.owned stored.symm ?_ ?_
      · rw [copy]
      · intro k
        change False ↔ (typed.icache ip).copy.type ≠ 0 ∧ _
        simp [copy]
      · intro used
        change (typed.icache ip).copy.type ≠ 0 at used
        rw [copy] at used
        exact (used rfl).elim
    have node : (updated env.sb typed ip).icache ip
        = { s.icache ip with locked := true, copy := (typed.icache ip).copy } := by
      rw [whole.slot, slot]
      rfl
    have spares : Spares env.sb (s.icache ip).inum s.disk (updated env.sb typed ip).disk := by
      have spares := whole.spares
      rw [slot] at spares
      exact spares
    have inum : (typed.icache ip).inum = (s.icache ip).inum := by
      change ((updated env.sb typed ip).icache ip).inum = _
      rw [node]
    have others : ∀ jp, jp ≠ ip → (updated env.sb typed ip).icache jp = s.icache jp :=
      fun jp other => (whole.slots jp other).trans (slots jp other)
    refine ⟨?_, fun jp other => (withSlot_of_ne _ other).trans (others jp other), ?_, ?_, ?_,
      Or.inr ⟨⟨inside, referenced, last.1⟩, last.2.1, last.2.2, spares, ?_, ?_⟩⟩
    · refine ok.forgotten inside referenced owned spares
        (fun jp other => (withSlot_of_ne _ other).trans (others jp other)) ?_ ?_ ?_
      all_goals rw [withSlot_self, node]
    · rw [withSlot_self, node]
    · rw [withSlot_self, node]
    · rw [withSlot_self]
    · rw [withSlot_disk, ← inum, stored, copy]
    · rw [withSlot_disk, ← inum, stored, copy]
      exact last.2.1
  · -- in the other cases one reference less
    refine setInode_next (setInode_ensures ?_)
    rw [withSlot_withSlot, withSlot_withSlot]
    have slots' : ∀ change jp, jp ≠ ip → (withSlot s ip change).icache jp = s.icache jp :=
      fun change jp other => withSlot_of_ne change other
    refine ⟨?_, slots' _, ?_, ?_, ?_, Or.inl ⟨rfl, ?_, ?_⟩⟩
    · refine ok.slot_changed rfl (slots' _) ?_ ?_ ?_ ?_
      · rw [withSlot_self]
      · rw [withSlot_self]
      · rw [withSlot_self]
        exact fun _ => referenced
      · rw [withSlot_self]
        exact fun valid => ⟨valid, rfl⟩
    all_goals rw [withSlot_self]

end Xv6Net.Fs
