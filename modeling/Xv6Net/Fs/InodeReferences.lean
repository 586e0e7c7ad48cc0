import Xv6Net.Fs.SystemCalls
import Xv6Net.Fs.InodeCache

/-! References to inodes: what the functions of `fs.c` do to the reference counts of the inode
cache, whatever is on the disk.
-/

namespace Xv6Net.Fs

open Library Program

/-- Blocks are freed only with the last reference to an inode that has no links. -/
def Freed : FsEvent → Prop
  | .truncate _ nlink ref => nlink = 0 ∧ ref = 1
  | _ => True

def reference (ip : Nat) : Nat → Int := fun jp => if jp = ip then 1 else 0

/-- The slots have these reference counts, and no inode is in two of them. -/
structure Counted (count : Nat → Int) (s : FsState) : Prop where
  refs : ∀ ip < nInode, (s.icache ip).ref = count ip
  unique
    : ∀ ip < nInode, ∀ jp < nInode, 0 < (s.icache ip).ref → 0 < (s.icache jp).ref
        → (s.icache ip).dev = (s.icache jp).dev → (s.icache ip).inum = (s.icache jp).inum
        → ip = jp

/-- The slots hold what they held, with the references that they had. -/
def SameSlots (s s' : FsState) : Prop :=
  ∀ ip, (s'.icache ip).ref = (s.icache ip).ref ∧ (s'.icache ip).dev = (s.icache ip).dev
    ∧ (s'.icache ip).inum = (s.icache ip).inum

/-- The program leaves the slots and their references alone. -/
structure Steady {α : Type} (program : FsM α) : Prop where
  ensures : ∀ env s, Ensures Freed True program env s fun _ after => SameSlots s after

section

variable {count : Nat → Int} {s s' s'' : FsState} {ip : Nat}

theorem SameSlots.refl : SameSlots s s := fun _ => ⟨rfl, rfl, rfl⟩

theorem SameSlots.trans (h : SameSlots s s') (then_ : SameSlots s' s'') : SameSlots s s'' := by
  intro ip
  obtain ⟨ref, dev, inum⟩ := h ip
  obtain ⟨ref', dev', inum'⟩ := then_ ip
  exact ⟨ref'.trans ref, dev'.trans dev, inum'.trans inum⟩

variable {change : Inode → Inode}

/-- A change of one slot that keeps its device, inode number and count. -/
theorem SameSlots.withSlot
    (same : (change (s.icache ip)).ref = (s.icache ip).ref
      ∧ (change (s.icache ip)).dev = (s.icache ip).dev
      ∧ (change (s.icache ip)).inum = (s.icache ip).inum)
    : SameSlots s (withSlot s ip change) :=
  slots_rel (fun x y => y.ref = x.ref ∧ y.dev = x.dev ∧ y.inum = x.inum)
    (fun _ => ⟨rfl, rfl, rfl⟩) (by rw [withSlot_self]; exact same) fun _ => withSlot_of_ne change

/-- The counts are read from the slots. -/
theorem Counted.same (h : Counted count s) (same : SameSlots s s') : Counted count s' := by
  constructor
  · intro ip inside
    rw [(same ip).1]
    exact h.refs ip inside
  · intro ip inside jp inside' referenced referenced' dev inum
    rw [(same ip).1] at referenced
    rw [(same jp).1] at referenced'
    rw [(same ip).2.1, (same jp).2.1] at dev
    rw [(same ip).2.2, (same jp).2.2] at inum
    exact h.unique ip inside jp inside' referenced referenced' dev inum

/-- One slot gets a new count and stays with its inode. -/
theorem Counted.slot {count' : Nat → Int} (h : Counted count s)
    (ref : (change (s.icache ip)).ref = count' ip) (others : ∀ jp, jp ≠ ip → count' jp = count jp)
    (before : 0 < (change (s.icache ip)).ref → 0 < (s.icache ip).ref)
    (dev : (change (s.icache ip)).dev = (s.icache ip).dev)
    (inum : (change (s.icache ip)).inum = (s.icache ip).inum)
    : Counted count' (withSlot s ip change) := by
  have same := slots_rel (fun x y => (0 < y.ref → 0 < x.ref) ∧ y.dev = x.dev ∧ y.inum = x.inum)
    (fun _ => ⟨id, rfl, rfl⟩) (by rw [withSlot_self]; exact ⟨before, dev, inum⟩)
    fun jp => @withSlot_of_ne s ip jp change
  constructor
  · intro jp inside
    by_cases here : jp = ip
    · rw [here, withSlot_self, ref]
    · rw [withSlot_of_ne _ here, others jp here]
      exact h.refs jp inside
  · intro jp inside kp inside' referenced referenced' dev' inum'
    rw [(same jp).2.1, (same kp).2.1] at dev'
    rw [(same jp).2.2, (same kp).2.2] at inum'
    exact h.unique jp inside kp inside' ((same jp).1 referenced) ((same kp).1 referenced') dev'
      inum'

theorem reference_self (ip : Nat) : reference ip ip = 1 := if_pos rfl

theorem reference_of_ne {jp : Nat} (other : jp ≠ ip) : reference ip jp = 0 := if_neg other

/-- `iget` adds one reference: to a slot that has the inode, or to one that had nothing. -/
theorem Counted.got {dev : UInt32} {inum : Nat} (h : Counted count s) (got : Got dev inum ip s s')
    : Counted (count + reference ip) s' := by
  constructor
  · intro jp inside
    rw [Pi.add_apply]
    by_cases here : jp = ip
    · subst here
      rw [reference_self, ← h.refs jp inside]
      rcases got.slot with ⟨-, -, -, slot⟩ | ⟨-, free, slot⟩
      · rw [slot]
      · rw [slot, free]
        rfl
    · rw [got.slots jp here, reference_of_ne here, Int.add_zero]
      exact h.refs jp inside
  · rcases got.slot with ⟨before, -, -, slot⟩ | ⟨absent, free, slot⟩
    · have same := slots_rel
        (fun x y => (0 < y.ref → 0 < x.ref) ∧ y.dev = x.dev ∧ y.inum = x.inum)
        (fun _ => ⟨id, rfl, rfl⟩) (by rw [slot]; exact ⟨fun _ => before, rfl, rfl⟩) got.slots
      intro jp inside kp inside' referenced referenced' dev' inum'
      rw [(same jp).2.1, (same kp).2.1] at dev'
      rw [(same jp).2.2, (same kp).2.2] at inum'
      exact h.unique jp inside kp inside' ((same jp).1 referenced) ((same kp).1 referenced')
        dev' inum'
    · have here : (s'.icache ip).dev = dev ∧ (s'.icache ip).inum = inum := by
        rw [slot]
        exact ⟨rfl, rfl⟩
      have other : ∀ jp < nInode, jp ≠ ip → 0 < (s'.icache jp).ref
          → ¬ ((s'.icache jp).dev = dev ∧ (s'.icache jp).inum = inum) := by
        intro jp inside other referenced
        rw [got.slots jp other] at referenced ⊢
        exact fun equal => absent jp inside ⟨referenced, equal.1, equal.2⟩
      intro jp inside kp inside' referenced referenced' dev' inum'
      by_cases first_ : jp = ip
      · by_cases second : kp = ip
        · rw [first_, second]
        · rw [first_, here.1] at dev'
          rw [first_, here.2] at inum'
          exact (other kp inside' second referenced' ⟨dev'.symm, inum'.symm⟩).elim
      · by_cases second : kp = ip
        · rw [second, here.1] at dev'
          rw [second, here.2] at inum'
          exact (other jp inside first_ referenced ⟨dev', inum'⟩).elim
        · rw [got.slots jp first_] at referenced dev' inum'
          rw [got.slots kp second] at referenced' dev' inum'
          exact h.unique jp inside kp inside' referenced referenced' dev' inum'

end

section

variable {α β : Type}

theorem Steady.pure (a : α) : Steady (Pure.pure a : FsM α) := ⟨fun _ _ => .pure .refl⟩

/-- Steady programs compose, so most functions below are steady by their own shape. -/
theorem Steady.bind {program : FsM α} {next : α → FsM β} (first_ : Steady program)
    (rest : ∀ a, Steady (next a))
    : Steady (program >>= next) :=
  ⟨fun env s => (first_.ensures env s).bind fun a mid same =>
    ((rest a).ensures env mid).weaken fun _ _ then_ => same.trans then_⟩

theorem Steady.ite {c : Prop} [Decidable c] {yes no : FsM α} (holds : Steady yes)
    (fails : Steady no)
    : Steady (if c then yes else no) := by
  split
  · exact holds
  · exact fails

theorem Steady.stop : Steady (Program.stop : FsM α) := ⟨fun _ _ => .stop trivial⟩

/-- After a panic there are no slots to speak of. -/
theorem Steady.panic (reason : FsPanic) : Steady (panic reason : FsM α) :=
  ⟨fun _ _ => panic_halts ⟨trivial, trivial⟩⟩

theorem Steady.env : Steady (Program.env : FsM FsEnv) := ⟨fun _ _ => .of_run rfl .refl⟩

theorem Steady.sb : Steady sb := ⟨fun _ _ => .of_run rfl .refl⟩

theorem Steady.bread (b : Nat) : Steady (bread b) := ⟨fun _ _ => .of_run rfl .refl⟩

theorem Steady.inode (ip : Nat) : Steady (inode ip) := ⟨fun _ _ => .of_run rfl .refl⟩

/-- The cache is not on the disk. -/
theorem Steady.updateBlock (b : Nat) (change : Block → Block) : Steady (updateBlock b change) :=
  ⟨fun _ _ => .next rfl (.emit trivial .refl)⟩

/-- What the inode functions write in a slot is not its identity or its count. -/
theorem Steady.setInode {ip : Nat} {change : Inode → Inode}
    (same : ∀ node, (change node).ref = node.ref ∧ (change node).dev = node.dev
      ∧ (change node).inum = node.inum)
    : Steady (setInode ip change) :=
  ⟨fun _ _ => setInode_ensures (.withSlot (same _))⟩

theorem Steady.setCopy (ip : Nat) (change : Dinode → Dinode) : Steady (setCopy ip change) :=
  .setInode fun _ => ⟨rfl, rfl, rfl⟩

theorem Steady.setAddr (ip : Nat) (i : Fin 13) (addr : UInt32) : Steady (setAddr ip i addr) :=
  .setCopy ..

theorem Steady.bzero (bno : Nat) : Steady (bzero bno) := .updateBlock ..

/-- By induction on the number of turns. -/
theorem Steady.forRange {body : Nat → FsM Unit} (kept : ∀ i, Steady (body i)) (i count : Nat)
    : Steady (Program.forRange body i count) := by
  induction count generalizing i with
  | zero => exact .pure ()
  | succ count ih => exact .bind (kept i) fun _ => ih (i + 1)

/-- `iupdate` writes to the disk only. -/
theorem Steady.iupdate (ip : Nat) : Steady (iupdate ip) :=
  .bind .sb fun _ => .bind (.inode ip) fun _ => .updateBlock ..

theorem Steady.acquiresleep (ip : Nat) : Steady (acquiresleep ip) :=
  .bind (.inode ip) fun _ => .ite .stop (.setInode fun _ => ⟨rfl, rfl, rfl⟩)

theorem Steady.releasesleep (ip : Nat) : Steady (releasesleep ip) :=
  .setInode fun _ => ⟨rfl, rfl, rfl⟩

/-- `ilock` reads the inode from the disk into its slot; the count stays. -/
theorem Steady.ilock (ip : Nat) : Steady (ilock ip) := by
  refine .bind (.inode ip) fun _ => .ite (.panic _) (.bind (.acquiresleep ip) fun _ => ?_)
  refine .bind (.inode ip) fun _ =>
    .ite (.pure ()) (.bind .sb fun _ => .bind (.bread _) fun _ => ?_)
  exact .bind (.setInode fun _ => ⟨rfl, rfl, rfl⟩) fun _ => .bind (.inode ip) fun _ =>
    .ite (.panic _) (.pure ())

theorem Steady.iunlock (ip : Nat) : Steady (iunlock ip) :=
  .bind (.inode ip) fun _ => .ite (.panic _) (.releasesleep ip)

/-- By induction on the fuel. -/
theorem Steady.ballocLoop (fuel b : Nat) : Steady (ballocLoop fuel b) := by
  induction fuel generalizing b with
  | zero => exact .panic _
  | succ fuel ih =>
    refine .bind .sb fun _ => .ite (.bind (.bread _) fun bp => ?_) (.panic _)
    split
    · exact .bind (.updateBlock ..) fun _ => .bind (.bzero _) fun _ => .pure _
    · exact ih _

theorem Steady.balloc : Steady balloc := .bind .sb fun _ => .ballocLoop ..

theorem Steady.bfree (b : UInt32) : Steady (bfree b) :=
  .bind .sb fun _ => .bind (.bread _) fun _ => .ite (.updateBlock ..) (.panic _)

theorem Steady.addrOrAlloc (ip : Nat) (i : Fin 13) : Steady (addrOrAlloc ip i) :=
  .bind (.inode ip) fun _ =>
    .ite (.bind .balloc fun _ => .bind (.setAddr ..) fun _ => .pure _) (.pure _)

/-- `bmap` allocates blocks, in the inode or in its indirect block. -/
theorem Steady.bmap (ip bn : Nat) : Steady (bmap ip bn) := by
  rw [Fs.bmap]
  split
  · exact .addrOrAlloc ..
  · refine .ite (.bind (.addrOrAlloc ..) fun _ => .bind (.bread _) fun _ => ?_) (.panic _)
    exact .ite (.bind .balloc fun _ => .bind (.updateBlock ..) fun _ => .pure _) (.pure _)

/-- A turn of the first loop of `itrunc`. -/
theorem Steady.itruncDirect (ip i : Nat) : Steady (itruncDirect ip i) := by
  refine .bind (.inode ip) fun _ => ?_
  split
  · exact .ite (.bind (.bfree _) fun _ => .setAddr ..) (.pure _)
  · exact .pure _

theorem Steady.itruncIndirect (addr : UInt32) (j : Nat) : Steady (itruncIndirect addr j) :=
  .bind (.bread _) fun _ => .ite (.bfree _) (.pure _)

/-- By induction on the fuel, that is on the blocks that are read. -/
theorem Steady.readLoop (ip fuel off left : Nat) : Steady (readLoop ip fuel off left) := by
  induction fuel generalizing off left with
  | zero => exact .pure _
  | succ fuel ih =>
    exact .ite (.pure _) (.bind (.bmap ..) fun _ => .bind (.bread _) fun _ =>
      .bind (ih _ _) fun _ => .pure _)

theorem Steady.readi (ip : Nat) (off n : UInt32) : Steady (readi ip off n) := by
  refine .bind .env fun env => .bind (.inode ip) fun node => .ite (.ite (.pure _) ?_) ?_
  · split
    · exact .pure _
    · exact .pure _
  · exact .ite (.pure _) (.bind (.readLoop ..) fun _ => .pure _)

theorem Steady.writeLoop (ip : Nat) (src : Int → UInt8) (fuel tot off left : Nat)
    : Steady (writeLoop ip src fuel tot off left) := by
  induction fuel generalizing tot off left with
  | zero => exact .pure _
  | succ fuel ih =>
    exact .ite (.pure _) (.bind (.bmap ..) fun _ => .bind (.updateBlock ..) fun _ => ih ..)

/-- `writei` may change the size, which is on the disk and in the slot. -/
theorem Steady.writei (ip : Nat) (src : Int → UInt8) (off n : UInt32)
    : Steady (writei ip src off n) := by
  refine .bind .env fun env => .bind (.inode ip) fun node => .ite (.ite (.pure _) ?_) ?_
  · split
    · exact .pure _
    · exact .pure _
  · refine .ite (.pure _) (.ite (.pure _) (.bind (.writeLoop ..) fun _ => ?_))
    exact .ite (.bind (.setCopy ..) fun _ => .bind (.iupdate ip) fun _ => .pure _) (.pure _)

theorem Steady.emptyDirentLoop (dp fuel off : Nat) : Steady (emptyDirentLoop dp fuel off) := by
  induction fuel generalizing off with
  | zero => exact .pure _
  | succ fuel ih =>
    exact .bind (.inode dp) fun _ => .ite (.bind (.readi ..) fun _ =>
      .ite (.panic _) (.ite (.pure _) (ih _))) (.pure _)

theorem Steady.isdirempty (dp : Nat) : Steady (isdirempty dp) := by
  have loop : ∀ fuel off, Steady (isdiremptyLoop dp fuel off) := by
    intro fuel
    induction fuel with
    | zero => exact fun _ => .pure _
    | succ fuel ih =>
      exact fun off => .bind (.inode dp) fun _ => .ite (.bind (.readi ..) fun _ =>
        .ite (.panic _) (.ite (.pure _) (ih _))) (.pure _)
  exact .bind (.inode dp) fun _ => loop _ _

end

/-- A program that may return a slot leaves a reference to it. -/
def Gives (count : Nat → Int) (s : FsState) : Option Nat → Prop
  | none => Counted count s
  | some ip => ip < nInode ∧ Counted (count + reference ip) s

section

variable {env : FsEnv} {s : FsState} {count : Nat → Int} {ip dp : Nat} {α β : Type}

section

variable (h : Counted count s)
include h

variable {program : FsM α}

/-- Around a steady program the counts stay. -/
theorem Counted.steady (steady : Steady program)
    : Ensures Freed True program env s fun _ after => Counted count after :=
  (steady.ensures env s).weaken fun _ _ same => h.same same

/-- The counts at the start of what follows a steady program. -/
theorem Counted.next {next : α → FsM β} {post : β → FsState → Prop} (steady : Steady program)
    (rest : ∀ a after, Counted count after → Ensures Freed True (next a) env after post)
    : Ensures Freed True (program >>= next) env s post :=
  (h.steady steady).bind rest

/-- The caller of `iget` owns one reference more. -/
theorem Counted.iget (dev : UInt32) (inum : Nat)
    : Ensures Freed True (iget dev inum) env s fun ip after => Gives count after (some ip) :=
  (iget_ensures fun _ => ⟨trivial, trivial⟩).weaken fun _ _ got => ⟨got.inside, h.got got⟩

/-- `idup` gives a second reference to an inode that has one. -/
theorem Counted.idup (inside : ip < nInode) (referenced : 0 < (s.icache ip).ref)
    : Ensures Freed True (idup ip) env s fun jp after => Gives count after (some jp) := by
  refine setInode_next
    (.pure ⟨inside, h.slot ?_ (fun jp other => ?_) (fun _ => referenced) rfl rfl⟩)
  · rw [Pi.add_apply, reference_self, ← h.refs ip inside]
  · rw [Pi.add_apply, reference_of_ne other, Int.add_zero]

/-- `itrunc` is called for a file without links, with the last reference to it. -/
theorem Counted.itrunc (linkless : (s.icache ip).copy.nlink = 0) (last : (s.icache ip).ref = 1)
    : Ensures Freed True (itrunc ip) env s fun _ after => Counted count after := by
  refine inode_next (.emit_next ⟨linkless, last⟩ ?_)
  refine h.next (.forRange (.itruncDirect ip) ..) fun _ mid h =>
    h.next (.inode ip) fun node mid h => ?_
  have rest : Steady (do
      setCopy ip fun copy => { copy with size := 0 }
      iupdate ip) :=
    .bind (.setCopy ..) fun _ => .iupdate ip
  refine .ite (fun _ => ?_) fun _ => h.steady rest
  exact h.steady (.bind (.forRange (.itruncIndirect _) ..) fun _ => .bind (.bfree _) fun _ =>
    .bind (.setAddr ..) fun _ => rest)

end

/-- `iput` takes the reference of its caller, and frees the inode with the last one. -/
theorem Counted.iput (h : Counted (count + reference ip) s) (inside : ip < nInode)
    : Ensures Freed True (iput ip) env s fun _ after => Counted count after := by
  have dropped : ∀ mid, Counted (count + reference ip) mid
      → Ensures Freed True (do
          releasesleep ip
          setInode ip fun node => { node with ref := node.ref - 1 }) env mid
        fun _ after => Counted count after := by
    intro mid h
    refine h.next (.releasesleep ip) fun _ mid h => setInode_ensures ?_
    have ref := h.refs ip inside
    rw [Pi.add_apply, reference_self] at ref
    refine h.slot ?_ (fun jp other => ?_) (fun positive => ?_) rfl rfl
    · rw [ref]
      exact Int.add_sub_cancel ..
    · rw [Pi.add_apply, reference_of_ne other, Int.add_zero]
    · simp only at positive
      omega
  refine h.next (.acquiresleep ip) fun _ mid h =>
    inode_next (.ite (fun last => ?_) fun _ => dropped mid h)
  refine (h.itrunc last.2.1 last.2.2).bind fun _ mid h => ?_
  refine h.next (.setCopy ..) fun _ mid h => h.next (.iupdate ip) fun _ mid h => ?_
  exact h.next (.setInode fun _ => ⟨rfl, rfl, rfl⟩) fun _ mid h => dropped mid h

theorem Counted.iunlockput (h : Counted (count + reference ip) s) (inside : ip < nInode)
    : Ensures Freed True (iunlockput ip) env s fun _ after => Counted count after :=
  h.next (.iunlock ip) fun _ _ h => h.iput inside

/-- `ialloc` returns an inode by `iget`. -/
theorem Counted.ialloc (h : Counted count s) (dev : UInt32) (type : UInt16)
    : Ensures Freed True (ialloc dev type) env s fun ip after => Gives count after (some ip) := by
  have loop : ∀ fuel inum s, Counted count s
      → Ensures Freed True (iallocLoop dev type fuel inum) env s
          fun ip after => Gives count after (some ip) := by
    intro fuel
    induction fuel with
    | zero => exact fun _ _ _ => panic_halts ⟨trivial, trivial⟩
    | succ fuel ih =>
      intro inum s h
      refine h.next .sb fun sb mid h => .ite (fun _ => ?_) fun _ => panic_halts ⟨trivial, trivial⟩
      refine h.next (.bread _) fun bp mid h => .ite (fun _ => ?_) fun _ => ih _ _ h
      exact h.next (.updateBlock ..) fun _ mid h => h.iget dev inum
  exact h.next .sb fun sb mid h => loop _ _ _ h

/-- `dirlookup` gives a reference to the inode that it finds. -/
theorem Counted.dirlookup (h : Counted count s) (name : List UInt8)
    : Ensures Freed True (dirlookup dp name) env s
        fun r after => Gives count after (r.map Prod.fst) := by
  have loop : ∀ fuel off s, Counted count s
      → Ensures Freed True (dirlookupLoop dp name fuel off) env s
          fun r after => Gives count after (r.map Prod.fst) := by
    intro fuel
    induction fuel with
    | zero => exact fun _ _ h => .pure h
    | succ fuel ih =>
      intro off s h
      refine h.next (.inode dp) fun node mid h => .ite (fun _ => ?_) fun _ => .pure h
      refine h.next (.readi ..) fun r mid h =>
        .ite (fun _ => panic_halts ⟨trivial, trivial⟩) fun _ => .ite (fun _ => ?_) fun _ => ih _ _ h
      exact (h.iget _ _).bind fun ip after gives => .pure gives
  refine h.next (.inode dp) fun node mid h => ?_
  exact .ite (fun _ => panic_halts ⟨trivial, trivial⟩) fun _ => loop _ _ _ h

/-- If the name is there, the reference from `dirlookup` is put back. -/
theorem Counted.dirlink (h : Counted count s) (name : List UInt8) (inum : Nat)
    : Ensures Freed True (dirlink dp name inum) env s fun _ after => Counted count after := by
  refine (h.dirlookup name).bind ?_
  rintro (_ | ⟨ip, off⟩) mid gives
  · have h : Counted count mid := gives
    refine h.steady (.bind (.inode dp) fun _ => .bind (.emptyDirentLoop ..) fun _ => ?_)
    exact .bind (.writei ..) fun _ => .ite (.panic _) (.pure _)
  · exact (gives.2.iput gives.1).bind fun _ after h => .pure h

variable {path : List UInt8}

/-- Every element of a path takes at least one byte of it. -/
theorem length_of_skipelem {rest name : List UInt8} (found : skipelem path = some (rest, name))
    : rest.length < path.length := by
  rw [skipelem] at found
  have start := (List.dropWhile_suffix (l := path) (· = slash)).length_le
  cases begins : path.dropWhile (· = slash) with
  | nil => simp [begins] at found
  | cons c more =>
    have first_ : c ≠ slash := by
      have head := List.head_dropWhile_not (p := (· = slash)) (l := path) (by simp [begins])
      simpa [begins] using head
    have later := (List.dropWhile_suffix (l := more) (· ≠ slash)).length_le
    have last := (List.dropWhile_suffix (l := more.dropWhile (· ≠ slash)) (· = slash)).length_le
    rw [begins] at start found
    simp only [reduceCtorEq, if_false, Option.some.injEq, Prod.mk.injEq] at found
    rw [List.dropWhile_cons_of_pos (by simpa using first_)] at found
    rw [← found.1]
    simp only [List.length_cons] at start
    omega

/-- The loop holds one reference at a time. By induction on the path, which gets shorter. -/
theorem Counted.namexLoop (h : Counted (count + reference ip) s) (inside : ip < nInode)
    (parent : Bool) {fuel : Nat} (name : List UInt8) (enough : path.length < fuel)
    : Ensures Freed True (namexLoop parent fuel path name ip) env s
        fun r after => Gives count after (r.map Prod.fst) := by
  induction fuel generalizing path name ip s with
  | zero => cases enough
  | succ fuel ih =>
    rw [Fs.namexLoop]
    cases found : skipelem path with
    | none =>
      simp only
      refine .ite (fun _ => ?_) fun _ => .pure ⟨inside, h⟩
      exact (h.iput inside).bind fun _ after h => .pure h
    | some taken =>
      obtain ⟨rest, elem⟩ := taken
      have shorter := length_of_skipelem found
      simp only
      refine h.next (.ilock ip) fun _ mid h => h.next (.inode ip) fun node mid h => ?_
      refine .ite (fun _ => ?_) fun _ => .ite (fun _ => ?_) fun _ => ?_
      · exact (h.iunlockput inside).bind fun _ after h => .pure h
      · exact h.next (.iunlock ip) fun _ after h => .pure ⟨inside, h⟩
      · refine (h.dirlookup elem).bind ?_
        rintro (_ | ⟨next, off⟩) mid gives
        · have h : Counted (count + reference ip) mid := gives
          exact (h.iunlockput inside).bind fun _ after h => .pure h
        · obtain ⟨inside', h⟩ := gives
          simp only at inside' h
          rw [add_right_comm] at h
          exact (h.iunlockput inside).bind fun _ after h => ih h inside' elem (by omega)

section

variable (h : Counted count s)
include h

variable {cwd : Nat}

/-- `namex` starts at the root or at the current directory, with a reference of its own. -/
theorem Counted.namex (inside : cwd < nInode) (referenced : 0 < (s.icache cwd).ref)
    (path : List UInt8) (parent : Bool)
    : Ensures Freed True (namex cwd path parent) env s
        fun r after => Gives count after (r.map Prod.fst) := by
  rw [Fs.namex]
  refine .ite (fun _ => ?_) fun _ => ?_
  · exact (h.iget _ _).bind fun ip mid gives => gives.2.namexLoop gives.1 _ _ (Nat.lt_succ_self _)
  · exact (h.idup inside referenced).bind fun ip mid gives =>
      gives.2.namexLoop gives.1 _ _ (Nat.lt_succ_self _)

theorem Counted.namei (inside : cwd < nInode) (referenced : 0 < (s.icache cwd).ref)
    (path : List UInt8)
    : Ensures Freed True (namei cwd path) env s fun r after => Gives count after r :=
  (h.namex inside referenced path false).bind fun _ _ gives => .pure gives

theorem Counted.namei_root
    : Ensures Freed True (Fs.namei 0 [slash]) env s fun r after => Gives count after r := by
  have looked : Ensures Freed True (Fs.namex 0 [slash] false) env s
      fun r after => Gives count after (r.map Prod.fst) := by
    rw [Fs.namex]
    refine .ite (fun _ => ?_) fun other => absurd rfl other
    exact (h.iget _ _).bind fun ip mid gives => gives.2.namexLoop gives.1 _ _ (Nat.lt_succ_self _)
  exact looked.bind fun _ _ gives => .pure gives

theorem Counted.nameiparent (inside : cwd < nInode)
    (referenced : 0 < (s.icache cwd).ref) (path : List UInt8)
    : Ensures Freed True (nameiparent cwd path) env s
        fun r after => Gives count after (r.map Prod.fst) :=
  h.namex inside referenced path true

/-- The links `.` and `..` are names; the cache does not count them. -/
theorem Counted.linkDots (inum parent : Nat)
    : Ensures Freed True (linkDots ip inum parent) env s fun _ after => Counted count after := by
  refine (h.dirlink [46] inum).bind fun _ mid h => ?_
  refine .ite (fun _ => panic_halts ⟨trivial, trivial⟩) fun _ => ?_
  refine (h.dirlink [46, 46] parent).bind fun _ mid h => ?_
  exact .ite (fun _ => panic_halts ⟨trivial, trivial⟩) fun _ => .pure h

/-- `create` puts the directory back on every way out, and returns one inode. -/
theorem Counted.create (inside : cwd < nInode) (referenced : 0 < (s.icache cwd).ref)
    (path : List UInt8) (type major minor : UInt16)
    : Ensures Freed True (create cwd path type major minor) env s
        fun r after => Gives count after r := by
  refine (h.nameiparent inside referenced path).bind ?_
  rintro (_ | ⟨dp, name⟩) mid gives
  · exact .pure gives
  · obtain ⟨inside', h⟩ := gives
    refine h.next (.ilock dp) fun _ mid h => (h.dirlookup name).bind ?_
    rintro (_ | ⟨ip, off⟩) mid gives
    · have h : Counted (count + reference dp) mid := gives
      have last : ∀ (ip inum : Nat) (mid : FsState), ip < nInode
          → Counted (count + reference dp + reference ip) mid
          → Ensures Freed True (do
              if (← Fs.dirlink dp name inum) < 0 then panic .createDirlink
              else
                Fs.iunlockput dp
                return some ip) env mid fun r after => Gives count after r := by
        intro ip inum mid inside'' h
        refine (h.dirlink name inum).bind fun _ mid h => ?_
        refine .ite (fun _ => panic_halts ⟨trivial, trivial⟩) fun _ => ?_
        rw [add_right_comm] at h
        exact (h.iunlockput inside').bind fun _ after h => .pure ⟨inside'', h⟩
      refine h.next (.inode dp) fun dir mid h => (h.ialloc _ _).bind ?_
      rintro ip mid ⟨inside'', h⟩
      refine h.next (.ilock ip) fun _ mid h => h.next (.setCopy ..) fun _ mid h => ?_
      refine h.next (.iupdate ip) fun _ mid h => h.next (.inode ip) fun node mid h => ?_
      refine .ite (fun _ => ?_) fun _ => last ip _ mid inside'' h
      refine h.next (.setCopy ..) fun _ mid h => h.next (.iupdate dp) fun _ mid h => ?_
      exact (h.linkDots _ _).bind fun _ mid h => last ip _ mid inside'' h
    · obtain ⟨inside'', h⟩ := gives
      simp only at inside'' h
      rw [add_right_comm] at h
      refine (h.iunlockput inside').bind fun _ mid h => h.next (.ilock ip) fun _ mid h => ?_
      refine h.next (.inode ip) fun node mid h => .ite (fun _ => .pure ⟨inside'', h⟩) fun _ => ?_
      exact (h.iunlockput inside'').bind fun _ after h => .pure h

end

end

end Xv6Net.Fs
