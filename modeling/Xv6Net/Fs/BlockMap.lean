import Xv6Net.Fs.BlockOwnership
import Xv6Net.Library.Hoare

/-! What `balloc`, `bfree`, `bmap`, `iupdate` and `itrunc` do to the block map while one inode is
being changed, and what they leave alone.
-/

namespace Xv6Net.Fs

open Library Memory Program Function

def allocated (sb : Superblock) (disk : Nat → Block) (i : Nat) : Prop :=
  i < sb.ninodes ∧ (dinodeAt sb disk i).type ≠ 0

/-- The pointers that the inodes on disk have by their sizes. -/
def live (sb : Superblock) (disk : Nat → Block) (key : Nat × Nat) : Prop :=
  allocated sb disk key.1 ∧ holds (dinodeAt sb disk key.1).blocks key.2

/-- The pointers that are set are the ones in `held`. -/
def Shaped (disk : Nat → Block) (d : Dinode) (held : Nat → Prop) : Prop :=
  ∀ k ≤ 140, pointer disk d k ≠ 0 ↔ held k

section

variable {disk : Nat → Block} {d : Dinode} {held : Nat → Prop} (shaped : Shaped disk d held)
include shaped

/-- There is an indirect block exactly if the pointer to it is held. -/
theorem Shaped.indirect : d.addrs 12 ≠ 0 ↔ held 140 := by
  rw [← shaped 140 (Nat.le_refl _), pointer_indirect_ne]

theorem Shaped.entry {k : Nat} (low : 12 ≤ k) (high : k < 140) (indirect : held 140)
    : load32 (disk (d.addrs 12).toNat) (4 * (k - 12 : Nat)) ≠ 0 ↔ held k := by
  rw [← shaped k (by omega), pointer_entry _ low high (shaped.indirect.mpr indirect),
    toNat_ne_zero]

end

/-- The inodes, where the slot is ahead of the disk. -/
def view (sb : Superblock) (s : FsState) (ip : Nat) : Nat → Dinode :=
  update (dinodeAt sb s.disk) (s.icache ip).inum (s.icache ip).copy

/-- The live pointers, where the inode of the slot has the ones in `held`. -/
def workKeys (sb : Superblock) (s : FsState) (ip : Nat) (held : Nat → Prop)
    (key : Nat × Nat) : Prop :=
  if key.1 = (s.icache ip).inum then held key.2 else live sb s.disk key

/-- The invariant while the inode of a slot is being changed. -/
structure Working (sb : Superblock) (s : FsState) (ip : Nat) (held : Nat → Prop) : Prop where
  inside : (s.icache ip).inum < sb.ninodes
  mapped : Mapped sb s.disk (view sb s ip) (workKeys sb s ip held)
  others
    : ∀ i, i ≠ (s.icache ip).inum → allocated sb s.disk i
        → Shaped s.disk (dinodeAt sb s.disk i) (holds (dinodeAt sb s.disk i).blocks)
          ∧ (dinodeAt sb s.disk i).blocks ≤ 140

/-- A change to the disk for one inode leaves the other inodes and their blocks alone. -/
structure Spares (sb : Superblock) (inum : Nat) (disk disk' : Nat → Block) : Prop where
  dinodes : ∀ i < sb.ninodes, i ≠ inum → dinodeAt sb disk' i = dinodeAt sb disk i
  blocks
    : ∀ i k, i ≠ inum → live sb disk (i, k)
        → disk' (pointer disk (dinodeAt sb disk i) k) = disk (pointer disk (dinodeAt sb disk i) k)

/-- A change to the inode of a slot leaves the other slots, and of this one all but the copy. -/
structure Elsewhere (sb : Superblock) (ip : Nat) (s s' : FsState) : Prop where
  slots : ∀ jp, jp ≠ ip → s'.icache jp = s.icache jp
  slot : s'.icache ip = { s.icache ip with copy := (s'.icache ip).copy }
  spares : Spares sb (s.icache ip).inum s.disk s'.disk

section

variable {sb : Superblock} {disk disk' disk'' : Nat → Block} {inum i : Nat}

theorem Spares.refl : Spares sb inum disk disk :=
  ⟨fun _ _ _ => rfl, fun _ _ _ _ => rfl⟩

section

variable (h : Spares sb inum disk disk') (other : i ≠ inum)
include h other

theorem Spares.allocated_iff
    : allocated sb disk' i ↔ allocated sb disk i := by
  simp only [allocated]
  by_cases inside : i < sb.ninodes
  · rw [h.dinodes i inside other]
  · simp [inside]

/-- The places of the other inodes are the same. -/
theorem Spares.live_iff {k : Nat}
    : live sb disk' (i, k) ↔ live sb disk (i, k) := by
  simp only [live, h.allocated_iff other]
  refine and_congr_right fun used => ?_
  rw [h.dinodes i used.1 other]

/-- The pointers of the other inodes are the same, those in indirect blocks as well. -/
theorem Spares.pointer_eq (used : allocated sb disk i)
    (shaped : Shaped disk (dinodeAt sb disk i) (holds (dinodeAt sb disk i).blocks)) (k : Nat)
    : pointer disk' (dinodeAt sb disk' i) k = pointer disk (dinodeAt sb disk i) k := by
  rw [h.dinodes i used.1 other]
  refine pointer_congr (fun present => ?_) k
  have same := h.blocks i 140 other ⟨used, shaped.indirect.mp present⟩
  rw [pointer_indirect] at same
  exact same

end

/-- The second change spares what the first one has left in shape. -/
theorem Spares.trans (h : Spares sb inum disk disk')
    (shaped : ∀ i, i ≠ inum → allocated sb disk i
      → Shaped disk (dinodeAt sb disk i) (holds (dinodeAt sb disk i).blocks))
    (h' : Spares sb inum disk' disk'')
    : Spares sb inum disk disk'' := by
  refine ⟨?_, ?_⟩
  · intro i inside other
    rw [h'.dinodes i inside other, h.dinodes i inside other]
  · intro i k other lives
    have later := h'.blocks i k other ((h.live_iff other).mpr lives)
    rw [h.pointer_eq other lives.1 (shaped i other lives.1)] at later
    rw [later, h.blocks i k other lives]

end

section

variable {sb : Superblock} {s s' s'' : FsState} {ip : Nat} {held : Nat → Prop}

@[simp]
theorem view_self : view sb s ip (s.icache ip).inum = (s.icache ip).copy :=
  update_self ..

variable {i k : Nat}

theorem view_of_ne (other : i ≠ (s.icache ip).inum)
    : view sb s ip i = dinodeAt sb s.disk i :=
  update_of_ne other ..

/-- The inode in work has the places that it holds so far. -/
@[simp]
theorem workKeys_self : workKeys sb s ip held ((s.icache ip).inum, k) ↔ held k := by
  simp [workKeys]

theorem workKeys_of_ne (other : i ≠ (s.icache ip).inum)
    : workKeys sb s ip held (i, k) ↔ live sb s.disk (i, k) := by
  simp [workKeys, other]

theorem Elsewhere.refl : Elsewhere sb ip s s :=
  ⟨fun _ _ => rfl, rfl, .refl⟩

section

variable (h : Elsewhere sb ip s s')
include h

theorem Elsewhere.inum
    : (s'.icache ip).inum = (s.icache ip).inum := by
  rw [h.slot]

section

variable (w : Working sb s ip held)
include w

/-- The pointers of an inode that is not in work. -/
theorem Elsewhere.pointer_eq (other : i ≠ (s.icache ip).inum) (used : allocated sb s.disk i)
    (k : Nat)
    : pointer s'.disk (dinodeAt sb s'.disk i) k = pointer s.disk (dinodeAt sb s.disk i) k :=
  h.spares.pointer_eq other used (w.others i other used).1 k

theorem Elsewhere.trans (h' : Elsewhere sb ip s' s'')
    : Elsewhere sb ip s s'' := by
  refine ⟨?_, ?_, ?_⟩
  · intro jp other
    rw [h'.slots jp other, h.slots jp other]
  · rw [h'.slot, h.slot]
  · have later := h'.spares
    rw [h.inum] at later
    exact h.spares.trans (fun i other used => (w.others i other used).1) later

/-- The other inodes stay in shape. -/
theorem Elsewhere.others (i : Nat) (other : i ≠ (s'.icache ip).inum) (used : allocated sb s'.disk i)
    : Shaped s'.disk (dinodeAt sb s'.disk i) (holds (dinodeAt sb s'.disk i).blocks)
      ∧ (dinodeAt sb s'.disk i).blocks ≤ 140 := by
  rw [h.inum] at other
  have same := h.spares.dinodes i used.1 other
  have used' : allocated sb s.disk i := ⟨used.1, same ▸ used.2⟩
  obtain ⟨shaped, small⟩ := w.others i other used'
  refine ⟨fun k last => ?_, same ▸ small⟩
  rw [h.pointer_eq w other used', same]
  exact shaped k last

/-- A live pointer of any inode after the change, if those of the changed inode stay. -/
theorem Elsewhere.pointer_of_view {wanted : Nat → Prop}
    (own : ∀ k, wanted k → pointer s'.disk (s'.icache ip).copy k
      = pointer s.disk (s.icache ip).copy k)
    (here : i = (s.icache ip).inum → wanted k) (keys : workKeys sb s ip held (i, k))
    : pointer s'.disk (view sb s' ip i) k = pointer s.disk (view sb s ip i) k := by
  by_cases same : i = (s.icache ip).inum
  · rw [same, view_self, ← h.inum, view_self]
    exact own k (here same)
  · rw [view_of_ne same, view_of_ne (by rw [h.inum]; exact same)]
    exact h.pointer_eq w same ((workKeys_of_ne same).mp keys).1 k

end

end

section

variable (w : Working sb s ip held) (elsewhere : Elsewhere sb ip s s')
include w elsewhere

/-- Pointers and bitmap as before. -/
theorem Working.keep (own : ∀ k, held k → pointer s'.disk (s'.icache ip).copy k
      = pointer s.disk (s.icache ip).copy k)
    (marks : ∀ b < sb.size, marked sb s'.disk b = marked sb s.disk b)
    : Working sb s' ip held := by
  refine ⟨elsewhere.inum ▸ w.inside, ?_, elsewhere.others w⟩
  refine w.mapped.congr ?_ ?_ marks
  · rintro ⟨i, k⟩
    by_cases same : i = (s.icache ip).inum
    · rw [same, workKeys_self, ← elsewhere.inum, workKeys_self]
    · rw [workKeys_of_ne same, workKeys_of_ne (by rw [elsewhere.inum]; exact same)]
      exact elsewhere.spares.live_iff same
  · intro i k keys
    refine elsewhere.pointer_of_view w own (fun same => ?_) keys
    rw [same, workKeys_self] at keys
    exact keys

/-- A free block is marked and put in a place that the inode did not hold. -/
theorem Working.assign {b : Nat} (inside : b < sb.size) (free : marked sb s.disk b = false)
    (small : k ≤ 140) (covered : 12 ≤ k → k < 140 → held 140)
    (there : pointer s'.disk (s'.icache ip).copy k = b)
    (own : ∀ j, held j → pointer s'.disk (s'.icache ip).copy j
      = pointer s.disk (s.icache ip).copy j)
    (marks : ∀ c < sb.size, marked sb s'.disk c = (decide (c = b) || marked sb s.disk c))
    : Working sb s' ip fun j => j = k ∨ held j := by
  refine ⟨elsewhere.inum ▸ w.inside, ?_, elsewhere.others w⟩
  refine w.mapped.assign (i := (s.icache ip).inum) (k := k) inside free small ?_ ?_ ?_ ?_ marks
  · intro low high
    exact workKeys_self.mpr (covered low high)
  · rintro ⟨i, j⟩
    by_cases same : i = (s.icache ip).inum
    · rw [same, workKeys_self, ← elsewhere.inum, workKeys_self]
      simp
    · rw [workKeys_of_ne same, workKeys_of_ne (by rw [elsewhere.inum]; exact same),
        elsewhere.spares.live_iff same]
      simp [same]
  · rw [← elsewhere.inum, view_self]
    exact there
  · intro i j keys
    refine elsewhere.pointer_of_view w own (fun same => ?_) keys
    rw [same, workKeys_self] at keys
    exact keys

/-- A place of the inode is given up, with its block. -/
theorem Working.unassign (holding : held k) (last : k = 140 → ∀ j, held j → 12 ≤ j → j = 140)
    (own : ∀ j, j ≠ k → held j → pointer s'.disk (s'.icache ip).copy j
      = pointer s.disk (s.icache ip).copy j)
    (marks : ∀ c < sb.size, marked sb s'.disk c
      = (decide (c ≠ pointer s.disk (s.icache ip).copy k) && marked sb s.disk c))
    : Working sb s' ip fun j => j ≠ k ∧ held j := by
  refine ⟨elsewhere.inum ▸ w.inside, ?_, elsewhere.others w⟩
  refine w.mapped.unassign (i := (s.icache ip).inum) (k := k) (workKeys_self.mpr holding)
    ?_ ?_ ?_ ?_
  · intro whole j keys
    exact last whole j (workKeys_self.mp keys)
  · rintro ⟨i, j⟩
    by_cases same : i = (s.icache ip).inum
    · rw [same, workKeys_self, ← elsewhere.inum, workKeys_self]
      simp
    · rw [workKeys_of_ne same, workKeys_of_ne (by rw [elsewhere.inum]; exact same),
        elsewhere.spares.live_iff same]
      simp [same]
  · intro i j other keys
    have own' : ∀ j, j ≠ k ∧ held j → pointer s'.disk (s'.icache ip).copy j
        = pointer s.disk (s.icache ip).copy j := fun j wanted => own j wanted.1 wanted.2
    refine elsewhere.pointer_of_view w own' (fun same => ?_) keys
    rw [same, workKeys_self] at keys
    refine ⟨fun equal => other ?_, keys⟩
    rw [same, equal]
  · rw [view_self]
    exact marks

end

end

/-- No program comes to free a free block, or to look for a block beyond the largest file. -/
def Sound (event : FsEvent) : Prop :=
  event ≠ .panic .freeingFreeBlock ∧ event ≠ .panic .bmapOutOfRange

def withSlot (s : FsState) (ip : Nat) (change : Inode → Inode) : FsState :=
  { s with icache := update s.icache ip (change (s.icache ip)) }

section

variable {env : FsEnv} {s : FsState} {halt : Prop}

variable {β : Type} {ok : FsEvent → Prop} {post : β → FsState → Prop} {b ip fuel : Nat}
  {next : Unit → FsM β}

theorem sb_next {next : Superblock → FsM β} (rest : Ensures ok halt (next env.sb) env s post)
    : Ensures ok halt (sb >>= next) env s post :=
  .next rfl rest

theorem bread_next {next : Block → FsM β} (rest : Ensures ok halt (next (s.disk b)) env s post)
    : Ensures ok halt (bread b >>= next) env s post :=
  .next rfl rest

theorem inode_next {next : Inode → FsM β} (rest : Ensures ok halt (next (s.icache ip)) env s post)
    : Ensures ok halt (inode ip >>= next) env s post :=
  .next rfl rest

@[simp]
theorem withSlot_disk (ip : Nat) (change : Inode → Inode) : (withSlot s ip change).disk = s.disk :=
  rfl

@[simp]
theorem withSlot_self (ip : Nat) (change : Inode → Inode)
    : (withSlot s ip change).icache ip = change (s.icache ip) :=
  update_self ..

/-- The other slots of the cache stay. -/
theorem withSlot_of_ne {jp : Nat} (change : Inode → Inode) (other : jp ≠ ip)
    : (withSlot s ip change).icache jp = s.icache jp :=
  update_of_ne other ..

/-- What the slot that changes keeps, every slot keeps. -/
theorem slots_rel {s' : FsState} (rel : Inode → Inode → Prop) (refl : ∀ node, rel node node)
    (own : rel (s.icache ip) (s'.icache ip)) (slots : ∀ jp, jp ≠ ip → s'.icache jp = s.icache jp)
    (jp : Nat)
    : rel (s.icache jp) (s'.icache jp) := by
  by_cases here : jp = ip
  · rw [here]
    exact own
  · rw [slots jp here]
    exact refl _

theorem withSlot_withSlot (ip : Nat) (first_ second : Inode → Inode)
    : withSlot (withSlot s ip first_) ip second
      = withSlot s ip (fun node => second (first_ node)) := by
  simp [withSlot]

theorem setInode_next {change : Inode → Inode}
    (rest : Ensures ok halt (next ()) env (withSlot s ip change) post)
    : Ensures ok halt (setInode ip change >>= next) env s post :=
  .next rfl rest

theorem setInode_ensures {change : Inode → Inode} {post : Unit → FsState → Prop}
    (changed : post () (withSlot s ip change))
    : Ensures ok halt (setInode ip change) env s post :=
  .modify changed

theorem updateBlock_ensures {change : Block → Block} {post : Unit → FsState → Prop}
    (changed : post () { s with disk := update s.disk b (change (s.disk b)) })
    : Ensures Sound halt (updateBlock b change) env s post :=
  .next rfl (.emit ⟨nofun, nofun⟩ changed)

theorem updateBlock_next {change : Block → Block}
    (rest : Ensures Sound halt (next ()) env
      { s with disk := update s.disk b (change (s.disk b)) } post)
    : Ensures Sound halt (updateBlock b change >>= next) env s post := by
  have changed : Ensures Sound halt (updateBlock b change) env s fun _ after =>
      after = { s with disk := update s.disk b (change (s.disk b)) } :=
    updateBlock_ensures rfl
  refine changed.bind ?_
  rintro _ _ rfl
  exact rest

theorem panic_halts {α : Type} {reason : FsPanic} {post : α → FsState → Prop}
    (stops : ok (.panic reason) ∧ halt)
    : Ensures ok halt (panic reason : FsM α) env s post :=
  .emit_next stops.1 (.stop stops.2)

/-- The panics that a full disk or a full cache may cause. -/
theorem panic_ensures {α : Type} {reason : FsPanic} {post : α → FsState → Prop}
    (fine : reason ≠ .freeingFreeBlock ∧ reason ≠ .bmapOutOfRange) (stops : halt)
    : Ensures Sound halt (panic reason : FsM α) env s post := by
  have sound : Sound (.panic reason) := by
    simp [Sound, fine]
  exact panic_halts ⟨sound, stops⟩

/-- The scan passes only set bits. By induction on the bits that are left. -/
theorem scanBits_none {data : Block} {size bi : Nat} (none_ : scanBits data b size fuel bi = none)
    {j : Nat} (low : bi ≤ j) (high : j < bi + fuel) (inside : b + j < size)
    : Bitmap.get data j = true := by
  induction fuel generalizing bi with
  | zero => omega
  | succ fuel ih =>
    rw [scanBits, if_pos (by omega)] at none_
    cases bit : Bitmap.get data bi with
    | false => simp [bit] at none_
    | true =>
      rw [bit, if_pos rfl] at none_
      by_cases here : j = bi
      · rw [here, bit]
      · exact ih none_ (by omega) (by omega)

/-- The scan stops at a clear bit inside the disk. -/
theorem scanBits_some {data : Block} {size bi j : Nat}
    (found : scanBits data b size fuel bi = some j)
    : j < bi + fuel ∧ b + j < size ∧ Bitmap.get data j = false := by
  induction fuel generalizing bi with
  | zero => cases found
  | succ fuel ih =>
    rw [scanBits] at found
    split at found
    next inside =>
      cases bit : Bitmap.get data bi with
      | false =>
        rw [bit, if_neg (by decide)] at found
        obtain rfl := Option.some.inj found
        exact ⟨by omega, inside, bit⟩
      | true =>
        rw [bit, if_pos rfl] at found
        obtain ⟨low, rest⟩ := ih found
        exact ⟨by omega, rest⟩
    next => cases found

/-- The loop hands out a block that is free, and panics only if there is none from `b` on. -/
theorem ballocLoop_ensures (aligned : b % 4096 = 0) (enough : env.sb.size < b + 4096 * fuel)
    : Ensures Sound (∀ c, b ≤ c → c < env.sb.size → marked env.sb s.disk c = true)
        (ballocLoop fuel b) env s fun addr after =>
          ∃ c < env.sb.size, marked env.sb s.disk c = false ∧ addr.toNat = c
            ∧ after = { s with disk := allocate env.sb s.disk c } := by
  induction fuel generalizing b with
  | zero => exact panic_ensures (by decide) fun c low high => by omega
  | succ fuel ih =>
    rw [ballocLoop]
    refine sb_next (.ite (fun inside => ?_) fun outside => ?_)
    · refine bread_next ?_
      cases found : scanBits (s.disk (env.sb.bblock b)) b env.sb.size 4096 0 with
      | some bi =>
        simp only
        obtain ⟨low, high, free⟩ := scanBits_some found
        have block : env.sb.bblock b = env.sb.bblock (b + bi) := by
          rw [Superblock.bblock, Superblock.bblock]
          omega
        have place : bi = (b + bi) % 4096 := by omega
        have fits := env.sb.sizeFits
        have small : b + bi < 2 ^ 32 := by omega
        refine updateBlock_next ?_
        refine updateBlock_next (.pure ?_)
        refine ⟨b + bi, high, ?_, ?_, ?_⟩
        · rw [marked, ← block, ← place]
          exact free
        · exact UInt32.toNat_ofNat_of_lt' small
        · rw [allocate, ← block, ← place]
      | none =>
        refine (ih (b := b + 4096) (by omega) (by omega)).mono (fun rest => ?_) fun _ _ => id
        intro c low high
        by_cases later : b + 4096 ≤ c
        · exact rest c later high
        · have block : env.sb.bblock c = env.sb.bblock b := by
            rw [Superblock.bblock, Superblock.bblock]
            omega
          rw [marked, block]
          exact scanBits_none found (by omega) (by omega) (by omega)
    · exact panic_ensures (by decide) fun c low high => by omega

/-- `balloc` takes a free block, and panics only if there is none. -/
theorem balloc_ensures
    : Ensures Sound (freeCount env.sb s.disk = 0) balloc env s fun addr after =>
        ∃ b < env.sb.size, marked env.sb s.disk b = false ∧ addr.toNat = b
          ∧ after = { s with disk := allocate env.sb s.disk b } := by
  refine sb_next ?_
  refine (ballocLoop_ensures rfl (by omega)).mono (fun full => ?_) fun _ _ => id
  rw [freeCount, Finset.card_eq_zero, Finset.filter_eq_empty_iff]
  intro b member free
  rw [full b (Nat.zero_le b) (Finset.mem_range.mp member)] at free
  cases free

/-- `bfree` does not panic for a block that is in use. -/
theorem bfree_ensures {b : UInt32} {post : Unit → FsState → Prop}
    (used : marked env.sb s.disk b.toNat = true)
    (freed : post () { s with disk := release env.sb s.disk b.toNat })
    : Ensures Sound halt (bfree b) env s post := by
  refine sb_next (bread_next (.ite (fun _ => updateBlock_ensures freed) fun free => ?_))
  exact (free used).elim

theorem bfree_next {b : UInt32} (used : marked env.sb s.disk b.toNat = true)
    (rest : Ensures Sound halt (next ()) env { s with disk := release env.sb s.disk b.toNat } post)
    : Ensures Sound halt (bfree b >>= next) env s post := by
  have freed : Ensures Sound halt (bfree b) env s fun _ after =>
      after = { s with disk := release env.sb s.disk b.toNat } := bfree_ensures used rfl
  refine freed.bind ?_
  rintro _ _ rfl
  exact rest

end

/-- The inode gets more pointers, at the cost of so many free blocks; the old ones and their blocks
stay.
-/
structure Grown (sb : Superblock) (ip : Nat) (held held' : Nat → Prop) (cost : Nat) (s s' : FsState)
    : Prop where
  working : Working sb s' ip held'
  shaped : Shaped s'.disk (s'.icache ip).copy held'
  elsewhere : Elsewhere sb ip s s'
  more : ∀ k, held k → held' k
  own
    : ∀ k, held k → pointer s'.disk (s'.icache ip).copy k = pointer s.disk (s.icache ip).copy k
  data
    : ∀ k < 140, held k
        → s'.disk (pointer s.disk (s.icache ip).copy k)
          = s.disk (pointer s.disk (s.icache ip).copy k)
  fields : (s'.icache ip).copy = { (s.icache ip).copy with addrs := (s'.icache ip).copy.addrs }
  low : ∀ c < sb.bmapstart, s'.disk c = s.disk c
  spent : freeCount sb s'.disk + cost = freeCount sb s.disk

section

variable {sb : Superblock} {s s' s'' : FsState} {ip cost cost' : Nat}
  {held held' held'' : Nat → Prop}

theorem Grown.refl (w : Working sb s ip held) (shaped : Shaped s.disk (s.icache ip).copy held)
    : Grown sb ip held held 0 s s :=
  ⟨w, shaped, .refl, fun _ => id, fun _ _ => rfl, fun _ _ _ => rfl, rfl, fun _ _ => rfl, rfl⟩

/-- The costs add up. -/
theorem Grown.trans (g : Grown sb ip held held' cost s s') (w : Working sb s ip held)
    (g' : Grown sb ip held' held'' cost' s' s'')
    : Grown sb ip held held'' (cost + cost') s s'' := by
  refine ⟨g'.working, g'.shaped, g.elsewhere.trans w g'.elsewhere,
    fun k has => g'.more k (g.more k has), ?_, ?_, ?_, ?_, ?_⟩
  · intro k has
    rw [g'.own k (g.more k has), g.own k has]
  · intro k inside has
    have later := g'.data k inside (g.more k has)
    rw [g.own k has] at later
    rw [later, g.data k inside has]
  · rw [g'.fields, g.fields]
  · intro c below
    rw [g'.low c below, g.low c below]
  · have first_ := g.spent
    have second := g'.spent
    omega

theorem Grown.congr (g : Grown sb ip held held' cost s s') (same : ∀ k, held' k ↔ held'' k)
    : Grown sb ip held held'' cost s s' := by
  have equal : held' = held'' := funext fun k => propext (same k)
  exact equal ▸ g

/-- A free block is not a block of an inode, nor is its bitmap block. -/
theorem Working.block_ne (w : Working sb s ip held) {i k b : Nat}
    (keys : workKeys sb s ip held (i, k)) (inside : b < sb.size) (free : marked sb s.disk b = false)
    : pointer s.disk (view sb s ip i) k ≠ b
      ∧ pointer s.disk (view sb s ip i) k ≠ sb.bblock b := by
  have data := (w.mapped.data_of_live keys).1
  have used := (w.mapped.owns.used_of_live keys).2.2
  have bitmap := (sb.bblock_lt inside).2
  refine ⟨?_, by omega⟩
  rintro rfl
  rw [free] at used
  cases used

/-- A free block becomes a block of the inode, at the cost of one. -/
theorem Grown.of_assign (w : Working sb s ip held)
    (shaped : Shaped s.disk (s.icache ip).copy held) {k b : Nat}
    (inside : b < sb.size) (free : marked sb s.disk b = false) (small : k ≤ 140)
    (covered : 12 ≤ k → k < 140 → held 140) (slots : ∀ jp, jp ≠ ip → s'.icache jp = s.icache jp)
    (slot : s'.icache ip = { s.icache ip with copy := (s'.icache ip).copy })
    (fields : (s'.icache ip).copy = { (s.icache ip).copy with addrs := (s'.icache ip).copy.addrs })
    (there : pointer s'.disk (s'.icache ip).copy k = b)
    (own : ∀ j ≤ 140, j ≠ k → pointer s'.disk (s'.icache ip).copy j
      = pointer s.disk (s.icache ip).copy j)
    (fresh : ¬ held k)
    (blocks : ∀ c, c ≠ b → c ≠ sb.bblock b → (held 140 → c ≠ pointer s.disk (s.icache ip).copy 140)
      → s'.disk c = s.disk c)
    (marks : ∀ c < sb.size, marked sb s'.disk c = (decide (c = b) || marked sb s.disk c))
    : Grown sb ip held (fun j => j = k ∨ held j) 1 s s' := by
  have data := w.mapped.data_of_unmarked free
  have bitmap := sb.bblock_lt inside
  -- only the new block, the bitmap and the indirect block change
  have low : ∀ c < sb.bmapstart, s'.disk c = s.disk c := by
    intro c below
    refine blocks c ?_ (by omega) fun indirect => ?_
    · rw [Superblock.dataStart] at data
      omega
    · have used := w.mapped.data_of_live (workKeys_self.mpr indirect)
      rw [view_self, Superblock.dataStart] at used
      omega
  have elsewhere : Elsewhere sb ip s s' := by
    refine ⟨slots, slot, ?_, ?_⟩
    · intro i table _
      exact dinodeAt_congr (low _ (sb.iblock_lt table))
    · intro i j other lives
      have keys : workKeys sb s ip held (i, j) := (workKeys_of_ne other).mpr lives
      have apart := w.block_ne keys inside free
      rw [view_of_ne other] at apart
      -- no block has two owners
      refine blocks _ apart.1 apart.2 fun indirect equal => other ?_
      have same := w.mapped.owns.distinct keys (workKeys_self.mpr indirect)
      simp only [view_self, view_of_ne other] at same
      exact (Prod.mk.inj (same equal)).1
  have holding : ∀ j, held j → j ≤ 140 := fun j has =>
    w.mapped.bounded ((s.icache ip).inum, j) (workKeys_self.mpr has)
  have kept : ∀ j, held j → pointer s'.disk (s'.icache ip).copy j
      = pointer s.disk (s.icache ip).copy j :=
    fun j has => own j (holding j has) fun same => fresh (same ▸ has)
  refine ⟨w.assign elsewhere inside free small covered there kept marks, ?_, elsewhere,
    fun _ => Or.inr, kept, ?_, fields, low, freeCount_mark inside free marks⟩
  · intro j last
    by_cases same : j = k
    · subst same
      rw [there]
      simp only [true_or, iff_true]
      rw [Superblock.dataStart] at data
      omega
    · rw [own j last same, shaped j last]
      simp [same]
  · intro j entry has
    have keys : workKeys sb s ip held ((s.icache ip).inum, j) := workKeys_self.mpr has
    have apart := w.block_ne keys inside free
    rw [view_self] at apart
    refine blocks _ apart.1 apart.2 fun indirect equal => ?_
    have same := w.mapped.owns.distinct keys (workKeys_self.mpr indirect)
    simp only [view_self] at same
    have last := (Prod.mk.inj (same equal)).2
    omega

end

/-- The place of an entry of `addrs` among the pointers. -/
def addrKey (i : Fin 13) : Nat := if i = 12 then 140 else i

/-- The places in the inode itself: the direct blocks and the indirect one. -/
theorem addrKey_cases (i : Fin 13) : addrKey i < 12 ∨ addrKey i = 140 := by
  rw [addrKey]
  split <;> omega

theorem addrKey_direct {k : Nat} (direct : k < 12) : addrKey ⟨k, Dinode.direct_lt direct⟩ = k :=
  if_neg fun last => absurd (congrArg Fin.val last) (Nat.ne_of_lt direct)

theorem pointer_addrKey (disk : Nat → Block) (d : Dinode) (i : Fin 13)
    : pointer disk d (addrKey i) = (d.addrs i).toNat := by
  rw [addrKey]
  split
  next last => rw [last, pointer_indirect]
  next other =>
    have direct : i.val < 12 := by omega
    exact pointer_direct disk d direct

/-- Another entry of `addrs` leaves the other pointers, if a new indirect block is clear and
replaces none.
-/
theorem pointer_update_addrs {disk disk' : Nat → Block} {d : Dinode} {i : Fin 13} {addr : UInt32}
    (same : i ≠ 12 → d.addrs 12 ≠ 0 → disk' (d.addrs 12).toNat = disk (d.addrs 12).toNat)
    (clear : i = 12 → d.addrs 12 = 0 ∧ ∃ data, disk' addr.toNat = zeroed data) {j : Nat}
    (small : j ≤ 140) (other : j ≠ addrKey i)
    : pointer disk' { d with addrs := update d.addrs i addr } j = pointer disk d j := by
  rw [addrKey] at other
  by_cases direct : j < 12
  · rw [pointer_direct _ _ direct, pointer_direct _ _ direct]
    have apart : (⟨j, by omega⟩ : Fin 13) ≠ i := by
      rintro rfl
      rw [if_neg (by simp [Fin.ext_iff]; omega)] at other
      exact other rfl
    simp only [update_of_ne apart]
  · by_cases last : i = 12
    · rw [if_pos last] at other
      obtain ⟨absent, data, zero⟩ := clear last
      have present : pointer disk d j = 0 := by
        rw [pointer, dif_neg direct, if_pos (by omega), if_pos absent]
      rw [present, pointer, dif_neg direct, if_pos (by omega), last]
      simp only [update_self]
      split
      next => rfl
      next =>
        rw [zero, zeroed_load32 data (by omega)]
        rfl
    · have indirect : update d.addrs i addr 12 = d.addrs 12 :=
        update_of_ne (Ne.symm last) ..
      rw [pointer, pointer, dif_neg direct, dif_neg direct]
      simp only [indirect]
      by_cases absent : d.addrs 12 = 0
      · simp only [if_pos absent]
      · rw [same last absent]

section

variable {sb : Superblock} {env : FsEnv} {s : FsState} {ip : Nat} {held : Nat → Prop}
  {halt : Prop}

variable {i : Fin 13} {k : Nat}

/-- An address that is set is returned. -/
theorem addrOrAlloc_present (present : (s.icache ip).copy.addrs i ≠ 0)
    : (addrOrAlloc ip i).run env s = ⟨some ((s.icache ip).copy.addrs i), s, []⟩ := by
  simp [addrOrAlloc, inode, present]

theorem addr_zero (shaped : Shaped s.disk (s.icache ip).copy held) (absent : ¬ held (addrKey i))
    : (s.icache ip).copy.addrs i = 0 := by
  have place := addrKey_cases i
  by_contra set
  refine absent ((shaped _ (by omega)).mp ?_)
  rw [pointer_addrKey]
  exact toNat_ne_zero.mpr set

/-- A new block in the inode itself. -/
theorem Grown.addr (w : Working sb s ip held) (shaped : Shaped s.disk (s.icache ip).copy held)
    {addr : UInt32} (absent : ¬ held (addrKey i)) (inside : addr.toNat < sb.size)
    (free : marked sb s.disk addr.toNat = false)
    : Grown sb ip held (fun j => j = addrKey i ∨ held j) 1 s
        (withSlot { s with disk := allocate sb s.disk addr.toNat } ip fun node =>
          { node with
            copy := { node.copy with addrs := update node.copy.addrs i addr } }) := by
  have place := addrKey_cases i
  have zero := addr_zero shaped absent
  have data := w.mapped.data_of_unmarked free
  refine .of_assign w shaped inside free (by omega) ?_ ?_ ?_ ?_ ?_ ?_ absent ?_ ?_
  · intro low high
    omega
  · intro jp other
    simp [withSlot, other]
  · simp [withSlot]
  · simp [withSlot]
  · rw [pointer_addrKey]
    simp [withSlot]
  · intro j last other
    simp only [withSlot, update_self]
    refine pointer_update_addrs ?_ ?_ last other
    · intro different present
      have apart := w.block_ne (workKeys_self.mpr (shaped.indirect.mp present)) inside free
      rw [view_self, pointer_indirect] at apart
      exact allocate_of_ne apart.1 apart.2
    · intro whole
      rw [whole] at zero
      exact ⟨zero, allocate_self⟩
  · intro c other bitmap _
    exact allocate_of_ne other bitmap
  · intro c low
    exact marked_allocate data low

/-- An address that is not set gets a new block. -/
theorem addrOrAlloc_absent (w : Working env.sb s ip held)
    (shaped : Shaped s.disk (s.icache ip).copy held) (absent : ¬ held (addrKey i))
    : Ensures Sound (freeCount env.sb s.disk = 0) (addrOrAlloc ip i) env s fun addr after =>
        Grown env.sb ip held (fun j => j = addrKey i ∨ held j) 1 s after
        ∧ addr = (after.icache ip).copy.addrs i := by
  rw [addrOrAlloc]
  refine inode_next ?_
  rw [if_pos (addr_zero shaped absent)]
  refine balloc_ensures.bind ?_
  rintro addr _ ⟨b, inside, free, rfl, rfl⟩
  rw [setAddr, setCopy]
  exact setInode_next (.pure ⟨.addr w shaped absent inside free, by simp [withSlot]⟩)

/-- A new block in the indirect block. -/
theorem Grown.entry (w : Working sb s ip held) (shaped : Shaped s.disk (s.icache ip).copy held)
    {addr : UInt32} (low : 12 ≤ k) (high : k < 140) (indirect : held 140) (absent : ¬ held k)
    (inside : addr.toNat < sb.size) (free : marked sb s.disk addr.toNat = false)
    : Grown sb ip held (fun j => j = k ∨ held j) 1 s
        { s with
          disk := update (allocate sb s.disk addr.toNat) ((s.icache ip).copy.addrs 12).toNat
            (overlay (allocate sb s.disk addr.toNat ((s.icache ip).copy.addrs 12).toNat)
              (4 * (k - 12 : Nat)) (bytes32 addr)) } := by
  have data := w.mapped.data_of_unmarked free
  have whole := w.mapped.data_of_live (workKeys_self.mpr indirect)
  have apart := w.block_ne (workKeys_self.mpr indirect) inside free
  rw [view_self, pointer_indirect] at whole apart
  have present := shaped.indirect.mpr indirect
  rw [allocate_of_ne apart.1 apart.2]
  refine .of_assign w shaped inside free (by omega) (fun _ _ => indirect) (fun _ _ => rfl) rfl
    rfl ?_ ?_ absent ?_ ?_
  · rw [pointer_entry _ low high present]
    simp only [update_self]
    rw [load32_overlay]
  · intro j last other
    by_cases entry : 12 ≤ j ∧ j < 140
    · rw [pointer_entry _ entry.1 entry.2 present, pointer_entry _ entry.1 entry.2 present]
      simp only [update_self]
      rw [load32_overlay_disjoint _ (by rw [length_bytes32]; omega)]
    · rcases Nat.lt_or_ge j 12 with direct | beyond
      · rw [pointer_direct _ _ direct, pointer_direct _ _ direct]
      · have top : j = 140 := by omega
        rw [top, pointer_indirect, pointer_indirect]
  · intro c other bitmap own
    have different := own indirect
    rw [pointer_indirect] at different
    exact (update_of_ne different ..).trans (allocate_of_ne other bitmap)
  · intro c below
    rw [← marked_allocate data below]
    refine marked_congr (update_of_ne ?_ ..)
    have bitmap := (sb.bblock_lt below).2
    omega

/-- The free blocks that the first block with this number takes. -/
def bmapCost (k : Nat) : Nat := if k = 12 then 2 else 1

theorem bmapCost_eq_succ (k : Nat) : bmapCost k = (if k = 12 then 1 else 0) + 1 := by
  rw [bmapCost]
  split <;> rfl

/-- `bmap` of a block that the file has changes nothing. -/
theorem bmap_present (inside : k < 140) (present : pointer s.disk (s.icache ip).copy k ≠ 0)
    : ∃ addr, (bmap ip k).run env s = ⟨some addr, s, []⟩
        ∧ addr.toNat = pointer s.disk (s.icache ip).copy k := by
  by_cases direct : k < 12
  · rw [pointer_direct _ _ direct] at present ⊢
    refine ⟨_, ?_, rfl⟩
    rw [bmap, dif_pos direct]
    exact addrOrAlloc_present (toNat_ne_zero.mp present)
  · have indirect : (s.icache ip).copy.addrs 12 ≠ 0 := by
      intro zero
      rw [pointer, dif_neg direct, if_pos inside, if_pos zero] at present
      exact present rfl
    rw [pointer_entry _ (by omega) inside indirect] at present ⊢
    refine ⟨_, ?_, rfl⟩
    rw [bmap, dif_neg direct, if_pos (by omega), run_bind, addrOrAlloc_present indirect]
    simp only [andThen_some, after_nil, bread, run_bind, run_get, run_pure]
    rw [if_neg (toNat_ne_zero.mp present)]
    rfl

/-- One block more, where no indirect block is needed for it. -/
theorem holds_succ {j : Nat} (other : k ≠ 12) : holds (k + 1) j ↔ j = k ∨ holds k j := by
  simp only [holds]
  omega

section

variable (w : Working env.sb s ip (holds k)) (shaped : Shaped s.disk (s.icache ip).copy (holds k))
include w shaped

/-- The indirect block is allocated with the first block that it points to. -/
theorem indirectBlock_ensures (low : 12 ≤ k)
    : Ensures Sound (freeCount env.sb s.disk < bmapCost k) (addrOrAlloc ip 12) env s
        fun addr after =>
          Grown env.sb ip (holds k) (fun j => j = 140 ∨ holds k j) (if k = 12 then 1 else 0) s
            after
          ∧ addr = (after.icache ip).copy.addrs 12 := by
  by_cases whole : k = 12
  · rw [bmapCost, if_pos whole, if_pos whole]
    refine (addrOrAlloc_absent w shaped ?_).mono (by omega) fun _ _ => id
    rw [whole]
    simp [addrKey, holds]
  · have indirect : holds k 140 := by
      rw [holds]
      omega
    rw [if_neg whole]
    refine .of_run (addrOrAlloc_present (shaped.indirect.mpr indirect)) ⟨?_, rfl⟩
    exact (Grown.refl w shaped).congr fun j => (or_iff_right_of_imp (· ▸ indirect)).symm

/-- `bmap` of the block behind the end makes the file one block longer. -/
theorem bmap_absent (inside : k < 140)
    : Ensures Sound (freeCount env.sb s.disk < bmapCost k) (bmap ip k) env s fun addr after =>
        Grown env.sb ip (holds k) (holds (k + 1)) (bmapCost k) s after
        ∧ addr.toNat = pointer after.disk (after.icache ip).copy k := by
  rw [bmap]
  by_cases direct : k < 12
  · have place := addrKey_direct direct
    have cost : bmapCost k = 1 := if_neg (by omega)
    rw [dif_pos direct, cost]
    refine (addrOrAlloc_absent w shaped ?_).mono (by omega) ?_
    · rw [place, holds]
      omega
    · rintro addr after ⟨grown, rfl⟩
      rw [place] at grown
      refine ⟨grown.congr fun j => (holds_succ (by omega)).symm, ?_⟩
      rw [pointer_direct _ _ direct]
  · rw [dif_neg direct, if_pos (by omega)]
    refine (indirectBlock_ensures w shaped (by omega)).bind ?_
    rintro _ mid ⟨first_, rfl⟩
    have w' := first_.working
    have missing : ¬ (k = 140 ∨ holds k k) := by
      rw [holds]
      omega
    have present := first_.shaped.indirect.mpr (Or.inl rfl)
    have zero := not_not.mp
      ((first_.shaped.entry (by omega) inside (Or.inl rfl)).not.mpr missing)
    have cost := bmapCost_eq_succ k
    have spent := first_.spent
    refine bread_next ?_
    simp only [zero, if_pos]
    refine (balloc_ensures.mono (by omega) fun _ _ => id).bind ?_
    rintro addr _ ⟨b, within, free, rfl, rfl⟩
    have second := Grown.entry w' first_.shaped (by omega) inside (Or.inl rfl) missing within free
    refine updateBlock_next (.pure ⟨?_, ?_⟩)
    · rw [cost]
      refine (first_.trans w second).congr fun j => ?_
      simp only [holds]
      omega
    · simp only
      rw [pointer_entry _ (by omega) inside present, update_self, load32_overlay]

end

end

end Xv6Net.Fs
