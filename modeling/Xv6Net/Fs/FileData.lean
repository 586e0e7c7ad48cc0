import Xv6Net.Fs.Consistency

/-! Files as byte arrays: what `readi` and `writei` do to the contents of an inode. -/

namespace Xv6Net.Fs

open Library Memory Program Function

/-- The bytes in the blocks of an inode, by their offset in the file. -/
def byteAt (disk : Nat → Block) (d : Dinode) (o : Int) : UInt8 :=
  disk (pointer disk d (o.toNat / 512)) (o.toNat % 512 : Nat)

def contents (disk : Nat → Block) (d : Dinode) : List UInt8 := slice (byteAt disk d) 0 d.size.toNat

/-- The array overwritten, and extended where need be, from an offset on. -/
def splice (old : List UInt8) (off : Nat) (new : List UInt8) : List UInt8 :=
  old.take off ++ new ++ old.drop (off + new.length)

@[simp]
theorem length_contents (disk : Nat → Block) (d : Dinode)
    : (contents disk d).length = d.size.toNat := by
  simp [contents]

theorem slice_block (disk : Nat → Block) (d : Dinode) {off m : Nat} (fits : off % 512 + m ≤ 512)
    : slice (disk (pointer disk d (off / 512))) (off % 512 : Nat) m
      = slice (byteAt disk d) off m := by
  apply List.map_congr_left
  intro i member
  have bound := List.mem_range.mp member
  have whole : ((off : Int) + i).toNat = off + i := by omega
  have block : (off + i) / 512 = off / 512 := by omega
  have place : (off + i) % 512 = off % 512 + i := by omega
  rw [byteAt, whole, block, place, Nat.cast_add]

section

variable {env : FsEnv} {s : FsState} {ip : Nat}

/-- The loop of `readi`, block by block. By induction on the fuel. -/
theorem readLoop_run {len fuel off left : Nat}
    (shaped : Shaped s.disk (s.icache ip).copy (holds len)) (small : len ≤ 140)
    (enough : left ≤ fuel) (inside : off + left ≤ 512 * len)
    : (readLoop ip fuel off left).run env s
      = ⟨some (slice (byteAt s.disk (s.icache ip).copy) off left), s, []⟩ := by
  induction fuel generalizing off left with
  | zero =>
    obtain rfl : left = 0 := by omega
    rfl
  | succ fuel ih =>
    rw [readLoop]
    by_cases done : left = 0
    · rw [if_pos done, done]
      rfl
    · have block : off / 512 < len := by omega
      have set : pointer s.disk (s.icache ip).copy (off / 512) ≠ 0 :=
        (shaped _ (by omega)).mpr (Or.inl block)
      have mapped : ∃ addr, (bmap ip (off / 512)).run env s = ⟨some addr, s, []⟩
          ∧ addr.toNat = pointer s.disk (s.icache ip).copy (off / 512) :=
        bmap_present (by omega) set
      obtain ⟨addr, run, there⟩ := mapped
      let m := min left (512 - off % 512)
      have step : m ≤ left ∧ 0 < m ∧ off % 512 + m ≤ 512 := by omega
      have rest : (readLoop ip fuel (off + m) (left - m)).run env s = _ :=
        ih (by omega) (by omega)
      rw [if_neg done]
      simp only [run_bind, run, bread, run_get, run_pure, andThen_some, after_nil]
      rw [rest]
      simp only [andThen_some, after_nil]
      rw [there, slice_block _ _ step.2.2]
      have total : left = m + (left - m) := by omega
      rw [total, slice_append]
      simp

/-- The first test of `readi` and `writei`: the offset is beyond the end, or the range overflows. -/
theorem range_test (off n size : UInt32)
    : (off > size ∨ off + n < off)
      ↔ size.toNat < off.toNat ∨ 2 ^ 32 ≤ off.toNat + n.toNat := by
  have bound := off.toNat_lt
  have bound' := n.toNat_lt
  rw [gt_iff_lt, UInt32.lt_iff_toNat_lt, UInt32.lt_iff_toNat_lt, UInt32.toNat_add]
  omega

theorem drop_take_contents (disk : Nat → Block) (d : Dinode) {off : Nat} (n : Nat)
    (inside : off ≤ d.size.toNat)
    : ((contents disk d).drop off).take n
      = slice (byteAt disk d) off (min n (d.size.toNat - off)) := by
  have total : d.size.toNat = off + (d.size.toNat - off) := by omega
  rw [contents, total, drop_slice, take_slice, Int.zero_add]
  congr 2
  omega

/-- `readi` returns the bytes of the contents in its range, up to their end, while their blocks are
there.
-/
theorem readi_shaped (len : Nat) {off n : UInt32}
    (shaped : Shaped s.disk (s.icache ip).copy (holds len)) (small : len ≤ 140)
    (covered : min (off.toNat + n.toNat) (s.icache ip).copy.size.toNat ≤ 512 * len)
    (file : (s.icache ip).copy.type ≠ tDev)
    : (readi ip off n).run env s
      = ⟨some (if (s.icache ip).copy.size.toNat < off.toNat ∨ 2 ^ 32 ≤ off.toNat + n.toNat then
            (-1, [])
          else
            let bytes := ((contents s.disk (s.icache ip).copy).drop off.toNat).take n.toNat
            (bytes.length, bytes)), s, []⟩ := by
  simp only [readi, run_bind, run_env, inode, run_get, run_pure, andThen_some,
    after_nil, if_neg file, range_test]
  split
  next => rfl
  next fits =>
    have count : (if off + n > (s.icache ip).copy.size then (s.icache ip).copy.size - off
        else n).toNat = min n.toNat ((s.icache ip).copy.size.toNat - off.toNat) := by
      have sum : (off + n).toNat = off.toNat + n.toNat := by
        rw [UInt32.toNat_add]
        omega
      split
      next beyond =>
        rw [gt_iff_lt, UInt32.lt_iff_toNat_lt, sum] at beyond
        rw [UInt32.toNat_sub_of_le _ _ (UInt32.le_iff_toNat_le.mpr (by omega))]
        omega
      next within =>
        rw [gt_iff_lt, UInt32.lt_iff_toNat_lt, sum] at within
        omega
    have blocks : off.toNat + min n.toNat ((s.icache ip).copy.size.toNat - off.toNat)
        ≤ 512 * len := by omega
    rw [drop_take_contents _ _ _ (by omega), length_slice, count, run_bind,
      readLoop_run shaped small (Nat.le_refl _) blocks]
    rfl

/-- `readi` returns the bytes of the file that are there. -/
theorem readi_run {off n : UInt32} (ok : FsOk env.sb s) (cached : Cached s ip)
    (file : (s.icache ip).copy.type ≠ tDev)
    : (readi ip off n).run env s
      = ⟨some (if (s.icache ip).copy.size.toNat < off.toNat ∨ 2 ^ 32 ≤ off.toNat + n.toNat then
            (-1, [])
          else
            let bytes := ((contents s.disk (s.icache ip).copy).drop off.toNat).take n.toNat
            (bytes.length, bytes)), s, []⟩ := by
  refine readi_shaped _ (ok.shaped cached) (ok.small cached) ?_ file
  rw [Dinode.blocks]
  omega

end

/-- The blocks that `len` blocks of contents take up, with the indirect block. -/
def blockCount (len : Nat) : Nat := len + if 12 < len then 1 else 0

theorem bmapCost_eq (k : Nat) : blockCount k + bmapCost k = blockCount (k + 1) := by
  rw [blockCount, blockCount, bmapCost]
  repeat' split
  all_goals omega

theorem blockCount_mono {len len' : Nat} (more : len ≤ len')
    : blockCount len ≤ blockCount len' := by
  rw [blockCount, blockCount]
  repeat' split
  all_goals omega

/-- The cells are in the file from an offset on, the rest of its first `len` blocks is as before,
and it has `len'` blocks now.
-/
structure Written (sb : Superblock) (ip len len' off : Nat) (cells : List UInt8) (s s' : FsState)
    : Prop where
  working : Working sb s' ip (holds len')
  shaped : Shaped s'.disk (s'.icache ip).copy (holds len')
  elsewhere : Elsewhere sb ip s s'
  more : len ≤ len'
  bytes
    : ∀ o : Nat, o < 512 * len ∨ o < off + cells.length
        → byteAt s'.disk (s'.icache ip).copy o
          = overlay (byteAt s.disk (s.icache ip).copy) off cells o
  fields : (s'.icache ip).copy = { (s.icache ip).copy with addrs := (s'.icache ip).copy.addrs }
  same : len' = len → (s'.icache ip).copy = (s.icache ip).copy
  low : ∀ c < sb.bmapstart, s'.disk c = s.disk c
  spent : freeCount sb s'.disk + blockCount len' = freeCount sb s.disk + blockCount len

section

variable {sb : Superblock} {s s' s'' : FsState} {ip len len' len'' off : Nat}
  {cells more : List UInt8}

theorem Written.nil (w : Working sb s ip (holds len))
    (shaped : Shaped s.disk (s.icache ip).copy (holds len))
    : Written sb ip len len off [] s s :=
  ⟨w, shaped, .refl, Nat.le_refl _, fun o _ => by rw [overlay_nil], rfl, fun _ => rfl,
    fun _ _ => rfl, rfl⟩

/-- A new block behind the end, before its bytes are written. -/
theorem Written.of_grown (g : Grown sb ip (holds len) (holds (len + 1)) (bmapCost len) s s')
    (small : len < 140) (inside : off ≤ 512 * len)
    : Written sb ip len (len + 1) off [] s s' := by
  refine ⟨g.working, g.shaped, g.elsewhere, Nat.le_succ _, ?_, g.fields, ?_, g.low, ?_⟩
  · intro o range
    have block : o / 512 < len := by
      rw [List.length_nil] at range
      omega
    rw [overlay_nil, byteAt, byteAt, Int.toNat_natCast, g.own _ (Or.inl block),
      g.data _ (by omega) (Or.inl block)]
  · omega
  · have spent := g.spent
    have cost := bmapCost_eq len
    omega

/-- Writes one behind the other are one write. -/
theorem Written.trans (first_ : Written sb ip len len' off cells s s')
    (w : Working sb s ip (holds len))
    (second : Written sb ip len' len'' (off + cells.length) more s' s'')
    : Written sb ip len len'' off (cells ++ more) s s'' := by
  refine ⟨second.working, second.shaped, first_.elsewhere.trans w second.elsewhere,
    Nat.le_trans first_.more second.more, ?_, ?_, ?_, ?_, ?_⟩
  · intro o range
    have growth := first_.more
    rw [List.length_append] at range
    rw [second.bytes o (by omega), overlay_append, Nat.cast_add]
    by_cases new : off + cells.length ≤ o ∧ o < off + cells.length + more.length
    · rw [overlay_within _ (by omega) (by omega), overlay_within _ (by omega) (by omega)]
    · exact overlay_congr (first_.bytes o (by omega)) ..
  · rw [second.fields, first_.fields]
  · intro whole
    have growth := first_.more
    have growth' := second.more
    rw [second.same (by omega), first_.same (by omega)]
  · intro c below
    rw [second.low c below, first_.low c below]
  · rw [second.spent, first_.spent]

/-- The data block of a place is no block of another one. -/
theorem Working.data_ne {held : Nat → Prop} (w : Working sb s ip held) {i j k : Nat} (has : held k)
    (keys : workKeys sb s ip held (i, j)) (other : i = (s.icache ip).inum → j ≠ k)
    : pointer s.disk (view sb s ip i) j ≠ pointer s.disk (s.icache ip).copy k := by
  intro equal
  have same := w.mapped.owns.distinct keys (workKeys_self.mpr has)
  simp only [view_self] at same
  obtain ⟨here, place⟩ := Prod.mk.inj (same equal)
  exact other here place

/-- A turn of `writei`: the bytes in one block. -/
theorem Written.block (w : Working sb s ip (holds len))
    (shaped : Shaped s.disk (s.icache ip).copy (holds len)) (small : len ≤ 140)
    (block : off / 512 < len) (fits : off % 512 + cells.length ≤ 512)
    : Written sb ip len len off cells s
        { s with
          disk := update s.disk (pointer s.disk (s.icache ip).copy (off / 512))
            (overlay (s.disk (pointer s.disk (s.icache ip).copy (off / 512))) (off % 512 : Nat)
              cells) } := by
  have has : holds len (off / 512) := Or.inl block
  have data := (w.mapped.data_of_live (workKeys_self.mpr has)).1
  rw [view_self] at data
  set disk' := update s.disk (pointer s.disk (s.icache ip).copy (off / 512))
    (overlay (s.disk (pointer s.disk (s.icache ip).copy (off / 512))) (off % 512 : Nat) cells)
    with new
  have below : ∀ c < sb.dataStart, disk' c = s.disk c :=
    fun c low => update_of_ne (by omega) ..
  have marks : ∀ c < sb.size, marked sb disk' c = marked sb s.disk c :=
    fun c inside => marked_congr (below _ (sb.bblock_lt inside).2)
  -- the data block is not the indirect block
  have own : ∀ k, pointer disk' (s.icache ip).copy k = pointer s.disk (s.icache ip).copy k := by
    refine pointer_congr fun present => update_of_ne ?_ ..
    have indirect := shaped.indirect.mp present
    have apart := w.data_ne has (workKeys_self.mpr indirect) fun _ => by omega
    rw [view_self, pointer_indirect] at apart
    exact apart
  have elsewhere : Elsewhere sb ip s { s with disk := disk' } := by
    refine ⟨fun _ _ => rfl, rfl, ?_, ?_⟩
    · intro i inside _
      have low := sb.iblock_lt inside
      exact dinodeAt_congr (below _ (by rw [Superblock.dataStart]; omega))
    · intro i k other lives
      have apart := w.data_ne has ((workKeys_of_ne other).mpr lives) fun here => (other here).elim
      rw [view_of_ne other] at apart
      exact update_of_ne apart ..
  refine ⟨w.keep elsewhere (fun k _ => own k) marks, fun k last => ?_, elsewhere, Nat.le_refl _,
    ?_, rfl, fun _ => rfl, ?_, ?_⟩
  · rw [own]
    exact shaped k last
  · intro o range
    simp only [byteAt, own, Int.toNat_natCast]
    by_cases here : o / 512 = off / 512
    · rw [here, new, update_self, overlay, overlay, byteAt, Int.toNat_natCast, here]
      have start : ((off % 512 : Nat) : Int) ≤ (o % 512 : Nat) ↔ (off : Int) ≤ o := by omega
      have place : (((o % 512 : Nat) : Int) - (off % 512 : Nat)).toNat
          = ((o : Int) - off).toNat := by
        omega
      simp only [start, place]
    · have apart := w.data_ne has (workKeys_self.mpr (Or.inl (by omega : o / 512 < len)))
        fun _ => here
      rw [view_self] at apart
      rw [new, update_of_ne apart]
      by_cases early : o < off
      · rw [overlay_before _ _ (by omega), byteAt, Int.toNat_natCast]
      · rw [overlay_beyond _ (by omega), byteAt, Int.toNat_natCast]
  · intro c low
    exact below c (by rw [Superblock.dataStart]; omega)
  · rw [freeCount_congr marks]

/-- `bmap` of a block of the file or of the first block beyond it. -/
theorem bmap_ensures {env : FsEnv} (w : Working env.sb s ip (holds len))
    (shaped : Shaped s.disk (s.icache ip).copy (holds len)) (inside : off ≤ 512 * len)
    (fits : off < 512 * 140)
    : Ensures Sound
        (freeCount env.sb s.disk + blockCount len < blockCount (max len (off / 512 + 1)))
        (bmap ip (off / 512)) env s fun addr after =>
          Written env.sb ip len (max len (off / 512 + 1)) off [] s after
          ∧ addr.toNat = pointer after.disk (after.icache ip).copy (off / 512) := by
  by_cases old : off / 512 < len
  · have set : pointer s.disk (s.icache ip).copy (off / 512) ≠ 0 :=
      (shaped _ (by omega)).mpr (Or.inl old)
    have mapped : ∃ addr, (bmap ip (off / 512)).run env s = ⟨some addr, s, []⟩
        ∧ addr.toNat = pointer s.disk (s.icache ip).copy (off / 512) :=
      bmap_present (by omega) set
    obtain ⟨addr, run, there⟩ := mapped
    rw [Nat.max_eq_left (by omega)]
    exact .of_run run ⟨.nil w shaped, there⟩
  · obtain rfl : len = off / 512 := by omega
    rw [Nat.max_eq_right (by omega), ← bmapCost_eq]
    refine (bmap_absent w shaped (by omega)).mono (by omega) ?_
    rintro addr after ⟨grown, there⟩
    exact ⟨.of_grown grown (by omega) inside, there⟩

/-- The loop stores the bytes, and stops only where the blocks it needs are not there. -/
theorem writeLoop_ensures {env : FsEnv} {src : Int → UInt8} {fuel tot left : Nat}
    (w : Working env.sb s ip (holds len))
    (shaped : Shaped s.disk (s.icache ip).copy (holds len)) (small : len ≤ 140)
    (enough : left ≤ fuel) (inside : off ≤ 512 * len) (fits : off + left ≤ 512 * 140)
    : Ensures Sound
        (freeCount env.sb s.disk + blockCount len < blockCount (max len ((off + left + 511) / 512)))
        (writeLoop ip src fuel tot off left) env s fun _ after =>
          Written env.sb ip len (max len ((off + left + 511) / 512)) off (slice src tot left) s
            after := by
  induction fuel generalizing s len tot off left with
  | zero =>
    obtain rfl : left = 0 := by omega
    rw [Nat.max_eq_left (by omega)]
    exact .pure (.nil w shaped)
  | succ fuel ih =>
    rw [writeLoop]
    by_cases done : left = 0
    · rw [if_pos done, done, Nat.max_eq_left (by omega)]
      exact .pure (.nil w shaped)
    · rw [if_neg done]
      refine ((bmap_ensures w shaped inside (by omega)).mono ?_ fun _ _ => id).bind ?_
      · have more : blockCount (max len (off / 512 + 1))
            ≤ blockCount (max len ((off + left + 511) / 512)) := blockCount_mono (by omega)
        omega
      rintro addr mid ⟨grown, there⟩
      have step : min left (512 - off % 512) ≤ left ∧ 0 < min left (512 - off % 512)
          ∧ off % 512 + min left (512 - off % 512) ≤ 512 := by omega
      generalize min left (512 - off % 512) = m at step
      refine updateBlock_next ?_
      rw [there]
      have stored : Written env.sb ip _ _ off (slice src tot m) mid _ :=
        .block grown.working grown.shaped (by omega) (by omega)
          (by rw [length_slice]; exact step.2.2)
      have once := grown.trans w stored
      rw [List.nil_append] at once
      have goal : max len ((off + left + 511) / 512)
          = max (max len (off / 512 + 1)) ((off + m + (left - m) + 511) / 512) := by omega
      have total : slice src tot left
          = slice src tot m ++ slice src (tot + m : Nat) (left - m) := by
        rw [Nat.cast_add, ← slice_append]
        congr 1
        omega
      have spent := once.spent
      rw [goal, total]
      refine (ih once.working once.shaped (by omega) (by omega) (by omega) (by omega)).mono
        (by omega) fun _ after rest => ?_
      refine once.trans w ?_
      rw [length_slice]
      exact rest

end

theorem slice_overlay_splice (mem : Int → UInt8) {size off : Nat} (cells : List UInt8)
    (inside : off ≤ size)
    : slice (overlay mem off cells) 0 (max size (off + cells.length))
      = splice (slice mem 0 size) off cells := by
  have total : max size (off + cells.length)
      = off + (cells.length + (size - (off + cells.length))) := by omega
  have front : slice (overlay mem off cells) 0 off = slice mem 0 off :=
    slice_overlay_before mem cells (by omega)
  have back : slice (overlay mem off cells) (0 + off + cells.length) (size - (off + cells.length))
      = slice mem (0 + off + cells.length) (size - (off + cells.length)) :=
    slice_congr fun i low _ => overlay_beyond mem (by omega)
  have middle : slice (overlay mem off cells) (0 + off) cells.length = cells := by
    rw [Int.zero_add]
    exact slice_overlay mem off cells
  have rest : (slice mem 0 size).drop (off + cells.length)
      = slice mem (0 + off + cells.length) (size - (off + cells.length)) := by
    by_cases within : off + cells.length ≤ size
    · have parts : size = (off + cells.length) + (size - (off + cells.length)) := by omega
      conv_lhs => rw [parts]
      rw [drop_slice, Nat.cast_add, Int.add_assoc]
    · rw [List.drop_eq_nil_of_le (by rw [length_slice]; omega), Nat.sub_eq_zero_of_le (by omega),
        slice_zero]
  rw [total, slice_append, slice_append, front, middle, back, splice, take_slice,
    Nat.min_eq_left inside, rest, List.append_assoc]

theorem pointer_size (disk : Nat → Block) (d : Dinode) (size : UInt32) (k : Nat)
    : pointer disk { d with size } k = pointer disk d k :=
  rfl

/-- What a `writei` that returns has done: contents overwritten and extended, nothing else changed.
-/
structure Stored (sb : Superblock) (ip off : Nat) (cells : List UInt8) (s s' : FsState) : Prop where
  ok : FsOk sb s'
  elsewhere : Elsewhere sb ip s s'
  contents
    : contents s'.disk (s'.icache ip).copy
      = splice (contents s.disk (s.icache ip).copy) off cells
  fields
    : (s'.icache ip).copy
      = { (s.icache ip).copy with
          size := (s'.icache ip).copy.size
          addrs := (s'.icache ip).copy.addrs }
  spent
    : freeCount sb s'.disk + blockCount (s'.icache ip).copy.blocks
      = freeCount sb s.disk + blockCount (s.icache ip).copy.blocks

section

variable {env : FsEnv} {sb : Superblock} {s s' : FsState} {ip off : Nat} {cells : List UInt8}

theorem byteAt_updated {held : Nat → Prop} (w : Working sb s ip held)
    (shaped : Shaped s.disk (s.icache ip).copy held) {o : Nat} (has : held (o / 512))
    : byteAt (updated sb s ip).disk (s.icache ip).copy o
      = byteAt s.disk (s.icache ip).copy o := by
  have data := (w.mapped.data_of_live (workKeys_self.mpr has)).1
  rw [view_self, Superblock.dataStart] at data
  have same : pointer (updated sb s ip).disk (s.icache ip).copy (o / 512)
      = pointer s.disk (s.icache ip).copy (o / 512) :=
    pointer_storeDinode w.inside (w.indirect_data shaped)
  have block : (updated sb s ip).disk (pointer s.disk (s.icache ip).copy (o / 512))
      = s.disk (pointer s.disk (s.icache ip).copy (o / 512)) :=
    storeDinode_of_le w.inside (by omega)
  rw [byteAt, byteAt, Int.toNat_natCast, same, block]

/-- A write that does not extend the file. -/
theorem Written.stored_within
    (written : Written sb ip (s.icache ip).copy.blocks (s.icache ip).copy.blocks off cells s s')
    (ok : FsOk sb s) (cached : Cached s ip) (start : off ≤ (s.icache ip).copy.size.toNat)
    (within : off + cells.length ≤ (s.icache ip).copy.size.toNat)
    : Stored sb ip off cells s s' := by
  obtain ⟨used, synced⟩ := ok.synced ip cached
  have copy := written.same rfl
  have same : (s'.icache ip).copy = dinodeAt sb s'.disk (s'.icache ip).inum := by
    rw [copy, synced, written.elsewhere.inum]
    exact (dinodeAt_congr (written.low _ (sb.iblock_lt used.1))).symm
  have type : (s'.icache ip).copy.type ≠ 0 := by
    rw [copy, synced]
    exact used.2
  have shaped := written.shaped
  have owned : BlocksOwned sb s'.disk := by
    refine written.working.owned same (fun k => ?_) fun _ => ?_
    · rw [copy] at type ⊢
      simp [type]
    · rw [copy] at shaped ⊢
      exact ⟨shaped, ok.small cached⟩
  refine ⟨ok.changed cached written.elsewhere owned type same, written.elsewhere, ?_, ?_, ?_⟩
  · rw [Fs.contents, Fs.contents, ← slice_overlay_splice _ _ start, Nat.max_eq_left within,
      congrArg Dinode.size copy]
    refine slice_congr fun i low high => ?_
    obtain ⟨o, rfl⟩ := Int.eq_ofNat_of_zero_le low
    refine written.bytes o (Or.inl ?_)
    rw [Dinode.blocks]
    omega
  · rw [copy]
  · rw [copy]
    exact written.spent

/-- A write that does, after which the size is set. -/
theorem Written.stored_beyond {len : Nat} {size : UInt32}
    (written : Written sb ip (s.icache ip).copy.blocks len off cells s s')
    (ok : FsOk sb s) (cached : Cached s ip) (start : off ≤ (s.icache ip).copy.size.toNat)
    (beyond : (s.icache ip).copy.size.toNat < off + cells.length)
    (end_ : size.toNat = off + cells.length) (blocks : len = (size.toNat + 511) / 512)
    (small : len ≤ 140)
    : Stored sb ip off cells s
        (updated sb (withSlot s' ip fun node => { node with copy := { node.copy with size } })
          ip) := by
  obtain ⟨used, synced⟩ := ok.synced ip cached
  set sized := withSlot s' ip fun node => { node with copy := { node.copy with size } } with new
  have slot : (sized.icache ip).copy = { (s'.icache ip).copy with size } := by
    simp [new, withSlot]
  have disk : sized.disk = s'.disk := rfl
  have still : Elsewhere sb ip s' sized := by
    refine ⟨fun jp other => ?_, ?_, fun _ _ _ => rfl, fun _ _ _ _ => rfl⟩
    · simp [new, withSlot, other]
    · simp [new, withSlot]
  have w : Working sb sized ip (holds len) := by
    refine written.working.keep still (fun k _ => ?_) fun _ _ => rfl
    rw [slot, disk, pointer_size]
  have shaped : Shaped sized.disk (sized.icache ip).copy (holds len) := by
    rw [slot]
    exact written.shaped
  have count : (sized.icache ip).copy.blocks = len := by
    rw [slot, blocks]
    rfl
  rw [← count] at w shaped small
  have type : (sized.icache ip).copy.type ≠ 0 := by
    rw [slot, written.fields, synced]
    exact used.2
  obtain ⟨ok', elsewhere⟩ :=
    ok.commit cached (written.elsewhere.trans (ok.working cached) still) w shaped small type
  refine ⟨ok', elsewhere, ?_, ?_, ?_⟩
  · rw [Fs.contents, Fs.contents, ← slice_overlay_splice _ _ start,
      Nat.max_eq_right (Nat.le_of_lt beyond)]
    change slice (byteAt _ (sized.icache ip).copy) 0 (sized.icache ip).copy.size.toNat = _
    rw [congrArg Dinode.size slot, end_]
    refine slice_congr fun i low high => ?_
    obtain ⟨o, rfl⟩ := Int.eq_ofNat_of_zero_le low
    have block : holds (sized.icache ip).copy.blocks (o / 512) := by
      rw [count, blocks]
      exact Or.inl (by omega)
    rw [← written.bytes o (Or.inr (by omega)), byteAt_updated w shaped block]
    rw [slot]
    rfl
  · change (sized.icache ip).copy = { (s.icache ip).copy with
      size := (sized.icache ip).copy.size, addrs := (sized.icache ip).copy.addrs }
    rw [slot, written.fields]
  · have marks : freeCount sb (updated sb sized ip).disk = freeCount sb s'.disk :=
      freeCount_congr fun b _ => marked_storeDinode w.inside
    change _ + blockCount (sized.icache ip).copy.blocks = _
    rw [marks, count]
    exact written.spent

/-- A write is refused: it starts beyond the end, or its end overflows or exceeds the largest file.
-/
def Refused (d : Dinode) (off n : UInt32) : Prop :=
  d.size.toNat < off.toNat ∨ 2 ^ 32 ≤ off.toNat + n.toNat ∨ 71680 < off.toNat + n.toNat

instance (d : Dinode) (off n : UInt32) : Decidable (Refused d off n) :=
  inferInstanceAs (Decidable (_ ∨ _ ∨ _))

theorem writei_refused {src : Int → UInt8} {off n : UInt32}
    (file : (s.icache ip).copy.type ≠ tDev) (refused : Refused (s.icache ip).copy off n)
    : (writei ip src off n).run env s = ⟨some (-1), s, []⟩ := by
  simp only [writei, run_bind, run_env, inode, run_get, run_pure, andThen_some,
    after_nil, if_neg file, range_test]
  split
  next => rfl
  next fits =>
    have sum : (off + n).toNat = off.toNat + n.toNat := by
      rw [UInt32.toNat_add]
      omega
    have beyond : off + n > maxFileBytes := by
      rw [gt_iff_lt, UInt32.lt_iff_toNat_lt, sum]
      change 71680 < _
      rw [Refused] at refused
      omega
    rw [if_pos beyond]
    rfl

theorem tests_of_not_refused {d : Dinode} {off n : UInt32} (fits : ¬ Refused d off n)
    : (off + n).toNat = off.toNat + n.toNat ∧ ¬ (off > d.size ∨ off + n < off)
      ∧ ¬ off + n > maxFileBytes := by
  rw [Refused] at fits
  have sum : (off + n).toNat = off.toNat + n.toNat := by
    rw [UInt32.toNat_add]
    omega
  refine ⟨sum, ?_, ?_⟩
  · rw [range_test]
    omega
  · rw [gt_iff_lt, UInt32.lt_iff_toNat_lt, sum]
    change ¬ 71680 < _
    omega

/-- The number of blocks of a file of this size, with the indirect block. -/
def blocksFor (size : Nat) : Nat := blockCount ((size + 511) / 512)

/-- A write that is not refused stores its bytes, and stops only where it needs more blocks than
there are.
-/
theorem writei_ensures {src : Int → UInt8} {off n : UInt32} (ok : FsOk env.sb s)
    (cached : Cached s ip) (file : (s.icache ip).copy.type ≠ tDev)
    (fits : ¬ Refused (s.icache ip).copy off n)
    : Ensures Sound
        (freeCount env.sb s.disk + blocksFor (s.icache ip).copy.size.toNat
          < blocksFor (max (s.icache ip).copy.size.toNat (off.toNat + n.toNat)))
        (writei ip src off n) env s fun r after =>
          r = n.toNat ∧ Stored env.sb ip off.toNat (slice src 0 n.toNat) s after := by
  obtain ⟨sum, passes, passes'⟩ := tests_of_not_refused fits
  rw [Refused] at fits
  have small := ok.small cached
  have blocks : (s.icache ip).copy.blocks = ((s.icache ip).copy.size.toNat + 511) / 512 := rfl
  have total : max (s.icache ip).copy.blocks ((off.toNat + n.toNat + 511) / 512)
      = (max (s.icache ip).copy.size.toNat (off.toNat + n.toNat) + 511) / 512 := by omega
  rw [writei]
  refine .next rfl (inode_next ?_)
  rw [if_neg file, if_neg passes, if_neg passes']
  refine ((writeLoop_ensures (ok.working cached) (ok.shaped cached) small (Nat.le_refl _) (by omega)
    (by omega)).mono ?_ fun _ _ => id).bind ?_
  · rw [total]
    exact id
  · intro _ mid written
    have start : off.toNat ≤ (s.icache ip).copy.size.toNat := by omega
    have length : (slice src 0 n.toNat).length = n.toNat := length_slice ..
    refine .ite (fun grows => ?_) fun stays => ?_
    · rw [gt_iff_lt, gt_iff_lt, UInt32.lt_iff_toNat_lt, UInt32.lt_iff_toNat_lt, sum] at grows
      rw [setCopy]
      refine setInode_next ?_
      have stored := written.stored_beyond ok cached start (by rw [Nat.cast_zero, length]; omega)
        (by rw [sum, Nat.cast_zero, length]) (by omega) (by omega)
      exact iupdate_next (.pure ⟨rfl, stored⟩)
    · rw [gt_iff_lt, gt_iff_lt, UInt32.lt_iff_toNat_lt, UInt32.lt_iff_toNat_lt, sum,
        UInt32.toNat_zero] at stays
      have within : off.toNat + n.toNat ≤ (s.icache ip).copy.size.toNat := by omega
      rw [Nat.max_eq_left (by omega)] at written
      refine .pure ⟨rfl, written.stored_within ok cached start ?_⟩
      rw [Nat.cast_zero, length]
      exact within

end

/-- The contents of the file with this inode number. -/
def fileAt (sb : Superblock) (disk : Nat → Block) (i : Nat) : List UInt8 :=
  contents disk (dinodeAt sb disk i)

section

variable {sb : Superblock} {s : FsState} {ip : Nat}

/-- The other files keep their bytes. -/
theorem Spares.fileAt_eq {disk disk' : Nat → Block} {inum i : Nat} (h : Spares sb inum disk disk')
    (owned : BlocksOwned sb disk) (other : i ≠ inum) (used : allocated sb disk i)
    : fileAt sb disk' i = fileAt sb disk i := by
  have same := h.dinodes i used.1 other
  rw [fileAt, fileAt, contents, contents, congrArg Dinode.size same]
  refine slice_congr fun o low high => ?_
  obtain ⟨o, rfl⟩ := Int.eq_ofNat_of_zero_le low
  have inside : o / 512 < (dinodeAt sb disk i).blocks := by
    rw [Dinode.blocks]
    omega
  have block : live sb disk (i, o / 512) := ⟨used, Or.inl inside⟩
  rw [byteAt, byteAt, h.pointer_eq other used (owned.shaped used), Int.toNat_natCast,
    h.blocks i _ other block]

theorem FsOk.contents_eq (ok : FsOk sb s) (cached : Cached s ip)
    : contents s.disk (s.icache ip).copy = fileAt sb s.disk (s.icache ip).inum := by
  rw [fileAt, ← (ok.synced ip cached).2]

end

/-- A file is a byte array. `readi` returns the bytes of the range, up to the end of the file.
`writei` refuses a range that starts beyond the end, or whose end overflows or lies beyond the
largest file, and changes nothing then; otherwise, while there are blocks for the new size, it
overwrites and extends the array, and leaves every other file alone.
-/
theorem file_is_byte_array (env : FsEnv) (s : FsState) (ip : Nat) (ok : FsOk env.sb s)
    (cached : Cached s ip) (file : (s.icache ip).copy.type ≠ tDev) (off n : UInt32)
    (src : Int → UInt8)
    : let inum := (s.icache ip).inum
      let old := fileAt env.sb s.disk inum
      (readi ip off n).run env s
          = ⟨some (if old.length < off.toNat ∨ 2 ^ 32 ≤ off.toNat + n.toNat then (-1, [])
              else (((old.drop off.toNat).take n.toNat).length, (old.drop off.toNat).take n.toNat)),
            s, []⟩
        ∧ (old.length < off.toNat ∨ 2 ^ 32 ≤ off.toNat + n.toNat
              ∨ 71680 < off.toNat + n.toNat
            → (writei ip src off n).run env s = ⟨some (-1), s, []⟩)
        ∧ (¬ (old.length < off.toNat ∨ 2 ^ 32 ≤ off.toNat + n.toNat
              ∨ 71680 < off.toNat + n.toNat)
            → blocksFor (max old.length (off.toNat + n.toNat))
              ≤ freeCount env.sb s.disk + blocksFor old.length
            → ∃ after log, (writei ip src off n).run env s = ⟨some n.toNat, after, log⟩
              ∧ FsOk env.sb after
              ∧ fileAt env.sb after.disk inum = splice old off.toNat (slice src 0 n.toNat)
              ∧ (∀ i, i ≠ inum → allocated env.sb s.disk i
                → dinodeAt env.sb after.disk i = dinodeAt env.sb s.disk i
                  ∧ fileAt env.sb after.disk i = fileAt env.sb s.disk i)
              ∧ (after.icache ip).inum = inum
              ∧ (∀ jp, jp ≠ ip → after.icache jp = s.icache jp)) := by
  have length : (fileAt env.sb s.disk (s.icache ip).inum).length
      = (s.icache ip).copy.size.toNat := by
    rw [← ok.contents_eq cached, length_contents]
  simp only [length]
  refine ⟨?_, ?_, ?_⟩
  · rw [readi_run ok cached file, ok.contents_eq cached]
  · exact writei_refused file
  · intro fits enough
    have ensured : Ensures Sound False (writei ip src off n) env s _ :=
      (writei_ensures ok cached file fits).mono (by omega) fun _ _ => id
    obtain ⟨r, ended, rfl, stored⟩ := ensured.total
    have cached' : Cached ((writei ip src off n).run env s).state ip := by
      rw [Cached, stored.elsewhere.slot]
      exact cached
    have inum := stored.elsewhere.inum
    refine ⟨_, ((writei ip src off n).run env s).log, ?_, stored.ok, ?_, ?_, inum,
      stored.elsewhere.slots⟩
    · rw [← ended]
    · rw [← inum, ← stored.ok.contents_eq cached', stored.contents, inum, ok.contents_eq cached]
    · intro i other used
      exact ⟨stored.elsewhere.spares.dinodes i used.1 other,
        stored.elsewhere.spares.fileAt_eq ok.owned other used⟩

/-- A disk of sixteen blocks with one inode, an empty file. -/
def smallSb : Superblock :=
  { size := 16, ninodes := 8, inodestart := 2, bmapstart := 4
    inodesFit := by decide, bitmapFits := by decide, sizeFits := by decide }

def smallDisk : Nat → Block :=
  storeDinode smallSb (fun b i => if b = 4 ∧ i = 0 then 31 else 0) 1 (freshDinode tFile)

def smallState : FsState :=
  { disk := smallDisk
    icache := fun ip =>
      { dev := rootDev, inum := 1, ref := if ip = 0 then 1 else 0, locked := true, valid := true
        copy := freshDinode tFile } }

theorem smallDisk_owned : BlocksOwned smallSb smallDisk := by
  refine .of_empty ?_ (by decide)
  rintro i ⟨inside, type⟩
  have only : i = 1 := by
    have free : ∀ j < 8, j ≠ 1 → (dinodeAt smallSb smallDisk j).type = 0 := by decide
    by_contra other
    exact type (free i inside other)
  rw [only, smallDisk, dinodeAt_storeDinode]
  exact ⟨rfl, rfl⟩

theorem smallState_ok : FsOk smallSb smallState := by
  have only : ∀ ip, 0 < (smallState.icache ip).ref → ip = 0 := by
    intro ip referenced
    by_contra other
    simp [smallState, other] at referenced
  refine ⟨smallDisk_owned, ?_, fun _ _ _ => rfl, ?_⟩
  · intro ip _ jp _ first_ second _
    rw [only ip first_, only jp second]
  · intro ip _
    have stored : dinodeAt smallSb smallDisk 1 = freshDinode tFile := dinodeAt_storeDinode
    refine ⟨⟨show 1 < 8 by decide, ?_⟩, stored.symm⟩
    change (dinodeAt smallSb smallDisk 1).type ≠ 0
    rw [stored]
    decide

/-- Witness: two bytes are written to an empty file. -/
theorem file_is_byte_array_hi
    : ∃ after log,
        (writei 0 (fun i => if i = 0 then 104 else 105) 0 2).run
            { sb := smallSb, devRead := fun _ => none, devWrite := fun _ => none } smallState
          = ⟨some 2, after, log⟩
        ∧ fileAt smallSb after.disk 1 = [104, 105] := by
  have all := file_is_byte_array
    { sb := smallSb, devRead := fun _ => none, devWrite := fun _ => none } smallState 0
    smallState_ok ⟨by decide, by decide, rfl⟩ (by decide) 0 2
    (fun i => if i = 0 then 104 else 105)
  have empty : fileAt smallSb smallDisk 1 = [] := by
    rw [fileAt, smallDisk, dinodeAt_storeDinode]
    rfl
  obtain ⟨after, log, run, -, written, -⟩ := all.2.2
    (by change ¬ ((fileAt smallSb smallDisk 1).length < _ ∨ _); rw [empty]; decide)
    (by
      change blocksFor (max (fileAt smallSb smallDisk 1).length _)
        ≤ freeCount smallSb smallDisk + blocksFor (fileAt smallSb smallDisk 1).length
      rw [empty]
      decide)
  refine ⟨after, log, run, written.trans ?_⟩
  change splice (fileAt smallSb smallDisk 1) _ _ = _
  rw [empty]
  decide

end Xv6Net.Fs
