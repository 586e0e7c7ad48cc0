import Mathlib.Data.Fintype.Card
import Xv6Net.Library.Transition
import Xv6Net.Library.LinkedRing

/-! The list of the buffer cache as `bio.c` keeps it, through the `prev` and `next` of the buffers
and of `bcache.head`. Links and reference counts change only with `bcache.lock`, so that a run is a
sequence of these stretches of `bget` and `brelse`; the log and the driver change the flags between
them. `BufSys` has this list as its `order`.
-/

namespace Xv6Net

open Library Transition LinkedRing Function

/-- `struct buf` without the links, the lock and the data. -/
structure CachedBuf where
  flags : UInt32
  dev : UInt32
  blockno : UInt32
  refcnt : UInt32

/-- `bcache`; as a pointer, `none` is `&bcache.head`. -/
structure Bcache (N : Nat) where
  next : Option (Fin N) → Option (Fin N)
  prev : Option (Fin N) → Option (Fin N)
  buf : Fin N → CachedBuf

inductive BcacheAction (N : Nat) where
  | bget (dev blockno : UInt32)
  /-- `brelse(b)`, and whether the caller holds the sleep lock of `b`. -/
  | brelse (b : Fin N) (holding : Bool)
  | setFlags (b : Fin N) (flags : UInt32)

namespace Bcache

variable {N : Nat}

/-- The four assignments with which `binit` and `brelse` put a buffer behind the head. -/
def pushFront (c : Bcache N) (b : Fin N) : Bcache N :=
  let c := { c with next := update c.next (some b) (c.next none) }
  let c := { c with prev := update c.prev (some b) none }
  let c := { c with prev := update c.prev (c.next none) (some b) }
  { c with next := update c.next none (some b) }

def binit (c : Bcache N) : Bcache N :=
  let c := { c with prev := update c.prev none none }
  let c := { c with next := update c.next none none }
  (List.finRange N).foldl pushFront c

/-- `b->next->prev = b->prev; b->prev->next = b->next;` -/
def unlink (c : Bcache N) (b : Fin N) : Bcache N :=
  let c := { c with prev := update c.prev (c.next (some b)) (c.prev (some b)) }
  { c with next := update c.next (c.prev (some b)) (c.next (some b)) }

def setBuf (c : Bcache N) (b : Fin N) (buf : CachedBuf) : Bcache N :=
  { c with buf := update c.buf b buf }

def Holds (c : Bcache N) (dev blockno : UInt32) (b : Fin N) : Prop :=
  (c.buf b).dev = dev ∧ (c.buf b).blockno = blockno
deriving Decidable

/-- Neither referenced nor `B_DIRTY`. -/
def Unused (c : Bcache N) (b : Fin N) : Prop :=
  (c.buf b).refcnt = 0 ∧ (c.buf b).flags &&& 4 = 0
deriving Decidable

/-- `bget` up to `acquiresleep`, with the buffer it returns; `none` is the panic. -/
def bget (c : Bcache N) (dev blockno : UInt32) : Option (Bcache N × Fin N) :=
  match search c.next (fun b => c.Holds dev blockno b) (N + 1) (c.next none) with
  | none => none
  | some (some b) => some (c.setBuf b { c.buf b with refcnt := (c.buf b).refcnt + 1 }, b)
  | some none =>
    match search c.prev (fun b => c.Unused b) (N + 1) (c.prev none) with
    | some (some b) => some (c.setBuf b { flags := 0, dev, blockno, refcnt := 1 }, b)
    | _ => none

/-- `brelse`, which panics unless the caller holds the sleep lock. -/
def brelse (c : Bcache N) (b : Fin N) (holding : Bool) : Option (Bcache N) :=
  if !holding then none
  else
    let c := c.setBuf b { c.buf b with refcnt := (c.buf b).refcnt - 1 }
    if (c.buf b).refcnt = 0 then some ((c.unlink b).pushFront b) else some c

def step (c : Bcache N) : BcacheAction N → Option (Bcache N)
  | .bget dev blockno => (c.bget dev blockno).map Prod.fst
  | .brelse b holding => c.brelse b holding
  | .setFlags b flags => some (c.setBuf b { c.buf b with flags })

/-- The buffers released so far to a reference count of zero, the last one first. -/
def note (c : Bcache N) (action : BcacheAction N) (released : List (Fin N)) : List (Fin N) :=
  match action with
  | .brelse b _ => if (c.buf b).refcnt - 1 = 0 then b :: released else released
  | _ => released

/-- `b` was released later than `b'`, if `b'` was released at all. -/
def Later (released : List (Fin N)) (b b' : Fin N) : Prop :=
  b' ∈ released → released.idxOf b < released.idxOf b'

/-- The links are inverse to each other and go once around; a buffer released later stands before
one released earlier; a block that is not cached goes to the buffer released least recently of
those that are neither referenced nor dirty.
-/
structure ListOk (c : Bcache N) (released : List (Fin N)) : Prop where
  inverse : ∀ x, c.prev (c.next x) = x ∧ c.next (c.prev x) = x
  cycle : ∃ order : List (Fin N), order.Nodup ∧ (∀ b, b ∈ order)
    ∧ (∀ k ≤ order.length, c.next^[k + 1] none = order[k]?) ∧ order.Pairwise (Later released)
  recycles : ∀ dev blockno, (∀ b, ¬ c.Holds dev blockno b) → (∃ b, c.Unused b)
    → ∃ c' b, c.bget dev blockno = some (c', b) ∧ c.Unused b
      ∧ ∀ b', b' ≠ b → c.Unused b' → Later released b' b

/-- The ring through the head and the buffers of the list. -/
structure Ring (c : Bcache N) (order : List (Fin N)) : Prop where
  next : Leads c.next none order none
  prev : Leads c.prev none order.reverse none
  nodup : order.Nodup

section

variable {c : Bcache N} {order before after : List (Fin N)} {b : Fin N}

/-- A buffer is linked in behind the head. -/
theorem Ring.pushFront (ring : Ring c order) (fresh : b ∉ order)
    : Ring (c.pushFront b) (b :: order) := by
  have nodup : ([] ++ b :: order).Nodup := List.nodup_cons.mpr ⟨fresh, ring.nodup⟩
  have reversed : (order.reverse ++ b :: []).Nodup := by
    rw [← List.reverse_cons]
    exact List.nodup_reverse.mpr nodup
  have prev : Leads c.prev none (order.reverse ++ []) none := by
    rw [List.append_nil]
    exact ring.prev
  have behind := Leads.insert nodup ring.next
  have front := Leads.insert reversed prev
  rw [← ring.next.head] at behind
  rw [List.getLast?_reverse, ← ring.next.head] at front
  refine ⟨behind, ?_, nodup⟩
  rw [List.reverse_cons]
  exact front

/-- Its neighbours are linked to each other. -/
theorem Ring.unlink (ring : Ring c (before ++ b :: after))
    : Ring (c.unlink b) (before ++ after) := by
  have around : (before ++ b :: after).reverse = after.reverse ++ b :: before.reverse := by simp
  have prev := ring.prev
  have reversed := List.nodup_reverse.mpr ring.nodup
  rw [around] at prev reversed
  have following : c.next (some b) = after.head? := (leads_append.mp ring.next).2.2.head
  have preceding : c.prev (some b) = before.getLast? := by
    rw [(leads_append.mp prev).2.2.head, List.head?_reverse]
  have nodup : (before ++ after).Nodup :=
    ring.nodup.sublist ((List.sublist_cons_self b after).append_left before)
  refine ⟨?_, ?_, nodup⟩
  · have removed := Leads.remove ring.nodup ring.next
    simpa [Bcache.unlink, update_apply, following, preceding] using removed
  · have removed := Leads.remove reversed prev
    simpa [Bcache.unlink, following, preceding] using removed

theorem Ring.toHead (ring : Ring c order) (member : b ∈ order)
    : Ring ((c.unlink b).pushFront b) (b :: order.erase b) := by
  obtain ⟨before, after, absent, rfl, erased⟩ := List.exists_erase_eq member
  rw [erased]
  refine ring.unlink.pushFront fun again => ?_
  have once := List.nodup_middle.mp ring.nodup
  exact (List.nodup_cons.mp once).1 again

theorem Ring.setBuf (ring : Ring c order) (buf : CachedBuf) : Ring (c.setBuf b buf) order :=
  ⟨ring.next, ring.prev, ring.nodup⟩

theorem Ring.foldl (ring : Ring c order) (list : List (Fin N)) (nodup : (list ++ order).Nodup)
    : Ring (list.foldl Bcache.pushFront c) (list.reverse ++ order) := by
  induction list generalizing c order with
  | nil => exact ring
  | cons b rest ih =>
    obtain ⟨absent, later⟩ := List.nodup_cons.mp nodup
    rw [List.foldl_cons, List.reverse_cons, List.append_assoc]
    refine ih (ring.pushFront fun member => absent (List.mem_append_right rest member)) ?_
    exact List.nodup_middle.mpr nodup

/-- `binit` links the buffers one after the other. -/
theorem binit_ring (c : Bcache N) : Ring c.binit (List.finRange N).reverse := by
  have alone
      : Ring { c with prev := update c.prev none none, next := update c.next none none } [] :=
    ⟨by simp [Leads], by simp [Leads], List.nodup_nil⟩
  have ring := alone.foldl (List.finRange N) (by simpa using List.nodup_finRange N)
  rwa [List.append_nil] at ring

theorem Ring.inverse (ring : Ring c order) (all : ∀ b, b ∈ order) (x : Option (Fin N))
    : c.prev (c.next x) = x ∧ c.next (c.prev x) = x := by
  -- neighbours in the ring are where the list is cut in two; the head is at both ends
  have both (before after : List (Fin N)) (split : before ++ after = order)
      : c.next before.getLast? = after.head? ∧ c.prev after.head? = before.getLast? := by
    subst split
    have prev := ring.prev
    rw [List.reverse_append] at prev
    have back := prev.cut
    rw [List.getLast?_reverse, List.head?_reverse] at back
    exact ⟨ring.next.cut, back⟩
  cases x with
  | none =>
    obtain ⟨next, prev⟩ := both [] order rfl
    obtain ⟨next', prev'⟩ := both order [] (List.append_nil order)
    exact ⟨by rw [← List.getLast?_nil, next, prev], by rw [← List.head?_nil, prev', next']⟩
  | some b =>
    obtain ⟨before, after, rfl⟩ := List.append_of_mem (all b)
    obtain ⟨next, prev⟩ := both (before ++ [b]) after (by simp)
    obtain ⟨next', prev'⟩ := both before (b :: after) rfl
    rw [List.getLast?_concat] at next prev
    rw [List.head?_cons] at next' prev'
    exact ⟨by rw [next, prev], by rw [prev', next']⟩

end

/-- The ring of all buffers, ordered by their last release. -/
structure Inv (c : Bcache N) (released order : List (Fin N)) : Prop extends Ring c order where
  all : ∀ b, b ∈ order
  recent : order.Pairwise (Later released)

section

variable {c c' : Bcache N} {released order : List (Fin N)} {b : Fin N}

section

variable (inv : Inv c released order)
include inv

theorem Inv.recycles (dev blockno : UInt32) (absent : ∀ b, ¬ c.Holds dev blockno b)
    (unused : ∃ b, c.Unused b)
    : ∃ c' b, c.bget dev blockno = some (c', b) ∧ c.Unused b
      ∧ ∀ b', b' ≠ b → c.Unused b' → Later released b' b := by
  have length : order.length < N + 1 := Nat.lt_succ_of_le (by simpa using inv.nodup.length_le_card)
  have missing : order.find? (fun b => c.Holds dev blockno b) = none := by
    simp [absent]
  have there : (order.reverse.find? fun b => c.Unused b).isSome := by
    obtain ⟨b, free⟩ := unused
    rw [List.find?_isSome]
    exact ⟨b, List.mem_reverse.mpr (inv.all b), by simpa using free⟩
  obtain ⟨b, found⟩ := Option.isSome_iff_exists.mp there
  obtain ⟨free, older, newer, split, passed⟩ := List.find?_eq_some_iff_append.mp found
  refine ⟨c.setBuf b { flags := 0, dev, blockno, refcnt := 1 }, b, ?_, by simpa using free, ?_⟩
  · rw [bget, inv.next.search_eq length, missing]
    simp only [inv.prev.search_eq (by rwa [List.length_reverse]), found]
  · intro b' other free'
    have ordered : order = newer.reverse ++ b :: older.reverse := by
      rw [← List.reverse_reverse order, split]
      simp
    have recent := inv.recent
    rw [ordered, List.pairwise_append] at recent
    -- the search comes from the end of the list, and has passed only buffers that are in use
    have member : b' ∈ newer := by
      have somewhere := List.mem_reverse.mpr (inv.all b')
      rw [split] at somewhere
      rcases List.mem_append.mp somewhere with early | late
      · exact absurd free' (by simpa using passed b' early)
      · exact (List.mem_cons.mp late).resolve_left other
    exact recent.2.2 b' (List.mem_reverse.mpr member) b List.mem_cons_self

theorem Inv.listOk : ListOk c released :=
  ⟨inv.toRing.inverse inv.all,
    ⟨order, inv.nodup, inv.all, fun _ inside => inv.next.iterate inside, inv.recent⟩, inv.recycles⟩

theorem Inv.setBuf (buf : CachedBuf)
    : Inv (c.setBuf b buf) released order :=
  ⟨inv.toRing.setBuf buf, inv.all, inv.recent⟩

/-- A released buffer goes to the front of the list and of the history. -/
theorem Inv.toHead
    : Inv ((c.unlink b).pushFront b) (b :: released) (b :: order.erase b) := by
  refine ⟨inv.toRing.toHead (inv.all b), fun b' => ?_, List.pairwise_cons.mpr ⟨?_, ?_⟩⟩
  · by_cases same : b' = b
    · exact same ▸ List.mem_cons_self
    · exact List.mem_cons_of_mem b ((List.mem_erase_of_ne same).mpr (inv.all b'))
  · intro b' member _
    have other : b ≠ b' := ((inv.nodup.mem_erase_iff).mp member).1.symm
    rw [List.idxOf_cons_self, List.idxOf_cons_ne released other]
    exact Nat.succ_pos _
  · refine (inv.recent.sublist List.erase_sublist).imp_of_mem
      fun {x y} first_ second later known => ?_
    have otherFirst : b ≠ x := ((inv.nodup.mem_erase_iff).mp first_).1.symm
    have otherSecond : b ≠ y := ((inv.nodup.mem_erase_iff).mp second).1.symm
    rw [List.idxOf_cons_ne released otherFirst, List.idxOf_cons_ne released otherSecond]
    exact Nat.succ_lt_succ (later ((List.mem_cons.mp known).resolve_left otherSecond.symm))

end

theorem bget_setBuf {dev blockno : UInt32} (got : c.bget dev blockno = some (c', b))
    : ∃ buf, c' = c.setBuf b buf := by
  unfold bget at got
  split at got
  · cases got
  · cases got
    exact ⟨_, rfl⟩
  · split at got
    · cases got
      exact ⟨_, rfl⟩
    · cases got

/-- Every step keeps the ring, and the order of the releases. -/
theorem Inv.step (inv : Inv c released order) {action : BcacheAction N}
    (taken : c.step action = some c') : ∃ order, Inv c' (note c action released) order := by
  cases action with
  | bget =>
    obtain ⟨⟨reached, b⟩, got, rfl⟩ := Option.map_eq_some_iff.mp taken
    obtain ⟨buf, rfl⟩ := bget_setBuf got
    exact ⟨order, inv.setBuf buf⟩
  | setFlags =>
    cases taken
    exact ⟨order, inv.setBuf _⟩
  | brelse =>
    simp only [Bcache.step, brelse, Bcache.setBuf, update_self] at taken
    rw [note]
    split at taken
    · cases taken
    -- only a count of zero moves the buffer, and only then does the history grow
    · split at taken
      case isTrue zero =>
        cases taken
        rw [if_pos zero]
        exact ⟨_, (inv.setBuf _).toHead⟩
      case isFalse more =>
        cases taken
        rw [if_neg more]
        exact ⟨order, inv.setBuf _⟩

end

/-- From `binit` on, the list of the buffers stays intact and in order of the last release. -/
theorem buffer_list_intact (N : Nat) (c : Bcache N) (actions : List (BcacheAction N))
    : Throughout (withHistory Bcache.step note) (fun current => ListOk current.1 current.2)
        (c.binit, []) actions := by
  have initial : Inv c.binit [] (List.finRange N).reverse :=
    ⟨binit_ring c, by simp, List.pairwise_of_forall fun _ _ => nofun⟩
  have always : Throughout (withHistory Bcache.step note)
      (fun current => ∃ order, Inv current.1 current.2 order) (c.binit, []) actions := by
    refine Throughout.invariant ⟨_, initial⟩ ?_ actions
    rintro current action next ⟨order, inv⟩ taken
    obtain ⟨stepped, noted⟩ := withHistory_eq_some taken
    rw [noted]
    exact inv.step stepped
  exact always.mono fun current ⟨order, inv⟩ => inv.listOk

end Bcache

end Xv6Net
