import Mathlib.Data.Fintype.Card

/-! Singly linked lists in a table of nodes: the nodes from a head pointer on, as a list, and the
loop that appends a node at the end.
-/

namespace Library.LinkedList

open Function

variable {α : Type}

/-- The pointers lead from `first_` through the nodes of the list, and then end. -/
def Linked (next : α → Option α) : Option α → List α → Prop
  | first_, [] => first_ = none
  | first_, a :: rest => first_ = some a ∧ Linked next (next a) rest

/-- The loop that follows the pointers from a node to the last one; `none` if that takes more
than `fuel` nodes.
-/
def lastFrom (next : α → Option α) : Nat → α → Option α
  | 0, _ => none
  | fuel + 1, a =>
    match next a with
    | none => some a
    | some b => lastFrom next fuel b

variable [DecidableEq α]

/-- Appends a node: its own pointer is cleared, then the last pointer is made to lead to it. -/
def append (next : α → Option α) (fuel : Nat) (head : Option α) (new : α)
    : Option ((α → Option α) × Option α) :=
  let next := update next new none
  match head with
  | none => some (next, some new)
  | some a => (lastFrom next fuel a).map fun last => (update next last (some new), head)

variable {next next' : α → Option α} {first_ : Option α} {list : List α} {new : α}

omit [DecidableEq α] in
theorem Linked.congr (h : Linked next first_ list) (same : ∀ a ∈ list, next' a = next a)
    : Linked next' first_ list := by
  induction list generalizing first_ with
  | nil => exact h
  | cons a rest ih =>
    refine ⟨h.1, ?_⟩
    rw [same a List.mem_cons_self]
    exact ih h.2 fun b member => same b (List.mem_cons_of_mem a member)

omit [DecidableEq α] in
theorem Linked.head_eq (h : Linked next first_ list) : first_ = list.head? := by
  cases list with
  | nil => exact h
  | cons => exact h.1

omit [DecidableEq α] in
/-- The loop finds the last node. -/
theorem Linked.lastFrom_eq {a : α} {fuel : Nat} (h : Linked next (some a) list)
    (enough : list.length ≤ fuel)
    : ∃ last, lastFrom next fuel a = some last ∧ list.getLast? = some last := by
  induction list generalizing a fuel with
  | nil => cases h
  | cons b rest ih =>
    obtain ⟨same, later⟩ := h
    cases same
    cases fuel with
    | zero => cases enough
    | succ =>
      have following := later.head_eq
      cases rest with
      | nil => exact ⟨b, by rw [lastFrom, following]; rfl, rfl⟩
      | cons =>
        rw [List.head?_cons] at following
        rw [following] at later
        obtain ⟨last, found, isLast⟩ := ih later (Nat.le_of_succ_le_succ enough)
        refine ⟨last, ?_, ?_⟩
        · rw [lastFrom, following]
          exact found
        · rw [List.getLast?_cons_cons]
          exact isLast

/-- Where the last pointer is made to lead to a new node, the list is longer by that node. -/
theorem Linked.extend {last : α} (h : Linked next first_ list) (nodup : list.Nodup)
    (isLast : list.getLast? = some last) (fresh : new ∉ list) (ends : next new = none)
    : Linked (update next last (some new)) first_ (list ++ [new]) := by
  induction list generalizing first_ with
  | nil => cases isLast
  | cons a rest ih =>
    obtain ⟨first, later⟩ := h
    have newNe := List.ne_of_not_mem_cons fresh
    have absent := List.not_mem_of_not_mem_cons fresh
    obtain ⟨once, distinct⟩ := List.nodup_cons.mp nodup
    refine ⟨first, ?_⟩
    cases rest with
    | nil =>
      cases Option.some.inj isLast
      refine ⟨update_self .., ?_⟩
      show update next a (some new) new = none
      rw [update_of_ne newNe]
      exact ends
    | cons =>
      rw [List.getLast?_cons_cons] at isLast
      have other : a ≠ last := by
        rintro rfl
        exact once (List.mem_of_getLast? isLast)
      rw [update_of_ne other]
      exact ih later distinct isLast absent

/-- The loop appends a node that is not in the list. -/
theorem Linked.append_eq {fuel : Nat} (h : Linked next first_ list) (nodup : list.Nodup)
    (fresh : new ∉ list) (enough : list.length ≤ fuel)
    : ∃ after,
        append next fuel first_ new = some (after, (list ++ [new]).head?)
        ∧ Linked after (list ++ [new]).head? (list ++ [new]) := by
  have cleared : Linked (update next new none) first_ list := by
    refine h.congr fun a member => update_of_ne ?_ _ _
    rintro rfl
    exact fresh member
  have ends : update next new none new = none := update_self ..
  cases list with
  | nil =>
    cases h
    exact ⟨_, rfl, rfl, ends⟩
  | cons =>
    obtain ⟨last, found, isLast⟩ := (h.1 ▸ cleared).lastFrom_eq enough
    refine ⟨update (update next new none) last (some new), ?_, ?_⟩
    · rw [h.1, append]
      simp only [found, Option.map_some]
      rfl
    · have extended := cleared.extend nodup isLast fresh ends
      rwa [h.1] at extended

end Library.LinkedList
