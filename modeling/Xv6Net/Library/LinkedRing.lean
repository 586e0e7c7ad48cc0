import Mathlib.Data.List.Nodup
import Mathlib.Data.Option.Basic
import Mathlib.Logic.Function.Iterate

/-! Rings of nodes through a head: the nodes from the head on, as a list, the loop that follows the
pointers, and the changes that put a node into the ring and take one out. A doubly linked ring is
two of them, with the list reversed for the second one.
-/

namespace Library.LinkedRing

open Function

variable {α : Type}

/-- The pointers lead from `x` through the nodes of the list to `y`. `none` is a head, so that
`Leads f none list none` is a ring through the head and the nodes of the list.
-/
def Leads (f : Option α → Option α) : Option α → List α → Option α → Prop
  | x, [], y => f x = y
  | x, a :: rest, y => f x = some a ∧ Leads f (some a) rest y

/-- The loop that follows the pointers to a node that passes the test or to the head; `none` if that
takes more than `fuel` nodes.
-/
def search (f : Option α → Option α) (test : α → Bool) : Nat → Option α → Option (Option α)
  | 0, _ => none
  | _ + 1, none => some none
  | fuel + 1, some a => if test a then some (some a) else search f test fuel (f (some a))

section

variable {f g : Option α → Option α} {x x' y z : Option α} {list before after : List α} {a : α}

theorem Leads.head (h : Leads f x list none) : f x = list.head? := by
  cases list with
  | nil => exact h
  | cons => exact h.1

theorem getLast?_cons_or (a : α) (rest : List α) (x : Option α)
    : (a :: rest).getLast?.or x = rest.getLast?.or (some a) := by
  rw [List.getLast?_cons]
  cases rest.getLast? <;> rfl

theorem leads_append
    : Leads f x (before ++ after) none
      ↔ Leads f x before after.head? ∧ Leads f (before.getLast?.or x) after none := by
  induction before generalizing x with
  | nil => exact ⟨fun h => ⟨h.head, h⟩, And.right⟩
  | cons a rest ih =>
    rw [getLast?_cons_or, List.cons_append, Leads, Leads, ih, and_assoc]

/-- The pointer from where the list is cut. -/
theorem Leads.cut (h : Leads f none (before ++ after) none) : f before.getLast? = after.head? := by
  have rest := (leads_append.mp h).2.head
  rwa [Option.or_none] at rest

theorem Leads.iterate (h : Leads f x list none) {k : Nat} (inside : k ≤ list.length)
    : f^[k + 1] x = list[k]? := by
  induction list generalizing x k with
  | nil =>
    obtain rfl := Nat.le_zero.mp inside
    exact h
  | cons a rest ih =>
    rw [iterate_succ_apply, h.1]
    cases k with
    | zero => rfl
    | succ => exact ih h.2 (Nat.le_of_succ_le_succ inside)

theorem Leads.search_eq (h : Leads f x list none) {fuel : Nat} (enough : list.length < fuel)
    (test : α → Bool) : search f test fuel (f x) = some (list.find? test) := by
  induction list generalizing x fuel with
  | nil =>
    obtain ⟨fuel, rfl⟩ := Nat.exists_eq_succ_of_ne_zero (Nat.ne_zero_of_lt enough)
    rw [h.head]
    rfl
  | cons a rest ih =>
    obtain ⟨fuel, rfl⟩ := Nat.exists_eq_succ_of_ne_zero (Nat.ne_zero_of_lt enough)
    rw [h.1, search, List.find?_cons, ih h.2 (Nat.lt_of_succ_lt_succ enough)]
    cases test a <;> rfl

/-- The same nodes from another start. -/
theorem Leads.restart (h : Leads f x list none) (lead : g x' = list.head?)
    (same : ∀ a ∈ list, g (some a) = f (some a)) : Leads g x' list none := by
  induction list generalizing x x' with
  | nil => exact lead
  | cons a rest ih =>
    refine ⟨lead, ih h.2 ?_ fun b member => same b (List.mem_cons_of_mem a member)⟩
    rw [same a List.mem_cons_self, h.2.head]

/-- Where the pointer of the last node is changed, the path leads to another end. -/
theorem Leads.redirect (h : Leads f x list y) (nodup : (x :: list.map some).Nodup)
    (last : g (list.getLast?.or x) = z)
    (same : ∀ b ∈ x :: list.map some, b ≠ list.getLast?.or x → g b = f b) : Leads g x list z := by
  induction list generalizing x with
  | nil => exact last
  | cons a rest ih =>
    obtain ⟨once, distinct⟩ := List.nodup_cons.mp nodup
    rw [getLast?_cons_or] at last same
    refine ⟨(same x List.mem_cons_self ?_).trans h.1,
      ih h.2 distinct last fun b member => same b (List.mem_cons_of_mem x member)⟩
    -- `x` is not the last node, since it would stand in the list twice
    rintro rfl
    cases final : rest.getLast? with
    | none => simp [final] at once
    | some => simp [final, List.mem_of_getLast? final] at once

section

variable (nodup : (before ++ a :: after).Nodup)
include nodup

/-- The nodes before `a`, where only the pointer to `a` may have changed. -/
theorem Leads.front (h : Leads f none before y) (last : g before.getLast? = z)
    (same : ∀ b ∈ none :: before.map some, b ≠ before.getLast? → g b = f b)
    : Leads g none before z := by
  have distinct : ((none : Option α) :: before.map some).Nodup := by
    refine List.nodup_cons.mpr ⟨by simp, ?_⟩
    exact (List.nodup_append.mp nodup).1.map (Option.some_injective α)
  rw [← Option.or_none (o := before.getLast?)] at last same
  exact h.redirect distinct last same

/-- No node from `a` on is the one before `a`. -/
theorem ne_getLast? {b : α} (member : b ∈ a :: after) : some b ≠ before.getLast? := by
  intro same
  exact (List.nodup_append.mp nodup).2.2 b (List.mem_of_getLast? same.symm) b member rfl

variable [DecidableEq α]

/-- A node is put between two parts of a ring. -/
theorem Leads.insert (h : Leads f none (before ++ after) none)
    : Leads (update (update f (some a) after.head?) before.getLast? (some a)) none
        (before ++ a :: after) none := by
  obtain ⟨-, later, apart⟩ := List.nodup_append.mp nodup
  obtain ⟨front, rest⟩ := leads_append.mp h
  refine leads_append.mpr ⟨?_, ?_, ?_⟩
  · refine front.front nodup (update_self ..) fun b member other => ?_
    rw [update_of_ne other, update_of_ne]
    rintro rfl
    simp at member
    exact apart a member a List.mem_cons_self rfl
  · rw [Option.or_none, update_self]
  · refine rest.restart ?_ fun b member => ?_
    · rw [update_of_ne (ne_getLast? nodup List.mem_cons_self), update_self]
    · rw [update_of_ne (ne_getLast? nodup (List.mem_cons_of_mem a member)), update_of_ne]
      rintro ⟨⟩
      exact (List.nodup_cons.mp later).1 member

/-- A node is taken out of a ring. -/
theorem Leads.remove (h : Leads f none (before ++ a :: after) none)
    : Leads (update f before.getLast? after.head?) none (before ++ after) none := by
  obtain ⟨front, -, rest⟩ := leads_append.mp h
  refine leads_append.mpr ⟨?_, rest.restart ?_ fun b member => ?_⟩
  · exact front.front nodup (update_self ..) fun b _ other => update_of_ne other _ _
  · rw [Option.or_none, update_self]
  · exact update_of_ne (ne_getLast? nodup (List.mem_cons_of_mem a member)) _ _

end

end

end Library.LinkedRing
