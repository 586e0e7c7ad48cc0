import Mathlib.Data.List.Basic

/-! Writes to a store, one after the other. Repeating a list of writes after any part of it
has been done gives what the list gives: the reason why a redo log may be replayed.
-/

namespace Library.Store

open Function

variable {κ β : Type} [DecidableEq κ]

/-- The store after the writes, in order. -/
def apply (store : κ → β) (writes : List (κ × β)) : κ → β :=
  writes.foldl (fun current write => update current write.1 write.2) store

@[simp]
theorem apply_nil (store : κ → β) : apply store [] = store :=
  rfl

@[simp]
theorem apply_cons (store : κ → β) (write : κ × β) (rest : List (κ × β))
    : apply store (write :: rest) = apply (update store write.1 write.2) rest :=
  rfl

theorem apply_append (store : κ → β) (writes more : List (κ × β))
    : apply store (writes ++ more) = apply (apply store writes) more :=
  List.foldl_append

variable {writes : List (κ × β)} {key : κ}

/-- What is not written is kept. -/
theorem apply_of_notMem (store : κ → β) (other : key ∉ writes.map Prod.fst)
    : apply store writes key = store key := by
  induction writes generalizing store with
  | nil => rfl
  | cons write rest ih =>
    rw [List.map_cons, List.mem_cons, not_or] at other
    rw [apply_cons, ih _ other.2, update_of_ne other.1]

/-- Where something is written, the store before does not matter. -/
theorem apply_congr {store other : κ → β}
    (written : key ∈ writes.map Prod.fst ∨ store key = other key)
    : apply store writes key = apply other writes key := by
  induction writes generalizing store other with
  | nil => simpa using written
  | cons write rest ih =>
    rw [apply_cons, apply_cons]
    apply ih
    rw [List.map_cons, List.mem_cons] at written
    by_cases here : key = write.1
    · right
      rw [here, update_self, update_self]
    · rw [update_of_ne here, update_of_ne here]
      rcases written with (same | later) | same
      · exact absurd same here
      · exact Or.inl later
      · exact Or.inr same

/-- Writes to different keys are all found afterwards. -/
theorem apply_of_mem {value : β} (store : κ → β)
    (distinct : (writes.map Prod.fst).Nodup) (member : (key, value) ∈ writes)
    : apply store writes key = value := by
  induction writes generalizing store with
  | nil => cases member
  | cons write rest ih =>
    rw [List.map_cons, List.nodup_cons] at distinct
    rcases List.mem_cons.mp member with rfl | later
    · rw [apply_cons, apply_of_notMem _ distinct.1, update_self]
    · exact ih _ distinct.2 later

/-- The writes may be repeated after any first part of them. -/
theorem apply_replay (store : κ → β) (writes : List (κ × β)) (n : Nat)
    : apply (apply store (writes.take n)) writes = apply store writes := by
  funext key
  apply apply_congr
  by_cases written : key ∈ writes.map Prod.fst
  · exact Or.inl written
  · right
    apply apply_of_notMem
    intro before
    rw [List.map_take] at before
    exact written (List.mem_of_mem_take before)

end Library.Store
