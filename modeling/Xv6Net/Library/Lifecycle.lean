import Mathlib.Data.List.Nodup

/-! Members that live in slots: each is numbered when it is created, ends at most once, and is
collected at most once after that.
-/

namespace Library

open Function

variable {ι : Type}

/-- What is in a slot. -/
inductive Life where
  | absent
  | going (serial : Nat)
  | ended (serial : Nat)

def Life.serial : Life → Option Nat
  | .absent => none
  | .going serial | .ended serial => some serial

/-- `ends` and `collected` are the numbers in the order in which members ended and were collected.
-/
structure Lifecycle (life : ι → Life) (created : Nat) (ends collected : List Nat) : Prop where
  bound : ∀ {i n}, (life i).serial = some n → n < created
  distinct : ∀ {i j n}, (life i).serial = some n → (life j).serial = some n → i = j
  ends_bound : ∀ n ∈ ends, n < created
  ends_once : ends.Nodup
  going : ∀ {i n}, life i = .going n → n ∉ ends
  ended : ∀ {i n}, life i = .ended n → n ∈ ends
  collected_once : collected.Nodup
  collected_ended : ∀ n ∈ collected, n ∈ ends ∧ ∀ i, (life i).serial ≠ some n
  pending : ∀ n ∈ ends, n ∈ collected ∨ ∃ i, life i = .ended n

namespace Lifecycle

theorem empty : Lifecycle (fun _ : ι => Life.absent) 0 [] [] :=
  ⟨nofun, nofun, nofun, List.nodup_nil, nofun, nofun, List.nodup_nil, nofun, nofun⟩

variable [DecidableEq ι] {life : ι → Life} {created n : Nat} {ends collected : List Nat} {i : ι}

theorem create (h : Lifecycle life created ends collected) (absent : life i = .absent)
    : Lifecycle (update life i (.going created)) (created + 1) ends collected := by
  have cases_ : ∀ j m, (update life i (.going created) j).serial = some m →
      (j = i ∧ m = created) ∨ (j ≠ i ∧ (life j).serial = some m) := by
    intro j m serial
    by_cases same : j = i
    · subst same
      rw [update_self] at serial
      exact Or.inl ⟨rfl, (Option.some.inj serial).symm⟩
    · rw [update_of_ne same] at serial
      exact Or.inr ⟨same, serial⟩
  refine ⟨?_, ?_, ?_, h.ends_once, ?_, ?_, h.collected_once, ?_, ?_⟩
  · intro j m serial
    rcases cases_ j m serial with ⟨-, rfl⟩ | ⟨-, serial⟩
    · exact Nat.lt_succ_self m
    · exact Nat.lt_succ_of_lt (h.bound serial)
  · intro j k m first_ second
    rcases cases_ j m first_ with ⟨rfl, rfl⟩ | ⟨-, there⟩
    · rcases cases_ k m second with ⟨rfl, -⟩ | ⟨-, there⟩
      · rfl
      · exact absurd (h.bound there) (Nat.lt_irrefl m)
    · rcases cases_ k m second with ⟨-, rfl⟩ | ⟨-, there'⟩
      · exact absurd (h.bound there) (Nat.lt_irrefl m)
      · exact h.distinct there there'
  · intro m exited
    exact Nat.lt_succ_of_lt (h.ends_bound m exited)
  · intro j m going exited
    rcases cases_ j m (by rw [going]; rfl) with ⟨-, rfl⟩ | ⟨other, -⟩
    · exact absurd (h.ends_bound m exited) (Nat.lt_irrefl m)
    · rw [update_of_ne other] at going
      exact h.going going exited
  · intro j m ended
    by_cases same : j = i
    · subst same
      rw [update_self] at ended
      cases ended
    · rw [update_of_ne same] at ended
      exact h.ended ended
  · intro m gone
    obtain ⟨exited, nowhere⟩ := h.collected_ended m gone
    refine ⟨exited, fun j serial => ?_⟩
    rcases cases_ j m serial with ⟨-, rfl⟩ | ⟨-, serial⟩
    · exact absurd (h.ends_bound m exited) (Nat.lt_irrefl m)
    · exact nowhere j serial
  · intro m exited
    refine (h.pending m exited).imp_right ?_
    rintro ⟨j, ended⟩
    have other : j ≠ i := by
      rintro rfl
      exact nomatch absent.symm.trans ended
    exact ⟨j, by rw [update_of_ne other]; exact ended⟩

/-- A member ends and stays in its slot. -/
theorem finish (h : Lifecycle life created ends collected) (going : life i = .going n)
    : Lifecycle (update life i (.ended n)) created (ends ++ [n]) collected := by
  have serial : ∀ j, (update life i (.ended n) j).serial = (life j).serial := by
    intro j
    by_cases same : j = i
    · subst same
      rw [update_self, going]
      rfl
    · rw [update_of_ne same]
  have mine : (life i).serial = some n := by
    rw [going]
    rfl
  refine ⟨?_, ?_, ?_, ?_, ?_, ?_, h.collected_once, ?_, ?_⟩
  · intro j m there
    rw [serial] at there
    exact h.bound there
  · intro j k m there there'
    rw [serial] at there there'
    exact h.distinct there there'
  · intro m exited
    rcases List.mem_append.mp exited with exited | now
    · exact h.ends_bound m exited
    · rw [List.mem_singleton.mp now]
      exact h.bound mine
  · -- a life that goes on has not ended
    exact h.ends_once.append (List.nodup_singleton n)
      (List.disjoint_singleton.mpr (h.going going))
  · intro j m there exited
    by_cases same : j = i
    · subst same
      rw [update_self] at there
      cases there
    · rw [update_of_ne same] at there
      rcases List.mem_append.mp exited with exited | now
      · exact h.going there exited
      · obtain rfl := List.mem_singleton.mp now
        exact same (h.distinct (by rw [there]; rfl) mine)
  · intro j m there
    by_cases same : j = i
    · subst same
      rw [update_self] at there
      cases there
      exact List.mem_append_right _ (List.mem_singleton_self n)
    · rw [update_of_ne same] at there
      exact List.mem_append_left _ (h.ended there)
  · intro m gone
    obtain ⟨exited, nowhere⟩ := h.collected_ended m gone
    refine ⟨List.mem_append_left _ exited, fun j => ?_⟩
    rw [serial]
    exact nowhere j
  · intro m exited
    rcases List.mem_append.mp exited with exited | now
    · refine (h.pending m exited).imp_right ?_
      rintro ⟨j, ended⟩
      have other : j ≠ i := by
        rintro rfl
        exact nomatch going.symm.trans ended
      exact ⟨j, by rw [update_of_ne other]; exact ended⟩
    · rw [List.mem_singleton.mp now]
      exact Or.inr ⟨i, update_self ..⟩

/-- What is left when a slot is emptied was there before. -/
theorem eq_of_present {j : ι} (present : update life i .absent j ≠ .absent)
    : update life i .absent j = life j := by
  refine update_of_ne ?_ _ _
  rintro rfl
  exact present (update_self ..)

theorem serial_of_present {j : ι} (there : (update life i .absent j).serial = some n)
    : (life j).serial = some n := by
  have same : update life i .absent j = life j := by
    refine eq_of_present fun gone => ?_
    rw [gone] at there
    cases there
  rw [← same]
  exact there

section

variable (h : Lifecycle life created ends collected)
include h

/-- A slot is emptied: of what is there, nothing but its own member can be missing. -/
theorem clear {collected' : List Nat} (once : collected'.Nodup)
    (accounted : ∀ m ∈ collected', m ∈ ends
      ∧ ∀ j, (update life i .absent j).serial ≠ some m)
    (pending : ∀ m ∈ ends, m ∈ collected' ∨ ∃ j, j ≠ i ∧ life j = .ended m)
    : Lifecycle (update life i .absent) created ends collected' := by
  refine ⟨?_, ?_, h.ends_bound, h.ends_once, ?_, ?_, once, accounted, ?_⟩
  · exact fun there => h.bound (serial_of_present there)
  · exact fun there there' => h.distinct (serial_of_present there) (serial_of_present there')
  · intro j m there
    rw [eq_of_present (by rw [there]; nofun)] at there
    exact h.going there
  · intro j m there
    rw [eq_of_present (by rw [there]; nofun)] at there
    exact h.ended there
  · intro m exited
    refine (pending m exited).imp_right ?_
    rintro ⟨j, other, ended⟩
    exact ⟨j, by rw [update_of_ne other]; exact ended⟩

/-- A member leaves its slot before it has ended. -/
theorem abandon (going : life i = .going n)
    : Lifecycle (update life i .absent) created ends collected := by
  refine h.clear h.collected_once ?_ ?_
  · intro m gone
    obtain ⟨exited, nowhere⟩ := h.collected_ended m gone
    exact ⟨exited, fun j there => nowhere j (serial_of_present there)⟩
  · intro m exited
    refine (h.pending m exited).imp_right ?_
    rintro ⟨j, ended⟩
    refine ⟨j, ?_, ended⟩
    rintro rfl
    exact nomatch going.symm.trans ended

/-- A member that has ended is collected. -/
theorem collect (ended : life i = .ended n)
    : Lifecycle (update life i .absent) created ends (collected ++ [n]) := by
  have mine : (life i).serial = some n := by
    rw [ended]
    rfl
  have fresh : n ∉ collected := fun gone => (h.collected_ended n gone).2 i mine
  refine h.clear ?_ ?_ ?_
  · exact h.collected_once.append (List.nodup_singleton n) (List.disjoint_singleton.mpr fresh)
  · intro m gone
    rcases List.mem_append.mp gone with gone | now
    · obtain ⟨exited, nowhere⟩ := h.collected_ended m gone
      exact ⟨exited, fun j there => nowhere j (serial_of_present there)⟩
    · obtain rfl := List.mem_singleton.mp now
      refine ⟨h.ended ended, fun j there => ?_⟩
      obtain rfl := h.distinct (serial_of_present there) mine
      rw [update_self] at there
      cases there
  · intro m exited
    rcases h.pending m exited with gone | ⟨j, ended'⟩
    · exact Or.inl (List.mem_append_left _ gone)
    · by_cases same : j = i
      · subst same
        cases ended.symm.trans ended'
        exact Or.inl (List.mem_append_right _ (List.mem_singleton_self n))
      · exact Or.inr ⟨j, same, ended'⟩

end

end Lifecycle

end Library
