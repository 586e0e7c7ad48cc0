import Mathlib.Data.List.Nodup

/-! Exclusive ownership: keys that hold one resource each, no resource held by two of them, and
a record of the resources that are in use.
-/

namespace Library

open Function

variable {ι β : Type}

/-- The keys that are `live` hold different resources, and these are the ones in use. -/
structure Owns (live : ι → Prop) (resource : ι → β) (used : β → Prop) : Prop where
  distinct : ∀ {i j}, live i → live j → resource i = resource j → i = j
  used_iff : ∀ b, used b ↔ ∃ i, live i ∧ resource i = b

namespace Owns

variable {live live' : ι → Prop} {resource resource' : ι → β} {used used' : β → Prop}

section

variable (h : Owns live resource used)
include h

theorem used_of_live {i : ι} (held : live i)
    : used (resource i) :=
  (h.used_iff _).mpr ⟨i, held, rfl⟩

theorem congr (lives : ∀ i, live' i ↔ live i) (same : ∀ i, live i → resource' i = resource i)
    (uses : ∀ b, used' b ↔ used b)
    : Owns live' resource' used' := by
  refine ⟨?_, ?_⟩
  · intro i j first_ second equal
    rw [lives] at first_ second
    rw [same i first_, same j second] at equal
    exact h.distinct first_ second equal
  · intro b
    rw [uses, h.used_iff]
    constructor
    · rintro ⟨i, held, there⟩
      exact ⟨i, (lives i).mpr held, (same i held).trans there⟩
    · rintro ⟨i, held, there⟩
      rw [lives] at held
      exact ⟨i, held, (same i held).symm.trans there⟩

/-- A key takes a resource that is not in use. -/
theorem take {key : ι} {b : β} (free : ¬ used b) (lives : ∀ i, live' i ↔ i = key ∨ live i)
    (there : resource' key = b) (same : ∀ i, live i → resource' i = resource i)
    (uses : ∀ c, used' c ↔ c = b ∨ used c)
    : Owns live' resource' used' := by
  have other : ∀ i, live i → resource' i ≠ b := by
    intro i held equal
    rw [same i held] at equal
    exact free (equal ▸ h.used_of_live held)
  refine ⟨?_, ?_⟩
  · intro i j first_ second equal
    rcases (lives i).mp first_ with rfl | held
    · rcases (lives j).mp second with rfl | held'
      · rfl
      · exact (other j held' (equal.symm.trans there)).elim
    · rcases (lives j).mp second with rfl | held'
      · exact (other i held (equal.trans there)).elim
      · rw [same i held, same j held'] at equal
        exact h.distinct held held' equal
  · intro c
    rw [uses, h.used_iff]
    constructor
    · rintro (rfl | ⟨i, held, there'⟩)
      · exact ⟨key, (lives key).mpr (Or.inl rfl), there⟩
      · exact ⟨i, (lives i).mpr (Or.inr held), (same i held).trans there'⟩
    · rintro ⟨i, held, there'⟩
      rcases (lives i).mp held with rfl | held
      · exact Or.inl (there'.symm.trans there)
      · exact Or.inr ⟨i, held, (same i held).symm.trans there'⟩

/-- A key gives its resource back. -/
theorem drop {key : ι} (held : live key) (lives : ∀ i, live' i ↔ i ≠ key ∧ live i)
    (same : ∀ i, i ≠ key → live i → resource' i = resource i)
    (uses : ∀ c, used' c ↔ c ≠ resource key ∧ used c)
    : Owns live' resource' used' := by
  refine ⟨?_, ?_⟩
  · intro i j first_ second equal
    obtain ⟨apart, first_⟩ := (lives i).mp first_
    obtain ⟨apart', second⟩ := (lives j).mp second
    rw [same i apart first_, same j apart' second] at equal
    exact h.distinct first_ second equal
  · intro c
    rw [uses, h.used_iff]
    constructor
    · rintro ⟨different, i, held', there⟩
      have apart : i ≠ key := by
        rintro rfl
        exact different there.symm
      exact ⟨i, (lives i).mpr ⟨apart, held'⟩, (same i apart held').trans there⟩
    · rintro ⟨i, held', there⟩
      obtain ⟨apart, held'⟩ := (lives i).mp held'
      rw [same i apart held'] at there
      refine ⟨?_, i, held', there⟩
      rintro rfl
      exact apart (h.distinct held' held there)

end

end Owns

/-- Objects are numbered as they are handed out; those given back are listed, and every other one is
held by one key.
-/
structure Allotted (held : ι → Option Nat) (objects : Nat) (freed : List Nat) : Prop where
  distinct : ∀ {i j c}, held i = some c → held j = some c → i = j
  accounted : ∀ c, c < objects ↔ c ∈ freed ∨ ∃ i, held i = some c
  apart : ∀ {i c}, held i = some c → c ∉ freed
  once : freed.Nodup

namespace Allotted

theorem empty : Allotted (fun _ : ι => none) 0 [] := by
  refine ⟨nofun, fun c => ?_, nofun, List.nodup_nil⟩
  refine iff_of_false (Nat.not_lt_zero c) ?_
  rintro (gone | ⟨_, there⟩)
  · cases gone
  · cases there

variable [DecidableEq ι] {held : ι → Option Nat} {objects : Nat} {freed : List Nat} {key : ι}

/-- A key takes the next object. -/
theorem take (h : Allotted held objects freed) (idle : held key = none)
    : Allotted (update held key (some objects)) (objects + 1) freed := by
  have cases_ : ∀ i c, update held key (some objects) i = some c →
      (i = key ∧ c = objects) ∨ held i = some c := by
    intro i c there
    by_cases same : i = key
    · subst same
      rw [update_self] at there
      exact Or.inl ⟨rfl, (Option.some.inj there).symm⟩
    · rw [update_of_ne same] at there
      exact Or.inr there
  have below : ∀ {i c}, held i = some c → c < objects :=
    fun {i c} there => (h.accounted c).mpr (Or.inr ⟨i, there⟩)
  refine ⟨?_, ?_, ?_, h.once⟩
  · intro i j c first_ second
    rcases cases_ i c first_ with ⟨rfl, rfl⟩ | there
    · rcases cases_ j c second with ⟨rfl, -⟩ | there
      · rfl
      · exact absurd (below there) (Nat.lt_irrefl c)
    · rcases cases_ j c second with ⟨-, rfl⟩ | there'
      · exact absurd (below there) (Nat.lt_irrefl c)
      · exact h.distinct there there'
  · intro c
    rw [Nat.lt_succ_iff_lt_or_eq, h.accounted]
    constructor
    · rintro ((gone | ⟨i, there⟩) | rfl)
      · exact Or.inl gone
      · refine Or.inr ⟨i, ?_⟩
        rw [update_of_ne]
        · exact there
        · rintro rfl
          exact nomatch idle.symm.trans there
      · exact Or.inr ⟨key, update_self ..⟩
    · rintro (gone | ⟨i, there⟩)
      · exact Or.inl (Or.inl gone)
      · rcases cases_ i c there with ⟨-, same⟩ | there
        · exact Or.inr same
        · exact Or.inl (Or.inr ⟨i, there⟩)
  · intro i c there gone
    rcases cases_ i c there with ⟨-, rfl⟩ | there
    · exact absurd ((h.accounted c).mpr (Or.inl gone)) (Nat.lt_irrefl c)
    · exact h.apart there gone

/-- A key gives back what it holds. -/
theorem drop (h : Allotted held objects freed) (key : ι)
    : Allotted (update held key none) objects (freed ++ (held key).toList) := by
  have cases_ : ∀ i c, update held key none i = some c → i ≠ key ∧ held i = some c := by
    intro i c there
    by_cases same : i = key
    · subst same
      rw [update_self] at there
      cases there
    · rw [update_of_ne same] at there
      exact ⟨same, there⟩
  refine ⟨?_, ?_, ?_, ?_⟩
  · intro i j c first_ second
    exact h.distinct (cases_ i c first_).2 (cases_ j c second).2
  · intro c
    rw [h.accounted, List.mem_append, Option.mem_toList, or_assoc]
    refine or_congr_right ?_
    constructor
    · rintro ⟨i, there⟩
      by_cases same : i = key
      · exact Or.inl (same ▸ there)
      · exact Or.inr ⟨i, by rw [update_of_ne same]; exact there⟩
    · rintro (mine | ⟨i, there⟩)
      · exact ⟨key, mine⟩
      · exact ⟨i, (cases_ i c there).2⟩
  · intro i c there gone
    obtain ⟨other, there⟩ := cases_ i c there
    rcases List.mem_append.mp gone with gone | mine
    · exact h.apart there gone
    · exact other (h.distinct there (Option.mem_toList.mp mine))
  · cases mine : held key with
    | none =>
      rw [Option.toList_none, List.append_nil]
      exact h.once
    | some c =>
      exact h.once.append (List.nodup_singleton c) (List.disjoint_singleton.mpr (h.apart mine))

end Allotted

end Library
