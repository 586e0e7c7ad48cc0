import Xv6Net.Library.Program

/-! Rules of pre- and postconditions for programs: what a program ensures from a state about its
log, its result and the state it leaves, and about where it stops for good.
-/

namespace Library.Program

variable {ρ σ ε α β : Type}

/-- From this state the program logs only what is `ok`. If it ends, its result and the state it
leaves satisfy `post`; it stops for good only if `halt` holds.
-/
structure Ensures (ok : ε → Prop) (halt : Prop) (program : Program ρ σ ε α) (env : ρ)
    (state : σ) (post : α → σ → Prop)
    : Prop where
  logged : Logged ok program env state
  ends
    : ∀ a, (program.run env state).value = some a → post a (program.run env state).state
  stops : (program.run env state).value = none → halt

section

variable {ok : ε → Prop} {halt : Prop} {env : ρ} {state : σ} {post : α → σ → Prop}

variable {program : Program ρ σ ε α} {a : α}

/-- A program that may not stop for good ends. -/
theorem Ensures.total (h : Ensures ok False program env state post)
    : ∃ a, (program.run env state).value = some a
      ∧ post a (program.run env state).state := by
  cases value : (program.run env state).value with
  | none => exact (h.stops value).elim
  | some a => exact ⟨a, rfl, h.ends a value⟩

theorem Ensures.of_run {after : σ} (run : program.run env state = ⟨some a, after, []⟩)
    (holds : post a after)
    : Ensures ok halt program env state post := by
  refine ⟨?_, ?_, ?_⟩
  · rw [Logged, run]
    exact List.forall_mem_nil _
  · rw [run]
    intro b same
    exact Option.some.inj same ▸ holds
  · rw [run]
    rintro ⟨⟩

theorem Ensures.pure (holds : post a state)
    : Ensures ok halt (Pure.pure a : Program ρ σ ε α) env state post :=
  .of_run rfl holds

theorem Ensures.modify {f : σ → σ} {post : Unit → σ → Prop} (holds : post () (f state))
    : Ensures ok halt (Program.modify f : Program ρ σ ε Unit) env state post :=
  .of_run rfl holds

theorem Ensures.emit {entry : ε} {post : Unit → σ → Prop} (fine : ok entry) (holds : post () state)
    : Ensures ok halt (Program.emit entry : Program ρ σ ε Unit) env state post :=
  ⟨(logged_emit entry).mpr fine, fun _ _ => holds, fun impossible => nomatch impossible⟩

theorem Ensures.stop (holds : halt)
    : Ensures ok halt (Program.stop : Program ρ σ ε α) env state post :=
  ⟨fun _ impossible => (nomatch impossible), fun _ impossible => (nomatch impossible),
    fun _ => holds⟩

theorem Ensures.mono {halt' : Prop} {post' : α → σ → Prop}
    (h : Ensures ok halt program env state post) (halts : halt → halt')
    (weaken : ∀ a after, post a after → post' a after)
    : Ensures ok halt' program env state post' :=
  ⟨h.logged, fun a ended => weaken a _ (h.ends a ended), fun stopped => halts (h.stops stopped)⟩

theorem Ensures.weaken {post' : α → σ → Prop} (h : Ensures ok halt program env state post)
    (weaken : ∀ a after, post a after → post' a after)
    : Ensures ok halt program env state post' :=
  h.mono id weaken

/-- The rule of composition: what the first part ensures is what the rest may rely on. -/
theorem Ensures.bind {next : α → Program ρ σ ε β} {post' : β → σ → Prop}
    (first_ : Ensures ok halt program env state post)
    (rest : ∀ a after, post a after → Ensures ok halt (next a) env after post')
    : Ensures ok halt (program >>= next) env state post' := by
  have later : ∀ a, (program.run env state).value = some a
      → Ensures ok halt (next a) env (program.run env state).state post' :=
    fun a ended => rest a _ (first_.ends a ended)
  have stopped := first_.stops
  refine ⟨logged_bind.mpr ⟨first_.logged, fun a ended => (later a ended).logged⟩, ?_, ?_⟩
  · rw [run_bind]
    generalize program.run env state = out at later
    obtain ⟨value, after, log⟩ := out
    cases value with
    | none => exact fun _ impossible => nomatch impossible
    | some a => exact (later a rfl).ends
  · rw [run_bind]
    generalize program.run env state = out at later stopped
    obtain ⟨value, after, log⟩ := out
    cases value with
    | none => exact fun _ => stopped rfl
    | some a => exact (later a rfl).stops

/-- A part whose outcome is known, and that logs nothing, can be skipped. -/
theorem Ensures.next {next : α → Program ρ σ ε β} {after : σ} {post : β → σ → Prop}
    (run : program.run env state = ⟨some a, after, []⟩)
    (rest : Ensures ok halt (next a) env after post)
    : Ensures ok halt (program >>= next) env state post := by
  have known : Ensures ok halt program env state fun b current => b = a ∧ current = after :=
    .of_run run ⟨rfl, rfl⟩
  refine known.bind ?_
  rintro _ _ ⟨rfl, rfl⟩
  exact rest

theorem Ensures.emit_next {entry : ε} {next : Unit → Program ρ σ ε β} {post : β → σ → Prop}
    (fine : ok entry) (rest : Ensures ok halt (next ()) env state post)
    : Ensures ok halt (Program.emit entry >>= next) env state post := by
  have logged : Ensures ok halt (Program.emit entry : Program ρ σ ε Unit) env state
      fun _ after => state = after := .emit fine rfl
  refine logged.bind ?_
  rintro _ _ rfl
  exact rest

theorem Ensures.ite {c : Prop} [Decidable c] {yes no : Program ρ σ ε α}
    (holds : c → Ensures ok halt yes env state post)
    (fails : ¬ c → Ensures ok halt no env state post)
    : Ensures ok halt (if c then yes else no) env state post := by
  by_cases decided : c
  · rw [if_pos decided]
    exact holds decided
  · rw [if_neg decided]
    exact fails decided

/-- The rule of the loop, with an invariant that depends on the number the body runs for. -/
theorem Ensures.forRange {body : Nat → Program ρ σ ε Unit} {inv : Nat → σ → Prop} {i count : Nat}
    (kept : ∀ j current, i ≤ j → j < i + count → inv j current
      → Ensures ok halt (body j) env current fun _ after => inv (j + 1) after)
    (initially : inv i state)
    : Ensures ok halt (Program.forRange body i count) env state
        fun _ after => inv (i + count) after := by
  induction count generalizing i state with
  | zero => exact .pure initially
  | succ count ih =>
    rw [Program.forRange]
    refine (kept i state (Nat.le_refl i) (by omega) initially).bind fun _ after once => ?_
    have later : ∀ j current, i + 1 ≤ j → j < i + 1 + count → inv j current
        → Ensures ok halt (body j) env current fun _ after => inv (j + 1) after :=
      fun j current low high => kept j current (by omega) (by omega)
    have rest := ih later once
    rw [Nat.add_right_comm, Nat.add_assoc] at rest
    exact rest

/-- What a program ensures about a part of the state, and nothing about the rest of it. -/
theorem Ensures.focus {τ : Type} {part : σ → τ} {put : τ → σ → σ} {program : Program ρ τ ε α}
    (inner : Ensures ok halt program env (part state) fun a after => post a (put after state))
    : Ensures ok halt (Program.focus part put program) env state post :=
  ⟨inner.logged, inner.ends, inner.stops⟩

/-- The rule of a loop over a list, with an invariant. -/
theorem Ensures.forM {ι : Type} {body : ι → Program ρ σ ε PUnit} {inv : σ → Prop} {items : List ι}
    (kept : ∀ item ∈ items, ∀ current, inv current
      → Ensures ok halt (body item) env current fun _ after => inv after)
    (initially : inv state)
    : Ensures ok halt (items.forM body) env state fun _ after => inv after := by
  induction items generalizing state with
  | nil => exact .pure initially
  | cons item rest ih =>
    have whole : (item :: rest).forM body = (do body item; rest.forM body) := rfl
    rw [whole]
    refine (kept item (List.mem_cons_self ..) state initially).bind fun _ after once => ?_
    exact ih (fun other member => kept other (List.mem_cons_of_mem _ member)) once

end

/-- What holds of the result, the state and the log together, also if the program has stopped for
good.
-/
def Leaves (program : Program ρ σ ε α) (env : ρ) (state : σ) (post : Option α → σ → List ε → Prop)
    : Prop :=
  post (program.run env state).value (program.run env state).state (program.run env state).log

section

variable {env : ρ} {state : σ} {post : Option α → σ → List ε → Prop}

variable {program : Program ρ σ ε α}

theorem Leaves.of_run {value : Option α} {after : σ} {log : List ε}
    (run : program.run env state = ⟨value, after, log⟩) (holds : post value after log)
    : Leaves program env state post := by
  rw [Leaves, run]
  exact holds

theorem Leaves.pure {a : α} (holds : post (some a) state [])
    : Leaves (Pure.pure a : Program ρ σ ε α) env state post :=
  holds

theorem Leaves.weaken {post' : Option α → σ → List ε → Prop} (h : Leaves program env state post)
    (weaken : ∀ value after log, post value after log → post' value after log)
    : Leaves program env state post' :=
  weaken _ _ _ h

/-- What a program ensures where it ends holds beside what it leaves. -/
theorem Leaves.ensures {ok : ε → Prop} {halt : Prop} {ended : α → σ → Prop}
    (h : Leaves program env state post) (also : Ensures ok halt program env state ended)
    : Leaves program env state fun value after log =>
        post value after log ∧ ∀ a, value = some a → ended a after :=
  ⟨h, also.ends⟩

/-- The rule of composition: the log of the rest stands behind that of the first part. -/
theorem Leaves.bind {next : α → Program ρ σ ε β} {post' : Option β → σ → List ε → Prop}
    (first_ : Leaves program env state post)
    (stopped : ∀ after log, post none after log → post' none after log)
    (rest : ∀ a after log, post (some a) after log
      → Leaves (next a) env after fun value last more => post' value last (log ++ more))
    : Leaves (program >>= next) env state post' := by
  rw [Leaves] at first_
  rw [Leaves, run_bind]
  generalize program.run env state = out at first_
  obtain ⟨value, after, log⟩ := out
  cases value with
  | none => exact stopped after log first_
  | some a => exact rest a after log first_

/-- A part whose outcome is known, and that logs nothing, can be skipped. -/
theorem Leaves.next {next : α → Program ρ σ ε β} {a : α} {after : σ}
    {post : Option β → σ → List ε → Prop} (run : program.run env state = ⟨some a, after, []⟩)
    (rest : Leaves (next a) env after post)
    : Leaves (program >>= next) env state post := by
  rw [Leaves, run_bind, run]
  exact rest

theorem Leaves.ite {c : Prop} [Decidable c] {yes no : Program ρ σ ε α}
    (holds : c → Leaves yes env state post) (fails : ¬ c → Leaves no env state post)
    : Leaves (if c then yes else no) env state post := by
  by_cases decided : c
  · rw [if_pos decided]
    exact holds decided
  · rw [if_neg decided]
    exact fails decided

/-- What a program on a part of the state leaves. -/
theorem Leaves.focus {τ : Type} {part : σ → τ} {put : τ → σ → σ} {program : Program ρ τ ε α}
    (inner : Leaves program env (part state) fun value after log =>
      post value (put after state) log)
    : Leaves (Program.focus part put program) env state post :=
  inner

end

end Library.Program
