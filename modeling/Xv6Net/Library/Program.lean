import Mathlib.Data.List.Basic

/-! Programs that read an environment, update a state, log what they do and may stop for
good: the shape in which sequential system code is embedded here. Facts about a program are
read off its `Outcome`, so that the state it leaves and the log it writes are two views of
one definition.
-/

namespace Library

/-- What a program leaves: its result (`none` once it has stopped for good), the state and its log.
-/
structure Outcome (σ ε α : Type) where
  value : Option α
  state : σ
  log : List ε

/-- A program over an environment `ρ`, a state `σ` and log entries `ε`. -/
def Program (ρ σ ε α : Type) := ρ → σ → Outcome σ ε α

namespace Outcome

variable {σ ε α β : Type}

/-- Put earlier log entries in front of an outcome. -/
def after (earlier : List ε) (out : Outcome σ ε α) : Outcome σ ε α :=
  { out with log := earlier ++ out.log }

/-- Continue with `next`, unless the first part has stopped for good. -/
def andThen (out : Outcome σ ε α) (next : α → σ → Outcome σ ε β) : Outcome σ ε β :=
  match out.value with
  | none => { value := none, state := out.state, log := out.log }
  | some a => (next a out.state).after out.log

end Outcome

open Outcome

section

variable {σ ε α β : Type}

@[simp]
theorem after_mk (earlier : List ε) (value : Option α) (state : σ) (log : List ε)
    : (mk value state log).after earlier = mk value state (earlier ++ log) :=
  rfl

@[simp]
theorem after_value (earlier : List ε) (out : Outcome σ ε α)
    : (out.after earlier).value = out.value :=
  rfl

@[simp]
theorem after_state (earlier : List ε) (out : Outcome σ ε α)
    : (out.after earlier).state = out.state :=
  rfl

@[simp]
theorem after_log (earlier : List ε) (out : Outcome σ ε α)
    : (out.after earlier).log = earlier ++ out.log :=
  rfl

@[simp]
theorem after_nil (out : Outcome σ ε α) : out.after [] = out := by
  simp [after]

@[simp]
theorem after_after (first second : List ε) (out : Outcome σ ε α)
    : (out.after second).after first = out.after (first ++ second) := by
  simp [after]

/-- A program that has returned goes on. -/
@[simp]
theorem andThen_some (a : α) (state : σ) (log : List ε) (next : α → σ → Outcome σ ε β)
    : (mk (some a) state log).andThen next = (next a state).after log :=
  rfl

@[simp]
theorem andThen_none (state : σ) (log : List ε) (next : α → σ → Outcome σ ε β)
    : (mk none state log).andThen next = mk none state log :=
  rfl

/-- The log of a sequence does not depend on how the sequence is split. -/
theorem andThen_assoc {γ : Type} (out : Outcome σ ε α) (next : α → σ → Outcome σ ε β)
    (last : β → σ → Outcome σ ε γ)
    : (out.andThen next).andThen last
      = out.andThen fun a current => (next a current).andThen last := by
  obtain ⟨value, state, log⟩ := out
  cases value with
  | none => rfl
  | some a =>
    simp only [andThen_some]
    generalize next a state = mid
    obtain ⟨value, state, more⟩ := mid
    cases value <;> simp

end

namespace Program

variable {ρ σ ε α β : Type}

instance : Monad (Program ρ σ ε) where
  pure a := fun _ state => { value := some a, state, log := [] }
  bind program next := fun env state =>
    (program env state).andThen (fun a current => next a env current)

/-- Run a program in an environment from a state. -/
def run (program : Program ρ σ ε α) (env : ρ) (state : σ) : Outcome σ ε α :=
  program env state

/-- The environment. -/
def env : Program ρ σ ε ρ := fun env state => { value := some env, state, log := [] }

/-- The current state. -/
def get : Program ρ σ ε σ := fun _ state => { value := some state, state, log := [] }

/-- Update the state. -/
def modify (f : σ → σ) : Program ρ σ ε Unit :=
  fun _ state => { value := some (), state := f state, log := [] }

/-- Add one entry to the log. -/
def emit (entry : ε) : Program ρ σ ε Unit :=
  fun _ state => { value := some (), state, log := [entry] }

/-- Stop for good. -/
def stop : Program ρ σ ε α := fun _ state => { value := none, state, log := [] }

end Program

section

variable {ρ σ ε α β : Type}

@[simp]
theorem run_pure (a : α) (env : ρ) (state : σ)
    : (pure a : Program ρ σ ε α).run env state = ⟨some a, state, []⟩ :=
  rfl

/-- The log of the first part comes before that of the rest. -/
@[simp]
theorem run_bind (program : Program ρ σ ε α) (next : α → Program ρ σ ε β) (env : ρ) (state : σ)
    : (program >>= next).run env state
      = (program.run env state).andThen (fun a current => (next a).run env current) :=
  rfl

@[simp]
theorem run_env (env : ρ) (state : σ)
    : (Program.env : Program ρ σ ε ρ).run env state = ⟨some env, state, []⟩ :=
  rfl

@[simp]
theorem run_get (env : ρ) (state : σ)
    : (Program.get : Program ρ σ ε σ).run env state = ⟨some state, state, []⟩ :=
  rfl

@[simp]
theorem run_modify (f : σ → σ) (env : ρ) (state : σ)
    : (Program.modify f : Program ρ σ ε Unit).run env state = ⟨some (), f state, []⟩ :=
  rfl

@[simp]
theorem run_emit (entry : ε) (env : ρ) (state : σ)
    : (Program.emit entry : Program ρ σ ε Unit).run env state
      = ⟨some (), state, [entry]⟩ :=
  rfl

@[simp]
theorem run_stop (env : ρ) (state : σ)
    : (Program.stop : Program ρ σ ε α).run env state = ⟨none, state, []⟩ :=
  rfl

theorem run_ite (c : Prop) [Decidable c] (yes no : Program ρ σ ε α) (env : ρ) (state : σ)
    : (if c then yes else no).run env state
      = if c then yes.run env state else no.run env state := by
  split <;> rfl

end

namespace Program

variable {ρ σ ε α β : Type}

/-- The laws of a monad, for rewriting inside a program. -/
theorem bind_assoc {γ : Type} (program : Program ρ σ ε α) (next : α → Program ρ σ ε β)
    (last : β → Program ρ σ ε γ)
    : (program >>= next) >>= last = program >>= fun a => next a >>= last := by
  funext env state
  exact andThen_assoc ..

theorem pure_bind (a : α) (next : α → Program ρ σ ε β) : pure a >>= next = next a := by
  funext env state
  exact after_nil _

theorem ite_bind (c : Prop) [Decidable c] (yes no : Program ρ σ ε α) (next : α → Program ρ σ ε β)
    : (if c then yes else no) >>= next = if c then yes >>= next else no >>= next := by
  split <;> rfl

/-- A program on a part of the state. -/
def focus {τ : Type} (part : σ → τ) (put : τ → σ → σ) (program : Program ρ τ ε α)
    : Program ρ σ ε α :=
  fun env state =>
    let out := program.run env (part state)
    { value := out.value, state := put out.state state, log := out.log }

/-- A loop that runs its body for `count` numbers from `i` on. -/
def forRange (body : Nat → Program ρ σ ε Unit) (i : Nat) : Nat → Program ρ σ ε Unit
  | 0 => pure ()
  | count + 1 => do
    body i
    forRange body (i + 1) count

/-- What the body of a loop keeps, the loop keeps, also if the body stops for good. -/
theorem forRange_invariant {body : Nat → Program ρ σ ε Unit} {env : ρ} {inv : σ → Prop}
    (kept : ∀ i state, inv state → inv ((body i).run env state).state)
    {i count : Nat} {state : σ} (initially : inv state)
    : inv ((forRange body i count).run env state).state := by
  induction count generalizing i state with
  | zero => exact initially
  | succ count ih =>
    have once := kept i state initially
    rw [forRange, run_bind]
    generalize (body i).run env state = out at once ⊢
    obtain ⟨value, after, log⟩ := out
    cases value with
    | none => exact once
    | some => exact ih once

/-- Everything that the program logs from this state is `ok`. -/
def Logged (ok : ε → Prop) (program : Program ρ σ ε α) (env : ρ) (state : σ) : Prop :=
  ∀ entry ∈ (program.run env state).log, ok entry

section

variable {ok : ε → Prop} {env : ρ} {state : σ}

/-- A sequence logs what its first part logs and, if that part ends, what the rest logs. -/
theorem logged_bind {program : Program ρ σ ε α} {next : α → Program ρ σ ε β}
    : Logged ok (program >>= next) env state
      ↔ Logged ok program env state
        ∧ ∀ a, (program.run env state).value = some a
          → Logged ok (next a) env (program.run env state).state := by
  simp only [Logged, run_bind]
  generalize program.run env state = out
  obtain ⟨value, after, log⟩ := out
  cases value with
  | none => simp
  | some => simp [or_imp, forall_and]

@[simp]
theorem logged_pure (a : α) : Logged ok (pure a : Program ρ σ ε α) env state :=
  fun _ impossible => nomatch impossible

@[simp]
theorem logged_get : Logged ok (Program.get : Program ρ σ ε σ) env state :=
  fun _ impossible => nomatch impossible

@[simp]
theorem logged_emit (entry : ε)
    : Logged ok (Program.emit entry : Program ρ σ ε Unit) env state ↔ ok entry := by
  simp [Logged]

@[simp]
theorem logged_modify (f : σ → σ)
    : Logged ok (Program.modify f : Program ρ σ ε Unit) env state :=
  fun _ impossible => nomatch impossible

theorem logged_ite (c : Prop) [Decidable c] (yes no : Program ρ σ ε α)
    : Logged ok (if c then yes else no) env state
      ↔ (c → Logged ok yes env state) ∧ (¬ c → Logged ok no env state) := by
  by_cases holds : c <;> simp [holds]

end

end Program

end Library
