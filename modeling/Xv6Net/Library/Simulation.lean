import Mathlib.Data.List.Basic

/-! Machines that answer each operation, and the rule that lifts a relation between two of them
from one operation to a whole run.
-/

namespace Library.Machine

variable {σ τ α ω : Type}

/-- The answers to a list of operations, and the state that they leave. -/
def run (apply : σ → α → ω × σ) : σ → List α → List ω × σ
  | state, [] => ([], state)
  | state, op :: rest =>
    let answer := apply state op
    let later := run apply answer.2 rest
    (answer.1 :: later.1, later.2)

/-- Two machines that answer alike from related states, and stay related, answer every run alike.
-/
theorem run_simulates {apply : σ → α → ω × σ} {apply' : τ → α → ω × τ} {related : σ → τ → Prop}
    (alike
      : ∀ state state' op, related state state'
          → (apply state op).1 = (apply' state' op).1
            ∧ related (apply state op).2 (apply' state' op).2)
    {state : σ} {state' : τ} (start : related state state') (ops : List α)
    : (run apply state ops).1 = (run apply' state' ops).1
      ∧ related (run apply state ops).2 (run apply' state' ops).2 := by
  induction ops generalizing state state' with
  | nil => exact ⟨rfl, start⟩
  | cons op rest ih =>
    obtain ⟨answer, next⟩ := alike state state' op start
    obtain ⟨answers, last⟩ := ih next
    refine ⟨?_, last⟩
    rw [run, run, answer, answers]

end Library.Machine
