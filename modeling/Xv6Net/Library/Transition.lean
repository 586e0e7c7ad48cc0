import Mathlib.Data.Option.Basic

/-! Runs of a partial step function, and the rules that lift a fact about one step to
every state a run visits. A run is a list of actions; an action that is not enabled ends it.
-/

namespace Library.Transition

variable {σ α : Type} (step : σ → α → Option σ)

/-- The state after taking every action of the list, if each of them is enabled. -/
def exec : σ → List α → Option σ
  | state, [] => some state
  | state, action :: rest => (step state action).bind (fun next => exec next rest)

/-- Each action of the run meets `guard` in the state in which it is taken. -/
def Along (guard : σ → α → Prop) : σ → List α → Prop
  | _, [] => True
  | state, action :: rest =>
    guard state action
    ∧ ∀ next, step state action = some next → Along guard next rest

/-- Every state that the run visits, the first one included, satisfies `good`. -/
def Throughout (good : σ → Prop) : σ → List α → Prop
  | state, [] => good state
  | state, action :: rest =>
    good state
    ∧ ∀ next, step state action = some next → Throughout good next rest

/-- The system beside a history variable; `note` says what an action adds to the history. -/
def withHistory {γ : Type} (note : σ → α → γ → γ) (current : σ × γ) (action : α)
    : Option (σ × γ) :=
  (step current.1 action).map fun next => (next, note current.1 action current.2)

/-- A step is a function of the state, so what holds along a run can be computed. -/
instance decidableAlong (guard : σ → α → Prop) [∀ state action, Decidable (guard state action)]
    : ∀ (state : σ) (actions : List α), Decidable (Along step guard state actions)
  | _, [] => isTrue trivial
  | state, action :: rest =>
    have : Decidable (∀ next, step state action = some next → Along step guard next rest) :=
      match step state action with
      | none => isTrue fun _ impossible => nomatch impossible
      | some next =>
        match decidableAlong guard next rest with
        | isTrue holds => isTrue fun _ same => Option.some.inj same ▸ holds
        | isFalse fails => isFalse fun all => fails (all next rfl)
    inferInstanceAs (Decidable (_ ∧ _))

variable {step}

@[simp]
theorem exec_nil (state : σ) : exec step state [] = some state :=
  rfl

@[simp]
theorem exec_cons (state : σ) (action : α) (rest : List α)
    : exec step state (action :: rest)
      = (step state action).bind (fun next => exec step next rest) :=
  rfl

/-- A step that is taken meets its guard. -/
theorem guarded {guard : Prop} [Decidable guard] {reached next : σ}
    (taken : (if guard then some reached else none) = some next) : guard ∧ reached = next := by
  obtain ⟨holds, same⟩ := Option.ite_none_right_eq_some.mp taken
  exact ⟨holds, Option.some.inj same⟩

theorem withHistory_eq_some {γ : Type} {note : σ → α → γ → γ} {current next : σ × γ}
    {action : α} (taken : withHistory step note current action = some next)
    : step current.1 action = some next.1 ∧ next.2 = note current.1 action current.2 := by
  obtain ⟨reached, stepped, rfl⟩ := Option.map_eq_some_iff.mp taken
  exact ⟨stepped, rfl⟩

variable {state : σ} {actions : List α} {guard : σ → α → Prop} {inv : σ → Prop}

/-- The last state of a completed run is one of the states it visits. -/
theorem Throughout.finish {good : σ → Prop} {final : σ} (h : Throughout step good state actions)
    (run : exec step state actions = some final)
    : good final := by
  induction actions generalizing state with
  | nil =>
    have same : state = final := Option.some.inj run
    exact same ▸ h
  | cons action rest ih =>
    obtain ⟨next, taken, later⟩ := Option.bind_eq_some_iff.mp run
    exact ih (h.2 next taken) later

theorem Throughout.mono {good better : σ → Prop} (h : Throughout step good state actions)
    (weaken : ∀ current, good current → better current)
    : Throughout step better state actions := by
  induction actions generalizing state with
  | nil => exact weaken state h
  | cons action rest ih =>
    exact ⟨weaken state h.1, fun next taken => ih (h.2 next taken)⟩

theorem Along.mono {weaker : σ → α → Prop} (h : Along step guard state actions)
    (weaken : ∀ current action, guard current action → weaker current action)
    : Along step weaker state actions := by
  induction actions generalizing state with
  | nil => trivial
  | cons action rest ih =>
    exact ⟨weaken state action h.1, fun next taken => ih (h.2 next taken)⟩

/-- A guard on the actions alone can be checked on the list. -/
theorem Along.of_forall {allowed : α → Prop} (h : ∀ action ∈ actions, allowed action) (state : σ)
    : Along step (fun _ action => allowed action) state actions := by
  induction actions generalizing state with
  | nil => trivial
  | cons action rest ih =>
    exact ⟨h action List.mem_cons_self,
      fun next _ => ih (fun other member => h other (List.mem_cons_of_mem action member)) next⟩

theorem exec_append (state : σ) (actions more : List α)
    : exec step state (actions ++ more)
      = (exec step state actions).bind (fun next => exec step next more) := by
  induction actions generalizing state with
  | nil => rfl
  | cons action rest ih => simp [ih, Option.bind_assoc]

/-- The guard holds of an action where a run takes it. -/
theorem Along.reached {final : σ} {rest : List α} {action : α}
    (h : Along step guard state (actions ++ action :: rest))
    (run : exec step state actions = some final)
    : guard final action := by
  induction actions generalizing state with
  | nil =>
    have same : state = final := Option.some.inj run
    exact same ▸ h.1
  | cons first others ih =>
    obtain ⟨next, taken, later⟩ := Option.bind_eq_some_iff.mp run
    exact ih (h.2 next taken) later

theorem Along.and {other : σ → α → Prop} (h : Along step guard state actions)
    (also : Along step other state actions)
    : Along step (fun current action => guard current action ∧ other current action) state
        actions := by
  induction actions generalizing state with
  | nil => trivial
  | cons action rest ih =>
    exact ⟨⟨h.1, also.1⟩, fun next taken => ih (h.2 next taken) (also.2 next taken)⟩

/-- The invariant rule: what holds at the start and is kept by every guarded step holds in
every state of a run whose steps all meet the guard.
-/
theorem Along.invariant (h : Along step guard state actions) (initially : inv state)
    (kept
      : ∀ current action next,
          inv current
          → guard current action
          → step current action = some next
          → inv next)
    : Throughout step inv state actions := by
  induction actions generalizing state with
  | nil => exact initially
  | cons action rest ih =>
    refine ⟨initially, fun next taken => ?_⟩
    exact ih (h.2 next taken) (kept state action next initially h.1 taken)

/-- The invariant rule for runs without a guard. -/
theorem Throughout.invariant (initially : inv state)
    (kept : ∀ current action next, inv current → step current action = some next → inv next)
    (actions : List α)
    : Throughout step inv state actions := by
  induction actions generalizing state with
  | nil => exact initially
  | cons action rest ih =>
    exact ⟨initially, fun next taken => ih (kept state action next initially taken)⟩

/-- What an invariant implies about the steps taken from its states holds at each step of a guarded
run.
-/
theorem Along.strengthen {stronger : σ → α → Prop} (h : Along step guard state actions)
    (initially : inv state)
    (kept
      : ∀ current action next,
          inv current
          → guard current action
          → step current action = some next
          → inv next)
    (implies
      : ∀ current action, inv current → guard current action → stronger current action)
    : Along step stronger state actions := by
  induction actions generalizing state with
  | nil => trivial
  | cons action rest ih =>
    refine ⟨implies state action initially h.1, fun next taken => ?_⟩
    exact ih (h.2 next taken) (kept state action next initially h.1 taken)

end Library.Transition
