import Xv6Net.Kernel.Processes

/-! The tree of the processes: every process has a parent that can wait for it, and nobody sleeps
in `wait` beside a child that has exited.
-/

namespace Xv6Net

open Library Transition Function

/-- The process has been made and has not exited. -/
@[grind]
def ProcState.isAlive : ProcState → Bool
  | .sleeping | .runnable | .running => true
  | _ => false

namespace ProcSys

/-- What holds of the table between any two steps. -/
structure TreeInv (s : ProcSys) : Prop where
  root : (s.procs s.initproc).state.isAlive = true ∧ (s.procs s.initproc).parent = none
  irreflexive : ∀ q, (s.procs q).parent ≠ some q
  unused : ∀ q, (s.procs q).state = .unused →
    (s.procs q).parent = none ∧ (s.procs q).kstack = none
  /-- Only processes that are alive are in a call. -/
  busy : ∀ p, (s.procs p).pc ≠ .user → (s.procs p).state.isAlive = true
  /-- The slot that a call of `fork` has taken. -/
  forking : ∀ p np stage, (s.procs p).pc = .forking np stage →
    (s.procs np).state = .embryo
    ∧ (s.procs np).parent = (if stage = .publish then some p else none)
    ∧ ((s.procs np).kstack = none ↔ stage = .kstack)
  once : ∀ p p' np stage stage', (s.procs p).pc = .forking np stage
    → (s.procs p').pc = .forking np stage' → p = p'
  child : ∀ q, (s.procs q).state.isAlive = true ∨ (s.procs q).state = .zombie →
    q ≠ s.initproc → (s.procs q).parent ≠ none
  parents : ∀ q parent, (s.procs q).state.isAlive = true ∨ (s.procs q).state = .zombie →
    (s.procs q).parent = some parent → (s.procs parent).state.isAlive = true
  waiters : ∀ p, (s.procs p).state = .sleeping → (s.procs p).pc = .inWait
    → (s.procs p).chan = some (.proc p)
      ∧ ∀ c, (s.procs c).parent = some p → (s.procs c).state ≠ .zombie

variable {s s' : ProcSys} {p np q : ProcSlot}

/-- What scheduling, sleeping, waking up and killing do to a slot. -/
structure Neutral (e e' : ProcEntry) : Prop where
  parent : e'.parent = e.parent
  kstack : e'.kstack = e.kstack
  pc : e'.pc = e.pc
  state : e'.state = e.state ∨ (e.state.isAlive = true ∧ e'.state.isAlive = true)
  waits : e'.state = .sleeping → e.pc = .inWait → e.state = .sleeping ∧ e'.chan = e.chan

/-- The invariant looks at no more of a slot than such a step keeps. -/
theorem TreeInv.neutral (inv : TreeInv s) (init : s'.initproc = s.initproc)
    (each : ∀ q, Neutral (s.procs q) (s'.procs q))
    : TreeInv s' := by
  obtain ⟨root, irreflexive, unused, busy, forking, once, child, parents, waiters⟩ := inv
  have same (q : ProcSlot) : (s'.procs q).parent = (s.procs q).parent
      ∧ (s'.procs q).kstack = (s.procs q).kstack ∧ (s'.procs q).pc = (s.procs q).pc :=
    ⟨(each q).parent, (each q).kstack, (each q).pc⟩
  have state := fun q => (each q).state
  have waits := fun q => (each q).waits
  constructor <;> grind -linarith

/-- `wait` clears the slot of a child that has exited. -/
theorem TreeInv.reap (inv : TreeInv s) (running : (s.procs p).state = .running)
    (zombie : (s.procs q).state = .zombie)
    : TreeInv (s.reap p q) := by
  obtain ⟨root, irreflexive, unused, busy, forking, once, child, parents, waiters⟩ := inv
  unfold ProcSys.reap kfree return_
  constructor <;> grind -linarith

/-- A call returns, and the process goes on. -/
theorem TreeInv.returned (inv : TreeInv s) (running : (s.procs p).state = .running) (value : Int32)
    : TreeInv (s.return_ p value) := by
  obtain ⟨root, irreflexive, unused, busy, forking, once, child, parents, waiters⟩ := inv
  unfold return_
  constructor <;> grind -linarith

/-- `wait` clears the slot of a child, returns, or goes to sleep where no child has exited. -/
theorem TreeInv.waitLoop (inv : TreeInv s) (running : (s.procs p).state = .running)
    : TreeInv (s.waitLoop p) := by
  unfold ProcSys.waitLoop
  cases found : s.findZombie p with
  | some q => exact inv.reap running (zombie_of_findZombie found).2
  | none =>
    have children := fun q => findZombie_eq_none (q := q) found
    dsimp only
    split
    · exact inv.returned running _
    · obtain ⟨root, irreflexive, unused, busy, forking, once, child, parents, waiters⟩ := inv
      constructor <;> grind -linarith

/-- `fork` takes an empty slot, which nobody else has. -/
theorem TreeInv.allocproc (inv : TreeInv s) (running : (s.procs p).state = .running)
    : TreeInv (s.allocproc p) := by
  unfold ProcSys.allocproc
  cases found : s.findUnused with
  | none => exact inv.returned running _
  | some np =>
    obtain ⟨root, irreflexive, unused, busy, forking, once, child, parents, waiters⟩ := inv
    have free := unused_of_findUnused found
    have empty := unused np free
    constructor <;> grind -linarith

/-- The slot gets its stack, or is given back. -/
theorem TreeInv.allocKstack (inv : TreeInv s) (running : (s.procs p).state = .running)
    (outside : (s.procs p).pc = .forking np .kstack) (ok : Bool)
    : TreeInv (s.allocKstack p np ok) := by
  obtain ⟨root, irreflexive, unused, busy, forking, once, child, parents, waiters⟩ := inv
  have embryo := forking p np .kstack outside
  unfold ProcSys.allocKstack return_
  cases ok <;> constructor <;> grind -linarith

/-- The slot becomes a child, or is given back without its stack. -/
theorem TreeInv.copyProc (inv : TreeInv s) (running : (s.procs p).state = .running)
    (outside : (s.procs p).pc = .forking np .copy) (ok : Bool)
    : TreeInv (s.copyProc p np ok) := by
  obtain ⟨root, irreflexive, unused, busy, forking, once, child, parents, waiters⟩ := inv
  have embryo := forking p np .copy outside
  unfold ProcSys.copyProc return_ kfree
  cases ok <;> constructor <;> grind -linarith

/-- The child starts, with a parent that is running. -/
theorem TreeInv.publish (inv : TreeInv s) (running : (s.procs p).state = .running)
    (outside : (s.procs p).pc = .forking np .publish)
    : TreeInv (s.publish p np) := by
  obtain ⟨root, irreflexive, unused, busy, forking, once, child, parents, waiters⟩ := inv
  have embryo := forking p np .publish outside
  unfold ProcSys.publish return_
  constructor <;> grind -linarith

/-- A process exits: `init` takes its children, and those who could wait for them are awake. -/
theorem TreeInv.exit (inv : TreeInv s) (running : (s.procs p).state = .running)
    (outside : (s.procs p).pc = .user) (other : s.initproc ≠ p)
    : TreeInv (s.exit p) := by
  obtain ⟨root, irreflexive, unused, busy, forking, once, child, parents, waiters⟩ := inv
  have woken (q : ProcSlot) (there : (s.procs q).chan = some (.proc q))
      (wakes : s.wakes p q = false)
      : (s.procs p).parent ≠ some q
        ∧ (q = s.initproc → ∀ c, (s.procs c).parent = some p → (s.procs c).state ≠ .zombie) := by
    refine ⟨fun mine => ?_, ?_⟩
    · exact nomatch wakes.symm.trans (wakes_parent mine there)
    · rintro rfl c mine gone
      exact nomatch wakes.symm.trans (wakes_init ⟨mine, gone⟩ there)
  rw [exit_eq other]
  constructor <;> grind -linarith [exited]

/-- Every step keeps the invariant, by one lemma for each call. -/
theorem TreeInv.step (inv : TreeInv s) {action : ProcAction} (taken : s.step action = some s')
    : TreeInv s' := by
  cases action with
  | schedule p =>
    obtain ⟨runnable, rfl⟩ := guarded taken
    have inv' : TreeInv (s.dispatch p) := inv.neutral rfl fun q => by
      unfold dispatch
      constructor <;> grind -linarith
    unfold schedule
    split
    · exact inv'.waitLoop (by grind -linarith [dispatch])
    · exact inv'
  | yield p =>
    obtain ⟨running, rfl⟩ := guarded taken
    exact inv.neutral rfl fun q => by constructor <;> grind -linarith
  | fork p =>
    obtain ⟨⟨running, _⟩, rfl⟩ := guarded taken
    exact inv.allocproc running
  | kalloc p ok =>
    obtain ⟨np, forking, running, rfl⟩ := step_kalloc taken
    exact inv.allocKstack running forking ok
  | copyuvm p ok =>
    obtain ⟨np, forking, running, rfl⟩ := step_copyuvm taken
    exact inv.copyProc running forking ok
  | publish p =>
    obtain ⟨np, forking, running, rfl⟩ := step_publish taken
    exact inv.publish running forking
  | exit p =>
    obtain ⟨⟨running, outside, other⟩, rfl⟩ := guarded taken
    exact inv.exit running outside other.symm
  | wait =>
    obtain ⟨allowed, rfl⟩ := guarded taken
    exact inv.waitLoop allowed.1
  | sleep p =>
    obtain ⟨running, rfl⟩ := guarded taken
    exact inv.neutral rfl fun q => by constructor <;> grind -linarith
  | wakeup chan =>
    cases taken
    exact inv.neutral rfl fun q => by constructor <;> grind -linarith
  | kill pid =>
    cases taken
    unfold kill
    split
    · exact inv.neutral rfl fun q => by constructor <;> grind -linarith
    · exact inv.neutral rfl fun q => by constructor <;> grind -linarith
  | trap p =>
    obtain ⟨_, rfl⟩ := guarded taken
    exact inv.neutral rfl fun q => by constructor <;> grind -linarith

/-- The table after `userinit`. -/
theorem boot_slots : ∀ q, (boot.procs q).parent = none ∧ (boot.procs q).pc = .user
    ∧ (q ≠ 0 → (boot.procs q).state = .unused ∧ (boot.procs q).kstack = none) := by
  intro q
  simp only [boot, update_apply]
  split
  · exact ⟨rfl, rfl, fun other => absurd ‹_› other⟩
  · exact ⟨rfl, rfl, fun _ => ⟨rfl, rfl⟩⟩

/-- `init` is alone at first. -/
theorem TreeInv.boot : TreeInv boot := by
  have slots := boot_slots
  have init : ProcSys.boot.initproc = 0 := rfl
  have first_ : (ProcSys.boot.procs 0).state = .runnable := rfl
  constructor <;> grind -linarith

end ProcSys

end Xv6Net
