import Xv6Net.Kernel.ProcessTree
import Xv6Net.Library.Lifecycle
import Xv6Net.Library.Ownership

/-! The life of a process: it exits once, one call of `wait` by its parent returns it, and its
stack and page table are freed there.
-/

namespace Xv6Net

open Library Transition Function

/-- A process that has been made and not been waited for. -/
def ProcState.Present (state : ProcState) : Prop :=
  state = .runnable ∨ state = .running ∨ state = .sleeping ∨ state = .zombie

/-- The child of the process that has waited is gone, and its stack and page table with it. -/
def Reap.Settled (freed : List Nat) (r : Reap) : Prop :=
  r.parent = some r.waiter
  ∧ ∃ k d, r.kstack = some k ∧ r.pgdir = some d ∧ k ≠ d ∧ k ∈ freed ∧ d ∈ freed

/-- What has been freed stays so. -/
theorem Reap.Settled.more {freed : List Nat} {r : Reap} (settled : r.Settled freed)
    (more : List Nat)
    : r.Settled (freed ++ more) := by
  obtain ⟨waiter, k, d, stack, dir, apart, gone, gone'⟩ := settled
  exact ⟨waiter, k, d, stack, dir, apart, List.mem_append_left _ gone,
    List.mem_append_left _ gone'⟩

namespace ProcSys

/-- Which process is in the slot. -/
@[grind]
def life (s : ProcSys) (h : ProcHistory) (q : ProcSlot) : Life :=
  if (s.procs q).state = .unused then .absent
  else if (s.procs q).state = .zombie then .ended (h.serial q)
  else .going (h.serial q)

inductive Page where
  | stack
  | dir
deriving DecidableEq

/-- The slot has its own page table: before `fork` has copied one, `pgdir` is what the last process
has left there.
-/
@[grind]
def HasDir (s : ProcSys) (q : ProcSlot) : Prop :=
  (s.procs q).state ≠ .unused ∧ (q = s.initproc ∨ (s.procs q).parent ≠ none)

instance (s : ProcSys) (q : ProcSlot) : Decidable (s.HasDir q) :=
  inferInstanceAs (Decidable (_ ∧ _))

/-- The stack and the page table of a slot. -/
@[grind]
def pages (s : ProcSys) : ProcSlot × Page → Option Nat
  | (q, .stack) => (s.procs q).kstack
  | (q, .dir) => if s.HasDir q then (s.procs q).pgdir else none

/-- What holds of the processes that have exited and of the memory. -/
structure LifeInv (s : ProcSys) (h : ProcHistory) : Prop where
  lifecycle : Lifecycle (s.life h) h.created h.exits (h.reaps.map Reap.child)
  memory : Allotted s.pages s.objects s.freed
  complete : ∀ q, s.HasDir q → (s.procs q).kstack ≠ none ∧ (s.procs q).pgdir ≠ none
  reaped : ∀ r ∈ h.reaps, r.Settled s.freed

variable {s s' : ProcSys} {h h' : ProcHistory} {p np q : ProcSlot}

/-- The parts of the invariant in the next state, up to what is in the slots. -/
theorem LifeInv.next {lives : ProcSlot → Life} {held : ProcSlot × Page → Option Nat}
    (lifecycle : Lifecycle lives h'.created h'.exits (h'.reaps.map Reap.child))
    (memory : Allotted held s'.objects s'.freed)
    (reaped : ∀ r ∈ h'.reaps, r.Settled s'.freed)
    (same : ∀ q, s'.life h' q = lives q) (same' : ∀ q, (s'.procs q).kstack = held (q, .stack)
      ∧ (if s'.HasDir q then (s'.procs q).pgdir else none) = held (q, .dir))
    (complete : ∀ q, s'.HasDir q → (s'.procs q).kstack ≠ none ∧ (s'.procs q).pgdir ≠ none)
    : LifeInv s' h' := by
  have all : s'.pages = held := by
    funext ⟨q, page⟩
    cases page with
    | stack => exact (same' q).1
    | dir => exact (same' q).2
  exact ⟨(funext same) ▸ lifecycle, all ▸ memory, complete, reaped⟩

/-- `fork` creates the next process, without memory. -/
theorem LifeInv.allocproc (inv : LifeInv s h) (tree : TreeInv s)
    (running : (s.procs p).state = .running)
    : LifeInv (s.allocproc p) (s.note (.fork p) h) := by
  obtain ⟨lifecycle, memory, complete, reaped⟩ := inv
  simp only [ProcSys.allocproc, note]
  cases found : s.findUnused with
  | none =>
    unfold return_
    refine .next lifecycle memory reaped ?_ ?_ ?_ <;> grind
  | some np =>
    have free := unused_of_findUnused found
    have empty := tree.unused np free
    have root := tree.root
    have absent : s.life h np = .absent := by grind
    unfold ProcHistory.create
    refine .next (lifecycle.create absent) memory reaped ?_ ?_ ?_ <;> grind

/-- A new stack is nobody else's; without one the process is abandoned. -/
theorem LifeInv.allocKstack (inv : LifeInv s h) (tree : TreeInv s)
    (running : (s.procs p).state = .running)
    (forking : (s.procs p).pc = .forking np .kstack) (ok : Bool)
    : LifeInv (s.allocKstack p np ok) h := by
  obtain ⟨lifecycle, memory, complete, reaped⟩ := inv
  have embryo := tree.forking p np .kstack forking
  have free : s.pages (np, .stack) = none := by grind
  unfold ProcSys.allocKstack return_
  cases ok with
  | true => refine .next lifecycle (memory.take free) reaped ?_ ?_ ?_ <;> grind
  | false =>
    have going : s.life h np = .going (h.serial np) := by grind
    refine .next (lifecycle.abandon going) memory reaped ?_ ?_ ?_ <;> grind

/-- A new page table is nobody else's; without one the stack is freed again. -/
theorem LifeInv.copyProc (inv : LifeInv s h) (tree : TreeInv s)
    (running : (s.procs p).state = .running)
    (forking : (s.procs p).pc = .forking np .copy) (ok : Bool)
    : LifeInv (s.copyProc p np ok) h := by
  obtain ⟨lifecycle, memory, complete, reaped⟩ := inv
  have embryo := tree.forking p np .copy forking
  have root := tree.root
  unfold ProcSys.copyProc return_ kfree
  cases ok with
  | true =>
    have free : s.pages (np, .dir) = none := by grind
    refine .next lifecycle (memory.take free) reaped ?_ ?_ ?_ <;> grind
  | false =>
    have going : s.life h np = .going (h.serial np) := by grind
    refine .next (lifecycle.abandon going) (memory.drop (np, .stack))
      (fun r mem => (reaped r mem).more _) ?_ ?_ ?_ <;> grind

/-- The child has its stack and page table before it starts. -/
theorem LifeInv.publish (inv : LifeInv s h) (tree : TreeInv s)
    (running : (s.procs p).state = .running)
    (forking : (s.procs p).pc = .forking np .publish)
    : LifeInv (s.publish p np) h := by
  obtain ⟨lifecycle, memory, complete, reaped⟩ := inv
  have embryo := tree.forking p np .publish forking
  unfold ProcSys.publish return_
  refine .next lifecycle memory reaped ?_ ?_ ?_ <;> grind

/-- A process that exits keeps its memory until it is waited for. -/
theorem LifeInv.exit (inv : LifeInv s h) (running : (s.procs p).state = .running)
    (other : s.initproc ≠ p)
    : LifeInv (s.exit p) { h with exits := h.exits ++ [h.serial p] } := by
  obtain ⟨lifecycle, memory, complete, reaped⟩ := inv
  have going : s.life h p = .going (h.serial p) := by grind
  rw [exit_eq other]
  refine .next (lifecycle.finish going) memory reaped ?_ ?_ ?_ <;> grind [exited]

/-- `wait` collects a process that has exited and frees its stack and page table. -/
theorem LifeInv.waitLoop (inv : LifeInv s h) (running : (s.procs p).state = .running)
    : LifeInv (s.waitLoop p) (h.wait s p) := by
  obtain ⟨lifecycle, memory, complete, reaped⟩ := inv
  unfold ProcSys.waitLoop ProcHistory.wait
  cases found : s.findZombie p with
  | none =>
    unfold return_
    dsimp only
    split <;> refine .next lifecycle memory reaped ?_ ?_ ?_ <;> grind
  | some q =>
    obtain ⟨child, zombie⟩ := zombie_of_findZombie found
    have apart : q ≠ p := by grind
    have ended : s.life h q = .ended (h.serial q) := by grind
    have has : s.HasDir q := by grind
    have dir : s.pages (q, .dir) = (s.procs q).pgdir := if_pos has
    have dropped := (memory.drop (q, .stack)).drop (q, .dir)
    rw [update_of_ne (by simp), dir] at dropped
    have collected := lifecycle.collect ended
    obtain ⟨k, stack_⟩ := Option.ne_none_iff_exists'.mp (complete q has).1
    obtain ⟨d, dir_⟩ := Option.ne_none_iff_exists'.mp (complete q has).2
    unfold ProcSys.reap ProcHistory.reap kfree return_
    refine .next (by rw [List.map_append]; exact collected) dropped ?_ ?_ ?_ ?_
    · intro r mem
      rcases List.mem_append.mp mem with before | now
      · exact ((reaped r before).more _).more _
      · rw [List.mem_singleton.mp now]
        refine ⟨child, k, d, stack_, dir_, ?_, ?_, ?_⟩
        · rintro rfl
          cases memory.distinct (i := (q, .stack)) (j := (q, .dir)) stack_ (dir.trans dir_)
        · simp [set, stack_]
        · simp [set, dir_]
    · grind
    · intro r
      by_cases there : r = q
      · grind
      · grind
    · grind

/-- A step that changes no process and no memory. -/
theorem LifeInv.same (inv : LifeInv s h) (init : s'.initproc = s.initproc)
    (memory : s'.objects = s.objects ∧ s'.freed = s.freed)
    (each : ∀ q, (s'.procs q).parent = (s.procs q).parent ∧ (s'.procs q).kstack = (s.procs q).kstack
      ∧ (s'.procs q).pgdir = (s.procs q).pgdir ∧ ((s'.procs q).state = (s.procs q).state
        ∨ (s.procs q).state.isAlive = true ∧ (s'.procs q).state.isAlive = true))
    : LifeInv s' h := by
  obtain ⟨lifecycle, memory', complete, reaped⟩ := inv
  rw [← memory.1, ← memory.2] at memory'
  rw [← memory.2] at reaped
  refine .next lifecycle memory' reaped ?_ ?_ ?_ <;> grind

/-- The requests to kill do not matter. -/
theorem LifeInv.requests (inv : LifeInv s h) (requests : List KillRequest)
    : LifeInv s { h with requests } :=
  ⟨inv.lifecycle, inv.memory, inv.complete, inv.reaped⟩

/-- Every step keeps the invariant, by one lemma for each call. -/
theorem LifeInv.step (inv : LifeInv s h) (tree : TreeInv s) {action : ProcAction}
    (taken : s.step action = some s')
    : LifeInv s' (s.note action h) := by
  cases action with
  | schedule p =>
    obtain ⟨runnable, rfl⟩ := guarded taken
    have inv' : LifeInv (s.dispatch p) h := inv.same rfl ⟨rfl, rfl⟩ (by grind [dispatch])
    simp only [schedule, note]
    split
    · exact inv'.waitLoop (by grind [dispatch])
    · exact inv'
  | yield p =>
    obtain ⟨running, rfl⟩ := guarded taken
    exact inv.same rfl ⟨rfl, rfl⟩ (by grind)
  | fork p =>
    obtain ⟨⟨running, _⟩, rfl⟩ := guarded taken
    exact inv.allocproc tree running
  | kalloc p ok =>
    obtain ⟨np, forking, running, rfl⟩ := step_kalloc taken
    exact inv.allocKstack tree running forking ok
  | copyuvm p ok =>
    obtain ⟨np, forking, running, rfl⟩ := step_copyuvm taken
    exact inv.copyProc tree running forking ok
  | publish p =>
    obtain ⟨np, forking, running, rfl⟩ := step_publish taken
    exact inv.publish tree running forking
  | exit p =>
    obtain ⟨⟨running, _, other⟩, rfl⟩ := guarded taken
    exact inv.exit running other.symm
  | wait =>
    obtain ⟨allowed, rfl⟩ := guarded taken
    exact inv.waitLoop allowed.1
  | sleep p =>
    obtain ⟨running, rfl⟩ := guarded taken
    exact inv.same rfl ⟨rfl, rfl⟩ (by grind)
  | wakeup chan =>
    cases taken
    exact inv.same rfl ⟨rfl, rfl⟩ (by grind)
  | kill pid =>
    cases taken
    refine LifeInv.requests ?_ _
    unfold kill
    split
    · exact inv.same rfl ⟨rfl, rfl⟩ (by grind)
    · exact inv.same rfl ⟨rfl, rfl⟩ (by grind)
  | trap p =>
    obtain ⟨_, rfl⟩ := guarded taken
    refine LifeInv.requests ?_ _
    exact inv.same rfl ⟨rfl, rfl⟩ (by grind)

/-- The first process is number 0. -/
theorem boot_life : life boot .boot = update (fun _ => Life.absent) 0 (.going 0) := by
  have slots := boot_slots
  funext q
  by_cases first_ : q = 0
  · subst first_
    rfl
  · grind

/-- It has the first two objects. -/
theorem boot_pages
    : boot.pages = update
        (update (fun _ => none) (0, Page.stack) (some 0)) (0, Page.dir) (some 1) := by
  have slots := boot_slots
  funext ⟨q, page⟩
  by_cases first_ : q = 0
  · subst first_
    cases page <;> rfl
  · cases page <;> grind

/-- The invariant holds after `userinit`. -/
theorem LifeInv.boot : LifeInv boot .boot := by
  have slots := boot_slots
  refine ⟨?_, ?_, ?_, nofun⟩
  · rw [boot_life]
    exact Lifecycle.empty.create rfl
  · rw [boot_pages]
    exact (Allotted.empty.take rfl).take rfl
  · intro q has
    have first_ : q = 0 := by grind
    rw [first_]
    exact ⟨nofun, nofun⟩

/-- A call of `wait` by `p` returns a child of it that has exited. -/
def WaitReturns (s : ProcSys) (p : ProcSlot) : Prop :=
  ∃ q, (s.procs q).parent = some p ∧ (s.procs q).state = .zombie ∧ s.waitLoop p = s.reap p q

/-- The life of every process is in order. -/
structure LifecycleOk (s : ProcSys) (h : ProcHistory) : Prop where
  /-- Every process but `init` has a parent that is there and has not exited. -/
  parents : ∀ q, (s.procs q).state.Present → q ≠ s.initproc →
    ∃ parent, (s.procs q).parent = some parent
      ∧ (s.procs parent).state ≠ .unused ∧ (s.procs parent).state ≠ .zombie
  /-- Every process that has exited, has exited once, and one call of `wait` has returned it, or it
  is in the table and `wait` in its parent returns. -/
  returned : ∀ n ∈ h.exits, h.exits.count n = 1
    ∧ ((h.reaps.map Reap.child).count n = 1
      ∨ (h.reaps.map Reap.child).count n = 0
        ∧ ∃ q parent, (s.procs q).state = .zombie ∧ h.serial q = n
          ∧ (s.procs q).parent = some parent ∧ s.WaitReturns parent)
  /-- What `wait` returns has exited and was a child of the caller, and its stack and page table
  were freed then, and only then. -/
  reaped : ∀ r ∈ h.reaps, r.child ∈ h.exits ∧ r.parent = some r.waiter
    ∧ ∃ k d, r.kstack = some k ∧ r.pgdir = some d ∧ k ≠ d
      ∧ s.freed.count k = 1 ∧ s.freed.count d = 1
  /-- Until then they are kept. -/
  kept : ∀ q, (s.procs q).state.Present →
    ∃ k d, (s.procs q).kstack = some k ∧ (s.procs q).pgdir = some d
      ∧ k ∉ s.freed ∧ d ∉ s.freed
  /-- Nobody sleeps in `wait` beside a child that has exited. -/
  asleep : ∀ p, (s.procs p).state = .sleeping → (s.procs p).pc = .inWait →
    ∀ c, (s.procs c).parent = some p → (s.procs c).state ≠ .zombie

/-- `wait` returns in the parent of a process that has exited. -/
theorem waitReturns_of_zombie (zombie : (s.procs q).state = .zombie)
    (child : (s.procs q).parent = some p)
    : s.WaitReturns p := by
  cases found : s.findZombie p with
  | none => exact absurd zombie (findZombie_eq_none found child)
  | some first_ =>
    obtain ⟨mine, gone⟩ := zombie_of_findZombie found
    exact ⟨first_, mine, gone, by rw [ProcSys.waitLoop, found]⟩

/-- A process that has been made has its own page table. -/
theorem TreeInv.hasDir (tree : TreeInv s) (present : (s.procs q).state.Present) : s.HasDir q := by
  have child := tree.child q
  rcases present with state | state | state | state <;> grind

/-- The two invariants give what is to be shown, part by part. -/
theorem LifeInv.lifecycleOk (inv : LifeInv s h) (tree : TreeInv s)
    : LifecycleOk s h := by
  refine ⟨?_, ?_, ?_, ?_, fun p asleep waits => (tree.waiters p asleep waits).2⟩
  · intro q present other
    have here : (s.procs q).state.isAlive = true ∨ (s.procs q).state = .zombie := by
      rcases present with state | state | state | state <;> grind
    obtain ⟨parent, there⟩ := Option.ne_none_iff_exists'.mp (tree.child q here other)
    have alive := tree.parents q parent here there
    exact ⟨parent, there, by grind, by grind⟩
  · intro n exited
    refine ⟨List.count_eq_one_of_mem inv.lifecycle.ends_once exited, ?_⟩
    by_cases gone : n ∈ h.reaps.map Reap.child
    · exact Or.inl (List.count_eq_one_of_mem inv.lifecycle.collected_once gone)
    · obtain ⟨q, ended⟩ := (inv.lifecycle.pending n exited).resolve_left gone
      have root := tree.root
      obtain ⟨zombie, serial⟩ : (s.procs q).state = .zombie ∧ h.serial q = n := by grind
      obtain ⟨parent, there⟩ :=
        Option.ne_none_iff_exists'.mp (tree.child q (Or.inr zombie) (by grind))
      exact Or.inr ⟨List.count_eq_zero.mpr gone, q, parent, zombie, serial, there,
        waitReturns_of_zombie zombie there⟩
  · intro r mem
    obtain ⟨waiter, k, d, stack, dir, apart, gone, gone'⟩ := inv.reaped r mem
    refine ⟨(inv.lifecycle.collected_ended _ (List.mem_map_of_mem mem)).1, waiter, k, d, stack, dir,
      apart, ?_, ?_⟩
    · exact List.count_eq_one_of_mem inv.memory.once gone
    · exact List.count_eq_one_of_mem inv.memory.once gone'
  · intro q present
    have has := tree.hasDir present
    obtain ⟨k, stack⟩ := Option.ne_none_iff_exists'.mp (inv.complete q has).1
    obtain ⟨d, dir⟩ := Option.ne_none_iff_exists'.mp (inv.complete q has).2
    refine ⟨k, d, stack, dir, ?_, ?_⟩
    · exact inv.memory.apart (i := (q, .stack)) stack
    · exact inv.memory.apart (i := (q, .dir)) ((if_pos has).trans dir)

end ProcSys

end Xv6Net
