import Xv6Net.Kernel.State
import Xv6Net.Library.Transition

/-! The process table of `proc.c`: `fork`, `exit`, `wait`, `kill`, sleeping and scheduling by any
number of processes. Each section that holds `ptable.lock` is one step; `fork` leaves the lock
between its parts, so that others may run in between.
-/

namespace Xv6Net

open Library Transition Function

/-! ### State -/

/-- A slot of `ptable.proc`; a `struct proc *` is a slot. -/
abbrev ProcSlot := Fin nProc

/-- What a process sleeps on: a process (in `wait`), or anything else. -/
inductive ProcChan where
  | proc (p : ProcSlot)
  | other (chan : Nat)
deriving DecidableEq

/-- How far `fork` has come: before `kalloc` in `allocproc`, before `copyuvm`, or before the child
is made runnable.
-/
inductive ForkStage where
  | kstack
  | copy
  | publish
deriving DecidableEq

/-- Where a process is: outside of the calls below, in `fork`, or asleep in `wait`. -/
inductive ProcPc where
  | user
  | forking (np : ProcSlot) (stage : ForkStage)
  | inWait
deriving DecidableEq

/-- `struct proc`, with the place of its kernel thread. -/
@[ext]
structure ProcEntry where
  state : ProcState
  pid : Int32
  parent : Option ProcSlot
  chan : Option ProcChan
  killed : Bool
  kstack : Option Nat
  pgdir : Option Nat
  pc : ProcPc

/-- The table, `nextpid` and `initproc`, the allocator, and what the last call to end returned. The
allocator numbers stacks and page tables as it hands them out, and lists those it gets back.
-/
structure ProcSys where
  procs : ProcSlot → ProcEntry
  nextpid : Int32
  initproc : ProcSlot
  objects : Nat
  freed : List Nat
  result : Option Int32

/-- The steps of the processes, and `wakeup` and `kill` by anyone. `ok` says whether there is
memory.
-/
inductive ProcAction where
  | schedule (p : ProcSlot)
  | yield (p : ProcSlot)
  | fork (p : ProcSlot)
  | kalloc (p : ProcSlot) (ok : Bool)
  | copyuvm (p : ProcSlot) (ok : Bool)
  | publish (p : ProcSlot)
  | exit (p : ProcSlot)
  | wait (p : ProcSlot)
  | sleep (p : ProcSlot) (chan : Nat)
  | wakeup (chan : Nat)
  | kill (pid : Int32)
  | trap (p : ProcSlot)

namespace ProcSys

def set (s : ProcSys) (p : ProcSlot) (f : ProcEntry → ProcEntry) : ProcSys :=
  { s with procs := update s.procs p (f (s.procs p)) }

def return_ (s : ProcSys) (p : ProcSlot) (value : Int32) : ProcSys :=
  { s.set p fun e => { e with pc := .user } with result := some value }

def kfree (s : ProcSys) (object : Option Nat) : ProcSys :=
  { s with freed := s.freed ++ object.toList }

def wakeup1 (s : ProcSys) (chan : ProcChan) : ProcSys :=
  { s with
    procs := fun q =>
      if (s.procs q).state = .sleeping ∧ (s.procs q).chan = some chan then
        { s.procs q with state := .runnable }
      else
        s.procs q }

/-! ### `fork` -/

/-- The loop of `allocproc`. -/
def findUnused (s : ProcSys) : Option ProcSlot :=
  (List.finRange nProc).find? fun q => (s.procs q).state = .unused

/-- `allocproc` up to where it releases the lock. -/
def allocproc (s : ProcSys) (p : ProcSlot) : ProcSys :=
  match s.findUnused with
  | none => s.return_ p (-1)
  | some np =>
    let s' := s.set np fun e => { e with state := .embryo, pid := s.nextpid }
    { s'.set p fun e => { e with pc := .forking np .kstack } with nextpid := s.nextpid + 1 }

/-- The rest of `allocproc`. -/
def allocKstack (s : ProcSys) (p np : ProcSlot) (ok : Bool) : ProcSys :=
  if ok then
    let s' := s.set np fun e => { e with kstack := some s.objects, pc := .user }
    { s'.set p fun e => { e with pc := .forking np .copy } with objects := s.objects + 1 }
  else
    (s.set np fun e => { e with kstack := none, state := .unused }).return_ p (-1)

/-- `copyuvm` in `fork`, and what follows up to the last section with the lock. -/
def copyProc (s : ProcSys) (p np : ProcSlot) (ok : Bool) : ProcSys :=
  if ok then
    let s' := s.set np fun e => { e with pgdir := some s.objects, parent := some p }
    { s'.set p fun e => { e with pc := .forking np .publish } with objects := s.objects + 1 }
  else
    let s := s.kfree (s.procs np).kstack
    (s.set np fun e => { e with pgdir := none, kstack := none, state := .unused }).return_ p (-1)

def publish (s : ProcSys) (p np : ProcSlot) : ProcSys :=
  (s.set np fun e => { e with state := .runnable }).return_ p (s.procs np).pid

/-! ### `exit`, `wait` and `kill` -/

/-- One turn of the loop of `exit`. -/
def passToInit (cur : ProcSlot) (s : ProcSys) (q : ProcSlot) : ProcSys :=
  if (s.procs q).parent = some cur then
    let s := s.set q fun e => { e with parent := some s.initproc }
    if (s.procs q).state = .zombie then s.wakeup1 (.proc s.initproc) else s
  else
    s

/-- The section of `exit` with the lock. -/
def exit (s : ProcSys) (p : ProcSlot) : ProcSys :=
  let s := match (s.procs p).parent with
    | some parent => s.wakeup1 (.proc parent)
    | none => s
  let s := (List.finRange nProc).foldl (passToInit p) s
  s.set p fun e => { e with state := .zombie }

/-- `wait` has found a child that has exited. -/
def reap (s : ProcSys) (p q : ProcSlot) : ProcSys :=
  let child := s.procs q
  let s := (s.kfree child.kstack).kfree child.pgdir
  let s := s.set q fun e =>
    { e with kstack := none, pid := 0, parent := none, killed := false, state := .unused }
  s.return_ p child.pid

/-- What the loop of `wait` looks for. -/
def findZombie (s : ProcSys) (p : ProcSlot) : Option ProcSlot :=
  (List.finRange nProc).find? fun q =>
    (s.procs q).parent = some p ∧ (s.procs q).state = .zombie

/-- One turn of the outer loop of `wait`. -/
def waitLoop (s : ProcSys) (p : ProcSlot) : ProcSys :=
  match s.findZombie p with
  | some q => s.reap p q
  | none =>
    if (∀ q, (s.procs q).parent ≠ some p) ∨ (s.procs p).killed then
      s.return_ p (-1)
    else
      { s.set p fun e => { e with chan := some (.proc p), state := .sleeping, pc := .inWait } with
        result := none }

/-- The loop of `kill`. -/
def findPid (s : ProcSys) (pid : Int32) : Option ProcSlot :=
  (List.finRange nProc).find? fun q => (s.procs q).pid = pid

def kill (s : ProcSys) (pid : Int32) : ProcSys :=
  match s.findPid pid with
  | some q =>
    { s.set q (fun e =>
        { e with
          killed := true
          state := if e.state = .sleeping then .runnable else e.state }) with
      result := some 0 }
  | none => { s with result := some (-1) }

/-! ### Steps -/

/-- The scheduler switches to the process, which ends its `sleep` if it was in one. -/
def dispatch (s : ProcSys) (p : ProcSlot) : ProcSys :=
  s.set p fun e => { e with state := .running, chan := none }

/-- In `wait` the process goes on with the lock held. -/
def schedule (s : ProcSys) (p : ProcSlot) : ProcSys :=
  if (s.procs p).pc = .inWait then (s.dispatch p).waitLoop p else s.dispatch p

def step (s : ProcSys) : ProcAction → Option ProcSys
  | .schedule p => if (s.procs p).state = .runnable then some (s.schedule p) else none
  | .yield p =>
    if (s.procs p).state = .running then some (s.set p fun e => { e with state := .runnable })
    else none
  | .fork p =>
    if (s.procs p).state = .running ∧ (s.procs p).pc = .user then some (s.allocproc p) else none
  | .kalloc p ok =>
    match (s.procs p).pc with
    | .forking np .kstack =>
      if (s.procs p).state = .running then some (s.allocKstack p np ok) else none
    | _ => none
  | .copyuvm p ok =>
    match (s.procs p).pc with
    | .forking np .copy =>
      if (s.procs p).state = .running then some (s.copyProc p np ok) else none
    | _ => none
  | .publish p =>
    match (s.procs p).pc with
    | .forking np .publish =>
      if (s.procs p).state = .running then some (s.publish p np) else none
    | _ => none
  | .exit p =>
    -- `init` does not exit
    if (s.procs p).state = .running ∧ (s.procs p).pc = .user ∧ p ≠ s.initproc then
      some (s.exit p)
    else none
  | .wait p =>
    if (s.procs p).state = .running ∧ (s.procs p).pc = .user then some (s.waitLoop p) else none
  | .sleep p chan =>
    if (s.procs p).state = .running ∧ (s.procs p).pc = .user then
      some (s.set p fun e => { e with chan := some (.other chan), state := .sleeping })
    else none
  | .wakeup chan => some (s.wakeup1 (.other chan))
  | .kill pid => some (s.kill pid)
  | .trap p =>
    if (s.procs p).state = .running ∧ (s.procs p).pc = .user then
      some (s.set p fun e => { e with killed := true })
    else none

/-- After `userinit`: the first slot has the only process. -/
def boot : ProcSys :=
  let empty : ProcEntry :=
    { state := .unused
      pid := 0
      parent := none
      chan := none
      killed := false
      kstack := none
      pgdir := none
      pc := .user }
  { procs := update (fun _ => empty) 0
      { empty with state := .runnable, pid := 1, kstack := some 0, pgdir := some 1 }
    nextpid := 2
    initproc := 0
    objects := 2
    freed := []
    result := none }

end ProcSys

/-! ### History -/

/-- A call of `kill`, or a fatal trap of a process. -/
inductive KillRequest where
  | kill (pid : Int32)
  | trap (serial : Nat)
deriving DecidableEq

/-- A return of `wait`: the process that is gone, its stack, page table and parent, and the process
that has waited.
-/
structure Reap where
  child : Nat
  parent : Option ProcSlot
  waiter : ProcSlot
  kstack : Option Nat
  pgdir : Option Nat

/-- What has happened: how many processes were created, which of them is in each slot and how many
requests to kill there were before it, who has exited, who was waited for, and the requests.
-/
structure ProcHistory where
  created : Nat
  serial : ProcSlot → Nat
  born : ProcSlot → Nat
  exits : List Nat
  reaps : List Reap
  requests : List KillRequest

namespace ProcHistory

/-- There is only `init`. -/
def boot : ProcHistory :=
  { created := 1
    serial := fun _ => 0
    born := fun _ => 0
    exits := []
    reaps := []
    requests := [] }

def create (h : ProcHistory) (np : ProcSlot) : ProcHistory :=
  { h with
    created := h.created + 1
    serial := update h.serial np h.created
    born := update h.born np h.requests.length }

def reap (h : ProcHistory) (s : ProcSys) (p q : ProcSlot) : ProcHistory :=
  { h with
    reaps := h.reaps ++
      [{ child := h.serial q
         parent := (s.procs q).parent
         waiter := p
         kstack := (s.procs q).kstack
         pgdir := (s.procs q).pgdir }] }

/-- What a turn of `wait` adds. -/
def wait (h : ProcHistory) (s : ProcSys) (p : ProcSlot) : ProcHistory :=
  match s.findZombie p with
  | some q => h.reap s p q
  | none => h

end ProcHistory

namespace ProcSys

/-- What a step adds to the history. -/
def note (s : ProcSys) (action : ProcAction) (h : ProcHistory) : ProcHistory :=
  match action with
  | .fork _ =>
    match s.findUnused with
    | some np => h.create np
    | none => h
  | .exit p => { h with exits := h.exits ++ [h.serial p] }
  | .wait p => h.wait s p
  | .schedule p => if (s.procs p).pc = .inWait then h.wait (s.dispatch p) p else h
  | .kill pid => { h with requests := h.requests ++ [.kill pid] }
  | .trap p => { h with requests := h.requests ++ [.trap (h.serial p)] }
  | _ => h

/-! ### What the operations do to the slots -/

variable {s s' : ProcSys} {p q np cur : ProcSlot}

/-- A slot of the table after another one, or the slot itself, is set. -/
@[grind =]
theorem set_apply (s : ProcSys) (p q : ProcSlot) (f : ProcEntry → ProcEntry)
    : (s.set p f).procs q = if q = p then f (s.procs p) else s.procs q :=
  update_apply ..

@[grind =]
theorem set_initproc (s : ProcSys) (p : ProcSlot) (f : ProcEntry → ProcEntry)
    : (s.set p f).initproc = s.initproc :=
  rfl

/-- Waking up changes the state of those who sleep on the channel. -/
@[grind =]
theorem wakeup1_apply (s : ProcSys) (chan : ProcChan) (q : ProcSlot)
    : (s.wakeup1 chan).procs q = { s.procs q with
        state := if (s.procs q).state = .sleeping ∧ (s.procs q).chan = some chan then .runnable
          else (s.procs q).state } := by
  simp only [wakeup1]
  split <;> rfl

/-- `allocproc` takes a slot that is not in use. -/
theorem unused_of_findUnused (found : s.findUnused = some np) : (s.procs np).state = .unused := by
  simpa using List.find?_some found

/-- `wait` takes a child of the process that has exited. -/
theorem zombie_of_findZombie (found : s.findZombie p = some q)
    : (s.procs q).parent = some p ∧ (s.procs q).state = .zombie := by
  simpa using List.find?_some found

/-- If `wait` finds nothing, no child of the process has exited. -/
theorem findZombie_eq_none (none_ : s.findZombie p = none)
    : (s.procs q).parent = some p → (s.procs q).state ≠ .zombie := by
  simpa using List.find?_eq_none.mp none_ q (List.mem_finRange q)

/-- `kill` takes a slot with that pid, whatever its state. -/
theorem pid_of_findPid {pid : Int32} (found : s.findPid pid = some q)
    : (s.procs q).pid = pid := by
  simpa using List.find?_some found

section

variable {ok : Bool}

/-- Only a running process in `allocproc` takes this step. -/
theorem step_kalloc (taken : s.step (.kalloc p ok) = some s')
    : ∃ np, (s.procs p).pc = .forking np .kstack ∧ (s.procs p).state = .running
      ∧ s.allocKstack p np ok = s' := by
  simp only [step] at taken
  split at taken
  · exact ⟨_, ‹_›, guarded taken⟩
  · cases taken

/-- Only a running process in `fork` that has a stack for its child takes this step. -/
theorem step_copyuvm (taken : s.step (.copyuvm p ok) = some s')
    : ∃ np, (s.procs p).pc = .forking np .copy ∧ (s.procs p).state = .running
      ∧ s.copyProc p np ok = s' := by
  simp only [step] at taken
  split at taken
  · exact ⟨_, ‹_›, guarded taken⟩
  · cases taken

/-- Only a running process whose child is complete takes this step. -/
theorem step_publish (taken : s.step (.publish p) = some s')
    : ∃ np, (s.procs p).pc = .forking np .publish ∧ (s.procs p).state = .running
      ∧ s.publish p np = s' := by
  simp only [step] at taken
  split at taken
  · exact ⟨_, ‹_›, guarded taken⟩
  · cases taken

end

/-- The slot has a child of `cur` that has exited. -/
def ExitedChild (s : ProcSys) (cur c : ProcSlot) : Prop :=
  (s.procs c).parent = some cur ∧ (s.procs c).state = .zombie

instance (s : ProcSys) (cur c : ProcSlot) : Decidable (s.ExitedChild cur c) :=
  inferInstanceAs (Decidable (_ ∧ _))

/-- The children of `cur` among `slots` have `init` as parent, which may be woken up. -/
def passed (cur : ProcSlot) (s : ProcSys) (slots : List ProcSlot) (wake : Bool) (q : ProcSlot)
    : ProcEntry :=
  { s.procs q with
    parent := if q ∈ slots ∧ (s.procs q).parent = some cur then some s.initproc
      else (s.procs q).parent
    state :=
      if (s.procs q).state = .sleeping ∧ (s.procs q).chan = some (.proc s.initproc) ∧ wake then
        .runnable
      else (s.procs q).state }

/-- One turn of the loop of `exit`. -/
theorem passToInit_eq (cur : ProcSlot) (s : ProcSys) (q : ProcSlot)
    : passToInit cur s q = { s with procs := passed cur s [q] (s.ExitedChild cur q) } := by
  have slots (r : ProcSlot)
      : (passToInit cur s q).procs r = passed cur s [q] (s.ExitedChild cur q) r := by
    simp only [passToInit, passed, set_apply, if_pos, List.mem_singleton, ExitedChild]
    ext <;> grind
  have rest : passToInit cur s q = { s with procs := (passToInit cur s q).procs } := by
    unfold passToInit
    split <;> [dsimp only; rfl]
    split <;> rfl
  rw [rest, funext slots]

/-- The loop of `exit`: `init` is not `cur`, so a child is passed on once. -/
theorem foldl_passToInit (slots : List ProcSlot) (s : ProcSys) (other : s.initproc ≠ cur)
    : slots.foldl (passToInit cur) s
      = { s with procs := passed cur s slots (slots.any fun c => s.ExitedChild cur c) } := by
  induction slots generalizing s with
  | nil =>
    have same : passed cur s [] false = s.procs := by
      funext q
      simp [passed]
    rw [List.any_nil, same, List.foldl_nil]
  | cons head rest ih =>
    rw [List.foldl_cons, ih _ (by rw [passToInit_eq]; exact other), passToInit_eq]
    have later (wake : Bool) (c : ProcSlot)
        : ExitedChild { s with procs := passed cur s [head] wake } cur c
          ↔ c ≠ head ∧ s.ExitedChild cur c := by
      grind [ExitedChild, passed]
    have any : (decide (s.ExitedChild cur head)
          || rest.any fun c => decide (c ≠ head ∧ s.ExitedChild cur c))
        = (head :: rest).any fun c => decide (s.ExitedChild cur c) := by
      rw [Bool.eq_iff_iff]
      simp
      grind
    congr 1
    funext q
    simp only [later, ← any, passed, List.mem_cons, List.not_mem_nil, or_false]
    generalize (rest.any fun c => decide (c ≠ head ∧ s.ExitedChild cur c)) = wake
    generalize decide (s.ExitedChild cur head) = wake'
    by_cases asleep : (s.procs q).state = .sleeping
    · ext <;> grind
    · ext <;> grind

/-- Whom `exit` wakes up: a parent in `wait`, and `init` there if a child of `p` has exited. -/
def wakes (s : ProcSys) (p q : ProcSlot) : Bool :=
  ((s.procs p).parent.any fun parent => (s.procs q).chan = some (.proc parent))
    || (s.procs q).chan = some (.proc s.initproc) && decide (∃ c, s.ExitedChild p c)

/-- A parent that sleeps in `wait` is woken up. -/
theorem wakes_parent {parent : ProcSlot} (mine : (s.procs p).parent = some parent)
    (there : (s.procs q).chan = some (.proc parent))
    : s.wakes p q = true := by
  simp [wakes, mine, there]

/-- `init` is woken up in `wait` if it gets a child that has exited. -/
theorem wakes_init {c : ProcSlot} (gone : s.ExitedChild p c)
    (there : (s.procs q).chan = some (.proc s.initproc))
    : s.wakes p q = true := by
  have some_ : ∃ c, s.ExitedChild p c := ⟨c, gone⟩
  simp [wakes, there, some_]

/-- The table after `exit`. -/
def exited (s : ProcSys) (p q : ProcSlot) : ProcEntry :=
  { s.procs q with
    parent := if (s.procs q).parent = some p then some s.initproc else (s.procs q).parent
    state :=
      if q = p then .zombie
      else if (s.procs q).state = .sleeping ∧ s.wakes p q then .runnable
      else (s.procs q).state }

/-- `exit` changes the table only: the parent is woken up, then comes the loop. -/
theorem exit_eq (other : s.initproc ≠ p) : s.exit p = { s with procs := s.exited p } := by
  have any : ((List.finRange nProc).any fun c => decide (s.ExitedChild p c))
      = decide (∃ c, s.ExitedChild p c) := by
    rw [Bool.eq_iff_iff, List.any_eq_true]
    simp [List.mem_finRange]
  have same (chan : ProcChan) (c : ProcSlot)
      : (s.wakeup1 chan).ExitedChild p c ↔ s.ExitedChild p c := by
    grind [ExitedChild]
  have slots (q : ProcSlot) : (s.exit p).procs q = s.exited p q := by
    have all : q ∈ List.finRange nProc := List.mem_finRange q
    unfold exit exited
    cases mine : (s.procs p).parent with
    | none =>
      simp only [foldl_passToInit _ _ other, any, wakes, mine]
      generalize decide (∃ c, s.ExitedChild p c) = wake
      clear any same
      ext <;> grind [passed]
    | some parent =>
      have other' : (s.wakeup1 (.proc parent)).initproc ≠ p := other
      have same' : (s.wakeup1 (.proc parent)).initproc = s.initproc := rfl
      simp only [foldl_passToInit _ _ other', same, any, wakes, mine]
      generalize decide (∃ c, s.ExitedChild p c) = wake
      clear any same
      ext <;> grind [passed]
  have frame : s.exit p = { s with procs := (s.exit p).procs } := by
    unfold exit
    cases (s.procs p).parent with
    | none =>
      simp only [foldl_passToInit _ _ other]
      rfl
    | some parent =>
      have other' : (s.wakeup1 (.proc parent)).initproc ≠ p := other
      simp only [foldl_passToInit _ _ other']
      rfl
  rw [frame, funext slots]

end ProcSys

end Xv6Net
