import Xv6Net.Kernel.Processes

/-! Who is killed: `killed` and `pid` stay behind in slots that a failed `fork` gives back, and
`kill` looks at slots that are not in use as well.
-/

namespace Xv6Net

open Library Transition Function

/-- The slot that a process has taken for the child it is making. -/
def ProcPc.target : ProcPc → Option ProcSlot
  | .forking np _ => some np
  | _ => none

/-- Since the process was created, `kill` was called with its pid, or it took a fatal trap. -/
def Asked (requests : List KillRequest) (born : Nat) (pid : Int32) (serial : Nat) : Prop :=
  ∃ i, born ≤ i ∧ (requests[i]? = some (.kill pid) ∨ requests[i]? = some (.trap serial))

section

variable {requests : List KillRequest} {born serial : Nat} {pid : Int32}

/-- What was asked for is in the list. -/
theorem Asked.born_lt (asked : Asked requests born pid serial) : born < requests.length := by
  obtain ⟨i, later, found⟩ := asked
  have inside : i < requests.length := by
    rcases found with found | found
    · exact (List.getElem?_eq_some_iff.mp found).1
    · exact (List.getElem?_eq_some_iff.mp found).1
  exact Nat.lt_of_le_of_lt later inside

/-- A request stays in the list, by its index. -/
theorem Asked.more (asked : Asked requests born pid serial) (request : KillRequest)
    : Asked (requests ++ [request]) born pid serial := by
  obtain ⟨i, later, found⟩ := asked
  exact ⟨i, later, by grind⟩

/-- The request that has just come, for a process that was there before. -/
theorem Asked.now {request : KillRequest} (older : born ≤ requests.length)
    (meant : request = .kill pid ∨ request = .trap serial)
    : Asked (requests ++ [request]) born pid serial :=
  ⟨requests.length, older, by grind⟩

end

namespace ProcSys

/-- What holds of `killed` between any two steps. -/
structure KillInv (s : ProcSys) (h : ProcHistory) : Prop where
  /-- The next process in a slot starts out alive. -/
  unused : ∀ q, (s.procs q).state = .unused → (s.procs q).killed = false
  asked : ∀ q, (s.procs q).killed = true
    → Asked h.requests (h.born q) (s.procs q).pid (h.serial q)
  born : ∀ q, h.born q ≤ h.requests.length

/-- The condition on a step: `kill` is not called with a pid that is left in an unused slot, and
`fork` does not give back a slot after a kill of the process that was to be.
-/
def Targeted (s : ProcSys) : ProcAction → Prop
  | .kill pid => ∀ q, (s.procs q).state = .unused → (s.procs q).pid ≠ pid
  | .kalloc p false | .copyuvm p false => ∀ np, (s.procs p).pc.target = some np
      → (s.procs np).killed = false
  | _ => True

instance (s : ProcSys) : DecidablePred s.Targeted
  | .kill pid =>
    inferInstanceAs (Decidable (∀ q, (s.procs q).state = .unused → (s.procs q).pid ≠ pid))
  | .kalloc p false | .copyuvm p false =>
    inferInstanceAs (Decidable (∀ np, (s.procs p).pc.target = some np
      → (s.procs np).killed = false))
  | .kalloc _ true | .copyuvm _ true | .schedule _ | .yield _ | .fork _ | .publish _ | .exit _
  | .wait _ | .sleep _ _ | .wakeup _ | .trap _ => .isTrue trivial

variable {s s' : ProcSys} {h : ProcHistory} {p np q : ProcSlot}

/-- `wait` clears `killed` in the slot that it gives back. -/
theorem KillInv.waitLoop (inv : KillInv s h) (p : ProcSlot)
    : KillInv (s.waitLoop p) (h.wait s p) := by
  obtain ⟨unused, asked, born⟩ := inv
  unfold ProcSys.waitLoop ProcHistory.wait
  split
  · unfold ProcSys.reap ProcHistory.reap kfree return_
    constructor <;> grind -linarith
  · split
    · unfold return_
      constructor <;> grind -linarith
    · constructor <;> grind -linarith

/-- A slot comes into use with `killed` clear. -/
theorem KillInv.allocproc (inv : KillInv s h) (p : ProcSlot)
    : KillInv (s.allocproc p) (s.note (.fork p) h) := by
  obtain ⟨unused, asked, born⟩ := inv
  unfold ProcSys.allocproc note
  cases found : s.findUnused with
  | none =>
    unfold return_
    constructor <;> grind -linarith
  | some np =>
    have free := unused_of_findUnused found
    unfold ProcHistory.create
    constructor <;> grind -linarith

/-- A slot that `fork` gives back keeps its `killed`. -/
theorem KillInv.allocKstack (inv : KillInv s h) {ok : Bool}
    (calm : ok = false → (s.procs np).killed = false)
    : KillInv (s.allocKstack p np ok) h := by
  obtain ⟨unused, asked, born⟩ := inv
  unfold ProcSys.allocKstack return_
  cases ok <;> constructor <;> grind -linarith

/-- A slot that `fork` gives back keeps its `killed`. -/
theorem KillInv.copyProc (inv : KillInv s h) {ok : Bool}
    (calm : ok = false → (s.procs np).killed = false)
    : KillInv (s.copyProc p np ok) h := by
  obtain ⟨unused, asked, born⟩ := inv
  unfold ProcSys.copyProc return_ kfree
  cases ok <;> constructor <;> grind -linarith

/-- `exit` touches neither `killed` nor `pid`, and a zombie is in use. -/
theorem KillInv.exit (inv : KillInv s h) (other : s.initproc ≠ p)
    : KillInv (s.exit p) (s.note (.exit p) h) := by
  obtain ⟨unused, asked, born⟩ := inv
  rw [exit_eq other]
  unfold note
  constructor <;> grind -linarith [exited]

/-- `kill` finds a process that has the pid. -/
theorem KillInv.kill (inv : KillInv s h) {pid : Int32} (targeted : s.Targeted (.kill pid))
    : KillInv (s.kill pid) (s.note (.kill pid) h) := by
  obtain ⟨unused, asked, born⟩ := inv
  have older := fun q killed => (asked q killed).more (.kill pid)
  unfold ProcSys.kill note
  cases found : s.findPid pid with
  | none => constructor <;> grind -linarith
  | some q =>
    have meant := pid_of_findPid found
    have used : (s.procs q).state ≠ .unused := fun unused => targeted q unused meant
    have now : Asked (h.requests ++ [.kill pid]) (h.born q) (s.procs q).pid (h.serial q) :=
      .now (born q) (Or.inl (by rw [meant]))
    constructor <;> grind -linarith

/-- Every targeted step keeps the invariant, by one lemma for each call. -/
theorem KillInv.step (inv : KillInv s h) {action : ProcAction} (targeted : s.Targeted action)
    (taken : s.step action = some s')
    : KillInv s' (s.note action h) := by
  cases action with
  | schedule p =>
    obtain ⟨_, rfl⟩ := guarded taken
    have inv' : KillInv (s.dispatch p) h := by
      obtain ⟨unused, asked, born⟩ := inv
      unfold ProcSys.dispatch
      constructor <;> grind -linarith
    simp only [ProcSys.schedule, note]
    split
    · exact inv'.waitLoop p
    · exact inv'
  | fork p =>
    obtain ⟨_, rfl⟩ := guarded taken
    exact inv.allocproc p
  | kalloc p ok =>
    obtain ⟨np, forking, _, rfl⟩ := step_kalloc taken
    exact inv.allocKstack (by rintro rfl; exact targeted np (by rw [forking]; rfl))
  | copyuvm p ok =>
    obtain ⟨np, forking, _, rfl⟩ := step_copyuvm taken
    exact inv.copyProc (by rintro rfl; exact targeted np (by rw [forking]; rfl))
  | publish p =>
    obtain ⟨np, _, _, rfl⟩ := step_publish taken
    obtain ⟨unused, asked, born⟩ := inv
    unfold note ProcSys.publish return_
    constructor <;> grind -linarith
  | exit p =>
    obtain ⟨⟨-, -, other⟩, rfl⟩ := guarded taken
    exact inv.exit other.symm
  | wait =>
    obtain ⟨_, rfl⟩ := guarded taken
    exact inv.waitLoop _
  | yield p | sleep p =>
    obtain ⟨running, rfl⟩ := guarded taken
    obtain ⟨unused, asked, born⟩ := inv
    constructor <;> grind -linarith [note]
  | wakeup chan =>
    cases taken
    obtain ⟨unused, asked, born⟩ := inv
    constructor <;> grind -linarith [note]
  | kill pid =>
    cases taken
    exact inv.kill targeted
  | trap p =>
    obtain ⟨running, rfl⟩ := guarded taken
    obtain ⟨unused, asked, born⟩ := inv
    have now : Asked (h.requests ++ [.trap (h.serial p)]) (h.born p) (s.procs p).pid
        (h.serial p) :=
      .now (born p) (Or.inr rfl)
    have older := fun q killed => (asked q killed).more (.trap (h.serial p))
    unfold note
    constructor <;> grind -linarith

/-- A process that was created and not yet waited for is killed only if that was asked for since. -/
def KilledOnRequest (now : ProcSys × ProcHistory) : Prop :=
  ∀ q, (now.1.procs q).state ≠ .unused → (now.1.procs q).killed = true →
    Asked now.2.requests (now.2.born q) (now.1.procs q).pid (now.2.serial q)

/-- A call of `kill` returns 0 only if a process has that pid. -/
def KillsProcess (s : ProcSys) : ProcAction → Prop
  | .kill pid =>
    (s.kill pid).result = some 0 → ∃ q, (s.procs q).state ≠ .unused ∧ (s.procs q).pid = pid
  | _ => True

/-- A targeted `kill` finds a slot that is in use. -/
theorem Targeted.killsProcess {action : ProcAction} (targeted : s.Targeted action)
    : s.KillsProcess action := by
  cases action with
  | kill pid =>
    intro returned
    unfold ProcSys.kill at returned
    split at returned
    · rename_i q found
      have meant := pid_of_findPid found
      exact ⟨q, fun unused => targeted q unused meant, meant⟩
    · cases returned
  | _ => trivial

/-- In every run in which `kill` is not called with a pid that an unused slot has, and no `fork`
fails for a process that was killed before, `kill` hits only its target.
-/
theorem kill_hits_target (actions : List ProcAction)
    (targeted : Along (withHistory step note) (fun now => Targeted now.1) (boot, .boot) actions)
    : Throughout (withHistory step note) KilledOnRequest (boot, .boot) actions
      ∧ Along (withHistory step note) (fun now => KillsProcess now.1) (boot, .boot) actions := by
  have calm (q : ProcSlot) : (boot.procs q).killed = false := by
    simp only [boot, update_apply]
    split <;> rfl
  have initially : KillInv boot .boot :=
    ⟨fun q _ => calm q, fun q killed => (nomatch (calm q).symm.trans killed), fun _ => le_rfl⟩
  have always : Throughout (withHistory step note) (fun now => KillInv now.1 now.2) (boot, .boot)
      actions :=
    targeted.invariant initially fun now action next inv allowed taken => by
      obtain ⟨stepped, noted⟩ := withHistory_eq_some taken
      rw [noted]
      exact inv.step allowed stepped
  exact ⟨always.mono fun _ inv q _ killed => inv.asked q killed,
    targeted.mono fun _ _ allowed => allowed.killsProcess⟩

set_option maxRecDepth 20000

/-- `init` makes a child, which is killed. -/
def killRun : List ProcAction :=
  [.schedule 0, .fork 0, .kalloc 0 true, .copyuvm 0 true, .publish 0, .kill 2]

/-- Witness: a run in which a child is killed. -/
theorem kill_hits_target_child
    : Along (withHistory step note) (fun now => Targeted now.1) (boot, .boot) killRun
      ∧ Throughout (withHistory step note) KilledOnRequest (boot, .boot) killRun
      ∧ Along (withHistory step note) (fun now => KillsProcess now.1) (boot, .boot) killRun := by
  have targeted : Along (withHistory step note) (fun now => Targeted now.1) (boot, .boot)
      killRun := by
    decide +kernel
  exact ⟨targeted, kill_hits_target killRun targeted⟩

/-- `kill(0)` finds an unused slot and returns 0, and the next process to get that slot is
killed.
-/
theorem kill_zero_hits_child
    : ¬ Along (withHistory step note) (fun now => KillsProcess now.1) (boot, .boot) [.kill 0]
      ∧ ¬ Throughout (withHistory step note) KilledOnRequest (boot, .boot)
          [.kill 0, .schedule 0, .fork 0, .kalloc 0 true, .copyuvm 0 true, .publish 0] := by
  constructor
  · rintro ⟨returns, -⟩
    have zero : (boot.kill 0).result = some 0 := by decide +kernel
    obtain ⟨q, used, pid⟩ := returns zero
    have nobody : ∀ q, (boot.procs q).state ≠ .unused → (boot.procs q).pid ≠ 0 := by decide +kernel
    exact nobody q used pid
  · intro always
    have run : (exec (withHistory step note) (boot, .boot)
        [.kill 0, .schedule 0, .fork 0, .kalloc 0 true, .copyuvm 0 true, .publish 0]).map
          (fun now => decide ((now.1.procs 1).state = .runnable ∧ (now.1.procs 1).killed = true
            ∧ now.2.born 1 = 1 ∧ now.2.requests.length = 1)) = some true := by
      decide +kernel
    obtain ⟨final, reached, facts⟩ := Option.map_eq_some_iff.mp run
    obtain ⟨state, killed, born, length⟩ := of_decide_eq_true facts
    -- the only request came before the process was created
    have asked := always.finish reached 1 (by rw [state]; nofun) killed
    have later := asked.born_lt
    omega

end ProcSys

end Xv6Net
