import Xv6Net.Socket.Moves

/-! What a socket call that cannot complete leaves behind. Each call takes its resources from
several tables in sequence, and `accept` takes those of `socket` once its handshake is over.
-/

namespace Xv6Net

open Library Kernel

/-- A step of a call: the first one, or one of those after it. -/
inductive CallStep where
  | enter (c : Call)
  | resume (pc : Pc)

/-- Something that `socket` needs is exhausted. -/
def Exhausted (env : Env) (k : Kernel) (pid : Nat) : Prop :=
  freeSocket k = none ∨ freeFile k = none ∨ freeDescriptor (k.procs pid) = none
    ∨ env.kalloc = none

/-- The tables are as they were, apart from the handshake fields of a listener. -/
structure Kernel.Kept (k k' : Kernel) (listener : Option Nat) : Prop where
  ports : k'.ports = k.ports
  files : k'.files = k.files
  descriptors : ∀ pid, (k'.procs pid).ofile = (k.procs pid).ofile
  sockets : ∀ t, listener ≠ some t → k'.sockets t = k.sockets t
  handshake : ∀ t, listener = some t
    → k'.sockets t
      = { k.sockets t with
          state := (k'.sockets t).state
          waitqueue := (k'.sockets t).waitqueue
          tcon := (k'.sockets t).tcon }

namespace CallStep

def code (pid : Nat) : CallStep → KernelM Next
  | .enter c => c.enter pid
  | .resume pc => pc.resume pid

/-- The listener of a step of `accept` after its tests. -/
def listener : CallStep → Option Nat
  | .enter _ => none
  | .resume pc => pc.accepting

/-- The call cannot complete: a table or memory is exhausted, or an argument is invalid. -/
def CannotComplete (env : Env) (k : Kernel) (pid : Nat) : CallStep → Prop
  | .enter .socket => Exhausted env k pid
  | .enter (.bind sockfd addr port) =>
    nPorts ≤ port.toNat ∨ addr ≠ k.myip
      ∨ ∀ s, k.socketAt pid sockfd = some s
        → (k.sockets s).state ≠ .unbound ∨ (k.ports port.toNat).pid ≠ -1
  | .enter (.listen sockfd) =>
    ∀ s, k.socketAt pid sockfd = some s → (k.sockets s).state ≠ .bound
  | .enter (.connect sockfd _ _) => ∀ s, k.socketAt pid sockfd = some s → freePort k = none
  | .enter (.accept sockfd) =>
    ∀ s, k.socketAt pid sockfd = some s
      → (k.sockets s).tcon.state ≠ .listen
        ∨ (k.ports (k.sockets s).port.toNat).activeSocket ≠ none
  | .resume (.wait .handshakeAck _) => Exhausted env k pid
  | _ => False

/-- The descriptor with which `accept` indexes the table of open files, untested. -/
def index (env : Env) (k : Kernel) (pid : Nat) : CallStep → Option Int
  | .resume (.wait .handshakeAck s) =>
    ((socket pid).run env ((k.wake pid).setTcpState s .listen)).value
  | _ => none

/-- A call that cannot complete returns -1 with the tables as they were; for `accept` the
handshake before that changes nothing but the listener, and -1 is no index.
-/
structure LeavesNoTrace (env : Env) (k : Kernel) (pid : Nat) (step : CallStep) : Prop where
  fails : step.CannotComplete env k pid
    → ((step.code pid).run env k).value = some (.returns (-1))
      ∧ k.Kept ((step.code pid).run env k).state step.listener
  goesOn : ∀ s pc, step.listener = some s
    → ((step.code pid).run env k).value = some (.goesOn pc)
    → k.Kept ((step.code pid).run env k).state (some s)
  indexes : step.index env k pid ≠ some (-1)

/-- `socket` finds a page when it finds the rest, and a file without a type when it is to give
it back; no word that reads as a free port stands behind the table for `bind`; `accept` finds
all that `socket` needs.
-/
def Provided (env : Env) (k : Kernel) (pid : Nat) : CallStep → Prop
  | .enter .socket =>
    ∀ s f, freeSocket k = some s → freeFile k = some f
      → match freeDescriptor (k.procs pid) with
        | none => (k.files f).type = .none
        | some _ => env.kalloc ≠ none
  | .enter (.bind sockfd addr port) =>
    ∀ s, port.toNat = nPorts → addr = k.myip → k.socketAt pid sockfd = some s
      → (k.sockets s).state = .unbound → (k.ports nPorts).pid ≠ -1
  | .resume (.wait .handshakeAck _) => ¬ Exhausted env k pid
  | _ => True

end CallStep

variable {env : Env} {k : Kernel} {pid : Nat}

theorem onSocket_refused {sockfd : Int} {code : Nat → KernelM Next}
    (refused
      : ∀ s, k.socketAt pid sockfd = some s
          → (code s).run env k = ⟨some (.returns (-1)), k, []⟩)
    : (onSocket pid sockfd code).run env k = ⟨some (.returns (-1)), k, []⟩ := by
  rw [onSocket_run]
  cases named : k.socketAt pid sockfd with
  | none => rfl
  | some s => exact refused s named

theorem bind_run (sockfd : Int) (addr : UInt32) (port : UInt16)
    : (bind pid sockfd addr port).run env k
      = if port.toNat > nPorts ∨ addr ≠ k.myip then ⟨some (.returns (-1)), k, []⟩
        else
          match k.socketAt pid sockfd with
          | none => ⟨some (.returns (-1)), k, []⟩
          | some s =>
            if (k.sockets s).state ≠ .unbound ∨ (k.ports port.toNat).pid ≠ -1 then
              ⟨some (.returns (-1)), k, []⟩
            else ⟨some (.goesOn (.bindUpdate s addr port)), k, []⟩ := by
  cases named : k.socketAt pid sockfd <;>
    simp only [Xv6Net.bind, run_bind, run_get, andThen_some, after_nil, run_ite, onSocket_run,
      named,
      run_pure, ite_or]

/-- The last `fileclose` of a file takes its type, also when it panics after that. -/
theorem fileclose_untypes (env : Env) {f : Nat} (only : (k.files f).ref = 1)
    : (((fileclose f).run env k).state.files f).type = .none := by
  have closed : ¬ (k.files f).ref < 1 ∧ ¬ (k.files f).ref - 1 > 0 := by omega
  simp only [fileclose, run_bind, run_get, andThen_some,
    after_nil, run_ite, if_neg closed.1, if_neg closed.2, run_modify]
  split
  · rw [socketclose_run]
    split <;> simp [closeSocket, setFile]
  · simp [setFile]

/-- When `socket` finds no descriptor, the file that it gives back loses its type. -/
theorem socket_untypes (env : Env) {s f : Nat} (foundSocket : freeSocket k = some s)
    (foundFile : freeFile k = some f) (noFd : freeDescriptor (k.procs pid) = none)
    : (((socket pid).run env k).state.files f).type = .none := by
  let taken := (k.setSocket s fun socket => { socket with state := .unbound }).setFile f
    fun file => { file with ref := 1 }
  have noFd' : freeDescriptor (taken.procs pid) = none := noFd
  have only : (taken.files f).ref = 1 := by simp [taken, setFile]
  have untyped := fileclose_untypes env only
  have files (g : Socket → Socket) : freeFile (k.setSocket s g) = freeFile k := rfl
  simp only [socket, socketalloc, filealloc, fdalloc, foundSocket, files, foundFile, run_bind,
    run_get, run_modify, run_pure, andThen_some, after_nil]
  change (((Program.run (match freeDescriptor (taken.procs pid) with
    | none => pure none
    | some fd => _) env taken).andThen _).state.files f).type = .none
  rw [noFd']
  simp only [run_bind, run_pure, andThen_some, after_nil]
  generalize (fileclose f).run env taken = out at untyped
  obtain ⟨value, state, log⟩ := out
  cases value <;> exact untyped

theorem acceptFinish_value (s : Nat)
    : ((acceptFinish pid s).run env k).value
      = ((socket pid).run env (k.setTcpState s .listen)).value.map .returns := by
  simp only [acceptFinish, run_bind, run_modify, andThen_some, after_nil]
  change (((socket pid).run env (k.setTcpState s .listen)).andThen _).value = _
  generalize (socket pid).run env (k.setTcpState s .listen) = out
  obtain ⟨value, state, log⟩ := out
  cases value <;> rfl

theorem not_exhausted (enough : ¬ Exhausted env k pid)
    : ∃ s f fd, freeSocket k = some s ∧ freeFile k = some f
        ∧ freeDescriptor (k.procs pid) = some fd ∧ env.kalloc ≠ none := by
  simp only [Exhausted, not_or, ← Option.isSome_iff_ne_none, Option.isSome_iff_exists]
    at enough
  obtain ⟨⟨s, one⟩, ⟨f, two⟩, ⟨fd, three⟩, ⟨page, four⟩⟩ := enough
  exact ⟨s, f, fd, one, two, three, by simp [four]⟩

theorem Kernel.Kept.refl (k : Kernel) (listener : Option Nat) : k.Kept k listener :=
  ⟨rfl, rfl, fun _ => rfl, fun _ _ => rfl, fun _ _ => rfl⟩

theorem Kernel.Kept.setSocket (k : Kernel) (s : Nat) (f : Socket → Socket)
    (fields
      : f (k.sockets s)
        = { k.sockets s with
            state := (f (k.sockets s)).state
            waitqueue := (f (k.sockets s)).waitqueue
            tcon := (f (k.sockets s)).tcon })
    : k.Kept (k.setSocket s f) (some s) where
  ports := rfl
  files := rfl
  descriptors _ := rfl
  sockets t other := Function.update_of_ne (fun same => other (congrArg some same.symm)) _ _
  handshake t same := by
    cases same
    simpa using fields

theorem Kernel.Kept.setProc (k : Kernel) (q : Nat) (f : Proc → Proc) (listener : Option Nat)
    (kept : (f (k.procs q)).ofile = (k.procs q).ofile)
    : k.Kept (k.setProc q f) listener where
  ports := rfl
  files := rfl
  descriptors r := by
    by_cases same : r = q
    · subst same
      simpa [Kernel.setProc] using kept
    · simp [Kernel.setProc, Function.update_of_ne same]
  sockets _ _ := rfl
  handshake _ _ := rfl

namespace CallStep

/-- Until `accept` has its answer, it changes nothing but its listener. -/
theorem kept_of_goesOn {step : CallStep} {s : Nat} {pc : Pc} (accepting : step.listener = some s)
    (value : ((step.code pid).run env k).value = some (.goesOn pc))
    : k.Kept ((step.code pid).run env k).state (some s) := by
  cases step with
  | enter => cases accepting
  | resume at_ =>
    cases at_ with
    | acceptTest =>
      simp only [code, Pc.resume, Xv6Net.acceptTest, run_bind, run_get,
        andThen_some, after_nil, run_ite]
      split <;> exact .refl k _
    | acceptDequeue =>
      cases accepting
      simp only [code, Pc.resume, Xv6Net.acceptDequeue, run_bind, run_env, run_get, run_modify,
        run_pure, andThen_some, after_mk, tcpSendSynack_run]
      rw [answerRequest, startNumbering]
      simp only [setTcon, setSocket_setSocket]
      exact .setSocket k s _ rfl
    | mark w =>
      cases w <;> cases accepting <;> exact .setSocket k s _ rfl
    | sleep w t =>
      exact .setProc k pid
        (fun p => { p with chan := some (.port (k.sockets t).port.toNat), state := .sleeping })
        _ rfl
    | wait w t =>
      cases w with
      | request => exact .setProc k pid (fun p => { p with chan := none }) _ rfl
      | handshakeAck =>
        change ((acceptFinish pid t).run env (k.wake pid)).value = _ at value
        rw [acceptFinish_value] at value
        generalize ((socket pid).run env _).value = out at value
        cases out <;> cases value
      | _ => cases accepting
    | _ => cases accepting

theorem socket_iff
    : (enter .socket).LeavesNoTrace env k pid ↔ (enter .socket).Provided env k pid := by
  have code : ((enter .socket).code pid).run env k
      = ((socket pid).run env k).andThen fun r current => ⟨some (.returns r), current, []⟩ :=
    rfl
  constructor
  · intro clean s f foundSocket foundFile
    cases noFd : freeDescriptor (k.procs pid) with
    | none =>
      obtain ⟨-, kept⟩ := clean.fails (Or.inr (Or.inr (Or.inl noFd)))
      have untyped := socket_untypes env foundSocket foundFile noFd
      have files : ((socket pid).run env k).state.files = k.files := by
        rw [← kept.files, code]
        generalize (socket pid).run env k = out
        obtain ⟨value, state, log⟩ := out
        cases value <;> rfl
      rwa [files] at untyped
    | some =>
      intro empty
      obtain ⟨value, -⟩ := clean.fails (Or.inr (Or.inr (Or.inr empty)))
      rw [code, socket_run pid (by simp [noFd]), foundSocket, foundFile, noFd] at value
      simp at value
  · intro provided
    refine ⟨fun exhausted => ?_, nofun, nofun⟩
    have untyped (s f : Nat) (foundSocket : freeSocket k = some s)
        (foundFile : freeFile k = some f) (noFd : freeDescriptor (k.procs pid) = none)
        : (k.files f).type = .none := by
      have given := provided s f foundSocket foundFile
      rwa [noFd] at given
    rw [code, socket_run pid untyped]
    split
    · rename_i s f fd foundSocket foundFile foundFd
      have given := provided s f foundSocket foundFile
      rw [foundFd] at given
      simp [CannotComplete, Exhausted, foundSocket, foundFile, foundFd, given] at exhausted
    · exact ⟨rfl, .refl k _⟩

theorem bind_iff (sockfd : Int) (addr : UInt32) (port : UInt16)
    : (enter (.bind sockfd addr port)).LeavesNoTrace env k pid
      ↔ (enter (.bind sockfd addr port)).Provided env k pid := by
  have code : ((enter (.bind sockfd addr port)).code pid).run env k = _ :=
    bind_run sockfd addr port
  constructor
  · intro clean s last own named unbound free
    obtain ⟨value, -⟩ := clean.fails (Or.inl last.ge)
    rw [code, if_neg (by simp [last, own]), named] at value
    simp [unbound, last, free] at value
  · intro provided
    refine ⟨fun refused => ?_, nofun, nofun⟩
    suffices ((enter (.bind sockfd addr port)).code pid).run env k
        = ⟨some (.returns (-1)), k, []⟩ by
      rw [this]
      exact ⟨rfl, .refl k _⟩
    rw [code]
    split
    · rfl
    rename_i passed
    obtain ⟨inside, own⟩ := not_or.mp passed
    cases named : k.socketAt pid sockfd with
    | none => rfl
    | some s =>
      refine if_pos ?_
      rcases refused with high | other | refused
      · by_contra free
        obtain ⟨unbound, free⟩ := not_or.mp free
        have last : port.toNat = nPorts := by omega
        exact provided s last (not_not.mp own) named (not_not.mp unbound)
          (last ▸ not_not.mp free)
      · exact absurd other own
      · exact refused s named

theorem refused_leaves_no_trace {c : Call}
    (refused
      : (enter c).CannotComplete env k pid
          → (c.enter pid).run env k = ⟨some (.returns (-1)), k, []⟩)
    : (enter c).LeavesNoTrace env k pid := by
  refine ⟨fun cannot => ?_, nofun, nofun⟩
  rw [code, refused cannot]
  exact ⟨rfl, .refl k _⟩

theorem accepted_iff (s : Nat)
    : (resume (.wait .handshakeAck s)).LeavesNoTrace env k pid
      ↔ (resume (.wait .handshakeAck s)).Provided env k pid := by
  constructor
  · intro clean exhausted
    obtain ⟨value, -⟩ := clean.fails exhausted
    change ((acceptFinish pid s).run env (k.wake pid)).value = _ at value
    rw [acceptFinish_value] at value
    obtain ⟨fd, opened, same⟩ := Option.map_eq_some_iff.mp value
    cases same
    exact clean.indexes opened
  · intro enough
    refine ⟨fun exhausted => absurd exhausted enough, fun _ _ => kept_of_goesOn, ?_⟩
    obtain ⟨new, f, fd, foundSocket, foundFile, foundFd, -⟩ := not_exhausted enough
    have sockets : freeSocket ((k.wake pid).setTcpState s .listen) = some new := by
      rw [freeSocket_setTcpState]
      exact foundSocket
    have files : freeFile ((k.wake pid).setTcpState s .listen) = some f := foundFile
    have descriptors : freeDescriptor (((k.wake pid).setTcpState s .listen).procs pid)
        = some fd :=
      freeDescriptor_wake.trans foundFd
    rw [index, socket_run pid (by simp [descriptors]), sockets, files, descriptors]
    simp

end CallStep

/-- A call of `socket`, `bind`, `listen`, `connect` or `accept` that cannot complete leaves no
trace, if and only if it is not left to fail where the code does not look: without a page, at
the port after the last one, or in the `socket` that `accept` calls.
-/
theorem failed_call_leaves_no_trace_iff (env : Env) (k : Kernel) (pid : Nat) (step : CallStep)
    : step.LeavesNoTrace env k pid ↔ step.Provided env k pid := by
  cases step with
  | enter c =>
    cases c with
    | socket => exact CallStep.socket_iff
    | bind sockfd addr port => exact CallStep.bind_iff sockfd addr port
    | listen sockfd | connect sockfd dstAddr dstPort =>
      refine iff_of_true (CallStep.refused_leaves_no_trace fun refused => ?_) trivial
      refine onSocket_refused fun s named => ?_
      simp [refused s named]
    | accept =>
      refine iff_of_true (CallStep.refused_leaves_no_trace fun refused => ?_) trivial
      refine onSocket_refused fun s named => ?_
      rcases refused s named with closed | taken
      · simp [closed]
      · simp [taken, run_ite]
    | _ => exact iff_of_true (CallStep.refused_leaves_no_trace nofun) trivial
  | resume pc =>
    cases pc with
    | wait w s =>
      cases w with
      | handshakeAck => exact CallStep.accepted_iff s
      | _ => exact iff_of_true ⟨nofun, fun _ _ => CallStep.kept_of_goesOn, nofun⟩ trivial
    | _ => exact iff_of_true ⟨nofun, fun _ _ => CallStep.kept_of_goesOn, nofun⟩ trivial

/-- A process with a socket of its own, at descriptor 0. -/
def oneSocket : Kernel :=
  (Kernel.boot 0 0 0).openSocket 0 0 0 0 (some fun _ => 0)

def outOfMemory : Env :=
  { frame := fun _ => 0, stale := fun _ => 0, kalloc := none }

/-- `socket` returns a descriptor of a socket without a buffer, `bind` takes the port after
the last one, and `accept` goes on with whatever `socket` returned.
-/
theorem failed_calls_leave_traces
    : ¬ (CallStep.enter .socket).LeavesNoTrace outOfMemory oneSocket 0
      ∧ ¬ (CallStep.enter (.bind 0 0 2048)).LeavesNoTrace outOfMemory oneSocket 0
      ∧ ¬ (CallStep.resume (.wait .handshakeAck 0)).LeavesNoTrace outOfMemory oneSocket 0 := by
  refine ⟨fun clean => ?_, fun clean => ?_, fun clean => ?_⟩
  · exact CallStep.socket_iff.mp clean 1 1 (by decide) (by decide) rfl
  · exact (CallStep.bind_iff 0 0 2048).mp clean 0 rfl rfl (by decide) (by decide) (by decide)
  · exact (CallStep.accepted_iff 0).mp clean (Or.inr (Or.inr (Or.inr rfl)))

end Xv6Net
