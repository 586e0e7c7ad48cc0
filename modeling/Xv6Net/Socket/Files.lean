import Xv6Net.Kernel.State
import Xv6Net.Library.Scan

/-! Sockets as open files: the allocators of `socket.c`, `file.c` and `sysfile.c`, the
reference counts that `fork`, `dup` and `close` keep, and `socketclose`. Each of them runs
under a lock of its own, and is one step here.
-/

namespace Xv6Net

open Library Function Kernel

def freeSocket (k : Kernel) : Option Nat :=
  (List.range nSockets).find? fun i => (k.sockets i).state = .free

def freeFile (k : Kernel) : Option Nat :=
  (List.range nFile).find? fun i => (k.files i).ref = 0

def freeDescriptor (p : Proc) : Option Nat :=
  (List.range noFile).find? fun fd => p.ofile fd = none

def freeProc (k : Kernel) : Option Nat :=
  (List.range nProc).find? fun i => (k.procs i).state = .unused

def socketalloc : KernelM (Option Nat) := do
  match freeSocket (← Program.get) with
  | none => pure none
  | some s =>
    Program.modify (·.setSocket s fun socket => { socket with state := .unbound })
    pure (some s)

def socketfree (s : Nat) : KernelM Unit :=
  Program.modify (·.setSocket s fun socket => { socket with state := .free })

def filealloc : KernelM (Option Nat) := do
  match freeFile (← Program.get) with
  | none => pure none
  | some f =>
    Program.modify (·.setFile f fun file => { file with ref := 1 })
    pure (some f)

/-- `fdalloc`; -1 is `none`. -/
def fdalloc (pid f : Nat) : KernelM (Option Nat) := do
  match freeDescriptor ((← Program.get).procs pid) with
  | none => pure none
  | some fd =>
    Program.modify (·.setProc pid fun p =>
      { p with ofile := update p.ofile fd (some f) })
    pure (some fd)

def filedup (f : Nat) : KernelM Unit := do
  if ((← Program.get).files f).ref < 1 then
    Program.stop
  else
    Program.modify (·.setFile f fun file => { file with ref := file.ref + 1 })

/-- What `socketclose` leaves of the entry of the port, under `portlock`. -/
def Port.release (port : Port) (s : Nat) : Port :=
  if port.activeSocket = some s then
    { port with
      activeSocket := none
      pid := if port.passiveSocket = none then -1 else port.pid }
  else if port.passiveSocket = some s then
    { port with passiveSocket := none, pid := -1 }
  else
    port

/-- `socketclose`. `kfree` of a null buffer panics. -/
def socketclose (s : Nat) : KernelM Unit := do
  let socket := (← Program.get).sockets s
  if socket.allocated = false then
    Program.stop
  else
    Program.modify (·.setSocket s fun _ => .zero)
    socketfree s
    Program.modify (·.setPort socket.port.toNat (·.release s))

/-- `fileclose`, on the files of this model: pipes and inodes belong to other parts of the
kernel.
-/
def fileclose (f : Nat) : KernelM Unit := do
  let file := (← Program.get).files f
  if file.ref < 1 then
    Program.stop
  else if file.ref - 1 > 0 then
    Program.modify (·.setFile f fun file => { file with ref := file.ref - 1 })
  else
    Program.modify (·.setFile f fun file => { file with ref := 0, type := .none })
    match file.type, file.socket with
    | .socket, some s => socketclose s
    | _, _ => pure ()

/-- The socket at a descriptor of the process: the tests with which every socket call
starts.
-/
def Kernel.socketAt (k : Kernel) (pid : Nat) (sockfd : Int) : Option Nat :=
  if sockfd < 0 ∨ sockfd ≥ noFile then
    none
  else
    match (k.procs pid).ofile sockfd.toNat with
    | none => none
    | some f => if (k.files f).type ≠ .socket then none else (k.files f).socket

/-- `sys_close`. -/
def close (pid : Nat) (fd : Int) : KernelM Int := do
  if fd < 0 ∨ fd ≥ noFile then
    pure (-1)
  else
    match ((← Program.get).procs pid).ofile fd.toNat with
    | none => pure (-1)
    | some f =>
      Program.modify (·.setProc pid fun p =>
        { p with ofile := update p.ofile fd.toNat none })
      fileclose f
      pure 0

def socket (pid : Nat) : KernelM Int := do
  match ← socketalloc with
  | none => pure (-1)
  | some s =>
    match ← filealloc with
    | none =>
      socketfree s
      pure (-1)
    | some f =>
      match ← fdalloc pid f with
      | none =>
        fileclose f
        socketfree s
        pure (-1)
      | some fd =>
        let page := (← Program.env).kalloc
        Program.modify (·.setSocket s fun socket =>
          { socket with allocated := page.isSome, buffer := page.getD socket.buffer })
        Program.modify (·.setFile f fun file =>
          { file with type := .socket, socket := some s })
        pure fd

/-- `sys_dup`. -/
def dup (pid : Nat) (fd : Int) : KernelM Int := do
  if fd < 0 ∨ fd ≥ noFile then
    pure (-1)
  else
    match ((← Program.get).procs pid).ofile fd.toNat with
    | none => pure (-1)
    | some f =>
      match ← fdalloc pid f with
      | none => pure (-1)
      | some newfd =>
        filedup f
        pure newfd

/-- One pass of the loop of `fork` over the parent's descriptors. -/
def forkFile (pid child fd : Nat) : KernelM Unit := do
  match ((← Program.get).procs pid).ofile fd with
  | none => pure ()
  | some f =>
    filedup f
    Program.modify (·.setProc child fun p =>
      { p with ofile := update p.ofile fd (some f) })

/-- `fork`; `copyuvm` fails when memory is exhausted. -/
def fork (pid : Nat) : KernelM Int := do
  match freeProc (← Program.get) with
  | none => pure (-1)
  | some child =>
    if (← Program.env).kalloc.isNone then
      pure (-1)
    else
      (List.range noFile).forM (forkFile pid child)
      Program.modify (·.setProc child fun p =>
        { p with state := .runnable, chan := none, killed := false })
      pure child

/-- `exit` after its loop over the open files, whose `fileclose` calls are steps of their
own, and `wait` by the parent, which frees the slot.
-/
def exit (pid : Nat) : KernelM Unit := do
  let p := (← Program.get).procs pid
  if (List.range noFile).all fun fd => (p.ofile fd).isNone then
    Program.modify (·.setProc pid fun p => { p with state := .unused })
  else
    Program.stop

/-- A file that nothing refers to has no type: `fileclose` resets it. -/
def Kernel.Tidy (k : Kernel) : Prop :=
  ∀ f, (k.files f).ref < 1 → (k.files f).type = .none

/-- The kernel after socket `s` was opened as file `f` at descriptor `fd`. -/
def Kernel.openSocket (k : Kernel) (pid s f fd : Nat) (page : Option (Int → UInt8))
    : Kernel :=
  ((k.setSocket s fun socket =>
    { socket with
      state := .unbound
      allocated := page.isSome
      buffer := page.getD socket.buffer }).setFile f fun _ =>
    { type := .socket, ref := 1, socket := some s }).setProc pid fun p =>
    { p with ofile := update p.ofile fd (some f) }

/-- The kernel after `socketclose`. -/
def Kernel.closeSocket (k : Kernel) (s : Nat) : Kernel :=
  (k.setSocket s fun _ => .zero).setPort (k.sockets s).port.toNat (·.release s)

/-- The kernel after a descriptor of a process was cleared. -/
def Kernel.clearDescriptor (k : Kernel) (pid fd : Nat) : Kernel :=
  k.setProc pid fun p => { p with ofile := update p.ofile fd none }

/-- Everything that `fileclose` can do without a panic. -/
inductive CloseMove (k : Kernel) (f : Nat) : Kernel → Prop where
  | shared (more : 1 < (k.files f).ref)
      : CloseMove k f (k.setFile f fun file => { file with ref := file.ref - 1 })
  | last (only : (k.files f).ref = 1)
      (other : (k.files f).type ≠ .socket ∨ (k.files f).socket = none)
      : CloseMove k f (k.setFile f fun file => { file with ref := 0, type := .none })
  | lastSocket (s : Nat) (only : (k.files f).ref = 1) (type : (k.files f).type = .socket)
      (refers : (k.files f).socket = some s) (allocated : (k.sockets s).allocated = true)
      : CloseMove k f
          ((k.setFile f fun file => { file with ref := 0, type := .none }).closeSocket s)

/-- One pass of the loop of `fork`, without its panic. -/
def Kernel.shareFile (k : Kernel) (pid child fd : Nat) : Kernel :=
  match (k.procs pid).ofile fd with
  | none => k
  | some f =>
    (k.setFile f fun file => { file with ref := file.ref + 1 }).setProc child fun p =>
      { p with ofile := update p.ofile fd (some f) }

/-- The kernel after `fork`. -/
def Kernel.forked (k : Kernel) (pid child : Nat) : Kernel :=
  ((List.range noFile).foldl (fun k fd => k.shareFile pid child fd) k).setProc child fun p =>
    { p with state := .runnable, chan := none, killed := false }

variable {env : Env} {k : Kernel}

theorem freeSocket_spec {s : Nat} (found : freeSocket k = some s)
    : s < nSockets ∧ (k.sockets s).state = .free := by
  simpa using Scan.find_range_spec found

variable {f pid : Nat} {k' : Kernel} {log : List Event}

theorem freeFile_spec (found : freeFile k = some f)
    : f < nFile ∧ (k.files f).ref = 0 := by
  simpa using Scan.find_range_spec found

theorem freeDescriptor_spec {p : Proc} {fd : Nat} (found : freeDescriptor p = some fd)
    : fd < noFile ∧ p.ofile fd = none := by
  simpa using Scan.find_range_spec found

theorem freeProc_spec (found : freeProc k = some pid)
    : pid < nProc ∧ (k.procs pid).state = .unused := by
  simpa using Scan.find_range_spec found

theorem Kernel.Tidy.freeFile (tidy : k.Tidy) (found : freeFile k = some f)
    : (k.files f).type = .none :=
  tidy f (by rw [(freeFile_spec found).2]; decide)

/-- `socket` opens a socket when it finds a free one, a free file and a free descriptor, and
leaves everything as it was otherwise, given that the file it has to give back has no type.
-/
theorem socket_run (pid : Nat)
    (untyped
      : ∀ s f, freeSocket k = some s → freeFile k = some f
          → freeDescriptor (k.procs pid) = none → (k.files f).type = .none)
    : (socket pid).run env k
      = match freeSocket k, freeFile k, freeDescriptor (k.procs pid) with
        | some s, some f, some fd => ⟨some fd, k.openSocket pid s f fd env.kalloc, []⟩
        | _, _, _ => ⟨some (-1), k, []⟩ := by
  cases noSocket : freeSocket k with
  | none => simp [socket, socketalloc, noSocket]
  | some s =>
    obtain ⟨-, free⟩ := freeSocket_spec noSocket
    -- the allocators look at tables that the allocations before them leave alone
    have unmarked : { k.sockets s with state := .free } = k.sockets s := by rw [← free]
    have files (f : Socket → Socket) : freeFile (k.setSocket s f) = freeFile k := rfl
    cases noFile : freeFile k with
    | none =>
      simp [socket, socketalloc, filealloc, socketfree, noSocket, files, noFile]
      simp [setSocket, unmarked]
    | some f =>
      obtain ⟨-, closed⟩ := freeFile_spec noFile
      cases noFd : freeDescriptor (k.procs pid) with
      | none =>
        have type := untyped s f noSocket noFile noFd
        have unchanged : { k.files f with ref := 0, type := .none } = k.files f := by
          rw [← closed, ← type]
        simp [socket, socketalloc, filealloc, fdalloc, fileclose, socketfree, noSocket,
          files, noFile, noFd, setFile, type, run_ite]
        simp [setSocket, unmarked, unchanged]
      | some =>
        simp [socket, socketalloc, filealloc, fdalloc, noSocket, files, noFile, noFd, setFile]
        simp [openSocket, setProc, setSocket, setFile]

theorem socketclose_run (s : Nat)
    : (socketclose s).run env k
      = if (k.sockets s).allocated = false then ⟨none, k, []⟩
        else ⟨some (), k.closeSocket s, []⟩ := by
  simp only [socketclose, socketfree, run_bind, run_get, andThen_some, run_ite, after_nil]
  split
  · rfl
  · simp [closeSocket, Socket.zero]

theorem fileclose_move (done : (fileclose f).run env k = ⟨some (), k', log⟩)
    : log = [] ∧ CloseMove k f k' := by
  simp only [fileclose, run_bind, run_get, andThen_some, run_ite, after_nil] at done
  split at done
  · cases done
  · rename_i counted
    split at done
    · rename_i more
      cases done
      exact ⟨rfl, .shared (by omega)⟩
    · rename_i only
      have last : (k.files f).ref = 1 := by omega
      simp only [run_modify, andThen_some, after_nil] at done
      cases type : (k.files f).type with
      | socket =>
        cases refers : (k.files f).socket with
        | none =>
          simp only [type, refers] at done
          cases done
          exact ⟨rfl, .last last (Or.inr refers)⟩
        | some s =>
          simp only [type, refers, socketclose_run] at done
          split at done
          · cases done
          · rename_i allocated
            cases done
            exact ⟨rfl, .lastSocket s last type refers (Bool.not_eq_false _ ▸ allocated)⟩
      | _ =>
        simp only [type] at done
        cases done
        exact ⟨rfl, .last last (Or.inl (by simp [type]))⟩

theorem forkFile_run {child fd : Nat}
    (done : (forkFile pid child fd).run env k = ⟨some (), k', log⟩)
    : log = [] ∧ k' = k.shareFile pid child fd := by
  simp only [forkFile, run_bind, run_get, andThen_some, after_nil] at done
  unfold Kernel.shareFile
  cases open_ : (k.procs pid).ofile fd with
  | none =>
    simp only [open_] at done
    cases done
    exact ⟨rfl, rfl⟩
  | some =>
    simp only [open_, filedup, run_bind, run_get, andThen_some, after_nil, run_ite] at done
    split at done
    · cases done
    · cases done
      exact ⟨rfl, rfl⟩

theorem forkFiles_run {child : Nat} {fds : List Nat}
    (done : (fds.forM (forkFile pid child)).run env k = ⟨some (), k', log⟩)
    : log = [] ∧ k' = fds.foldl (fun k fd => k.shareFile pid child fd) k := by
  induction fds generalizing k log with
  | nil =>
    cases done
    exact ⟨rfl, rfl⟩
  | cons fd rest ih =>
    change ((forkFile pid child fd).run env k).andThen
      (fun _ current => (rest.forM (forkFile pid child)).run env current) = _ at done
    generalize first : (forkFile pid child fd).run env k = out at done
    obtain ⟨value, state, events⟩ := out
    cases value with
    | none => cases done
    | some =>
      obtain ⟨rfl, rfl⟩ := forkFile_run first
      rw [andThen_some, after_nil] at done
      exact ih done

end Xv6Net
