import Xv6Net.Library.RefCount
import Xv6Net.Socket.Blocking

/-! The reference counts of the open files. A count is the number of descriptors that refer to
the file, and no two files are the same socket; so `close` frees a socket only when no other
process can be using it.
-/

namespace Xv6Net

open Library Function Kernel

def Kernel.descriptors (k : Kernel) (pid fd : Nat) : Option Nat :=
  (k.procs pid).ofile fd

/-- How many descriptors refer to file `f`. -/
abbrev Kernel.holders (k : Kernel) (f : Nat) : Nat :=
  references k.descriptors nProc noFile f

/-- The reference counts are right, and each open socket is one file. -/
structure FileTable (k : Kernel) : Prop where
  tidy : k.Tidy
  counted : ∀ f, (k.files f).ref = k.holders f
  opened
    : ∀ f, (k.files f).type = .socket
        → ∃ s, (k.files f).socket = some s ∧ s < nSockets ∧ (k.sockets s).state ≠ .free
  single
    : ∀ f g, (k.files f).type = .socket → (k.files g).type = .socket
        → (k.files f).socket = (k.files g).socket → f = g

structure FilesInv (k : Kernel) : Prop extends FileTable k where
  unused : ∀ pid, (k.procs pid).state = .unused → ∀ fd, fd < noFile → k.descriptors pid fd = none

/-- A descriptor of the process refers to socket `s`. -/
def Kernel.Holds (k : Kernel) (pid s : Nat) : Prop :=
  ∃ fd f,
    fd < noFile
    ∧ k.descriptors pid fd = some f
    ∧ (k.files f).type = .socket
    ∧ (k.files f).socket = some s

variable {k k' : Kernel} {pid s : Nat}

theorem Kernel.holds_of_socketAt {sockfd : Int} (named : k.socketAt pid sockfd = some s)
    : k.Holds pid s := by
  simp only [Kernel.socketAt] at named
  split at named
  · cases named
  · rename_i inside
    split at named
    · cases named
    · rename_i f open_
      split at named
      · cases named
      · rename_i isSocket
        refine ⟨sockfd.toNat, f, ?_, open_, not_not.mp isSocket, named⟩
        simp only [noFile] at *
        omega

theorem FileTable.holds (inv : FileTable k) (holds : k.Holds pid s)
    : s < nSockets ∧ (k.sockets s).state ≠ .free := by
  obtain ⟨fd, f, -, -, type, refers⟩ := holds
  obtain ⟨t, same, inside, live⟩ := inv.opened f type
  rw [refers] at same
  cases same
  exact ⟨inside, live⟩

theorem FileTable.of_same (inv : FileTable k) (files : k'.files = k.files)
    (descriptors : k'.descriptors = k.descriptors)
    (live : ∀ s, (k.sockets s).state ≠ .free → (k'.sockets s).state ≠ .free)
    : FileTable k' where
  tidy := inv.tidy.of_files files
  counted f := by rw [files, Kernel.holders, descriptors]; exact inv.counted f
  opened f type := by
    rw [files] at type ⊢
    obtain ⟨s, refers, inside, busy⟩ := inv.opened f type
    exact ⟨s, refers, inside, live s busy⟩
  single := by rw [files]; exact inv.single

theorem FilesInv.of_same (inv : FilesInv k) (files : k'.files = k.files)
    (descriptors : k'.descriptors = k.descriptors)
    (unused : ∀ pid, (k'.procs pid).state = .unused → (k.procs pid).state = .unused)
    (live : ∀ s, (k.sockets s).state ≠ .free → (k'.sockets s).state ≠ .free)
    : FilesInv k' where
  toFileTable := inv.toFileTable.of_same files descriptors live
  unused pid gone := by rw [descriptors]; exact inv.unused pid (unused pid gone)

theorem Kernel.Holds.of_same (holds : k.Holds pid s) (files : k'.files = k.files)
    (descriptors : k'.descriptors = k.descriptors)
    : k'.Holds pid s := by
  rw [Kernel.Holds, files, descriptors]
  exact holds

variable {fd f other : Nat} {c : Call} {pc : Pc} {sys : Sys}

/-- The counts after a descriptor has changed from `old` to `new`, and the counts of the two files
with it.
-/
theorem FileTable.recount {old new : Option Nat} (inv : FileTable k) (row : pid < nProc)
    (column : fd < noFile) (before : k.descriptors pid fd = old)
    (after : k'.descriptors pid fd = new)
    (others : ∀ a b, ¬ (a = pid ∧ b = fd) → k'.descriptors a b = k.descriptors a b)
    (refs
      : ∀ f, (k'.files f).ref + (if old = some f then 1 else 0)
          = (k.files f).ref + (if new = some f then 1 else 0)) (f : Nat)
    : (k'.files f).ref = k'.holders f := by
  have change : k'.holders f + (if k.descriptors pid fd = some f then 1 else 0)
      = k.holders f + (if k'.descriptors pid fd = some f then 1 else 0) :=
    references_change row column others
  rw [before, after] at change
  have counted := inv.counted f
  have ref := refs f
  split_ifs at change ref <;> omega

theorem Kernel.descriptors_setProc (k : Kernel) {g : Proc → Proc} (pid : Nat)
    (same : (g (k.procs pid)).ofile = (k.procs pid).ofile)
    : (k.setProc pid g).descriptors = k.descriptors := by
  funext other fd
  by_cases here : other = pid
  · subst here
    simp [Kernel.descriptors, same]
  · simp [Kernel.descriptors, update_of_ne here]

theorem Kernel.descriptors_update {p : Proc} {value : Option Nat}
    (procs : k'.procs = update k.procs pid p)
    (ofile : p.ofile = update (k.procs pid).ofile fd value)
    : k'.descriptors pid fd = value
      ∧ ∀ a b, ¬ (a = pid ∧ b = fd) → k'.descriptors a b = k.descriptors a b := by
  refine ⟨by simp [Kernel.descriptors, procs, ofile], fun a b other => ?_⟩
  by_cases here : a = pid
  · subst here
    have elsewhere : b ≠ fd := fun same => other ⟨rfl, same⟩
    simp [Kernel.descriptors, procs, ofile, update_of_ne elsewhere]
  · simp [Kernel.descriptors, procs, update_of_ne here]

variable {page : Option (Int → UInt8)} {t child : Nat}

/-- A new socket gets one file, and that one descriptor. -/
theorem FilesInv.openSocket (inv : FilesInv k) (row : pid < nProc)
    (alive : (k.procs pid).state ≠ .unused) (inside : s < nSockets)
    (idle : (k.sockets s).state = .free) (closed : (k.files f).ref = 0) (column : fd < noFile)
    (empty : k.descriptors pid fd = none)
    : FilesInv (k.openSocket pid s f fd page) := by
  have unreferred {g : Nat} (type : (k.files g).type = .socket)
      : (k.files g).socket ≠ some s := by
    intro refers
    obtain ⟨t, same, -, live⟩ := inv.opened g type
    rw [refers] at same
    cases same
    exact live idle
  have old {g : Nat} (other : g ≠ f) : (k.openSocket pid s f fd page).files g = k.files g := by
    simp [Kernel.openSocket, update_of_ne other]
  have new : (k.openSocket pid s f fd page).files f
      = { type := .socket, ref := 1, socket := some s } := by
    simp [Kernel.openSocket]
  have procs : (k.openSocket pid s f fd page).procs = update k.procs pid _ := rfl
  obtain ⟨set, others⟩ := descriptors_update procs rfl
  refine ⟨⟨openSocket_tidy inv.tidy pid s f fd page, ?_, ?_, ?_⟩, ?_⟩
  · refine inv.recount row column empty set others fun g => ?_
    by_cases same : g = f
    · subst same
      simp [new, closed]
    · simp [old same, Ne.symm same]
  · intro g type
    by_cases same : g = f
    · subst same
      exact ⟨s, by rw [new], inside, by simp [Kernel.openSocket]⟩
    · rw [old same] at type ⊢
      obtain ⟨t, refers, low, live⟩ := inv.opened g type
      have other : t ≠ s := by
        rintro rfl
        exact live idle
      exact ⟨t, refers, low, by simpa [Kernel.openSocket, update_of_ne other]⟩
  · intro g h typeG typeH same
    by_cases one : g = f
    · by_cases two : h = f
      · rw [one, two]
      · rw [old two] at typeH same
        rw [one, new] at same
        exact absurd same.symm (unreferred typeH)
    · rw [old one] at typeG same
      by_cases two : h = f
      · rw [two, new] at same
        exact absurd same (unreferred typeG)
      · rw [old two] at typeH same
        exact inv.single g h typeG typeH same
  · intro other gone b low
    have differs : other ≠ pid := by
      rintro rfl
      exact alive (by simpa [Kernel.openSocket] using gone)
    rw [others other b fun same => differs same.1]
    exact inv.unused other (by simpa [Kernel.openSocket, update_of_ne differs] using gone)
      b low

theorem Kernel.Holds.openSocket (holds : k.Holds other t)
    (inv : FilesInv k) (row : other < nProc) (closed : (k.files f).ref = 0)
    (empty : k.descriptors pid fd = none)
    : (k.openSocket pid s f fd page).Holds other t := by
  obtain ⟨b, g, low, open_, type, refers⟩ := holds
  have elsewhere : g ≠ f := by
    rintro rfl
    have pos : 0 < k.holders g := references_pos row low open_
    have counted := inv.counted g
    omega
  have procs : (k.openSocket pid s f fd page).procs = update k.procs pid _ := rfl
  refine ⟨b, g, low, ?_, ?_, ?_⟩
  · rw [(descriptors_update procs rfl).2 other b fun same => ?_]
    · exact open_
    · rw [same.1, same.2, empty] at open_
      cases open_
  · simpa [Kernel.openSocket, update_of_ne elsewhere] using type
  · simpa [Kernel.openSocket, update_of_ne elsewhere] using refers

/-- What `close` leaves of a file and the tables, whether or not it frees the socket. -/
theorem FilesInv.close (inv : FilesInv k) (row : pid < nProc)
    (alive : (k.procs pid).state ≠ .unused) (column : fd < noFile)
    (named : k.descriptors pid fd = some f) (closed : CloseMove (k.clearDescriptor pid fd) f k')
    : FilesInv k' := by
  have old {g : Nat} (other : g ≠ f) : k'.files g = k.files g := by
    cases closed <;>
      simp [closeSocket, clearDescriptor, update_of_ne other]
  have procs : k'.procs = update k.procs pid
      { k.procs pid with ofile := update (k.procs pid).ofile fd none } := by
    cases closed <;> simp [closeSocket, clearDescriptor]
  obtain ⟨cleared, others⟩ := descriptors_update procs rfl
  -- another file is another socket, which is not the one freed
  have live {g t : Nat} (other : g ≠ f) (type : (k.files g).type = .socket)
      (refers : (k.files g).socket = some t) (open_ : (k.sockets t).state ≠ .free)
      : (k'.sockets t).state ≠ .free := by
    cases closed with
    | shared more | last only nothing => exact open_
    | lastSocket s only isSocket freed =>
      have differs : t ≠ s := by
        rintro rfl
        exact other (inv.single g f type isSocket (refers.trans freed.symm))
      simpa [closeSocket, clearDescriptor, update_of_ne differs]
        using open_
  refine ⟨⟨closed.tidy (inv.tidy.of_files rfl), ?_, ?_, ?_⟩, ?_⟩
  · refine inv.recount row column named cleared others fun g => ?_
    by_cases same : g = f
    · subst same
      cases closed with
      | shared => simp [clearDescriptor]
      | last only =>
        simpa [clearDescriptor] using only.symm
      | lastSocket s only =>
        simpa [closeSocket, clearDescriptor] using only.symm
    · simp [old same, Ne.symm same]
  · intro g type
    by_cases same : g = f
    · subst same
      cases closed with
      | shared =>
        simp only [clearDescriptor, setFile_files, setProc_files,
          update_self, setFile_sockets, setProc_sockets] at type ⊢
        exact inv.opened g type
      | last => simp at type
      | lastSocket => simp [closeSocket] at type
    · rw [old same] at type ⊢
      obtain ⟨t, refers, inside, open_⟩ := inv.opened g type
      exact ⟨t, refers, inside, live same type refers open_⟩
  · have kept {g : Nat} (type : (k'.files g).type = .socket)
        : (k.files g).type = .socket ∧ (k'.files g).socket = (k.files g).socket := by
      by_cases same : g = f
      · subst same
        cases closed with
        | shared => simpa [clearDescriptor] using type
        | last => simp at type
        | lastSocket => simp [closeSocket] at type
      · rw [old same] at type ⊢
        exact ⟨type, rfl⟩
    intro g h typeG typeH same
    rw [(kept typeG).2, (kept typeH).2] at same
    exact inv.single g h (kept typeG).1 (kept typeH).1 same
  · intro other gone b low
    have differs : other ≠ pid := by
      rintro rfl
      exact alive (by simpa [procs] using gone)
    rw [others other b fun same => differs same.1]
    exact inv.unused other (by simpa [procs, update_of_ne differs] using gone) b low

/-- `close` takes no socket away from another process: one that is freed was referred to once. -/
theorem Kernel.Holds.close (holds : k.Holds other s) (inv : FilesInv k) (row : pid < nProc)
    (column : fd < noFile) (named : k.descriptors pid fd = some f)
    (closed : CloseMove (k.clearDescriptor pid fd) f k') (row' : other < nProc)
    (differs : other ≠ pid)
    : k'.Holds other s ∧ k'.sockets s = k.sockets s := by
  obtain ⟨b, g, low, open_, type, refers⟩ := holds
  have procs : k'.procs other = k.procs other := by
    cases closed <;>
      simp [closeSocket, clearDescriptor, update_of_ne differs]
  have kept : k'.descriptors other b = some g := by
    rw [Kernel.descriptors, procs]
    exact open_
  -- a file with a second descriptor is not closed for good
  have shared (only : ((k.clearDescriptor pid fd).files f).ref = 1) : g ≠ f := by
    rintro rfl
    have once : k.holders g = 1 := by
      have counted := inv.counted g
      rw [show (k.files g).ref = 1 from only] at counted
      omega
    exact differs (references_unique once row column named row' low open_).1
  cases closed with
  | shared =>
    refine ⟨⟨b, g, low, kept, ?_, ?_⟩, rfl⟩
    · by_cases same : g = f
      · subst same
        simpa [clearDescriptor] using type
      · simpa [clearDescriptor, update_of_ne same] using type
    · by_cases same : g = f
      · subst same
        simpa [clearDescriptor] using refers
      · simpa [clearDescriptor, update_of_ne same] using refers
  | last only =>
    have other := shared only
    refine ⟨⟨b, g, low, kept, ?_, ?_⟩, rfl⟩
    · simpa [clearDescriptor, update_of_ne other] using type
    · simpa [clearDescriptor, update_of_ne other] using refers
  | lastSocket t only isSocket freed =>
    have other := shared only
    have elsewhere : s ≠ t := by
      rintro rfl
      exact other (inv.single g f type isSocket (refers.trans freed.symm))
    refine ⟨⟨b, g, low, kept, ?_, ?_⟩, ?_⟩
    · simpa [closeSocket, clearDescriptor, update_of_ne other]
        using type
    · simpa [closeSocket, clearDescriptor, update_of_ne other]
        using refers
    · simp [closeSocket, clearDescriptor, update_of_ne elsewhere]

/-- One descriptor more for an open file, in `dup` and in each pass of the loop of `fork`. -/
theorem FileTable.share (inv : FileTable k) (row : pid < nProc) (column : fd < noFile)
    (empty : k.descriptors pid fd = none)
    (procs
      : k'.procs = update k.procs pid
          { k.procs pid with ofile := update (k.procs pid).ofile fd (some f) })
    (files
      : k'.files = update k.files f
          { k.files f with ref := (k.files f).ref + 1 }) (sockets : k'.sockets = k.sockets)
    : FileTable k' := by
  have same (g : Nat)
      : (k'.files g).type = (k.files g).type ∧ (k'.files g).socket = (k.files g).socket := by
    rw [files, update_apply]
    split
    · rename_i here
      rw [here]
      exact ⟨rfl, rfl⟩
    · exact ⟨rfl, rfl⟩
  obtain ⟨set, others⟩ := descriptors_update procs rfl
  refine ⟨?_, ?_, ?_, ?_⟩
  · intro g closed
    rw [(same g).1]
    refine inv.tidy g ?_
    rw [files, update_apply] at closed
    split at closed
    · rename_i here
      rw [here]
      exact lt_of_lt_of_le (lt_add_one _) (le_of_lt closed)
    · exact closed
  · refine inv.recount row column empty set others fun g => ?_
    by_cases here : g = f
    · subst here
      simp [files]
    · simp [files, update_of_ne here, Ne.symm here]
  · intro g type
    rw [(same g).1] at type
    rw [(same g).2, sockets]
    exact inv.opened g type
  · intro g h typeG typeH refers
    rw [(same g).1] at typeG
    rw [(same h).1] at typeH
    rw [(same g).2, (same h).2] at refers
    exact inv.single g h typeG typeH refers

/-- What the loop of `fork` has done: descriptors of the child refer to files of the parent, and
only the counts have changed.
-/
structure SharedWith (k k' : Kernel) (child : Nat) : Prop where
  table : FileTable k'
  rows : ∀ other, other ≠ child → k'.procs other = k.procs other
  state : (k'.procs child).state = (k.procs child).state
  type : ∀ f, (k'.files f).type = (k.files f).type
  socket : ∀ f, (k'.files f).socket = (k.files f).socket
  sockets : k'.sockets = k.sockets
  ports : k'.ports = k.ports

theorem SharedWith.refl (inv : FileTable k) (child : Nat) : SharedWith k k child :=
  ⟨inv, fun _ _ => rfl, rfl, fun _ => rfl, fun _ => rfl, rfl, rfl⟩

/-- The descriptors of the child are empty until they are copied. -/
theorem SharedWith.loop (row : child < nProc)
    {fds : List Nat} (distinct : fds.Nodup) (column : ∀ fd ∈ fds, fd < noFile)
    (inv : FileTable k) (empty : ∀ fd ∈ fds, k.descriptors child fd = none)
    : SharedWith k (fds.foldl (fun k fd => k.shareFile pid child fd) k) child := by
  induction fds generalizing k with
  | nil => exact .refl inv child
  | cons fd rest ih =>
    obtain ⟨fresh, distinct⟩ := List.nodup_cons.mp distinct
    -- one pass
    have one : SharedWith k (k.shareFile pid child fd) child
        ∧ ∀ other ∈ rest, (k.shareFile pid child fd).descriptors child other = none := by
      unfold Kernel.shareFile
      cases open_ : (k.procs pid).ofile fd with
      | none =>
        exact ⟨.refl inv child, fun other member => empty other (List.mem_cons_of_mem _ member)⟩
      | some f =>
        simp only
        refine ⟨⟨?_, ?_, ?_, ?_, ?_, rfl, rfl⟩, ?_⟩
        · exact inv.share row (column fd List.mem_cons_self) (empty fd List.mem_cons_self)
            rfl rfl rfl
        · intro other differs
          simp [update_of_ne differs]
        · simp
        · intro g
          by_cases here : g = f
          · subst here
            simp
          · simp [update_of_ne here]
        · intro g
          by_cases here : g = f
          · subst here
            simp
          · simp [update_of_ne here]
        · intro other member
          have differs : other ≠ fd := by
            rintro rfl
            exact fresh member
          simpa [Kernel.descriptors, update_of_ne differs]
            using empty other (List.mem_cons_of_mem _ member)
    obtain ⟨first, empty⟩ := one
    have rest := ih distinct (fun other member => column other (List.mem_cons_of_mem _ member))
      first.table empty
    refine ⟨rest.table, ?_, rest.state.trans first.state, ?_, ?_,
      rest.sockets.trans first.sockets, rest.ports.trans first.ports⟩
    · intro other differs
      exact (rest.rows other differs).trans (first.rows other differs)
    · intro f
      exact (rest.type f).trans (first.type f)
    · intro f
      exact (rest.socket f).trans (first.socket f)

variable {env : Env} {next : Next} {log : List Event}

/-- The child shares the open files, and each is counted once more. -/
theorem FilesInv.forked_spec (inv : FilesInv k) (free : freeProc k = some child)
    : FilesInv (k.forked pid child)
      ∧ (∀ other, other ≠ child → (k.forked pid child).procs other = k.procs other)
      ∧ ∀ other s, other ≠ child → k.Holds other s → (k.forked pid child).Holds other s := by
  obtain ⟨row, gone⟩ := freeProc_spec free
  have loop : SharedWith k
      ((List.range noFile).foldl (fun k fd => k.shareFile pid child fd) k) child :=
    .loop row List.nodup_range (fun fd member => List.mem_range.mp member) inv.toFileTable
      (fun fd member => inv.unused child gone fd (List.mem_range.mp member))
  have descriptors := descriptors_setProc
    ((List.range noFile).foldl (fun k fd => k.shareFile pid child fd) k)
    (g := fun p => { p with state := .runnable, chan := none, killed := false }) child rfl
  have rows (other : Nat) (differs : other ≠ child)
      : (k.forked pid child).procs other = k.procs other := by
    simp [Kernel.forked, update_of_ne differs, loop.rows other differs]
  refine ⟨⟨loop.table.of_same rfl descriptors fun _ live => live, ?_⟩, rows, ?_⟩
  · intro other ended fd low
    have differs : other ≠ child := by
      rintro rfl
      simp [Kernel.forked] at ended
    rw [Kernel.descriptors, rows other differs]
    rw [rows other differs] at ended
    exact inv.unused other ended fd low
  · rintro other s differs ⟨fd, f, low, open_, type, refers⟩
    refine ⟨fd, f, low, ?_, (loop.type f).trans type, (loop.socket f).trans refers⟩
    rw [Kernel.descriptors, rows other differs]
    exact open_

theorem FilesInv.dup {newfd : Nat} (inv : FilesInv k) (row : pid < nProc)
    (alive : (k.procs pid).state ≠ .unused) (named : k.descriptors pid fd = some f)
    (free : freeDescriptor (k.procs pid) = some newfd)
    : FilesInv
        ((k.setProc pid fun p =>
          { p with ofile := update p.ofile newfd (some f) }).setFile f fun file =>
          { file with ref := file.ref + 1 }) := by
  obtain ⟨column, empty⟩ := freeDescriptor_spec free
  refine ⟨inv.toFileTable.share row column empty rfl rfl rfl, fun other gone b low => ?_⟩
  have differs : other ≠ pid := by
    rintro rfl
    exact alive (by simpa using gone)
  have before := inv.unused other (by simpa [update_of_ne differs] using gone) b low
  simpa [Kernel.descriptors, update_of_ne differs] using before

section

variable (move : CallMove env k pid c next k') (inv : FilesInv k)
include move inv

/-- A call keeps the counts of the files, by what it can do. -/
theorem CallMove.files (row : pid < nProc) (alive : (k.procs pid).state ≠ .unused)
    : FilesInv k' := by
  cases move with
  | refused c | bind sockfd addr port s named bound unbound free
  | accept sockfd s named listening alone | read fd size s named established
  | write => exact inv
  | socket s f fd freeSock freeFd freeDesc =>
    obtain ⟨inside, idle⟩ := freeSocket_spec freeSock
    obtain ⟨column, empty⟩ := freeDescriptor_spec freeDesc
    exact inv.openSocket row alive inside idle (freeFile_spec freeFd).2 column empty
  | listen sockfd s =>
    refine inv.of_same rfl rfl (fun _ gone => gone) fun t live => ?_
    by_cases same : t = s
    · subst same
      simpa [startListening] using live
    · simpa [startListening, update_of_ne same] using live
  | connect sockfd dstAddr dstPort s =>
    refine inv.of_same rfl rfl (fun _ gone => gone) fun t live => ?_
    by_cases same : t = s
    · subst same
      simp [takePort]
    · simpa [takePort, update_of_ne same] using live
  | close fd f k' inside named closed =>
    refine inv.close row alive ?_ named closed
    simp only [noFile] at *
    omega
  | dup fd f newfd inside named free => exact inv.dup row alive named free
  | fork child free => exact (inv.forked_spec free).1
  | exit idle =>
    have descriptors := k.descriptors_setProc
      (g := fun p => { p with state := .unused }) pid rfl
    refine ⟨inv.toFileTable.of_same rfl descriptors fun _ live => live, ?_⟩
    intro other gone fd low
    rw [descriptors]
    by_cases same : other = pid
    · subst same
      exact idle fd low
    · exact inv.unused other (by simpa [update_of_ne same] using gone) fd low

/-- A call does not take a socket from another process. -/
theorem CallMove.holds (row : pid < nProc) (row' : other < nProc)
    (alive : (k.procs other).state ≠ .unused) (differs : other ≠ pid) (holds : k.Holds other s)
    : k'.Holds other s := by
  cases move with
  | socket t f fd freeSock freeFd freeDesc =>
    exact holds.openSocket inv row' (freeFile_spec freeFd).2 (freeDescriptor_spec freeDesc).2
  | close fd f k' inside named closed =>
    refine (holds.close inv row ?_ named closed row' differs).1
    simp only [noFile] at *
    omega
  | dup fd f =>
    obtain ⟨b, g, low, open_, type, refers⟩ := holds
    refine ⟨b, g, low, ?_, ?_, ?_⟩
    · simpa [Kernel.descriptors, update_of_ne differs] using open_
    · by_cases same : g = f
      · subst same
        simpa using type
      · simpa [update_of_ne same] using type
    · by_cases same : g = f
      · subst same
        simpa using refers
      · simpa [update_of_ne same] using refers
  | fork child free =>
    refine (inv.forked_spec free).2.2 other s ?_ holds
    rintro rfl
    exact alive (freeProc_spec free).2
  | exit => exact holds.of_same rfl (k.descriptors_setProc pid rfl)
  | _ => exact holds

theorem CallMove.procs_of_ne (alive : (k.procs other).state ≠ .unused) (differs : other ≠ pid)
    : k'.procs other = k.procs other := by
  cases move with
  | socket =>
    simp [openSocket, update_of_ne differs]
  | close fd f k' inside named closed =>
    cases closed <;>
      simp [closeSocket, clearDescriptor, update_of_ne differs]
  | dup fd f newfd inside named free | exit idle => simp [update_of_ne differs]
  | fork child free =>
    refine (inv.forked_spec free).2.1 other fun same => ?_
    exact alive (same ▸ (freeProc_spec free).2)
  | _ => rfl

end

/-- A socket is freed by `close` only. -/
theorem PcMove.live (move : PcMove env k pid pc next k' log) (live : (k.sockets t).state ≠ .free)
    : (k'.sockets t).state ≠ .free := by
  by_cases tables : pc.ChangesTables
  · have kept {sockets : Nat → Socket} {r : Nat} {socket : Socket}
        (new : (sockets r).state ≠ .free → socket.state ≠ .free)
        (old : (sockets t).state ≠ .free)
        : (update sockets r socket t).state ≠ .free := by
      rw [update_apply]
      split
      · rename_i same
        subst same
        exact new old
      · exact old
    cases move with
    | bindUpdate => exact kept (fun _ => by simp) live
    | accepted =>
      simp only [handOver, openSocket, setTcpState, Kernel.wake, setTcon, setSocket_sockets,
        setPort_sockets, setProc_sockets, setFile_sockets]
      exact kept (fun _ => by simp) (kept (fun _ => by simp) (kept (fun old => old) live))
    | acceptFailed => exact kept (fun _ => by simp) (kept (fun old => old) live)
    | _ => exact tables.elim
  · cases used : pc.socket with
    | none =>
      cases move <;> cases used
    | some s =>
      obtain ⟨own, state, -⟩ := move.own used tables
      by_cases same : t = s
      · subst same
        rw [state]
        rcases pc.nextState_cases (k.sockets t).state with kept | kept | kept | kept <;>
          rw [kept]
        · exact live
        all_goals simp
      · rw [own.others same]
        exact live

theorem Kernel.descriptors_congr (same : k'.procs = k.procs)
    : k'.descriptors = k.descriptors := by
  unfold Kernel.descriptors
  rw [same]

theorem Kernel.descriptors_wake (k : Kernel) (pid : Nat)
    : (k.wake pid).descriptors = k.descriptors :=
  k.descriptors_setProc pid rfl

/-- A later step of a call leaves the process table alone but for sleeping and waking. -/
theorem PcMove.unused (move : PcMove env k pid pc next k' log)
    (gone : (k'.procs other).state = .unused)
    : (k.procs other).state = .unused := by
  by_cases same : other = pid
  · subst same
    cases move with
    | write s call call' k' log move => cases move <;> simpa using gone
    | sleep => simp [fallAsleep] at gone
    | _ =>
      simpa [bindPort, setDestination, startNumbering, Kernel.takeRequest, answerRequest,
        advanceOffset, Kernel.connected, readReply, Kernel.wake, openSocket, handOver, setTcpState,
        setState] using gone
  · rwa [move.procs_of_ne same] at gone

theorem PcMove.files (move : PcMove env k pid pc next k' log) (inv : FilesInv k) (row : pid < nProc)
    (alive : (k.procs pid).state ≠ .unused)
    : FilesInv k'
      ∧ ∀ other s, other < nProc → k.Holds other s → k'.Holds other s := by
  have same (files : k'.files = k.files) (descriptors : k'.descriptors = k.descriptors)
      : FilesInv k' ∧ ∀ other s, other < nProc → k.Holds other s → k'.Holds other s :=
    ⟨inv.of_same files descriptors (fun _ => move.unused) (fun _ => move.live),
      fun _ _ _ holds => holds.of_same files descriptors⟩
  cases move with
  | accepted s new f fd freeSock freeFd freeDesc =>
    obtain ⟨inside, idle⟩ := freeSocket_spec freeSock
    have closed := (freeFile_spec freeFd).2
    obtain ⟨column, empty⟩ := freeDescriptor_spec freeDesc
    -- the new socket is opened in the kernel with the process awake and the listener listening
    have descriptors : ((k.wake pid).setTcpState s .listen).descriptors = k.descriptors :=
      k.descriptors_wake pid
    have states (t : Nat) : (((k.wake pid).setTcpState s .listen).sockets t).state
        = (k.sockets t).state := by
      by_cases same : t = s
      · subst same
        simp [setTcpState, Kernel.wake, setTcon_sockets]
      · simp [setTcpState, Kernel.wake, setTcon_sockets, update_of_ne same]
    have procs (other : Nat) : (((k.wake pid).setTcpState s .listen).procs other).state
        = (k.procs other).state := by
      by_cases same : other = pid
      · subst same
        simp [setTcpState, Kernel.wake]
      · simp [setTcpState, Kernel.wake, update_of_ne same]
    have before : FilesInv ((k.wake pid).setTcpState s .listen) :=
      inv.of_same rfl descriptors (fun other gone => (procs other).symm.trans gone)
        fun t live => by rwa [states t]
    have opened : FilesInv (((k.wake pid).setTcpState s .listen).openSocket pid new f fd
        env.kalloc) :=
      before.openSocket row (by rwa [procs pid]) inside ((states new).trans idle) closed column
        (by rw [descriptors]; exact empty)
    refine ⟨opened.of_same rfl rfl (fun _ gone => gone) fun t live => ?_, ?_⟩
    · by_cases same : t = new
      · subst same
        simp [handOver]
      · simpa [handOver, update_of_ne same] using live
    · intro other t row' holds
      have held : ((k.wake pid).setTcpState s .listen).Holds other t :=
        holds.of_same rfl descriptors
      have after : (((k.wake pid).setTcpState s .listen).openSocket pid new f fd
          env.kalloc).Holds other t :=
        held.openSocket before row' closed (by rw [descriptors]; exact empty)
      exact after.of_same rfl rfl
  | connected s =>
    have procs : ((k.wake pid).connected s).procs = (k.wake pid).procs := by
      simp [Kernel.connected, readReply]
    refine same ?_ ((descriptors_congr procs).trans (k.descriptors_wake pid))
    simp [Kernel.connected, readReply, Kernel.wake]
  | acceptFailed s =>
    have procs : (((k.wake pid).setTcpState s .listen).handOver s nSockets).procs
        = (k.wake pid).procs := by
      simp [setTcpState, handOver]
    refine same ?_ ((descriptors_congr procs).trans (k.descriptors_wake pid))
    simp [setTcpState, handOver, Kernel.wake]
  | wokenForRequest s | wokenForData s size => exact same rfl (k.descriptors_wake pid)
  | sleep => exact same rfl (k.descriptors_setProc pid rfl)
  | write s call call' k' log move =>
    cases move <;> exact same (by simp) (descriptors_congr (by simp))
  | _ =>
    refine same ?_ (descriptors_congr ?_) <;>
      simp [bindPort, setDestination, startNumbering, Kernel.takeRequest,
        answerRequest, advanceOffset]

theorem Kernel.kill_descriptors (k : Kernel) (pid : Nat)
    : (k.kill pid).descriptors = k.descriptors
      ∧ ∀ other, ((k.kill pid).procs other).state = .unused
          → (k.procs other).state = .unused := by
  refine ⟨k.descriptors_setProc pid rfl, fun other gone => ?_⟩
  by_cases same : other = pid
  · subst same
    simp only [Kernel.kill, setProc_procs, update_self] at gone
    split at gone
    · cases gone
    · exact gone
  · simpa [Kernel.kill, update_of_ne same] using gone

theorem receive_descriptors (k : Kernel) (mem : Int → UInt8) (seg size : Int) (srcIp : UInt32)
    : (k.receive mem seg size srcIp).descriptors = k.descriptors
      ∧ ∀ pid, ((k.receive mem seg size srcIp).procs pid).state = .unused
          → (k.procs pid).state = .unused := by
  rcases receive_procs k mem seg size srcIp with ⟨-, woken⟩ | ⟨-, same⟩
  · refine ⟨?_, fun pid gone => ?_⟩
    · funext pid fd
      simp only [Kernel.descriptors, woken, Kernel.wakeup]
      split <;> rfl
    · simp only [woken, Kernel.wakeup] at gone
      split at gone
      · cases gone
      · exact gone
  · exact ⟨descriptors_congr same, fun pid gone => by rwa [same] at gone⟩

theorem FilesInv.kill (inv : FilesInv k) (pid : Nat) : FilesInv (k.kill pid) := by
  obtain ⟨descriptors, unused⟩ := k.kill_descriptors pid
  exact inv.of_same rfl descriptors unused fun _ live => live

theorem FilesInv.receive (inv : FilesInv k) (mem : Int → UInt8) (seg size : Int) (srcIp : UInt32)
    : FilesInv (k.receive mem seg size srcIp) := by
  obtain ⟨descriptors, unused⟩ := receive_descriptors k mem seg size srcIp
  exact inv.of_same (receive_files ..) descriptors unused fun t live => by rwa [receive_state]

/-- The counts agree, and a process inside a call has its socket open. -/
structure HeldInv (sys : Sys) : Prop where
  files : FilesInv sys.kernel
  held
    : ∀ pid s, (sys.pc pid).socket = some s
        → pid < nProc ∧ (sys.kernel.procs pid).state ≠ .unused ∧ sys.kernel.Holds pid s

/-- The socket of a call that waits is not freed. -/
theorem HeldInv.live (inv : HeldInv sys) (uses : (sys.pc pid).socket = some s)
    : s < nSockets ∧ (sys.kernel.sockets s).state ≠ .free :=
  inv.files.holds (inv.held pid s uses).2.2

theorem CallMove.opens (move : CallMove env k pid c next k') (uses : next.pc.socket = some s)
    : k'.procs = k.procs ∧ k'.Holds pid s := by
  cases move with
  | bind sockfd addr port t named bound unbound free | accept sockfd t named listening alone
  | read fd size t named established | write fd payload t named established =>
    cases uses
    exact ⟨rfl, holds_of_socketAt named⟩
  | connect sockfd dstAddr dstPort t i named =>
    cases uses
    exact ⟨rfl, (holds_of_socketAt named).of_same rfl rfl⟩
  | _ => cases uses

theorem HeldInv.after (inv : HeldInv sys) (files : FilesInv k')
    (others
      : ∀ other s, other ≠ pid → (sys.pc other).socket = some s
          → (k'.procs other).state ≠ .unused ∧ k'.Holds other s)
    (own
      : ∀ s, next.pc.socket = some s
          → pid < nProc ∧ (k'.procs pid).state ≠ .unused ∧ k'.Holds pid s)
    : HeldInv (sys.after pid k' next) := by
  refine ⟨by simpa using files, fun other s uses => ?_⟩
  simp only [Sys.after_pc, Sys.after_kernel] at uses ⊢
  by_cases same : other = pid
  · subst same
    rw [update_self] at uses
    exact own s uses
  · rw [update_of_ne same] at uses
    exact ⟨(inv.held other s uses).1, others other s same uses⟩

/-- Every step keeps the invariant. -/
theorem HeldInv.step {after : Sys} {action : SysAction} (inv : HeldInv sys)
    (move : SysMove sys action after log)
    : HeldInv after := by
  cases move with
  | call pid c env next k' idle runnable move =>
    have alive : (sys.kernel.procs pid).state ≠ .unused := by simp [runnable.2]
    refine inv.after (move.files inv.files runnable.1 alive) ?_ fun s uses => ?_
    · intro other s differs uses
      obtain ⟨row, living, holds⟩ := inv.held other s uses
      exact ⟨by rwa [move.procs_of_ne inv.files living differs],
        move.holds inv.files runnable.1 row living differs holds⟩
    · obtain ⟨procs, holds⟩ := move.opens uses
      exact ⟨runnable.1, by rwa [procs], holds⟩
  | resume pid env pc next k' log located runnable move =>
    have alive : (sys.kernel.procs pid).state ≠ .unused := by simp [runnable.2]
    obtain ⟨files, holds⟩ := move.files inv.files runnable.1 alive
    refine inv.after files ?_ fun s uses => ?_
    · intro other s _ uses
      obtain ⟨row, living, held⟩ := inv.held other s uses
      exact ⟨fun gone => living (move.unused gone), holds other s row held⟩
    · refine ⟨runnable.1, fun gone => alive (move.unused gone), holds pid s runnable.1 ?_⟩
      cases used : pc.socket with
      | none => cases move <;> cases used
      | some t =>
        rw [move.stays used uses]
        exact (inv.held pid t (located ▸ used)).2.2
  | kill pid =>
    obtain ⟨descriptors, unused⟩ := sys.kernel.kill_descriptors pid
    refine ⟨inv.files.kill pid, fun other s uses => ?_⟩
    obtain ⟨row, alive, holds⟩ := inv.held other s uses
    exact ⟨row, fun gone => alive (unused other gone), holds.of_same rfl descriptors⟩
  | receive env seg size srcIp =>
    obtain ⟨descriptors, unused⟩ :=
      receive_descriptors sys.kernel env.frame seg size srcIp
    refine ⟨inv.files.receive env.frame seg size srcIp, fun other s uses => ?_⟩
    obtain ⟨row, alive, holds⟩ := inv.held other s uses
    exact ⟨row, fun gone => alive (unused other gone),
      holds.of_same (receive_files ..) descriptors⟩

theorem boot_held (myip netmask gateway : UInt32)
    : HeldInv (Sys.boot myip netmask gateway) := by
  have descriptors (pid fd : Nat)
      : (Sys.boot myip netmask gateway).kernel.descriptors pid fd = none := by
    by_cases same : pid = 0
    · subst same
      rfl
    · simp only [Kernel.descriptors, Sys.boot, setProc_procs, update_of_ne same]
      rfl
  refine ⟨⟨⟨boot_tidy myip netmask gateway, ?_, nofun, nofun⟩, ?_⟩, nofun⟩
  · intro f
    have none_ : (Sys.boot myip netmask gateway).kernel.holders f = 0 := by
      rw [Kernel.holders, references, Finset.card_eq_zero, Finset.filter_eq_empty_iff]
      intro cell _
      rw [descriptors]
      simp
    exact (congrArg Nat.cast none_).symm
  · intro pid _ fd _
    exact descriptors pid fd

end Xv6Net
