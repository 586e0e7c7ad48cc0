import Xv6Net.Fs.InodeReferences
import Xv6Net.Library.Tally
import Xv6Net.Library.Transition
import Mathlib.Algebra.BigOperators.Ring.Finset
import Mathlib.Tactic.Abel

/-! Every system call gives back the references that it took: between two calls the references to an
inode are those of the open files and of the current directories.
-/

namespace Xv6Net.SysFile

open Library Program Transition Function Fs

structure Tables where
  files : Fin nFile → OpenFile
  procs : Fin nProc → Task

def fileOwns (file : OpenFile) : Nat → Int := if file.type = .inode then reference file.ip else 0

/-- The reference that a process has to its current directory. -/
def taskOwns (task : Task) : Nat → Int :=
  match task.cwd with
  | some ip => reference ip
  | none => 0

theorem reference_nonneg (ip jp : Nat) : 0 ≤ reference ip jp := by
  rw [reference]
  split <;> decide

theorem fileOwns_nonneg (file : OpenFile) (ip : Nat) : 0 ≤ fileOwns file ip := by
  rw [fileOwns]
  split
  · exact reference_nonneg ..
  · exact le_rfl

theorem taskOwns_nonneg (task : Task) (ip : Nat) : 0 ≤ taskOwns task ip := by
  rw [taskOwns]
  cases task.cwd with
  | none => exact le_rfl
  | some dir => exact reference_nonneg dir ip

/-- The references that are owned by the tables. -/
def owners (t : Tables) : Nat → Int := fun ip =>
  tally (fun file => fileOwns file ip) t.files + tally (fun task => taskOwns task ip) t.procs

namespace Tables

def setFile (t : Tables) (f : Fin nFile) (new : OpenFile) : Tables :=
  { t with files := update t.files f new }

def setProc (t : Tables) (pid : Fin nProc) (new : Task) : Tables :=
  { t with procs := update t.procs pid new }

/-- A file that is closed has no type, and an inode is in one of the slots. -/
def FileOk (file : OpenFile) : Prop :=
  0 ≤ file.ref ∧ (file.ref = 0 → file.type = .none) ∧ (file.type = .inode → file.ip < nInode)

/-- A process that is not there has no current directory. -/
def TaskOk (task : Task) : Prop :=
  (∀ ip, task.cwd = some ip → ip < nInode)
  ∧ (task.state = .unused ∨ task.state = .zombie → task.cwd = none)

structure Ok (t : Tables) : Prop where
  files : ∀ f, FileOk (t.files f)
  procs : ∀ pid, TaskOk (t.procs pid)

variable {t : Tables} {f : Fin nFile} {pid : Fin nProc}

@[simp]
theorem setFile_self (new : OpenFile) : (t.setFile f new).files f = new :=
  update_self ..

theorem setFile_of_ne {g : Fin nFile} (new : OpenFile) (other : g ≠ f)
    : (t.setFile f new).files g = t.files g :=
  update_of_ne other ..

@[simp]
theorem setProc_self (new : Task) : (t.setProc pid new).procs pid = new :=
  update_self ..

theorem setProc_of_ne {q : Fin nProc} (new : Task) (other : q ≠ pid)
    : (t.setProc pid new).procs q = t.procs q :=
  update_of_ne other ..

/-- Only the file that is set owns something else than before. -/
theorem owners_setFile (f : Fin nFile) (new : OpenFile)
    : owners (t.setFile f new) = owners t - fileOwns (t.files f) + fileOwns new := by
  funext ip
  simp only [owners, setFile, tally_update, Pi.add_apply, Pi.sub_apply]
  omega

/-- Only the process that is set owns something else than before. -/
theorem owners_setProc (pid : Fin nProc) (new : Task)
    : owners (t.setProc pid new) = owners t - taskOwns (t.procs pid) + taskOwns new := by
  funext ip
  simp only [owners, setProc, tally_update, Pi.add_apply, Pi.sub_apply]
  omega

/-- The tables stay well formed when one entry is set. -/
theorem Ok.setFile (ok : t.Ok) {new : OpenFile} (new_ : FileOk new) : (t.setFile f new).Ok := by
  refine ⟨fun g => ?_, ok.procs⟩
  by_cases here : g = f
  · rw [here, setFile_self]
    exact new_
  · rw [setFile_of_ne new here]
    exact ok.files g

theorem Ok.setProc (ok : t.Ok) {new : Task} (new_ : TaskOk new) : (t.setProc pid new).Ok := by
  refine ⟨ok.files, fun q => ?_⟩
  by_cases here : q = pid
  · rw [here, setProc_self]
    exact new_
  · rw [setProc_of_ne new here]
    exact ok.procs q

end Tables

/-- The files have the same references; the rest of them does not matter here. -/
def SameFile (file other : OpenFile) : Prop :=
  file.type = other.type ∧ file.ref = other.ref ∧ file.ip = other.ip

def SameTask (task other : Task) : Prop := task.state = other.state ∧ task.cwd = other.cwd

/-- The state has these tables, and a call holds references of its own and has begun some
transactions.
-/
structure Holding (t : Tables) (held : Nat → Int) (ops : Int) (s : SysState) : Prop where
  files : ∀ f, SameFile (s.files f) (t.files f)
  procs : ∀ pid, SameTask (s.procs pid) (t.procs pid)
  outstanding : s.outstanding = ops
  counted : Counted (owners t + held) s.fs

def Settled (s : SysState) : Prop := ∃ t : Tables, t.Ok ∧ Holding t 0 0 s

/-- As `Gives`, in a call. -/
def Holds (t : Tables) (held : Nat → Int) (ops : Int) (s : SysState) : Option Nat → Prop
  | none => Holding t held ops s
  | some ip => ip < nInode ∧ Holding t (held + reference ip) ops s

section

variable {env : FsEnv} {s : SysState} {t : Tables} {held : Nat → Int} {ops : Int} {ip : Nat}
  {α β : Type}

section

variable (h : Holding t held ops s)
include h

variable {program : FsM α}

/-- A program that leaves the references alone, called from a system call. -/
theorem Holding.steady (steady : Steady program)
    : Ensures Freed True (SysFile.onFs program) env s fun _ after => Holding t held ops after :=
  .focus ((h.counted.steady steady).weaken fun _ _ counted =>
    ⟨h.files, h.procs, h.outstanding, counted⟩)

/-- What follows such a program starts with the same references. -/
theorem Holding.next {next : α → SysM β} {post : β → SysState → Prop} (steady : Steady program)
    (rest : ∀ a after, Holding t held ops after → Ensures Freed True (next a) env after post)
    : Ensures Freed True (SysFile.onFs program >>= next) env s post :=
  (h.steady steady).bind rest

/-- A program that returns an inode gives its caller one reference. -/
theorem Holding.gives {slot : α → Option Nat}
    (inner : Ensures Freed True program env s.fs fun a after =>
      Gives (owners t + held) after (slot a))
    : Ensures Freed True (SysFile.onFs program) env s fun a after =>
        Holds t held ops after (slot a) := by
  refine .focus (inner.weaken fun a after gives => ?_)
  cases returned : slot a with
  | none =>
    rw [returned] at gives
    exact ⟨h.files, h.procs, h.outstanding, gives⟩
  | some =>
    rw [returned] at gives
    obtain ⟨inside, counted⟩ := gives
    rw [add_assoc] at counted
    exact ⟨inside, h.files, h.procs, h.outstanding, counted⟩

/-- The caller gives back one of its references. -/
theorem Holding.iput (inside : ip < nInode)
    : Ensures Freed True (SysFile.onFs (iput ip)) env s fun _ after =>
        Holding t (held - reference ip) ops after := by
  have counted : Counted (owners t + (held - reference ip) + reference ip) s.fs := by
    rw [add_assoc, sub_add_cancel]
    exact h.counted
  exact .focus ((counted.iput inside).weaken fun _ _ counted =>
    ⟨h.files, h.procs, h.outstanding, counted⟩)

end

theorem Holding.iunlockput (h : Holding t (held + reference ip) ops s) (inside : ip < nInode)
    : Ensures Freed True (SysFile.onFs (iunlockput ip)) env s fun _ after =>
        Holding t held ops after := by
  have counted : Counted (owners t + held + reference ip) s.fs := by
    rw [add_assoc]
    exact h.counted
  exact .focus ((counted.iunlockput inside).weaken fun _ _ counted =>
    ⟨h.files, h.procs, h.outstanding, counted⟩)

/-- `begin_op` and `end_op` come in pairs. -/
theorem Holding.beginOp (h : Holding t held ops s)
    : Ensures Freed True beginOp env s fun _ after => Holding t held (ops + 1) after :=
  .modify ⟨h.files, h.procs, congrArg (· + 1) h.outstanding, h.counted⟩

theorem Holding.endOp (h : Holding t held (ops + 1) s)
    : Ensures Freed True endOp env s fun _ after => Holding t held ops after := by
  refine .modify ⟨h.files, h.procs, ?_, h.counted⟩
  change s.outstanding - 1 = ops
  rw [h.outstanding]
  exact Int.add_sub_cancel ..

section

variable (h : Holding t held ops s)
include h

variable {change : OpenFile → OpenFile} {held' : Nat → Int}

/-- A file takes over the references that its new contents own. -/
theorem Holding.setFile (f : Fin nFile) (new : OpenFile)
    (becomes : SameFile (s.files f) (t.files f) → SameFile (change (s.files f)) new)
    (owned : fileOwns (t.files f) + held = fileOwns new + held')
    : Ensures Freed True (setFile f change) env s fun _ after =>
        Holding (t.setFile f new) held' ops after := by
  refine .modify ⟨fun g => ?_, h.procs, h.outstanding, ?_⟩
  · by_cases here : g = f
    · rw [here, Tables.setFile_self]
      change SameFile (update s.files f _ f) new
      rw [update_self]
      exact becomes (h.files f)
    · rw [Tables.setFile_of_ne new here]
      change SameFile (update s.files f _ g) _
      rw [update_of_ne here]
      exact h.files g
  · have same : owners (t.setFile f new) + held' = owners t + held := by
      rw [Tables.owners_setFile, add_assoc, ← owned, ← add_assoc, sub_add_cancel]
    rw [same]
    exact h.counted

/-- A process takes over the references that its new contents own. -/
theorem Holding.setProc (pid : Fin nProc) {change : Task → Task} (new : Task)
    (becomes : SameTask (s.procs pid) (t.procs pid) → SameTask (change (s.procs pid)) new)
    (owned : taskOwns (t.procs pid) + held = taskOwns new + held')
    : Ensures Freed True (setProc pid change) env s fun _ after =>
        Holding (t.setProc pid new) held' ops after := by
  refine .modify ⟨h.files, fun q => ?_, h.outstanding, ?_⟩
  · by_cases here : q = pid
    · rw [here, Tables.setProc_self]
      change SameTask (update s.procs pid _ pid) new
      rw [update_self]
      exact becomes (h.procs pid)
    · rw [Tables.setProc_of_ne new here]
      change SameTask (update s.procs pid _ q) _
      rw [update_of_ne here]
      exact h.procs q
  · have same : owners (t.setProc pid new) + held' = owners t + held := by
      rw [Tables.owners_setProc, add_assoc, ← owned, ← add_assoc, sub_add_cancel]
    rw [same]
    exact h.counted

/-- A change of a file that is not its type, inode or count. -/
theorem Holding.touchFile (f : Fin nFile) (same : SameFile (change (s.files f)) (s.files f))
    : Ensures Freed True (SysFile.setFile f change) env s
        fun _ after => Holding t held ops after := by
  refine (h.setFile f (t.files f) (fun was => ?_) rfl).weaken fun _ after h => ?_
  · exact ⟨same.1.trans was.1, same.2.1.trans was.2.1, same.2.2.trans was.2.2⟩
  · rw [Tables.setFile, update_eq_self] at h
    exact h

theorem Holding.touchProc (pid : Fin nProc) {change : Task → Task}
    (same : SameTask (change (s.procs pid)) (s.procs pid))
    : Ensures Freed True (SysFile.setProc pid change) env s
        fun _ after => Holding t held ops after := by
  refine (h.setProc pid (t.procs pid) (fun was => ?_) rfl).weaken fun _ after h => ?_
  · exact ⟨same.1.trans was.1, same.2.trans was.2⟩
  · rw [Tables.setProc, update_eq_self] at h
    exact h

end

theorem panic_freed {reason : FsPanic} {post : α → SysState → Prop}
    : Ensures Freed True (panic reason : SysM α) env s post :=
  .emit_next trivial (.stop trivial)

theorem Holding.cwd (h : Holding t held ops s) (pid : Fin nProc) {next : Nat → SysM β}
    {post : β → SysState → Prop}
    (rest : ∀ dir, (t.procs pid).cwd = some dir → Ensures Freed True (next dir) env s post)
    : Ensures Freed True (cwd pid >>= next) env s post := by
  have known : Ensures Freed True (SysFile.cwd pid) env s fun dir after =>
      after = s ∧ (t.procs pid).cwd = some dir := by
    rw [SysFile.cwd]
    refine .next rfl ?_
    rw [(h.procs pid).2]
    cases (t.procs pid).cwd with
    | none => exact .stop trivial
    | some => exact .pure ⟨rfl, rfl⟩
  refine known.bind ?_
  rintro dir _ ⟨rfl, here⟩
  exact rest dir here

/-- The current directory of a process has a reference. -/
theorem Holding.cwd_referenced (h : Holding t held ops s) {pid : Fin nProc} {dir : Nat}
    (here : (t.procs pid).cwd = some dir) (inside : dir < nInode) (nonneg : 0 ≤ held dir)
    : 0 < (s.fs.icache dir).ref := by
  have files : 0 ≤ tally (fun file => fileOwns file dir) t.files :=
    tally_nonneg fun place => fileOwns_nonneg (t.files place) dir
  have one : taskOwns (t.procs pid) dir ≤ tally (fun task => taskOwns task dir) t.procs :=
    le_tally (fun place => taskOwns_nonneg (t.procs place) dir) pid
  rw [taskOwns, here] at one
  simp only [reference_self] at one
  rw [h.counted.refs dir inside, Pi.add_apply, owners]
  omega

end

section

variable {env : FsEnv} {s : SysState} {t : Tables} {held : Nat → Int} {ops : Int}
  {pid : Fin nProc} {f : Fin nFile}

theorem fileOwns_of_ne {file : OpenFile} (other : file.type ≠ .inode) : fileOwns file = 0 :=
  if_neg other

section

variable (h : Holding t held ops s)
include h

/-- `filealloc` takes a file with no references, which owns nothing. -/
theorem Holding.filealloc (ok : t.Ok)
    : Ensures Freed True filealloc env s fun r after =>
        match r with
        | none => Holding t held ops after
        | some f =>
          (t.files f).type = .none
          ∧ Holding (t.setFile f { t.files f with ref := 1 }) held ops after := by
  rw [SysFile.filealloc]
  refine .next rfl ?_
  cases found : (List.finRange nFile).find? fun f => decide ((s.files f).ref = 0) with
  | none => exact .pure h
  | some f =>
    have free : (s.files f).ref = 0 := by simpa using List.find?_some found
    rw [(h.files f).2.1] at free
    refine (h.setFile f { t.files f with ref := 1 } (fun was => ⟨was.1, rfl, was.2.2⟩) rfl).bind
      fun _ after h => .pure ⟨(ok.files f).2.1 free, h⟩

/-- A descriptor is not a reference to an inode. -/
theorem Holding.fdalloc (pid : Fin nProc) (f : Fin nFile)
    : Ensures Freed True (fdalloc pid f) env s fun _ after => Holding t held ops after := by
  rw [SysFile.fdalloc]
  refine .next rfl ?_
  split
  · exact .pure h
  · exact (h.touchProc pid ⟨rfl, rfl⟩).bind fun _ after h => .pure h

/-- A second reference to a file is not one to its inode. -/
theorem Holding.filedup (ok : t.Ok) (f : Fin nFile)
    : Ensures Freed True (filedup f) env s fun _ after =>
        ∃ t', t'.Ok ∧ t'.procs = t.procs ∧ Holding t' held ops after := by
  rw [SysFile.filedup]
  refine .next rfl (.ite (fun _ => panic_freed) fun positive => ?_)
  obtain ⟨nonneg, -, inside⟩ := ok.files f
  have ok' : (t.setFile f { t.files f with ref := (t.files f).ref + 1 }).Ok :=
    ok.setFile ⟨by simp only; omega, fun zero => by simp only at zero; omega, inside⟩
  exact (h.setFile f { t.files f with ref := (t.files f).ref + 1 }
    (fun was => ⟨was.1, congrArg (· + 1) was.2.1, was.2.2⟩) rfl).weaken
    fun _ after h' => ⟨_, ok', rfl, h'⟩

/-- The inode is put back with the last reference to the file. -/
theorem Holding.fileclose (ok : t.Ok) (f : Fin nFile)
    : Ensures Freed True (fileclose f) env s fun _ after =>
        ∃ t', t'.Ok ∧ t'.procs = t.procs ∧ Holding t' held ops after := by
  rw [SysFile.fileclose]
  refine .next rfl ?_
  obtain ⟨type, ref, ip⟩ := h.files f
  dsimp only
  rw [type, ref, ip]
  refine .ite (fun _ => panic_freed) fun positive => .ite (fun more => ?_) fun last => ?_
  · have ok' : (t.setFile f { t.files f with ref := (t.files f).ref - 1 }).Ok :=
      ok.setFile ⟨by simp only; omega, fun zero => by simp only at zero; omega, (ok.files f).2.2⟩
    exact (h.setFile f { t.files f with ref := (t.files f).ref - 1 }
      (fun was => ⟨was.1, congrArg (· - 1) was.2.1, was.2.2⟩) rfl).weaken
      fun _ after h' => ⟨_, ok', rfl, h'⟩
  · have ok' : (t.setFile f { t.files f with ref := 0, type := .none }).Ok :=
      ok.setFile ⟨le_rfl, fun _ => rfl, nofun⟩
    have none_ : fileOwns { t.files f with ref := 0, type := .none } = 0 := fileOwns_of_ne nofun
    have closed : Ensures Freed True
        (SysFile.setFile f fun file => { file with ref := 0, type := .none }) env s
        fun _ after => Holding (t.setFile f { t.files f with ref := 0, type := .none })
          (held + fileOwns (t.files f)) ops after := by
      refine h.setFile f _ (fun was => ⟨rfl, rfl, was.2.2⟩) ?_
      rw [none_, zero_add, add_comm]
    refine closed.bind fun _ mid h => .ite (fun inode => ?_) fun other => ?_
    · have inside := (ok.files f).2.2 inode
      rw [fileOwns, if_pos inode] at h
      refine h.beginOp.bind fun _ mid h => (h.iput inside).bind fun _ mid h => ?_
      rw [add_sub_cancel_right] at h
      exact h.endOp.weaken fun _ after h => ⟨_, ok', rfl, h⟩
    · rw [fileOwns_of_ne other, add_zero] at h
      exact .pure ⟨_, ok', rfl, h⟩

end

end

section

variable {env : FsEnv} {s : SysState} {t : Tables} {held : Nat → Int} {ops : Int}
  {pid : Fin nProc} {f : Fin nFile} {dir : Nat}

theorem Holding.settled (h : Holding t 0 0 s) (ok : t.Ok) : Settled s := ⟨t, ok, h⟩

section

variable (h : Holding t held ops s) (ok : t.Ok) (here : (t.procs pid).cwd = some dir)
  (nonneg : 0 ≤ held dir) (path : List UInt8)
include h ok here nonneg path

/-- A path gives a reference, which the process then holds. -/
theorem Holding.namei
    : Ensures Freed True (SysFile.onFs (Fs.namei dir path)) env s
        fun r after => Holds t held ops after r := by
  have inside := (ok.procs pid).1 dir here
  exact h.gives (h.counted.namei inside (h.cwd_referenced here inside nonneg) path)

theorem Holding.nameiparent
    : Ensures Freed True (SysFile.onFs (Fs.nameiparent dir path)) env s
        fun r after => Holds t held ops after (r.map Prod.fst) := by
  have inside := (ok.procs pid).1 dir here
  exact h.gives (h.counted.nameiparent inside (h.cwd_referenced here inside nonneg) path)

theorem Holding.create (type major minor : UInt16)
    : Ensures Freed True (SysFile.onFs (Fs.create dir path type major minor)) env s
        fun r after => Holds t held ops after r := by
  have inside := (ok.procs pid).1 dir here
  exact h.gives
    (h.counted.create inside (h.cwd_referenced here inside nonneg) path type major minor)

end

variable {dp ip : Nat}

theorem Holding.dirlookup (h : Holding t held ops s) (name : List UInt8)
    : Ensures Freed True (SysFile.onFs (Fs.dirlookup dp name)) env s
        fun r after => Holds t held ops after (r.map Prod.fst) :=
  h.gives (h.counted.dirlookup name)

theorem Holding.dirlink (h : Holding t held ops s) (name : List UInt8) (inum : Nat)
    : Ensures Freed True (SysFile.onFs (Fs.dirlink dp name inum)) env s
        fun _ after => Holding t held ops after :=
  .focus ((h.counted.dirlink name inum).weaken fun _ _ counted =>
    ⟨h.files, h.procs, h.outstanding, counted⟩)

/-- Dropping a lock and a reference, `end_op` and a return: how most calls end. -/
theorem Holding.putAndEnd {r : Int} (h : Holding t (held + reference ip) (ops + 1) s)
    (inside : ip < nInode)
    : Ensures Freed True (do
        SysFile.onFs (Fs.iunlockput ip)
        SysFile.endOp
        return r) env s fun _ after => Holding t held ops after :=
  (h.iunlockput inside).bind fun _ _ h => h.endOp.bind fun _ _ h => .pure h

/-- The error exit of `sys_link` ends the operation and puts the inode back. -/
theorem Holding.linkBad (h : Holding t (held + reference ip) (ops + 1) s) (inside : ip < nInode)
    : Ensures Freed True (linkBad ip) env s fun _ after => Holding t held ops after := by
  rw [SysFile.linkBad]
  refine h.next (.ilock ip) fun _ _ h => h.next (.setCopy ..) fun _ _ h => ?_
  exact h.next (.iupdate ip) fun _ _ h => h.putAndEnd inside

/-- Every exit of `sys_link` puts back what the lookups gave. -/
theorem sysLink_settled (h : Holding t 0 0 s) (ok : t.Ok) (pid : Fin nProc)
    (old new : Option (List UInt8))
    : Ensures Freed True (sysLink pid old new) env s fun _ after => Holding t 0 0 after := by
  cases old with
  | none => exact .pure h
  | some old =>
  cases new with
  | none => exact .pure h
  | some new =>
    rw [sysLink]
    refine h.cwd pid fun dir here => h.beginOp.bind fun _ _ h => ?_
    refine (h.namei ok here le_rfl old).bind ?_
    rintro (_ | ip) mid gives
    · have h : Holding t 0 (0 + 1) mid := gives
      exact h.endOp.bind fun _ _ h => .pure h
    · obtain ⟨inside, h⟩ := gives
      refine h.next (.ilock ip) fun _ _ h => h.next (.inode ip) fun node _ h => ?_
      refine .ite (fun _ => h.putAndEnd inside) fun _ => ?_
      refine h.next (.setCopy ..) fun _ _ h => h.next (.iupdate ip) fun _ _ h => ?_
      refine h.next (.iunlock ip) fun _ _ h => ?_
      have nonneg : 0 ≤ (0 + reference ip) dir := by
        rw [zero_add]
        exact reference_nonneg ..
      refine (h.nameiparent ok here nonneg new).bind ?_
      rintro (_ | ⟨dp, name⟩) mid gives
      · have h : Holding t (0 + reference ip) (0 + 1) mid := gives
        exact h.linkBad inside
      · obtain ⟨inside', h⟩ := gives
        simp only at inside' h
        have rest : ∀ (linked : Int) (mid : SysState),
            Holding t (0 + reference ip + reference dp) (0 + 1) mid
            → Ensures Freed True (do
                if linked < 0 then
                  onFs (iunlockput dp)
                  linkBad ip
                else
                  onFs (iunlockput dp)
                  onFs (iput ip)
                  endOp
                  return (0 : Int)) env mid fun _ after => Holding t 0 0 after := by
          intro linked mid h
          refine .ite (fun _ => ?_) fun _ => ?_
          · exact (h.iunlockput inside').bind fun _ _ h => h.linkBad inside
          · refine (h.iunlockput inside').bind fun _ _ h => (h.iput inside).bind fun _ _ h => ?_
            rw [add_sub_cancel_right] at h
            exact h.endOp.bind fun _ _ h => .pure h
        refine h.next (.ilock dp) fun _ _ h => h.next (.inode dp) fun parent _ h => ?_
        refine h.next (.inode ip) fun node _ h => .ite (fun _ => ?_) fun _ => ?_
        · exact .next rfl (rest _ _ h)
        · exact (h.dirlink name node.inum).bind rest

theorem Holding.unlinkBad (h : Holding t (held + reference dp) (ops + 1) s) (inside : dp < nInode)
    : Ensures Freed True (unlinkBad dp) env s fun _ after => Holding t held ops after :=
  h.putAndEnd inside

/-- The end of `sys_unlink`, with the references to the directory and to the inode. -/
theorem Holding.unlinkEntry {off : Nat}
    (h : Holding t (held + reference dp + reference ip) (ops + 1) s) (inside : dp < nInode)
    (inside' : ip < nInode)
    : Ensures Freed True (unlinkEntry dp ip off) env s fun _ after => Holding t held ops after := by
  have rest : ∀ mid, Holding t (held + reference ip + reference dp) (ops + 1) mid
      → Ensures Freed True (do
          SysFile.onFs (Fs.iunlockput dp)
          SysFile.onFs (setCopy ip fun copy => { copy with nlink := copy.nlink - 1 })
          SysFile.onFs (iupdate ip)
          SysFile.onFs (Fs.iunlockput ip)
          SysFile.endOp
          return (0 : Int)) env mid fun _ after => Holding t held ops after := by
    intro mid h
    refine (h.iunlockput inside).bind fun _ _ h => h.next (.setCopy ..) fun _ _ h => ?_
    exact h.next (.iupdate ip) fun _ _ h => h.putAndEnd inside'
  rw [add_right_comm] at h
  rw [SysFile.unlinkEntry]
  refine h.next (.writei ..) fun _ _ h => .ite (fun _ => panic_freed) fun _ => ?_
  refine h.next (.inode ip) fun _ _ h => .ite (fun _ => ?_) fun _ => rest _ h
  exact h.next (.setCopy ..) fun _ _ h => h.next (.iupdate dp) fun _ _ h => rest _ h

/-- Every exit of `sys_unlink` puts back what the lookups gave. -/
theorem sysUnlink_settled (h : Holding t 0 0 s) (ok : t.Ok) (pid : Fin nProc)
    (path : Option (List UInt8))
    : Ensures Freed True (sysUnlink pid path) env s fun _ after => Holding t 0 0 after := by
  cases path with
  | none => exact .pure h
  | some path =>
    rw [sysUnlink]
    refine h.cwd pid fun dir here => h.beginOp.bind fun _ _ h => ?_
    refine (h.nameiparent ok here le_rfl path).bind ?_
    rintro (_ | ⟨dp, name⟩) mid gives
    · have h : Holding t 0 (0 + 1) mid := gives
      exact h.endOp.bind fun _ _ h => .pure h
    · obtain ⟨inside, h⟩ := gives
      simp only at inside h
      refine h.next (.ilock dp) fun _ _ h => .ite (fun _ => h.unlinkBad inside) fun _ => ?_
      refine (h.dirlookup name).bind ?_
      rintro (_ | ⟨ip, off⟩) mid gives
      · exact Holding.unlinkBad gives inside
      · obtain ⟨inside', h⟩ := gives
        simp only at inside' h
        have rest : ∀ (empty : Bool) (mid : SysState),
            Holding t (0 + reference dp + reference ip) (0 + 1) mid
            → Ensures Freed True (do
                if empty then unlinkEntry dp ip off
                else
                  onFs (iunlockput ip)
                  unlinkBad dp) env mid fun _ after => Holding t 0 0 after := by
          intro empty mid h
          refine .ite (fun _ => h.unlinkEntry inside inside') fun _ => ?_
          exact (h.iunlockput inside').bind fun _ _ h => h.unlinkBad inside
        refine h.next (.ilock ip) fun _ _ h => h.next (.inode ip) fun node _ h => ?_
        refine .ite (fun _ => panic_freed) fun _ => .ite (fun _ => ?_) fun _ => ?_
        · exact h.next (.isdirempty ip) fun empty _ h => rest empty _ h
        · exact .next rfl (rest true _ h)

/-- The inode that `sys_open` is going to open, or the end of the call. -/
theorem Holding.openInode (h : Holding t held (ops + 1) s) (ok : t.Ok)
    (here : (t.procs pid).cwd = some dir) (nonneg : 0 ≤ held dir) (path : List UInt8)
    (omode : UInt32)
    : Ensures Freed True (openInode dir path omode) env s fun r after =>
        match r with
        | none => Holding t held ops after
        | some ip => ip < nInode ∧ Holding t (held + reference ip) (ops + 1) after := by
  rw [SysFile.openInode]
  refine .ite (fun _ => ?_) fun _ => ?_
  · refine (h.create ok here nonneg path _ _ _).bind ?_
    rintro (_ | ip) mid gives
    · have h : Holding t held (ops + 1) mid := gives
      exact h.endOp.bind fun _ _ h => .pure h
    · exact .pure gives
  · refine (h.namei ok here nonneg path).bind ?_
    rintro (_ | ip) mid gives
    · have h : Holding t held (ops + 1) mid := gives
      exact h.endOp.bind fun _ _ h => .pure h
    · obtain ⟨inside, h⟩ := gives
      refine h.next (.ilock ip) fun _ _ h => h.next (.inode ip) fun node _ h => ?_
      refine .ite (fun _ => ?_) fun _ => .pure ⟨inside, h⟩
      exact (h.iunlockput inside).bind fun _ _ h => h.endOp.bind fun _ _ h => .pure h

/-- The reference from the lookup goes to the file, or back. -/
theorem sysOpen_settled (h : Holding t 0 0 s) (ok : t.Ok) (pid : Fin nProc)
    (path : Option (List UInt8)) (omode : UInt32)
    : Ensures Freed True (sysOpen pid path omode) env s fun _ after => Settled after := by
  cases path with
  | none => exact .pure (h.settled ok)
  | some path =>
    rw [sysOpen]
    refine h.cwd pid fun dir here => h.beginOp.bind fun _ _ h => ?_
    refine (h.openInode ok here le_rfl path omode).bind ?_
    rintro (_ | ip) mid opened
    · exact .pure (Holding.settled opened ok)
    · obtain ⟨inside, h⟩ := opened
      refine (h.filealloc ok).bind ?_
      rintro (_ | f) mid taken
      · have h : Holding t (0 + reference ip) (0 + 1) mid := taken
        exact (h.putAndEnd inside).weaken fun _ _ h => h.settled ok
      · obtain ⟨closed, h⟩ := taken
        have ok' : (t.setFile f { t.files f with ref := 1 }).Ok := by
          exact ok.setFile ⟨Int.one_nonneg, nofun, (ok.files f).2.2⟩
        refine (h.fdalloc pid f).bind ?_
        rintro (_ | fd) mid h
        · refine (h.fileclose ok' f).bind ?_
          rintro _ mid ⟨t', ok', -, h⟩
          exact (h.putAndEnd inside).weaken fun _ _ h => h.settled ok'
        · refine h.next (.iunlock ip) fun _ _ h => h.endOp.bind fun _ mid h => ?_
          have unowned : fileOwns ((t.setFile f { t.files f with ref := 1 }).files f) = 0 := by
            rw [Tables.setFile_self]
            exact fileOwns_of_ne (by simp [closed])
          let new : OpenFile := { t.files f with ref := 1, type := .inode, ip }
          have owned : fileOwns new = reference ip := if_pos rfl
          refine (h.setFile f new (fun was => ⟨rfl, ?_, rfl⟩) ?_).bind
            fun _ after h => .pure ⟨_, ?_, h⟩
          · have ref := was.2.1
            rw [Tables.setFile_self] at ref
            exact ref
          · rw [unowned, owned]
            abel
          · exact ok'.setFile ⟨Int.one_nonneg, nofun, fun _ => inside⟩

/-- `sys_mkdir` and `sys_mknod`: the new inode is put back at once. -/
theorem makeNode_settled (h : Holding t 0 0 s) (ok : t.Ok) (pid : Fin nProc)
    (path : Option (List UInt8)) (type major minor : UInt16)
    : Ensures Freed True (makeNode pid path type major minor) env s
        fun _ after => Holding t 0 0 after := by
  cases path with
  | none =>
    rw [makeNode]
    exact h.beginOp.bind fun _ _ h => h.endOp.bind fun _ _ h => .pure h
  | some path =>
    rw [makeNode]
    refine h.beginOp.bind fun _ _ h => ?_
    refine h.cwd pid fun dir here => (h.create ok here le_rfl path type major minor).bind ?_
    rintro (_ | ip) mid gives
    · have h : Holding t 0 (0 + 1) mid := gives
      exact h.endOp.bind fun _ _ h => .pure h
    · exact Holding.putAndEnd gives.2 gives.1

/-- `sys_chdir` hands its reference to the process, and drops the one that the process had. -/
theorem sysChdir_settled (h : Holding t 0 0 s) (ok : t.Ok) (pid : Fin nProc)
    (alive : (t.procs pid).state = .runnable) (path : Option (List UInt8))
    : Ensures Freed True (sysChdir pid path) env s fun _ after => Settled after := by
  cases path with
  | none =>
    rw [sysChdir]
    exact h.beginOp.bind fun _ _ h => h.endOp.bind fun _ _ h => .pure (h.settled ok)
  | some path =>
    rw [sysChdir]
    refine h.beginOp.bind fun _ _ h => ?_
    refine h.cwd pid fun dir here => (h.namei ok here le_rfl path).bind ?_
    rintro (_ | ip) mid gives
    · have h : Holding t 0 (0 + 1) mid := gives
      exact h.endOp.bind fun _ _ h => .pure (h.settled ok)
    · obtain ⟨inside, h⟩ := gives
      refine h.next (.ilock ip) fun _ _ h => h.next (.inode ip) fun node _ h => ?_
      refine .ite (fun _ => (h.putAndEnd inside).weaken fun _ _ h => h.settled ok) fun _ => ?_
      refine h.next (.iunlock ip) fun _ _ h => ?_
      refine (h.iput ((ok.procs pid).1 dir here)).bind fun _ _ h => h.endOp.bind fun _ _ h => ?_
      let new : Task := { t.procs pid with cwd := some ip }
      have old : taskOwns (t.procs pid) = reference dir := by
        rw [taskOwns, here]
      have owned : taskOwns new = reference ip := rfl
      refine (h.setProc pid new (fun was => ⟨was.1, rfl⟩) ?_).bind fun _ after h => .pure ⟨_, ?_, h⟩
      · rw [old, owned]
        abel
      · refine ok.setProc ⟨fun jp same => Option.some.inj same ▸ inside, fun gone => ?_⟩
        rw [show new.state = .runnable from alive] at gone
        rcases gone with gone | gone <;> cases gone

/-- The end of a pipe owns no inode. -/
theorem Holding.makePipe (h : Holding t held ops s) (ok : t.Ok) (f : Fin nFile)
    (other : (t.files f).type ≠ .inode) (open_ : (t.files f).ref ≠ 0) (readable writable : Bool)
    : Ensures Freed True
        (SysFile.setFile f fun file => { file with type := .pipe, readable, writable }) env s
        fun _ after => (t.setFile f { t.files f with type := .pipe }).Ok
          ∧ Holding (t.setFile f { t.files f with type := .pipe }) held ops after := by
  refine (h.setFile f { t.files f with type := .pipe }
    (fun was => ⟨rfl, was.2.1, was.2.2⟩) ?_).weaken fun _ after h =>
      ⟨ok.setFile ⟨(ok.files f).1, fun zero => absurd zero open_, nofun⟩, h⟩
  have pipe : fileOwns { t.files f with type := .pipe } = 0 := fileOwns_of_ne nofun
  rw [fileOwns_of_ne other, pipe]

/-- Both ends are made, or both files are closed. -/
theorem Holding.pipealloc (h : Holding t 0 0 s) (ok : t.Ok) (memory : Bool)
    : Ensures Freed True (pipealloc memory) env s fun _ after => Settled after := by
  rw [SysFile.pipealloc]
  refine (h.filealloc ok).bind ?_
  rintro (_ | f0) mid taken
  · exact .pure (Holding.settled taken ok)
  · obtain ⟨closed, h⟩ := taken
    generalize first_ : t.setFile f0 { t.files f0 with ref := 1 } = t1 at h
    have ok1 : t1.Ok := first_ ▸ ok.setFile ⟨Int.one_nonneg, nofun, (ok.files f0).2.2⟩
    have opened : (t1.files f0).type ≠ .inode ∧ (t1.files f0).ref ≠ 0 := by
      rw [← first_, Tables.setFile_self]
      simp [closed]
    refine (h.filealloc ok1).bind ?_
    rintro (_ | f1) mid taken
    · have h : Holding t1 0 0 mid := taken
      refine (h.fileclose ok1 f0).bind ?_
      rintro _ mid ⟨t', ok', -, h⟩
      exact .pure (h.settled ok')
    · obtain ⟨closed', h⟩ := taken
      generalize second : t1.setFile f1 { t1.files f1 with ref := 1 } = t2 at h
      have ok2 : t2.Ok := second ▸ ok1.setFile ⟨Int.one_nonneg, nofun, (ok1.files f1).2.2⟩
      have opened' : (t2.files f1).type ≠ .inode ∧ (t2.files f1).ref ≠ 0 := by
        rw [← second, Tables.setFile_self]
        simp [closed']
      have still : (t2.files f0).type ≠ .inode ∧ (t2.files f0).ref ≠ 0 := by
        by_cases same : f0 = f1
        · rw [same]
          exact opened'
        · rw [← second, Tables.setFile_of_ne _ same]
          exact opened
      refine .ite (fun _ => ?_) fun _ => ?_
      · refine (h.makePipe ok2 f0 still.1 still.2 true false).bind ?_
        rintro _ mid ⟨ok3, h⟩
        generalize third : t2.setFile f0 { t2.files f0 with type := .pipe } = t3 at ok3 h
        have still' : (t3.files f1).type ≠ .inode ∧ (t3.files f1).ref ≠ 0 := by
          by_cases same : f1 = f0
          · rw [← third, same, Tables.setFile_self]
            exact ⟨nofun, still.2⟩
          · rw [← third, Tables.setFile_of_ne _ same]
            exact opened'
        refine (h.makePipe ok3 f1 still'.1 still'.2 false true).bind ?_
        rintro _ mid ⟨ok4, h⟩
        exact .pure (h.settled ok4)
      · refine (h.fileclose ok2 f0).bind ?_
        rintro _ mid ⟨t', ok', -, h⟩
        refine (h.fileclose ok' f1).bind ?_
        rintro _ mid ⟨t'', ok'', -, h⟩
        exact .pure (h.settled ok'')

/-- If there is no descriptor for one of the ends, both are closed. -/
theorem sysPipe_settled (h : Holding t 0 0 s) (ok : t.Ok) (pid : Fin nProc) (fits memory : Bool)
    : Ensures Freed True (sysPipe pid fits memory) env s fun _ after => Settled after := by
  have closed : ∀ (rf wf : Fin nFile) (mid : SysState), Settled mid
      → Ensures Freed True (do
          fileclose rf
          fileclose wf
          return (-1 : Int)) env mid fun _ after => Settled after := by
    rintro rf wf mid ⟨t, ok, h⟩
    refine (h.fileclose ok rf).bind ?_
    rintro _ mid ⟨t', ok', -, h⟩
    refine (h.fileclose ok' wf).bind ?_
    rintro _ mid ⟨t'', ok'', -, h⟩
    exact .pure (h.settled ok'')
  rw [sysPipe]
  refine .ite (fun _ => ?_) fun _ => .pure (h.settled ok)
  refine (h.pipealloc ok memory).bind ?_
  rintro (_ | ⟨rf, wf⟩) mid settled
  · exact .pure settled
  · obtain ⟨t, ok, h⟩ := settled
    refine (h.fdalloc pid rf).bind ?_
    rintro (_ | fd0) mid h
    · exact closed rf wf mid (h.settled ok)
    · refine (h.fdalloc pid wf).bind ?_
      rintro (_ | fd1) mid h
      · exact (h.touchProc pid ⟨rfl, rfl⟩).bind fun _ mid h => closed rf wf mid (h.settled ok)
      · exact .pure (h.settled ok)

theorem Steady.loaduvm (ip : Nat) (offset sz : UInt32) (fuel i : Nat)
    : Steady (loaduvm ip offset sz fuel i) := by
  induction fuel generalizing i with
  | zero => exact .pure _
  | succ fuel ih =>
    exact .ite (.bind (.readi ..) fun _ => .ite (.pure _) (ih _)) (.pure _)

theorem Steady.loadSegments (memory : ExecMemory) (ip left i : Nat) (off sz : UInt32)
    : Steady (loadSegments memory ip left i off sz) := by
  induction left generalizing i off sz with
  | zero => exact .pure _
  | succ left ih =>
    refine .bind (.readi ..) fun _ => .ite (.pure _) (.ite (ih ..) (.ite (.pure _) ?_))
    refine .ite (.pure _) (.ite (.pure _) (.ite (.pure _) ?_))
    refine .bind (Steady.loaduvm ..) fun _ => ?_
    exact .ite (ih ..) (.pure _)

theorem Steady.loadImage (memory : ExecMemory) (ip : Nat) : Steady (loadImage memory ip) :=
  .bind (.readi ..) fun _ => .ite (.pure _) (.ite (.pure _) (.ite (.pure _)
    (Steady.loadSegments ..)))

/-- `exec` puts the program file back, also if it cannot be loaded. -/
theorem sysExec_settled (h : Holding t 0 0 s) (ok : t.Ok) (pid : Fin nProc)
    (path : Option (List UInt8)) (argv : Bool) (memory : ExecMemory)
    : Ensures Freed True (sysExec pid path argv memory) env s
        fun _ after => Holding t 0 0 after := by
  cases path with
  | none => exact .pure h
  | some path =>
    refine .ite (fun _ => ?_) fun _ => .pure h
    rw [SysFile.exec]
    refine h.cwd pid fun dir here => h.beginOp.bind fun _ _ h => ?_
    refine (h.namei ok here le_rfl path).bind ?_
    rintro (_ | ip) mid gives
    · have h : Holding t 0 (0 + 1) mid := gives
      exact h.endOp.bind fun _ _ h => .pure h
    · obtain ⟨inside, h⟩ := gives
      refine h.next (.ilock ip) fun _ _ h => h.next (Steady.loadImage memory ip) ?_
      rintro (_ | sz) mid h
      · exact h.putAndEnd inside
      · refine (h.iunlockput inside).bind fun _ _ h => h.endOp.bind fun _ _ h => ?_
        exact .ite (fun _ => .pure h) fun _ => .pure h

section

variable (h : Holding t held ops s)
include h

theorem Holding.argfd (pid : Fin nProc) (fd : Int)
    : Ensures Freed True (argfd pid fd) env s fun _ after => Holding t held ops after := by
  rw [SysFile.argfd]
  refine .next rfl ?_
  split
  · exact .pure h
  · exact .pure h

theorem Holding.fileread (f : Fin nFile) (n : UInt32) (other : Int)
    : Ensures Freed True (fileread f n other) env s fun _ after => Holding t held ops after := by
  rw [SysFile.fileread]
  refine .next rfl (.ite (fun _ => .pure h) fun _ => ?_)
  split
  · exact .pure h
  · exact .pure h
  · refine h.next (.ilock _) fun _ _ h => h.next (.readi ..) fun r mid h => ?_
    refine .ite (fun _ => ?_) fun _ => ?_
    · refine (h.touchFile f ⟨rfl, rfl, rfl⟩).bind fun _ _ h => ?_
      exact h.next (.iunlock _) fun _ _ h => .pure h
    · exact h.next (.iunlock _) fun _ _ h => .pure h
  · exact panic_freed

/-- By induction on the fuel: each turn is an operation of its own. -/
theorem Holding.filewriteLoop (f : Fin nFile) (addr : Int → UInt8) (n fuel i : Nat)
    : Ensures Freed True (filewriteLoop f addr n fuel i) env s
        fun _ after => Holding t held ops after := by
  induction fuel generalizing i s with
  | zero => exact .pure h
  | succ fuel ih =>
    rw [SysFile.filewriteLoop]
    refine .ite (fun _ => .next rfl ?_) fun _ => .pure h
    refine h.beginOp.bind fun _ _ h => h.next (.ilock _) fun _ _ h => ?_
    refine h.next (.writei ..) fun r mid h => ?_
    have rest : ∀ mid, Holding t held (ops + 1) mid
        → Ensures Freed True (do
            SysFile.onFs (iunlock (s.files f).ip)
            SysFile.endOp
            if r < 0 then return -1
            else if r ≠ (min (n - i) 1536 : Nat) then panic .shortFilewrite
            else SysFile.filewriteLoop f addr n fuel (i + min (n - i) 1536)) env mid
          fun _ after => Holding t held ops after := by
      intro mid h
      refine h.next (.iunlock _) fun _ _ h => h.endOp.bind fun _ _ h => ?_
      exact .ite (fun _ => .pure h) fun _ => .ite (fun _ => panic_freed) fun _ => ih h _
    refine .ite (fun _ => ?_) fun _ => rest mid h
    exact (h.touchFile f ⟨rfl, rfl, rfl⟩).bind fun _ mid h => rest mid h

theorem Holding.filewrite (f : Fin nFile) (addr : Int → UInt8) (n other : Int)
    : Ensures Freed True (filewrite f addr n other) env s
        fun _ after => Holding t held ops after := by
  rw [SysFile.filewrite]
  refine .next rfl (.ite (fun _ => .pure h) fun _ => ?_)
  split
  · exact .pure h
  · exact .pure h
  · exact .ite (fun _ => .pure h) fun _ => h.filewriteLoop ..
  · exact panic_freed

theorem Holding.filestat (f : Fin nFile)
    : Ensures Freed True (filestat f) env s fun _ after => Holding t held ops after := by
  rw [SysFile.filestat]
  refine .next rfl (.ite (fun _ => ?_) fun _ => .pure h)
  exact h.next (.ilock _) fun _ _ h => h.next (.iunlock _) fun _ _ h => .pure h

/-- The shape of the calls that look a descriptor up and then use the file. -/
theorem Holding.onDescriptor (pid : Fin nProc) (fd : Int) {fits : Bool}
    {program : Fin nFile → SysM Int} (kept : ∀ f mid, Holding t held ops mid
      → Ensures Freed True (program f) env mid fun _ after => Holding t held ops after)
    : Ensures Freed True (do
        match ← SysFile.argfd pid fd with
        | none => return -1
        | some (_, f) => if fits then program f else return -1) env s
        fun _ after => Holding t held ops after := by
  refine (h.argfd pid fd).bind ?_
  rintro (_ | ⟨fd, f⟩) mid h
  · exact .pure h
  · exact .ite (fun _ => kept f mid h) fun _ => .pure h

end

theorem sysDup_settled (h : Holding t 0 0 s) (ok : t.Ok) (pid : Fin nProc) (fd : Int)
    : Ensures Freed True (sysDup pid fd) env s fun _ after => Settled after := by
  refine (h.argfd pid fd).bind ?_
  rintro (_ | ⟨fd, f⟩) mid h
  · exact .pure (h.settled ok)
  · refine (h.fdalloc pid f).bind ?_
    rintro (_ | fd') mid h
    · exact .pure (h.settled ok)
    · refine (h.filedup ok f).bind ?_
      rintro _ mid ⟨t', ok', -, h⟩
      exact .pure (h.settled ok')

theorem sysClose_settled (h : Holding t 0 0 s) (ok : t.Ok) (pid : Fin nProc) (fd : Int)
    : Ensures Freed True (sysClose pid fd) env s fun _ after => Settled after := by
  refine (h.argfd pid fd).bind ?_
  rintro (_ | ⟨fd, f⟩) mid h
  · exact .pure (h.settled ok)
  · refine (h.touchProc pid ⟨rfl, rfl⟩).bind fun _ mid h => (h.fileclose ok f).bind ?_
    rintro _ mid ⟨t', ok', -, h⟩
    exact .pure (h.settled ok')

end

section

variable {env : FsEnv} {s : SysState} {t : Tables} {pid : Fin nProc}

def KeepsTasks (t : Tables) (s : SysState) : Prop :=
  ∃ t' : Tables, t'.Ok ∧ t'.procs = t.procs ∧ Holding t' 0 0 s

/-- The child gets a reference to an open file; the processes are not touched. -/
theorem forkFile_keeps (h : KeepsTasks t s) (pid np : Fin nProc) (fd : Fin noFile)
    : Ensures Freed True (forkFile pid np fd) env s fun _ after => KeepsTasks t after := by
  obtain ⟨t', ok, same, h⟩ := h
  rw [forkFile]
  refine .next rfl ?_
  split
  · exact .pure ⟨t', ok, same, h⟩
  · rename_i f _
    refine (h.filedup ok f).bind ?_
    rintro _ mid ⟨t'', ok', same', h⟩
    exact (h.touchProc np ⟨rfl, rfl⟩).weaken fun _ after h => ⟨t'', ok', same'.trans same, h⟩

theorem exitFile_keeps (h : KeepsTasks t s) (pid : Fin nProc) (fd : Fin noFile)
    : Ensures Freed True (exitFile pid fd) env s fun _ after => KeepsTasks t after := by
  obtain ⟨t', ok, same, h⟩ := h
  rw [exitFile]
  refine .next rfl ?_
  split
  · exact .pure ⟨t', ok, same, h⟩
  · rename_i f _
    refine (h.fileclose ok f).bind ?_
    rintro _ mid ⟨t'', ok', same', h⟩
    exact (h.touchProc pid ⟨rfl, rfl⟩).weaken fun _ after h => ⟨t'', ok', same'.trans same, h⟩

/-- The child of `fork` takes over the reference to the current directory. -/
theorem Holding.giveCwd (h : Holding t (reference dir) 0 s) (ok : t.Ok) (inside : dir < nInode)
    (without : (t.procs pid).cwd = none)
    : Ensures Freed True
        (SysFile.setProc pid fun p => { p with cwd := some dir, state := .runnable }) env s
        fun _ after => Settled after := by
  have ok' : (t.setProc pid { t.procs pid with cwd := some dir, state := .runnable }).Ok :=
    ok.setProc ⟨fun ip same => Option.some.inj same ▸ inside, by rintro (_ | _) <;> contradiction⟩
  refine (h.setProc pid { t.procs pid with cwd := some dir, state := .runnable }
    (fun _ => ⟨rfl, rfl⟩) ?_).weaken fun _ after h => h.settled ok'
  rw [taskOwns, without, zero_add, taskOwns, add_zero]

section

variable (h : Holding t 0 0 s) (ok : t.Ok)
include h ok

/-- `fork` duplicates the open files and the current directory. -/
theorem fork_settled (pid : Fin nProc) (memory : Bool)
    : Ensures Freed True (SysFile.fork pid memory) env s fun _ after => Settled after := by
  rw [SysFile.fork]
  refine .next rfl ?_
  split
  · exact .pure (h.settled ok)
  · rename_i np found
    have unused : (t.procs np).state = .unused := by
      rw [← (h.procs np).1]
      simpa using List.find?_some found
    have without := (ok.procs np).2 (.inl unused)
    refine .ite (fun _ => ?_) fun _ => .pure (h.settled ok)
    have ok1 : (t.setProc np { t.procs np with state := .embryo }).Ok :=
      ok.setProc ⟨(ok.procs np).1, fun _ => without⟩
    refine (h.setProc np { t.procs np with state := .embryo } (fun was => ⟨rfl, was.2⟩) rfl).bind
      fun _ mid h => ?_
    refine (Ensures.forM (fun fd _ mid h => forkFile_keeps h pid np fd) ⟨_, ok1, rfl, h⟩).bind ?_
    rintro _ mid ⟨t', ok', same, h⟩
    refine h.cwd pid fun dir here => ?_
    have inside := (ok'.procs pid).1 dir here
    have dup : Ensures Freed True (SysFile.onFs (idup dir)) env mid
        fun jp after => Holds t' 0 0 after (some jp) :=
      h.gives (h.counted.idup inside (h.cwd_referenced here inside le_rfl))
    refine dup.bind ?_
    rintro jp mid ⟨inside', h⟩
    rw [zero_add] at h
    have still : (t'.procs np).cwd = none := by
      rw [same, Tables.setProc_self]
      exact without
    exact (h.giveCwd ok' inside' still).bind fun _ _ settled => .pure settled

/-- `exit` closes all files and puts the current directory back. -/
theorem exit_settled (pid : Fin nProc)
    : Ensures Freed True (SysFile.exit pid) env s fun _ after => Settled after := by
  refine .ite (fun _ => panic_freed) fun _ => ?_
  refine (Ensures.forM (fun fd _ mid h => exitFile_keeps h pid fd) ⟨t, ok, rfl, h⟩).bind ?_
  rintro _ mid ⟨t', ok', same, h⟩
  refine h.cwd pid fun dir here => h.beginOp.bind fun _ mid h => ?_
  refine (h.iput ((ok'.procs pid).1 dir here)).bind fun _ mid h => h.endOp.bind fun _ mid h => ?_
  have ok'' : (t'.setProc pid { t'.procs pid with cwd := none, state := .zombie }).Ok :=
    ok'.setProc ⟨nofun, fun _ => rfl⟩
  refine (h.setProc pid { t'.procs pid with cwd := none, state := .zombie }
    (fun _ => ⟨rfl, rfl⟩) ?_).weaken fun _ after h => h.settled ok''
  rw [taskOwns, here, taskOwns, zero_sub, add_neg_cancel, add_zero]

theorem reap_settled (pid : Fin nProc)
    : Ensures Freed True (reap pid) env s fun _ after => Settled after := by
  rw [reap]
  refine .next rfl (.ite (fun zombie => ?_) fun _ => .pure (h.settled ok))
  rw [(h.procs pid).1] at zombie
  have ok' : (t.setProc pid { t.procs pid with state := .unused }).Ok :=
    ok.setProc ⟨(ok.procs pid).1, fun _ => (ok.procs pid).2 (.inr zombie)⟩
  exact (h.setProc pid { t.procs pid with state := .unused } (fun was => ⟨rfl, was.2⟩) rfl).weaken
    fun _ after h => h.settled ok'

/-- The first process gets the root, by `namei`. -/
theorem userinit_settled (unused : (t.procs 0).state = .unused)
    : Ensures Freed True userinit env s fun _ after => Settled after := by
  refine (h.gives h.counted.namei_root).bind ?_
  rintro (_ | ip) mid gives
  · exact .stop trivial
  · obtain ⟨inside, h⟩ := gives
    rw [zero_add] at h
    exact h.giveCwd ok inside ((ok.procs 0).2 (.inl unused))

end

end

variable {env : FsEnv} {s : SysState}

/-- Every call of a process leaves the references to the tables. -/
theorem call_settled {t : Tables} (h : Holding t 0 0 s) (ok : t.Ok)
    (pid : Fin nProc) (running : (t.procs pid).state = .runnable) (c : Call)
    : Ensures Freed True (c.program pid) env s fun _ after => Settled after := by
  have returned : ∀ {α : Type} {program : SysM α},
      Ensures Freed True program env s (fun _ after => Settled after)
      → Ensures Freed True (do let _ ← program) env s fun _ after => Settled after :=
    fun settled => settled.bind fun _ _ settled => .pure settled
  cases c with
  | dup fd => exact returned (sysDup_settled h ok pid fd)
  | read fd n fits other =>
    exact returned ((h.onDescriptor pid fd fun f mid h => h.fileread f n other).weaken
      fun _ _ h => h.settled ok)
  | write fd addr n fits other =>
    exact returned ((h.onDescriptor pid fd fun f mid h => h.filewrite f addr n other).weaken
      fun _ _ h => h.settled ok)
  | close fd => exact returned (sysClose_settled h ok pid fd)
  | fstat fd =>
    exact returned ((h.onDescriptor pid fd fun f mid h => h.filestat f).weaken
      fun _ _ h => h.settled ok)
  | link old new =>
    exact returned ((sysLink_settled h ok pid old new).weaken fun _ _ h => h.settled ok)
  | unlink path =>
    exact returned ((sysUnlink_settled h ok pid path).weaken fun _ _ h => h.settled ok)
  | openFile path omode => exact returned (sysOpen_settled h ok pid path omode)
  | mkdir path | mknod path major minor =>
    exact returned ((makeNode_settled h ok pid path _ _ _).weaken fun _ _ h => h.settled ok)
  | chdir path => exact returned (sysChdir_settled h ok pid running path)
  | pipe fits memory => exact returned (sysPipe_settled h ok pid fits memory)
  | exec path argv memory =>
    exact returned ((sysExec_settled h ok pid path argv memory).weaken fun _ _ h => h.settled ok)
  | fork memory => exact returned (fork_settled h ok pid memory)
  | exit => exact exit_settled h ok pid

/-- One step of the system, by the calls. -/
theorem step_settled (settled : Settled s) (action : SysStep) (enabled : action.Enabled s)
    : Ensures Freed True action.program env s fun _ after => Settled after := by
  obtain ⟨t, ok, h⟩ := settled
  cases action with
  | userinit => exact userinit_settled h ok ((h.procs 0).1.symm.trans enabled)
  | call pid c => exact call_settled h ok pid ((h.procs pid).1.symm.trans enabled) c
  | reap pid => exact reap_settled h ok pid

def openFiles (s : SysState) (ip : Nat) : Finset (Fin nFile) :=
  Finset.univ.filter fun f => 0 < (s.files f).ref ∧ (s.files f).type = .inode ∧ (s.files f).ip = ip

def tasksIn (s : SysState) (ip : Nat) : Finset (Fin nProc) :=
  Finset.univ.filter fun pid => (s.procs pid).cwd = some ip

/-- The references are those of open files and current directories, and no transaction is open. -/
structure Balanced (s : SysState) : Prop where
  refs : ∀ ip < nInode, (s.fs.icache ip).ref = (openFiles s ip).card + (tasksIn s ip).card
  unique
    : ∀ ip < nInode, ∀ jp < nInode, 0 < (s.fs.icache ip).ref → 0 < (s.fs.icache jp).ref
        → (s.fs.icache ip).dev = (s.fs.icache jp).dev
        → (s.fs.icache ip).inum = (s.fs.icache jp).inum → ip = jp
  matched : s.outstanding = 0

section

variable {s : SysState} {t : Tables}

/-- The owners among the files are those that have the inode open. -/
theorem Holding.files_card (h : Holding t 0 0 s) (ok : t.Ok) (ip : Nat)
    : tally (fun file => fileOwns file ip) t.files = (openFiles s ip).card := by
  rw [openFiles, ← Finset.sum_boole]
  refine Finset.sum_congr rfl fun f _ => ?_
  obtain ⟨type, ref, slot⟩ := h.files f
  simp only [type, ref, slot]
  rw [fileOwns]
  by_cases inode : (t.files f).type = .inode
  · have positive : 0 < (t.files f).ref := by
      have := (ok.files f).1
      have closed := (ok.files f).2.1
      by_contra none_
      have zero : (t.files f).ref = 0 := by omega
      rw [closed zero] at inode
      cases inode
    simp only [inode, positive, reference, true_and, if_true, eq_comm]
  · simp [inode]

theorem Holding.tasks_card (h : Holding t 0 0 s) (ip : Nat)
    : tally (fun task => taskOwns task ip) t.procs = (tasksIn s ip).card := by
  rw [tasksIn, ← Finset.sum_boole]
  refine Finset.sum_congr rfl fun pid _ => ?_
  simp only [(h.procs pid).2]
  rw [taskOwns]
  cases (t.procs pid).cwd with
  | none => simp
  | some => simp [reference, eq_comm]

/-- What the tables own is what the cache counts. -/
theorem Settled.balanced (settled : Settled s) : Balanced s := by
  obtain ⟨t, ok, h⟩ := settled
  refine ⟨fun ip inside => ?_, h.counted.unique, h.outstanding⟩
  rw [h.counted.refs ip inside, add_zero, owners, h.files_card ok, h.tasks_card]

/-- Nothing is referenced before `userinit`. -/
theorem boot_settled (disk : Nat → Block) : Settled (boot (unused disk)) := by
  refine ⟨⟨(boot (unused disk)).files, (boot (unused disk)).procs⟩,
    ⟨fun f => ?_, fun pid => ?_⟩, ?_⟩
  · exact ⟨le_rfl, fun _ => rfl, nofun⟩
  · exact ⟨nofun, fun _ => rfl⟩
  · refine ⟨fun f => ⟨rfl, rfl, rfl⟩, fun pid => ⟨rfl, rfl⟩, rfl, fun ip _ => ?_, ?_⟩
    · simp [owners, tally, fileOwns, taskOwns, boot, unused]
    · intro ip _ jp _ referenced
      cases referenced

end

/-- Between the steps of every run the references of every slot are those of the open files and of
the current directories, and no step frees the blocks of an inode that has links or that keeps a
reference.
-/
theorem references_balanced (env : FsEnv) (disk : Nat → Block) (actions : List SysStep)
    : Throughout (step env)
        (fun s => Balanced s
          ∧ ∀ action : SysStep, action.Enabled s
              → ∀ inum nlink ref, .truncate inum nlink ref ∈ (action.program.run env s).log
              → nlink = 0 ∧ ref = 1)
        (boot (unused disk)) actions := by
  have settled : Throughout (step env) Settled (boot (unused disk)) actions := by
    refine Throughout.invariant (boot_settled disk) ?_ actions
    intro current action next settled taken
    simp only [step] at taken
    split at taken
    · rename_i enabled
      obtain ⟨value, ended, rfl⟩ := Option.map_eq_some_iff.mp taken
      exact (step_settled settled action enabled).ends value ended
    · cases taken
  refine settled.mono fun s settled => ⟨settled.balanced, ?_⟩
  intro action enabled inum nlink ref logged
  exact (step_settled settled action enabled).logged _ logged

end Xv6Net.SysFile
