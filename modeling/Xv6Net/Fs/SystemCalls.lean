import Xv6Net.Fs.Directories
import Xv6Net.Kernel.State

/-! The file-system calls of `sysfile.c` and `file.c`, and `fork`, `exec` and `exit` as far as they
use inodes. Each call runs as a whole; a panic, or a lock that is never released, ends the system.
Memory that is exhausted, and arguments that cannot be fetched, are parameters of the calls.
-/

namespace Xv6Net

open Library Memory Function

/-! ### State -/

/-- `struct file`, with the slot of its inode. -/
structure OpenFile where
  type : FdType
  ref : Int
  readable : Bool
  writable : Bool
  ip : Nat
  off : UInt32

/-- The fields of `struct proc` that the file-system calls use. -/
structure Task where
  state : ProcState
  ofile : Fin noFile → Option (Fin nFile)
  cwd : Option Nat

/-- The file system, the file table, the processes, and `log.outstanding`. -/
structure SysState where
  fs : FsState
  files : Fin nFile → OpenFile
  procs : Fin nProc → Task
  outstanding : Int

abbrev SysM := Program FsEnv SysState FsEvent

namespace Fs

/-! ### Inodes and directories -/

/-- The loop of `isdirempty`. -/
def isdiremptyLoop (dp : Nat) : Nat → Nat → FsM Bool
  | 0, _ => return true
  | fuel + 1, off => do
    let node ← inode dp
    if off < node.copy.size.toNat then
      let r ← readi dp (UInt32.ofNat off) 16
      if r.1 ≠ 16 then panic .isdirempty
      else if (Dirent.ofBytes r.2).inum ≠ 0 then return false
      else isdiremptyLoop dp fuel (off + 16)
    else return true

def isdirempty (dp : Nat) : FsM Bool := do
  let node ← inode dp
  isdiremptyLoop dp (node.copy.size.toNat / 16 + 1) 32

/-- The entries `.` and `..` of a new directory. -/
def linkDots (ip inum parent : Nat) : FsM Unit := do
  if (← dirlink ip [46] inum) < 0 then panic .createDots
  else if (← dirlink ip [46, 46] parent) < 0 then panic .createDots
  else pure ()

/-- `create`; a null pointer is `none`. -/
def create (cwd : Nat) (path : List UInt8) (type major minor : UInt16) : FsM (Option Nat) := do
  match ← nameiparent cwd path with
  | none => return none
  | some (dp, name) =>
    ilock dp
    match ← dirlookup dp name with
    | some (ip, _) =>
      iunlockput dp
      ilock ip
      let node ← inode ip
      if type = tFile ∧ node.copy.type = tFile then return some ip
      else
        iunlockput ip
        return none
    | none =>
      let dir ← inode dp
      let ip ← ialloc dir.dev type
      ilock ip
      setCopy ip fun copy => { copy with major, minor, nlink := 1 }
      iupdate ip
      let node ← inode ip
      if type = tDir then
        setCopy dp fun copy => { copy with nlink := copy.nlink + 1 }
        iupdate dp
        linkDots ip node.inum dir.inum
      if (← dirlink dp name node.inum) < 0 then panic .createDirlink
      else
        iunlockput dp
        return some ip

end Fs

namespace SysFile

open Fs

def onFs {α : Type} (program : FsM α) : SysM α :=
  Program.focus SysState.fs (fun fs s => { s with fs }) program

def panic {α : Type} (reason : FsPanic) : SysM α := do
  Program.emit (.panic reason)
  Program.stop

def beginOp : SysM Unit := Program.modify fun s => { s with outstanding := s.outstanding + 1 }

def endOp : SysM Unit := Program.modify fun s => { s with outstanding := s.outstanding - 1 }

def setFile (f : Fin nFile) (change : OpenFile → OpenFile) : SysM Unit :=
  Program.modify fun s => { s with files := update s.files f (change (s.files f)) }

def setProc (pid : Fin nProc) (change : Task → Task) : SysM Unit :=
  Program.modify fun s => { s with procs := update s.procs pid (change (s.procs pid)) }

/-- The current directory of the process; a null pointer ends the system. -/
def cwd (pid : Fin nProc) : SysM Nat := do
  match ((← Program.get).procs pid).cwd with
  | some ip => return ip
  | none => Program.stop

/-! ### `file.c` -/

def filealloc : SysM (Option (Fin nFile)) := do
  let s ← Program.get
  match (List.finRange nFile).find? fun f => (s.files f).ref = 0 with
  | none => return none
  | some f =>
    setFile f fun file => { file with ref := 1 }
    return some f

def fdalloc (pid : Fin nProc) (f : Fin nFile) : SysM (Option (Fin noFile)) := do
  let s ← Program.get
  match (List.finRange noFile).find? fun fd => (s.procs pid).ofile fd = none with
  | none => return none
  | some fd =>
    setProc pid fun p => { p with ofile := update p.ofile fd (some f) }
    return some fd

def filedup (f : Fin nFile) : SysM Unit := do
  let s ← Program.get
  if (s.files f).ref < 1 then panic .filedup
  else setFile f fun file => { file with ref := file.ref + 1 }

/-- `fileclose`; the pipes and the sockets are in other parts of the kernel. -/
def fileclose (f : Fin nFile) : SysM Unit := do
  let s ← Program.get
  let ff := s.files f
  if ff.ref < 1 then panic .fileclose
  else if ff.ref - 1 > 0 then setFile f fun file => { file with ref := file.ref - 1 }
  else
    setFile f fun file => { file with ref := 0, type := .none }
    if ff.type = .inode then
      beginOp
      onFs (iput ff.ip)
      endOp

def filestat (f : Fin nFile) : SysM Int := do
  let file := (← Program.get).files f
  if file.type = .inode then
    onFs (ilock file.ip)
    onFs (iunlock file.ip)
    return 0
  else return -1

/-- `fileread`; `other` is what `piperead` or `socketread` returns. -/
def fileread (f : Fin nFile) (n : UInt32) (other : Int) : SysM Int := do
  let file := (← Program.get).files f
  if file.readable = false then return -1
  else
    match file.type with
    | .pipe | .socket => return other
    | .inode =>
      onFs (ilock file.ip)
      let r ← onFs (readi file.ip file.off n)
      if r.1 > 0 then
        setFile f fun file => { file with off := file.off + UInt32.ofInt r.1 }
      onFs (iunlock file.ip)
      return r.1
    | .none => panic .fileread

/-- The loop of `filewrite` from byte `i` on; it writes 1536 bytes at a time. -/
def filewriteLoop (f : Fin nFile) (addr : Int → UInt8) (n : Nat) : Nat → Nat → SysM Int
  | 0, _ => return -1
  | fuel + 1, i => do
    if i < n then
      let file := (← Program.get).files f
      let n1 := min (n - i) 1536
      beginOp
      onFs (ilock file.ip)
      let r ← onFs (writei file.ip (fun o => addr (i + o)) file.off (UInt32.ofNat n1))
      if r > 0 then
        setFile f fun file => { file with off := file.off + UInt32.ofInt r }
      onFs (iunlock file.ip)
      endOp
      if r < 0 then return -1
      else if r ≠ n1 then panic .shortFilewrite
      else filewriteLoop f addr n fuel (i + n1)
    else return n

/-- `filewrite`; nothing is written for a negative count. -/
def filewrite (f : Fin nFile) (addr : Int → UInt8) (n other : Int) : SysM Int := do
  let file := (← Program.get).files f
  if file.writable = false then return -1
  else
    match file.type with
    | .pipe | .socket => return other
    | .inode =>
      if n < 0 then return -1
      else filewriteLoop f addr n.toNat (n.toNat + 1) 0
    | .none => panic .filewrite

/-! ### `sysfile.c` -/

/-- `argfd`: the descriptor and its file. -/
def argfd (pid : Fin nProc) (fd : Int) : SysM (Option (Fin noFile × Fin nFile)) := do
  let s ← Program.get
  if inside : 0 ≤ fd ∧ fd < noFile then
    let fd : Fin noFile := ⟨fd.toNat, by omega⟩
    return ((s.procs pid).ofile fd).map fun f => (fd, f)
  else return none

def sysDup (pid : Fin nProc) (fd : Int) : SysM Int := do
  match ← argfd pid fd with
  | none => return -1
  | some (_, f) =>
    match ← fdalloc pid f with
    | none => return -1
    | some fd =>
      filedup f
      return fd.val

/-- `sys_read`; `fits` says that the buffer is in the memory of the process. -/
def sysRead (pid : Fin nProc) (fd : Int) (n : UInt32) (fits : Bool) (other : Int) : SysM Int := do
  match ← argfd pid fd with
  | none => return -1
  | some (_, f) => if fits then fileread f n other else return -1

def sysWrite (pid : Fin nProc) (fd : Int) (addr : Int → UInt8) (n : Int) (fits : Bool)
    (other : Int) : SysM Int := do
  match ← argfd pid fd with
  | none => return -1
  | some (_, f) => if fits then filewrite f addr n other else return -1

def sysClose (pid : Fin nProc) (fd : Int) : SysM Int := do
  match ← argfd pid fd with
  | none => return -1
  | some (fd, f) =>
    setProc pid fun p => { p with ofile := update p.ofile fd none }
    fileclose f
    return 0

def sysFstat (pid : Fin nProc) (fd : Int) (fits : Bool) : SysM Int := do
  match ← argfd pid fd with
  | none => return -1
  | some (_, f) => if fits then filestat f else return -1

/-- The part of `sys_link` at `bad`. -/
def linkBad (ip : Nat) : SysM Int := do
  onFs (ilock ip)
  onFs (setCopy ip fun copy => { copy with nlink := copy.nlink - 1 })
  onFs (iupdate ip)
  onFs (iunlockput ip)
  endOp
  return -1

/-- `sys_link`; an argument that cannot be fetched is `none`. -/
def sysLink (pid : Fin nProc) (old new : Option (List UInt8)) : SysM Int := do
  match old, new with
  | some old, some new =>
    let dir ← cwd pid
    beginOp
    match ← onFs (namei dir old) with
    | none =>
      endOp
      return -1
    | some ip =>
      onFs (ilock ip)
      let node ← onFs (inode ip)
      if node.copy.type = tDir then
        onFs (iunlockput ip)
        endOp
        return -1
      else
        onFs (setCopy ip fun copy => { copy with nlink := copy.nlink + 1 })
        onFs (iupdate ip)
        onFs (iunlock ip)
        match ← onFs (nameiparent dir new) with
        | none => linkBad ip
        | some (dp, name) =>
          onFs (ilock dp)
          let parent ← onFs (inode dp)
          let node ← onFs (inode ip)
          let linked ←
            if parent.dev ≠ node.dev then pure (-1) else onFs (dirlink dp name node.inum)
          if linked < 0 then
            onFs (iunlockput dp)
            linkBad ip
          else
            onFs (iunlockput dp)
            onFs (iput ip)
            endOp
            return 0
  | _, _ => return -1

/-- The part of `sys_unlink` at `bad`. -/
def unlinkBad (dp : Nat) : SysM Int := do
  onFs (iunlockput dp)
  endOp
  return -1

/-- The memory of a `struct dirent` that is cleared. -/
def clearedDirent (_ : Int) : UInt8 := 0

/-- `sys_unlink` once the entry at `off` is known to be removed. -/
def unlinkEntry (dp ip off : Nat) : SysM Int := do
  if (← onFs (writei dp clearedDirent (UInt32.ofNat off) 16)) ≠ 16 then panic .unlinkWritei
  else
    let node ← onFs (inode ip)
    if node.copy.type = tDir then
      onFs (setCopy dp fun copy => { copy with nlink := copy.nlink - 1 })
      onFs (iupdate dp)
    onFs (iunlockput dp)
    onFs (setCopy ip fun copy => { copy with nlink := copy.nlink - 1 })
    onFs (iupdate ip)
    onFs (iunlockput ip)
    endOp
    return 0

def sysUnlink (pid : Fin nProc) (path : Option (List UInt8)) : SysM Int := do
  match path with
  | none => return -1
  | some path =>
    let dir ← cwd pid
    beginOp
    match ← onFs (nameiparent dir path) with
    | none =>
      endOp
      return -1
    | some (dp, name) =>
      onFs (ilock dp)
      if namecmp name [46] = 0 ∨ namecmp name [46, 46] = 0 then unlinkBad dp
      else
        match ← onFs (dirlookup dp name) with
        | none => unlinkBad dp
        | some (ip, off) =>
          onFs (ilock ip)
          let node ← onFs (inode ip)
          -- `nlink` is a `short`
          if node.copy.nlink.toInt16 < 1 then panic .unlinkNlink
          else
            let empty ← if node.copy.type = tDir then onFs (isdirempty ip) else pure true
            if empty then unlinkEntry dp ip off
            else
              onFs (iunlockput ip)
              unlinkBad dp

/-- The first part of `sys_open`: the inode, which is locked, or the end of the call. -/
def openInode (dir : Nat) (path : List UInt8) (omode : UInt32) : SysM (Option Nat) := do
  if omode &&& 0x200 ≠ 0 then
    match ← onFs (create dir path tFile 0 0) with
    | none =>
      endOp
      return none
    | some ip => return some ip
  else
    match ← onFs (namei dir path) with
    | none =>
      endOp
      return none
    | some ip =>
      onFs (ilock ip)
      let node ← onFs (inode ip)
      if node.copy.type = tDir ∧ omode ≠ 0 then
        onFs (iunlockput ip)
        endOp
        return none
      else return some ip

def sysOpen (pid : Fin nProc) (path : Option (List UInt8)) (omode : UInt32) : SysM Int := do
  match path with
  | none => return -1
  | some path =>
    let dir ← cwd pid
    beginOp
    match ← openInode dir path omode with
    | none => return -1
    | some ip =>
      match ← filealloc with
      | none =>
        onFs (iunlockput ip)
        endOp
        return -1
      | some f =>
        match ← fdalloc pid f with
        | none =>
          fileclose f
          onFs (iunlockput ip)
          endOp
          return -1
        | some fd =>
          onFs (iunlock ip)
          endOp
          setFile f fun file =>
            { file with
              type := .inode, ip, off := 0, readable := omode &&& 1 = 0
              writable := omode &&& 1 ≠ 0 ∨ omode &&& 2 ≠ 0 }
          return fd.val

/-- `sys_mkdir` and `sys_mknod`, which differ in what they pass to `create`. -/
def makeNode (pid : Fin nProc) (path : Option (List UInt8)) (type major minor : UInt16)
    : SysM Int := do
  beginOp
  match path with
  | none =>
    endOp
    return -1
  | some path =>
    let dir ← cwd pid
    match ← onFs (create dir path type major minor) with
    | none =>
      endOp
      return -1
    | some ip =>
      onFs (iunlockput ip)
      endOp
      return 0

def sysMkdir (pid : Fin nProc) (path : Option (List UInt8)) : SysM Int :=
  makeNode pid path tDir 0 0

def sysMknod (pid : Fin nProc) (path : Option (List UInt8)) (major minor : UInt16) : SysM Int :=
  makeNode pid path tDev major minor

def sysChdir (pid : Fin nProc) (path : Option (List UInt8)) : SysM Int := do
  beginOp
  match path with
  | none =>
    endOp
    return -1
  | some path =>
    let dir ← cwd pid
    match ← onFs (namei dir path) with
    | none =>
      endOp
      return -1
    | some ip =>
      onFs (ilock ip)
      let node ← onFs (inode ip)
      if node.copy.type ≠ tDir then
        onFs (iunlockput ip)
        endOp
        return -1
      else
        onFs (iunlock ip)
        onFs (iput dir)
        endOp
        setProc pid fun p => { p with cwd := some ip }
        return 0

/-- `pipealloc`; `memory` says that `kalloc` returns a page. -/
def pipealloc (memory : Bool) : SysM (Option (Fin nFile × Fin nFile)) := do
  match ← filealloc with
  | none => return none
  | some f0 =>
    match ← filealloc with
    | none =>
      fileclose f0
      return none
    | some f1 =>
      if memory then
        setFile f0 fun file => { file with type := .pipe, readable := true, writable := false }
        setFile f1 fun file => { file with type := .pipe, readable := false, writable := true }
        return some (f0, f1)
      else
        fileclose f0
        fileclose f1
        return none

def sysPipe (pid : Fin nProc) (fits memory : Bool) : SysM Int := do
  if fits then
    match ← pipealloc memory with
    | none => return -1
    | some (rf, wf) =>
      match ← fdalloc pid rf with
      | none =>
        fileclose rf
        fileclose wf
        return -1
      | some fd0 =>
        match ← fdalloc pid wf with
        | none =>
          setProc pid fun p => { p with ofile := update p.ofile fd0 none }
          fileclose rf
          fileclose wf
          return -1
        | some _ => return 0
  else return -1

/-! ### `exec` -/

/-- What `vm.c` allocates for `exec`: `setupkvm`, `allocuvm` for the segments and for the stack, and
the rest, which builds the stack.
-/
structure ExecMemory where
  setupkvm : Bool
  segment : Nat → Bool
  stack : Bool

/-- `allocuvm`; 0 if it fails, and `KERNBASE` bounds the size. -/
def allocuvm (memory : Bool) (oldsz newsz : UInt32) : UInt32 :=
  if newsz ≥ 0x80000000 then 0
  else if newsz < oldsz then oldsz
  else if memory then newsz
  else 0

/-- The word at an offset in bytes that were read. -/
def word (bytes : List UInt8) (i : Nat) : UInt32 := load32 (fun o => bytes.getD o.toNat 0) i

/-- The loop of `loaduvm`, which reads a page at a time. -/
def loaduvm (ip : Nat) (offset sz : UInt32) : Nat → Nat → FsM Bool
  | 0, _ => return true
  | fuel + 1, i => do
    if i < sz.toNat then
      let n := min (sz.toNat - i) 4096
      let r ← readi ip (offset + UInt32.ofNat i) (UInt32.ofNat n)
      if r.1 ≠ n then return false else loaduvm ip offset sz fuel (i + 4096)
    else return true

/-- The loop of `exec` over the program headers, from header `i` at `off` on, with `left` of them to
go; it returns the size of the image, or `none` at `bad`.
-/
def loadSegments (memory : ExecMemory) (ip : Nat) : Nat → Nat → UInt32 → UInt32
    → FsM (Option UInt32)
  | 0, _, _, sz => return some sz
  | left + 1, i, off, sz => do
    let r ← readi ip off 32
    if r.1 ≠ 32 then return none
    else
      let type := word r.2 0
      let offset := word r.2 4
      let vaddr := word r.2 8
      let filesz := word r.2 16
      let memsz := word r.2 20
      if type ≠ 1 then loadSegments memory ip left (i + 1) (off + 32) sz
      else if memsz < filesz then return none
      else if vaddr + memsz < vaddr then return none
      else
        let sz := allocuvm (memory.segment i) sz (vaddr + memsz)
        if sz = 0 then return none
        else if vaddr % 4096 ≠ 0 then return none
        else
          let loaded ← loaduvm ip offset filesz (filesz.toNat / 4096 + 1) 0
          if loaded then loadSegments memory ip left (i + 1) (off + 32) sz
          else return none

/-- The part of `exec` that reads the inode, up to its end or `bad`. -/
def loadImage (memory : ExecMemory) (ip : Nat) : FsM (Option UInt32) := do
  let r ← readi ip 0 52
  if r.1 ≠ 52 then return none
  else if word r.2 0 ≠ 0x464C457F then return none
  else if memory.setupkvm = false then return none
  else
    let phnum := (word r.2 44).toUInt16.toNat
    loadSegments memory ip phnum 0 (word r.2 28) 0

/-- `exec`. What follows once the inode has been read uses it no more. -/
def exec (pid : Fin nProc) (path : List UInt8) (memory : ExecMemory) : SysM Int := do
  let dir ← cwd pid
  beginOp
  match ← onFs (namei dir path) with
  | none =>
    endOp
    return -1
  | some ip =>
    onFs (ilock ip)
    match ← onFs (loadImage memory ip) with
    | none =>
      onFs (iunlockput ip)
      endOp
      return -1
    | some _ =>
      onFs (iunlockput ip)
      endOp
      if memory.stack then return 0 else return -1

/-- `sys_exec`; `argv` says that the arguments could be fetched. -/
def sysExec (pid : Fin nProc) (path : Option (List UInt8)) (argv : Bool) (memory : ExecMemory)
    : SysM Int := do
  match path with
  | none => return -1
  | some path => if argv then exec pid path memory else return -1

/-! ### Processes -/

/-- One pass of the loop of `fork` over the descriptors. -/
def forkFile (pid np : Fin nProc) (fd : Fin noFile) : SysM Unit := do
  match ((← Program.get).procs pid).ofile fd with
  | none => pure ()
  | some f =>
    filedup f
    setProc np fun p => { p with ofile := update p.ofile fd (some f) }

/-- `fork`; `memory` says that `allocproc` gets a stack and `copyuvm` its pages. -/
def fork (pid : Fin nProc) (memory : Bool) : SysM Int := do
  let s ← Program.get
  match (List.finRange nProc).find? fun np => (s.procs np).state = .unused with
  | none => return -1
  | some np =>
    if memory then
      setProc np fun p => { p with state := .embryo }
      (List.finRange noFile).forM (forkFile pid np)
      let dir ← cwd pid
      let dup ← onFs (idup dir)
      setProc np fun p => { p with cwd := some dup, state := .runnable }
      return np.val
    else return -1

/-- One pass of the loop of `exit` over the descriptors. -/
def exitFile (pid : Fin nProc) (fd : Fin noFile) : SysM Unit := do
  match ((← Program.get).procs pid).ofile fd with
  | none => pure ()
  | some f =>
    fileclose f
    setProc pid fun p => { p with ofile := update p.ofile fd none }

/-- `exit`; the first process may not exit. -/
def exit (pid : Fin nProc) : SysM Unit := do
  if pid = 0 then panic .initExiting
  else
    (List.finRange noFile).forM (exitFile pid)
    let dir ← cwd pid
    beginOp
    onFs (iput dir)
    endOp
    setProc pid fun p => { p with cwd := none, state := .zombie }

/-- The part of `wait` that frees the slot of a process that has exited. -/
def reap (pid : Fin nProc) : SysM Unit := do
  let s ← Program.get
  if (s.procs pid).state = .zombie then setProc pid fun p => { p with state := .unused }
  else pure ()

/-- The part of `userinit` that gives the first process its directory. -/
def userinit : SysM Unit := do
  match ← onFs (namei 0 [slash]) with
  | none => Program.stop
  | some ip => setProc 0 fun p => { p with cwd := some ip, state := .runnable }

/-! ### Steps -/

inductive Call where
  | dup (fd : Int)
  | read (fd : Int) (n : UInt32) (fits : Bool) (other : Int)
  | write (fd : Int) (addr : Int → UInt8) (n : Int) (fits : Bool) (other : Int)
  | close (fd : Int)
  | fstat (fd : Int) (fits : Bool)
  | link (old new : Option (List UInt8))
  | unlink (path : Option (List UInt8))
  | openFile (path : Option (List UInt8)) (omode : UInt32)
  | mkdir (path : Option (List UInt8))
  | mknod (path : Option (List UInt8)) (major minor : UInt16)
  | chdir (path : Option (List UInt8))
  | pipe (fits memory : Bool)
  | exec (path : Option (List UInt8)) (argv : Bool) (memory : ExecMemory)
  | fork (memory : Bool)
  | exit

def Call.program (pid : Fin nProc) : Call → SysM Unit
  | .dup fd => do let _ ← sysDup pid fd
  | .read fd n fits other => do let _ ← sysRead pid fd n fits other
  | .write fd addr n fits other => do let _ ← sysWrite pid fd addr n fits other
  | .close fd => do let _ ← sysClose pid fd
  | .fstat fd fits => do let _ ← sysFstat pid fd fits
  | .link old new => do let _ ← sysLink pid old new
  | .unlink path => do let _ ← sysUnlink pid path
  | .openFile path omode => do let _ ← sysOpen pid path omode
  | .mkdir path => do let _ ← sysMkdir pid path
  | .mknod path major minor => do let _ ← sysMknod pid path major minor
  | .chdir path => do let _ ← sysChdir pid path
  | .pipe fits memory => do let _ ← sysPipe pid fits memory
  | .exec path argv memory => do let _ ← sysExec pid path argv memory
  | .fork memory => do let _ ← SysFile.fork pid memory
  | .exit => SysFile.exit pid

/-- A step: the first process is set up, a process that is not asleep makes a call, or the slot of
one that has exited is freed.
-/
inductive SysStep where
  | userinit
  | call (pid : Fin nProc) (c : Call)
  | reap (pid : Fin nProc)

def SysStep.Enabled (s : SysState) : SysStep → Prop
  | .userinit => (s.procs 0).state = .unused
  | .call pid _ => (s.procs pid).state = .runnable
  | .reap _ => True

instance (s : SysState) : (action : SysStep) → Decidable (action.Enabled s)
  | .userinit => inferInstanceAs (Decidable ((s.procs 0).state = .unused))
  | .call pid _ => inferInstanceAs (Decidable ((s.procs pid).state = .runnable))
  | .reap _ => isTrue trivial

def SysStep.program : SysStep → SysM Unit
  | .userinit => SysFile.userinit
  | .call pid c => c.program pid
  | .reap pid => SysFile.reap pid

def step (env : FsEnv) (s : SysState) (action : SysStep) : Option SysState :=
  if action.Enabled s then
    let out := action.program.run env s
    out.value.map fun _ => out.state
  else none

/-- The system before its first process is set up. -/
def boot (fs : FsState) : SysState :=
  { fs
    files := fun _ =>
      { type := .none, ref := 0, readable := false, writable := false, ip := 0, off := 0 }
    procs := fun _ => { state := .unused, ofile := fun _ => none, cwd := none }
    outstanding := 0 }

end SysFile

end Xv6Net
