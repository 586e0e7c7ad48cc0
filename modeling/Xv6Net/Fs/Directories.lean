import Xv6Net.Fs.Inodes

/-! Directories and paths: `dirlookup`, `dirlink`, `skipelem` and `namex` of `fs.c`. A C string is
the list of its bytes; the terminating zero is not in the list.
-/

namespace Xv6Net

open Library Memory

abbrev dirSiz : Nat := 14

def cstring (bytes : List UInt8) (i : Nat) : UInt8 := bytes.getD i 0

def strncmp (p q : Nat → UInt8) : Nat → Int
  | 0 => 0
  | n + 1 =>
    if p 0 ≠ 0 ∧ p 0 = q 0 then strncmp (fun i => p (i + 1)) (fun i => q (i + 1)) n
    else (p 0).toNat - (q 0).toNat

/-- The bytes that `strncpy` stores. -/
def strncpy (t : Nat → UInt8) : Nat → List UInt8
  | 0 => []
  | n + 1 =>
    if t 0 ≠ 0 then t 0 :: strncpy (fun i => t (i + 1)) n else List.replicate (n + 1) 0

namespace Fs

/-- `struct dirent`. -/
@[ext]
structure Dirent where
  inum : UInt16
  name : List UInt8
deriving DecidableEq

def Dirent.ofBytes (bytes : List UInt8) : Dirent :=
  { inum := (bytes.getD 0 0).toUInt16 ||| (bytes.getD 1 0).toUInt16 <<< 8
    name := bytes.drop 2 }

def Dirent.bytes (de : Dirent) : List UInt8 := bytes16 de.inum ++ de.name

def namecmp (s t : List UInt8) : Int := strncmp (cstring s) (cstring t) dirSiz

/-- The loop of `dirlookup`, with the slot and the offset of the entry if there is one. -/
def dirlookupLoop (dp : Nat) (name : List UInt8) : Nat → Nat → FsM (Option (Nat × Nat))
  | 0, _ => return none
  | fuel + 1, off => do
    let node ← inode dp
    if off < node.copy.size.toNat then
      let r ← readi dp (UInt32.ofNat off) 16
      if r.1 ≠ 16 then panic .dirlookupRead
      else
        let de := Dirent.ofBytes r.2
        if de.inum ≠ 0 ∧ namecmp name de.name = 0 then
          let ip ← iget node.dev de.inum.toNat
          return some (ip, off)
        else dirlookupLoop dp name fuel (off + 16)
    else return none

def dirlookup (dp : Nat) (name : List UInt8) : FsM (Option (Nat × Nat)) := do
  let node ← inode dp
  if node.copy.type ≠ tDir then panic .dirlookupNotDir
  else dirlookupLoop dp name (node.copy.size.toNat / 16 + 1) 0

/-- The loop of `dirlink`: the offset of the first empty entry, or the end of the directory. -/
def emptyDirentLoop (dp : Nat) : Nat → Nat → FsM Nat
  | 0, off => return off
  | fuel + 1, off => do
    let node ← inode dp
    if off < node.copy.size.toNat then
      let r ← readi dp (UInt32.ofNat off) 16
      if r.1 ≠ 16 then panic .dirlinkRead
      else if (Dirent.ofBytes r.2).inum = 0 then return off
      else emptyDirentLoop dp fuel (off + 16)
    else return off

/-- The memory of a `struct dirent`. -/
def direntMemory (de : Dirent) (i : Int) : UInt8 := de.bytes.getD i.toNat 0

def dirlink (dp : Nat) (name : List UInt8) (inum : Nat) : FsM Int := do
  match ← dirlookup dp name with
  | some (ip, _) =>
    iput ip
    return -1
  | none =>
    let node ← inode dp
    let off ← emptyDirentLoop dp (node.copy.size.toNat / 16 + 1) 0
    let de : Dirent :=
      { inum := UInt16.ofNat inum, name := strncpy (cstring name) dirSiz }
    let n ← writei dp (direntMemory de) (UInt32.ofNat off) 16
    if n ≠ 16 then panic .dirlink else return 0

/-- The character `/`. -/
abbrev slash : UInt8 := 47

/-- `skipelem`: the rest of the path and the first element, cut to `DIRSIZ` bytes. -/
def skipelem (path : List UInt8) : Option (List UInt8 × List UInt8) :=
  let s := path.dropWhile (· = slash)
  if s = [] then none
  else
    let rest := s.dropWhile (· ≠ slash)
    some (rest.dropWhile (· = slash), (s.takeWhile (· ≠ slash)).take dirSiz)

/-- The loop of `namex`, with the slot and the last element; a step shortens the path. -/
def namexLoop (nameiparent : Bool) : Nat → List UInt8 → List UInt8 → Nat
    → FsM (Option (Nat × List UInt8))
  | 0, _, _, _ => return none
  | fuel + 1, path, name, ip =>
    match skipelem path with
    | some (path, name) => do
      ilock ip
      let node ← inode ip
      if node.copy.type ≠ tDir then
        iunlockput ip
        return none
      else if nameiparent = true ∧ path = [] then
        iunlock ip
        return some (ip, name)
      else
        match ← dirlookup ip name with
        | none =>
          iunlockput ip
          return none
        | some (next, _) =>
          iunlockput ip
          namexLoop nameiparent fuel path name next
    | none => do
      if nameiparent then
        iput ip
        return none
      else return some (ip, name)

/-- `namex`; `cwd` is the current directory of the process. -/
def namex (cwd : Nat) (path : List UInt8) (nameiparent : Bool)
    : FsM (Option (Nat × List UInt8)) := do
  let ip ← if path.head? = some slash then iget rootDev rootIno else idup cwd
  namexLoop nameiparent (path.length + 1) path [] ip

def namei (cwd : Nat) (path : List UInt8) : FsM (Option Nat) := do
  let r ← namex cwd path false
  return r.map Prod.fst

def nameiparent (cwd : Nat) (path : List UInt8) : FsM (Option (Nat × List UInt8)) :=
  namex cwd path true

end Fs

end Xv6Net
