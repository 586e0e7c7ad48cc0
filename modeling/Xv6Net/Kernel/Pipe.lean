import Xv6Net.Library.Ring
import Xv6Net.Library.Transition

/-! Pipes: `pipewrite` and `piperead` by any number of processes, with `pipeclose` and `kill`.
A process gives up the lock of the pipe only where it sleeps or returns, so that each stretch
between two such points is one step.
-/

namespace Xv6Net

open Library Transition Function

/-- `struct pipe`; the array `data` has `PIPESIZE` = 512 bytes. -/
structure Pipe where
  data : Int → UInt8
  nread : UInt32
  nwrite : UInt32
  readopen : Bool
  writeopen : Bool

/-- Where `pipealloc` starts. -/
def Pipe.alloc (data : Int → UInt8) : Pipe :=
  { data, nread := 0, nwrite := 0, readopen := true, writeopen := true }

/-- The pipe holds `PIPESIZE` bytes. -/
def Pipe.Full (p : Pipe) : Prop := p.nwrite = p.nread + 512

instance (p : Pipe) : Decidable p.Full := inferInstanceAs (Decidable (_ = _))

/-- `p->data[p->nwrite++ % PIPESIZE] = byte`. -/
def Pipe.put (p : Pipe) (byte : UInt8) : Pipe :=
  { p with
    data := update p.data (p.nwrite % 512).toNat byte
    nwrite := p.nwrite + 1 }

/-- The loop of `pipewrite` up to its end or to a full pipe, with the bytes that are left. -/
def pipeFill : Pipe → List UInt8 → Pipe × List UInt8
  | p, [] => (p, [])
  | p, byte :: rest => if p.Full then (p, byte :: rest) else pipeFill (p.put byte) rest

/-- The copy loop of `piperead`, with the bytes it has copied. -/
def pipeDrain : Pipe → Nat → Pipe × List UInt8
  | p, 0 => (p, [])
  | p, n + 1 =>
    if p.nread = p.nwrite then
      (p, [])
    else
      let byte := p.data (p.nread % 512).toNat
      let (after, bytes) := pipeDrain { p with nread := p.nread + 1 } n
      (after, byte :: bytes)

/-- Where a process is: outside, in `pipewrite` with these bytes of its `n` left, or in `piperead`.
-/
inductive PipePc where
  | outside
  | writing (left : List UInt8) (n : Int)
  | reading (n : Int)

/-- A process; in `pipewrite` it sleeps on `&p->nwrite`, in `piperead` on `&p->nread`. -/
structure PipeProc where
  pc : PipePc
  sleeping : Bool
  killed : Bool

/-- What a call has returned; the bytes are those that `piperead` has stored at `addr`. -/
inductive PipeAnswer where
  | wrote (value : Int)
  | read (value : Int) (bytes : List UInt8)

/-- The pipe and its users, and the answer of the call that the last step has ended, if any. -/
structure PipeSys where
  pipe : Pipe
  procs : Nat → PipeProc
  answer : Option PipeAnswer

namespace PipeSys

/-- `wakeup(&p->nread)`. -/
def wakeReaders (s : PipeSys) : PipeSys :=
  { s with
    procs := fun pid =>
      match (s.procs pid).pc with
      | .reading _ => { s.procs pid with sleeping := false }
      | _ => s.procs pid }

/-- `wakeup(&p->nwrite)`. -/
def wakeWriters (s : PipeSys) : PipeSys :=
  { s with
    procs := fun pid =>
      match (s.procs pid).pc with
      | .writing _ _ => { s.procs pid with sleeping := false }
      | _ => s.procs pid }

def sleep (s : PipeSys) (pid : Nat) (pc : PipePc) : PipeSys :=
  { s with
    procs := update s.procs pid { s.procs pid with pc, sleeping := true }
    answer := none }

def return_ (s : PipeSys) (pid : Nat) (answer : PipeAnswer) : PipeSys :=
  { s with
    procs := update s.procs pid { s.procs pid with pc := .outside, sleeping := false }
    answer := some answer }

/-- `pipewrite` with these bytes left, as long as it has the lock. -/
def pipewrite (s : PipeSys) (pid : Nat) (left : List UInt8) (n : Int) : PipeSys :=
  let (pipe, rest) := pipeFill s.pipe left
  let s := { s with pipe }
  if rest = [] then
    s.wakeReaders.return_ pid (.wrote n)
  else if pipe.readopen = false ∨ (s.procs pid).killed then
    s.return_ pid (.wrote (-1))
  else
    s.wakeReaders.sleep pid (.writing rest n)

/-- `piperead` as long as it has the lock. -/
def piperead (s : PipeSys) (pid : Nat) (n : Int) : PipeSys :=
  if s.pipe.nread = s.pipe.nwrite ∧ s.pipe.writeopen then
    if (s.procs pid).killed then
      s.return_ pid (.read (-1) [])
    else
      s.sleep pid (.reading n)
  else
    let (pipe, bytes) := pipeDrain s.pipe n.toNat
    let s := { s with pipe }
    s.wakeWriters.return_ pid (.read bytes.length bytes)

/-- `pipeclose` of a pipe whose other end is open. -/
def pipeclose (s : PipeSys) (writable : Bool) : PipeSys :=
  if writable then
    wakeReaders { s with pipe := { s.pipe with writeopen := false }, answer := none }
  else
    wakeWriters { s with pipe := { s.pipe with readopen := false }, answer := none }

/-- `kill`. -/
def kill (s : PipeSys) (pid : Nat) : PipeSys :=
  { s with
    procs := update s.procs pid { s.procs pid with killed := true, sleeping := false }
    answer := none }

end PipeSys

/-- A process calls `pipewrite` with the `n` bytes at `addr`, or `piperead`; one that was woken
up goes on with its call; an end of the pipe is closed; a process is killed.
-/
inductive PipeAction where
  | write (pid : Nat) (addr : Nat → UInt8) (n : Int)
  | read (pid : Nat) (n : Int)
  | resume (pid : Nat)
  | close (writable : Bool)
  | kill (pid : Nat)

/-- The `n` bytes at an address. -/
def bytesAt (addr : Nat → UInt8) (n : Int) : List UInt8 := (List.range n.toNat).map addr

def PipeSys.step (s : PipeSys) : PipeAction → Option PipeSys
  | .write pid addr n =>
    match (s.procs pid).pc with
    | .outside => some (s.pipewrite pid (bytesAt addr n) n)
    | _ => none
  | .read pid n =>
    match (s.procs pid).pc with
    | .outside => some (s.piperead pid n)
    | _ => none
  | .resume pid =>
    if (s.procs pid).sleeping then
      none
    else
      match (s.procs pid).pc with
      | .outside => none
      | .writing left n => some (s.pipewrite pid left n)
      | .reading n => some (s.piperead pid n)
  | .close writable => some (s.pipeclose writable)
  | .kill pid => some (s.kill pid)

def PipeSys.fresh (data : Int → UInt8) : PipeSys :=
  { pipe := Pipe.alloc data
    procs := fun _ => { pc := .outside, sleeping := false, killed := false }
    answer := none }

/-- What the callers see: the bytes they have written and read so far, and for each process what
is left of the bytes it has handed to `pipewrite`.
-/
structure PipeStreams where
  written : List UInt8
  returned : List UInt8
  offered : Nat → List UInt8

/-- How many of the offered bytes a stretch of `pipewrite` has written: all if it has returned `n`,
and as many as `nwrite` has advanced by if it sleeps or has failed.
-/
def PipeSys.accepted (s next : PipeSys) (bytes : List UInt8) : Nat :=
  let advance := (next.pipe.nwrite - s.pipe.nwrite).toNat
  match next.answer with
  | some (.wrote value) => if value = -1 then advance else bytes.length
  | _ => advance

def PipeStreams.write (h : PipeStreams) (pid : Nat) (bytes : List UInt8) (s next : PipeSys)
    : PipeStreams :=
  { h with
    written := h.written ++ bytes.take (s.accepted next bytes)
    offered := update h.offered pid (bytes.drop (s.accepted next bytes)) }

/-- The reader takes as many bytes as it is told; one that has not been stored counts as 0. -/
def PipeStreams.read (h : PipeStreams) (next : PipeSys) : PipeStreams :=
  match next.answer with
  | some (.read value bytes) =>
    { h with returned := h.returned ++ bytesAt (fun i => bytes.getD i 0) value }
  | _ => h

/-- The history of the callers, from their arguments and the answers they get. -/
def PipeSys.note (s : PipeSys) (action : PipeAction) (h : PipeStreams) : PipeStreams :=
  match s.step action, action with
  | some next, .write pid addr n => h.write pid (bytesAt addr n) s next
  | some next, .read _ _ => h.read next
  | some next, .resume pid =>
    match (s.procs pid).pc with
    | .writing _ _ => h.write pid (h.offered pid) s next
    | _ => h.read next
  | _, _ => h

/-- What a step is: a stretch of a call, `pipeclose` or `kill`. -/
inductive PipeTurn (s : PipeSys) : PipeAction → PipeSys → Prop where
  | write {pid : Nat} {addr : Nat → UInt8} {n : Int}
    : PipeTurn s (.write pid addr n) (s.pipewrite pid (bytesAt addr n) n)
  | read {pid : Nat} {n : Int} : PipeTurn s (.read pid n) (s.piperead pid n)
  | writeOn {pid : Nat} {left : List UInt8} {n : Int} (pc : (s.procs pid).pc = .writing left n)
    : PipeTurn s (.resume pid) (s.pipewrite pid left n)
  | readOn {pid : Nat} {n : Int} (pc : (s.procs pid).pc = .reading n)
    : PipeTurn s (.resume pid) (s.piperead pid n)
  | close {writable : Bool} : PipeTurn s (.close writable) (s.pipeclose writable)
  | kill {pid : Nat} : PipeTurn s (.kill pid) (s.kill pid)

/-- Every step is one of the turns, with its guards. -/
theorem PipeSys.step_turn {s next : PipeSys} {action : PipeAction}
    (taken : s.step action = some next)
    : PipeTurn s action next := by
  cases action <;> grind [step, PipeTurn]

/-- The bytes stored and not yet returned are in the array, from the place of `nread` on. The
counters count all bytes, modulo 2^32.
-/
structure Pipe.Carries (p : Pipe) (stored returned : List UInt8) : Prop where
  nread : p.nread.toNat = returned.length % 2 ^ 32
  nwrite : p.nwrite.toNat = stored.length % 2 ^ 32
  unread : ∃ unread,
    stored = returned ++ unread
    ∧ unread.length ≤ 512
    ∧ Ring.Holds 512 p.data returned.length unread

/-- A counter that has wrapped still names the right cell, since 512 divides 2^32. -/
theorem counter_cell {counter : UInt32} {count : Nat} (counts : counter.toNat = count % 2 ^ 32)
    : (counter % 512).toNat = count % 512 :=
  Ring.counter_mod counts (by decide)

namespace Pipe.Carries

variable {p : Pipe} {stored returned : List UInt8}

section

variable (c : p.Carries stored returned)
include c

/-- The difference of the counters, also when they have wrapped. -/
theorem distance
    : (p.nwrite - p.nread).toNat = stored.length - returned.length
      ∧ returned.length ≤ stored.length
      ∧ stored.length ≤ returned.length + 512 := by
  obtain ⟨nread, nwrite, unread, rfl, few, -⟩ := c
  rw [UInt32.toNat_sub, nread, nwrite, List.length_append]
  omega

theorem full_iff
    : p.Full ↔ stored.length = returned.length + 512 := by
  obtain ⟨-, behind, few⟩ := c.distance
  rw [Pipe.Full, ← UInt32.toNat_inj, UInt32.toNat_add, c.nread, c.nwrite]
  simp only [UInt32.reduceToNat]
  omega

theorem empty_iff
    : p.nread = p.nwrite ↔ stored = returned := by
  obtain ⟨-, behind, few⟩ := c.distance
  obtain ⟨unread, split, -, -⟩ := c.unread
  rw [← UInt32.toNat_inj, c.nread, c.nwrite]
  constructor
  · intro same
    have none_ : unread = [] := by
      apply List.eq_nil_of_length_eq_zero
      have total := congrArg List.length split
      rw [List.length_append] at total
      omega
    rw [split, none_, List.append_nil]
  · intro same
    rw [same]

theorem put (room : ¬ p.Full) (byte : UInt8)
    : (p.put byte).Carries (stored ++ [byte]) returned := by
  have space : stored.length ≠ returned.length + 512 := fun full => room (c.full_iff.mpr full)
  have cell := counter_cell c.nwrite
  obtain ⟨nread, nwrite, unread, split, few, holds⟩ := c
  have total : stored.length = returned.length + unread.length := by
    rw [split, List.length_append]
  have stores : (p.put byte).data
      = Ring.write 512 p.data (returned.length + unread.length) [byte] := by
    rw [Ring.write_singleton _ _ _ (by decide), ← total, ← cell]
    rfl
  refine ⟨nread, ?_, unread ++ [byte], ?_, ?_, ?_⟩
  · simp only [Pipe.put, UInt32.toNat_add, nwrite, UInt32.reduceToNat, List.length_append,
      List.length_singleton]
    omega
  · rw [split, List.append_assoc]
  · rw [List.length_append, List.length_singleton]
    omega
  · rw [stores]
    exact (holds.write [byte] unread.length le_rfl (by rw [List.length_singleton]; omega)).append
      (Ring.holds_write _ _ (by rw [List.length_singleton]; omega))

theorem take (some_ : ¬ p.nread = p.nwrite)
    : Pipe.Carries { p with nread := p.nread + 1 } stored
        (returned ++ [p.data (p.nread % 512).toNat]) := by
  have cell := counter_cell c.nread
  have pending : stored ≠ returned := fun same => some_ (c.empty_iff.mpr same)
  obtain ⟨nread, nwrite, unread, split, few, holds⟩ := c
  cases unread with
  | nil => exact absurd (split.trans (List.append_nil returned)) pending
  | cons byte rest =>
    have oldest : p.data (p.nread % 512).toNat = byte := by
      rw [cell]
      exact holds 0 (Nat.zero_lt_succ _)
    rw [oldest]
    refine ⟨?_, nwrite, rest, ?_, ?_, ?_⟩
    · simp only [UInt32.toNat_add, nread, UInt32.reduceToNat, List.length_append,
        List.length_singleton]
      omega
    · rw [split, List.append_assoc]
      rfl
    · rw [List.length_cons] at few
      omega
    · rw [List.length_append, List.length_singleton]
      exact holds.tail

/-- A stretch of `pipewrite` stores a first part of its bytes, in order. -/
theorem fill (bytes : List UInt8)
    : ∃ now,
        bytes = now ++ (pipeFill p bytes).2
        ∧ (pipeFill p bytes).1.Carries (stored ++ now) returned := by
  induction bytes generalizing p stored with
  | nil => exact ⟨[], rfl, by simpa [pipeFill] using c⟩
  | cons byte rest ih =>
    by_cases full : p.Full
    · refine ⟨[], ?_, ?_⟩
      · simp [pipeFill, full]
      · simpa [pipeFill, full] using c
    · obtain ⟨now, split, carries⟩ := ih (c.put full byte)
      have step : pipeFill p (byte :: rest) = pipeFill (p.put byte) rest := by
        rw [pipeFill, if_neg full]
      rw [step]
      refine ⟨byte :: now, congrArg (byte :: ·) split, ?_⟩
      rwa [List.append_assoc] at carries

theorem drain (n : Nat)
    : (pipeDrain p n).1.Carries stored (returned ++ (pipeDrain p n).2) := by
  induction n generalizing p returned with
  | zero => simpa [pipeDrain] using c
  | succ n ih =>
    by_cases empty : p.nread = p.nwrite
    · simpa [pipeDrain, empty] using c
    · have later := ih (c.take empty)
      rw [pipeDrain, if_neg empty]
      rwa [List.append_assoc] at later

end

end Pipe.Carries

/-- The counters and the bytes of a pipe are in order: what the readers got is a beginning of what
the writers wrote, and the rest is in the pipe.
-/
structure PipeOk (current : PipeSys × PipeStreams) : Prop where
  bounded : (current.1.pipe.nwrite - current.1.pipe.nread).toNat ≤ 512
  fifo : current.2.returned <+: current.2.written
  unread
    : current.2.written.length
      = current.2.returned.length + (current.1.pipe.nwrite - current.1.pipe.nread).toNat

namespace PipeSys

variable {s next : PipeSys} {h : PipeStreams} {pid : Nat} {left : List UInt8} {n : Int}

@[simp, grind =]
theorem pc_wakeReaders (q : Nat) : (s.wakeReaders.procs q).pc = (s.procs q).pc := by
  simp only [wakeReaders]
  split <;> rfl

@[simp, grind =]
theorem pc_wakeWriters (q : Nat) : (s.wakeWriters.procs q).pc = (s.procs q).pc := by
  simp only [wakeWriters]
  split <;> rfl

@[simp, grind =]
theorem pc_return (q : Nat) (answer : PipeAnswer)
    : ((s.return_ pid answer).procs q).pc = if q = pid then .outside else (s.procs q).pc := by
  simp only [return_, update_apply]
  split <;> rfl

@[simp, grind =]
theorem pc_sleep (q : Nat) (pc : PipePc)
    : ((s.sleep pid pc).procs q).pc = if q = pid then pc else (s.procs q).pc := by
  simp only [sleep, update_apply]
  split <;> rfl

theorem pipe_pipewrite : (s.pipewrite pid left n).pipe = (pipeFill s.pipe left).1 := by
  simp only [pipewrite]
  split
  · rfl
  · split <;> rfl

/-- The bytes that the callers have written and not read are in the pipe, and a process in
`pipewrite` has those left that it has offered.
-/
structure Streams (s : PipeSys) (h : PipeStreams) : Prop where
  carries : s.pipe.Carries h.written h.returned
  offered : ∀ pid left n, (s.procs pid).pc = .writing left n → h.offered pid = left

/-- The bytes that a stretch of `pipewrite` counts as written are those it has stored. -/
theorem Streams.write (inv : s.Streams h)
    : (s.pipewrite pid left n).Streams (h.write pid left s (s.pipewrite pid left n)) := by
  obtain ⟨now, split_, after⟩ := inv.carries.fill left
  have advance : ((s.pipewrite pid left n).pipe.nwrite - s.pipe.nwrite).toNat = now.length := by
    obtain ⟨-, behind, few⟩ := after.distance
    obtain ⟨-, behind', -⟩ := inv.carries.distance
    rw [List.length_append] at few
    rw [pipe_pipewrite, UInt32.toNat_sub, inv.carries.nwrite, after.nwrite, List.length_append]
    omega
  have count : s.accepted (s.pipewrite pid left n) left = now.length := by
    have whole : (pipeFill s.pipe left).2 = [] → left.length = now.length := by
      intro done
      rw [split_, done, List.append_nil]
    rw [accepted, advance, pipewrite]
    split <;> grind [return_, sleep]
  have written : left.take now.length = now := by
    rw [split_]
    exact List.take_left
  have rest : left.drop now.length = (pipeFill s.pipe left).2 := by
    conv_lhs => rw [split_]
    exact List.drop_left
  rw [PipeStreams.write, count, written, rest]
  refine ⟨pipe_pipewrite ▸ after, fun q left' m pc => ?_⟩
  have before := inv.offered q left' m
  grind [pipewrite]

theorem bytesAt_getD (bytes : List UInt8)
    : bytesAt (fun i => bytes.getD i 0) bytes.length = bytes := by
  apply List.ext_getElem <;> simp +contextual [bytesAt]

theorem Streams.read (inv : s.Streams h)
    : (s.piperead pid n).Streams (h.read (s.piperead pid n)) := by
  refine ⟨?_, fun q left m pc => ?_⟩
  · rw [piperead]
    split
    · split
      · simpa [PipeStreams.read, return_, bytesAt] using inv.carries
      · exact inv.carries
    · simp only [PipeStreams.read, return_, bytesAt_getD]
      exact inv.carries.drain n.toNat
  · have before := inv.offered q left m
    grind [piperead, PipeStreams.read]

/-- Every step keeps the streams. -/
theorem Streams.step {action : PipeAction} (inv : s.Streams h) (taken : s.step action = some next)
    : next.Streams (s.note action h) := by
  unfold note
  rw [taken]
  cases step_turn taken with
  | write => exact inv.write
  | read => exact inv.read
  | @writeOn pid left n pc =>
    simp only [pc, inv.offered pid left n pc]
    exact inv.write
  | readOn pc =>
    simp only [pc]
    exact inv.read
  | @close writable =>
    cases writable <;>
      exact ⟨⟨inv.carries.nread, inv.carries.nwrite, inv.carries.unread⟩,
        by simpa [pipeclose] using inv.offered⟩
  | kill =>
    refine ⟨inv.carries, fun q left n pc => inv.offered q left n ?_⟩
    simp only [PipeSys.kill, update_apply] at pc
    split at pc
    · next same => exact same ▸ pc
    · exact pc

theorem fresh_streams (data : Int → UInt8) : (fresh data).Streams ⟨[], [], fun _ => []⟩ :=
  ⟨⟨rfl, rfl, [], rfl, Nat.zero_le _, fun _ impossible => nomatch impossible⟩,
    fun _ _ _ impossible => nomatch impossible⟩

end PipeSys

/-- Whatever the interleaving, a pipe holds at most `PIPESIZE` bytes, and the bytes that the readers
got are the first ones of those that the writers wrote; the counters may have wrapped.
-/
theorem pipe_fifo (data : Int → UInt8) (actions : List PipeAction)
    : Throughout (withHistory PipeSys.step PipeSys.note) PipeOk
        (PipeSys.fresh data, ⟨[], [], fun _ => []⟩) actions := by
  have always : Throughout (withHistory PipeSys.step PipeSys.note)
      (fun current => current.1.Streams current.2) (PipeSys.fresh data, ⟨[], [], fun _ => []⟩)
      actions := by
    apply Throughout.invariant
    · exact PipeSys.fresh_streams data
    · intro current action next inv taken
      obtain ⟨stepped, noted⟩ := withHistory_eq_some taken
      rw [noted]
      exact inv.step stepped
  refine always.mono fun current inv => ?_
  obtain ⟨distance, behind, few⟩ := inv.carries.distance
  obtain ⟨unread, split_, -, -⟩ := inv.carries.unread
  exact ⟨by omega, ⟨unread, split_.symm⟩, by omega⟩

end Xv6Net
