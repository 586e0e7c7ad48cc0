import Xv6Net.Fs.BufferCache
import Xv6Net.Library.LinkedList

/-! The request queue of the disk driver, pointer by pointer: `iderw` by any processes, with
sleep and wakeup, the disk, and `ideintr`. What the callers do with their buffers in between is
left open; a buffer that a process has locked is changed by no other.
-/

namespace Xv6Net

open Library Transition LinkedList Function

/-- Where a process is: outside of `iderw`, or in its loop. -/
inductive IdePc (N : Nat) where
  | outside
  | waiting (b : Fin N) (asleep : Bool)
deriving DecidableEq

/-- A panic, or an append loop that does not end. -/
inductive IdeHalt where
  | panic (reason : BufPanic)
  | endless

/-- The buffers and the pointers `qnext` and `idequeue`, the disk and the processes. -/
structure IdeSys (N P : Nat) where
  bufs : Fin N → Buf P
  qnext : Fin N → Option (Fin N)
  idequeue : Option (Fin N)
  ide : IdeState
  procs : Fin P → IdePc N
  halted : Option IdeHalt

/-- A process outside `iderw` changes a buffer that no other has locked, up to the lock itself; a
process calls `iderw`, or goes on in its loop after a wakeup; the disk finishes its command, with
the contents it has read, if any; the interrupt is handled.
-/
inductive IdeAction (N P : Nat) where
  | use (p : Fin P) (b : Fin N) (buf : Buf P)
  | iderw (p : Fin P) (b : Fin N)
  | resume (p : Fin P)
  | disk (latch : Option Block)
  | ideintr

/-- `(b->flags & (B_VALID|B_DIRTY)) == B_VALID`. -/
def Buf.Synced {P : Nat} (buf : Buf P) : Prop := buf.valid = true ∧ buf.dirty = false

instance {P : Nat} (buf : Buf P) : Decidable buf.Synced := inferInstanceAs (Decidable (_ ∧ _))

namespace IdeSys

variable {N P : Nat}

def halt (s : IdeSys N P) (reason : IdeHalt) : IdeSys N P := { s with halted := some reason }

def idestart (s : IdeSys N P) (b : Fin N) : IdeSys N P :=
  if (s.bufs b).key.blockno ≥ fsSize then s.halt (.panic .incorrectBlockno)
  else { s with ide := .busy (BufSys.command (s.bufs b)) }

/-- The loop of `iderw`, up to where it sleeps or returns. -/
def iderwLoop (s : IdeSys N P) (p : Fin P) (b : Fin N) : IdeSys N P :=
  { s with procs := update s.procs p (if (s.bufs b).Synced then .outside else .waiting b true) }

/-- The tests at the start of `iderw`. -/
def iderwPanic (s : IdeSys N P) (havedisk1 : Bool) (p : Fin P) (b : Fin N) : Option BufPanic :=
  if (s.bufs b).lock ≠ some p then some .bufNotLocked
  else if (s.bufs b).Synced then some .nothingToDo
  else if (s.bufs b).key.dev ≠ 0 ∧ ¬ havedisk1 then some .disk1NotPresent
  else none

def iderw (s : IdeSys N P) (havedisk1 : Bool) (p : Fin P) (b : Fin N) : IdeSys N P :=
  match s.iderwPanic havedisk1 p b with
  | some reason => s.halt (.panic reason)
  | none =>
    match append s.qnext N s.idequeue b with
    | none => s.halt .endless
    | some (qnext, idequeue) =>
      let s := { s with qnext, idequeue }
      let s := if s.idequeue = some b then s.idestart b else s
      s.iderwLoop p b

/-- `wakeup(b)`. -/
def wakeup (procs : Fin P → IdePc N) (b : Fin N) (p : Fin P) : IdePc N :=
  match procs p with
  | .outside => .outside
  | .waiting b' asleep => .waiting b' (if b' = b then false else asleep)

/-- `ideintr` on the first buffer of the queue, before it starts the next one. -/
def complete (s : IdeSys N P) (b : Fin N) (latch : Option Block) : IdeSys N P :=
  let data := if (s.bufs b).dirty then (s.bufs b).data else latch.getD (s.bufs b).data
  { s with
    idequeue := s.qnext b
    ide := .idle
    bufs := update s.bufs b { s.bufs b with valid := true, dirty := false, data }
    procs := wakeup s.procs b }

def ideintr (s : IdeSys N P) (latch : Option Block) : IdeSys N P :=
  match s.idequeue with
  | none => { s with ide := .idle }
  | some b =>
    let s := s.complete b latch
    match s.idequeue with
    | none => s
    | some next => s.idestart next

/-- One stretch with `idelock`, or one step of a caller or of the disk. -/
def step (havedisk1 : Bool) (s : IdeSys N P) (action : IdeAction N P) : Option (IdeSys N P) :=
  if s.halted.isSome then none
  else
    match action with
    | .use p b buf =>
      if s.procs p = .outside
          ∧ ((s.bufs b).lock = none ∨ (s.bufs b).lock = some p)
          ∧ (buf.lock = none ∨ buf.lock = some p) then
        some { s with bufs := update s.bufs b buf }
      else none
    | .iderw p b => if s.procs p = .outside then some (s.iderw havedisk1 p b) else none
    | .resume p =>
      match s.procs p with
      | .waiting b false => some (s.iderwLoop p b)
      | _ => none
    | .disk latch =>
      match s.ide with
      | .busy _ => some { s with ide := .ready latch }
      | _ => none
    | .ideintr =>
      match s.ide with
      | .ready latch => some (s.ideintr latch)
      | _ => none

/-- After `ideinit`, with any contents of the buffers that nobody uses. -/
def fresh (bufs : Fin N → Buf P) (qnext : Fin N → Option (Fin N)) : IdeSys N P :=
  { bufs
    qnext
    idequeue := none
    ide := .idle
    procs := fun _ => .outside
    halted := none }

end IdeSys

/-! ### History -/

/-- The requests that `iderw` has appended, with their commands, those that `idestart` has given to
the disk, the buffers that `ideintr` has completed, and the number of the last request of each
process.
-/
structure IdeLog (N P : Nat) where
  arrived : List (Fin N × IdeCommand)
  issued : List (Fin N × IdeCommand)
  completed : List (Fin N)
  ticket : Fin P → Nat

namespace IdeLog

variable {N P : Nat}

def empty : IdeLog N P := { arrived := [], issued := [], completed := [], ticket := fun _ => 0 }

/-- The command that the disk has got for the buffer `b` between two states. -/
def started (s next : IdeSys N P) (b : Fin N) : List (Fin N × IdeCommand) :=
  match s.ide, next.ide with
  | .busy _, _ => []
  | _, .busy command => [(b, command)]
  | _, _ => []

def iderw (h : IdeLog N P) (s next : IdeSys N P) (p : Fin P) (b : Fin N) : IdeLog N P :=
  { h with
    arrived := h.arrived ++ [(b, BufSys.command (s.bufs b))]
    issued := h.issued ++ started s next b
    ticket := update h.ticket p h.arrived.length }

def ideintr (h : IdeLog N P) (s next : IdeSys N P) : IdeLog N P :=
  { h with
    issued := h.issued ++ next.idequeue.elim [] (started s next)
    completed := h.completed ++ s.idequeue.toList }

end IdeLog

namespace IdeSys

variable {N P : Nat}

/-- What a step adds to the history; `iderw` appends its request unless a test fails. -/
def note (havedisk1 : Bool) (s : IdeSys N P) (action : IdeAction N P) (h : IdeLog N P)
    : IdeLog N P :=
  match step havedisk1 s action, action with
  | some next, .iderw p b =>
    if s.iderwPanic havedisk1 p b = none then h.iderw s next p b else h
  | some next, .ideintr => h.ideintr s next
  | _, _ => h

variable {s : IdeSys N P} {b : Fin N} {p : Fin P}

/-- How the disk stands to the first request that is not completed. -/
def DeviceOk (s : IdeSys N P) (h : IdeLog N P) : Prop :=
  match s.ide with
  | .idle => h.completed.length = h.arrived.length ∧ h.issued = h.arrived
  | .busy command =>
    (∃ b, h.arrived[h.completed.length]? = some (b, command))
    ∧ h.issued = h.arrived.take (h.completed.length + 1)
  | .ready _ =>
    h.completed.length < h.arrived.length
    ∧ h.issued = h.arrived.take (h.completed.length + 1)

/-- A process in the loop of `iderw` with a request and its buffer. -/
structure Request (s : IdeSys N P) (h : IdeLog N P) (p : Fin P) (b : Fin N) (asleep : Bool)
    : Prop where
  locked : (s.bufs b).lock = some p
  arrived : h.arrived[h.ticket p]?.map Prod.fst = some b
  open_ : h.completed.length ≤ h.ticket p
    → ¬ (s.bufs b).Synced ∧ h.arrived[h.ticket p]? = some (b, BufSys.command (s.bufs b))
  done : h.ticket p < h.completed.length → (s.bufs b).Synced ∧ asleep = false

/-- The requests that arrived are those completed, followed by the queue, each of which has a
process that waits for it.
-/
structure Core (s : IdeSys N P) (h : IdeLog N P) : Prop where
  queue : ∃ queue,
    Linked s.qnext s.idequeue queue ∧ h.arrived.map Prod.fst = h.completed ++ queue
  requests : ∀ p b asleep, s.procs p = .waiting b asleep → Request s h p b asleep
  pending : ∀ ticket b, h.completed.length ≤ ticket → h.arrived[ticket]?.map Prod.fst = some b
    → ∃ p asleep, s.procs p = .waiting b asleep ∧ h.ticket p = ticket
  ends : s.halted ≠ some .endless

/-- What holds between any two steps; after a panic the disk does not matter any more. -/
structure Inv (s : IdeSys N P) (h : IdeLog N P) : Prop where
  core : Core s h
  device : s.halted = none → DeviceOk s h

variable {h : IdeLog N P} {ticket : Nat} {queue rest : List (Fin N)} {asleep havedisk1 : Bool}
  {next : IdeSys N P}

/-- A buffer is in the queue once: the process that has locked it waits for one request. -/
theorem Core.once (core : Core s h) {other : Nat} (later : h.completed.length ≤ ticket)
    (also : h.completed.length ≤ other) (here : h.arrived[ticket]?.map Prod.fst = some b)
    (there : h.arrived[other]?.map Prod.fst = some b)
    : ticket = other := by
  obtain ⟨p, _, waits, rfl⟩ := core.pending ticket b later here
  obtain ⟨q, _, waits', rfl⟩ := core.pending other b also there
  have locked := (core.requests p b _ waits).locked
  have locked' := (core.requests q b _ waits').locked
  cases Option.some.inj (locked.symm.trans locked')
  rfl

/-- The queue holds the requests that are not completed, in their order. -/
theorem arrived_queue (split : h.arrived.map Prod.fst = h.completed ++ queue) (i : Nat)
    : h.arrived[h.completed.length + i]?.map Prod.fst = queue[i]? := by
  rw [← List.getElem?_map, split, List.getElem?_append_right (Nat.le_add_right ..),
    Nat.add_sub_cancel_left]

/-- The requests that are not completed are as many as the queue is long. -/
theorem length_arrived (split : h.arrived.map Prod.fst = h.completed ++ queue)
    : h.arrived.length = h.completed.length + queue.length := by
  rw [← List.length_map, split, List.length_append]

/-- No buffer is in the queue twice. -/
theorem Core.nodup (core : Core s h) (split : h.arrived.map Prod.fst = h.completed ++ queue)
    : queue.Nodup := by
  rw [List.nodup_iff_getElem?_ne_getElem?]
  intro i j before inside same
  have first_ : h.arrived[h.completed.length + i]?.map Prod.fst = some queue[i] := by
    rw [arrived_queue split, List.getElem?_eq_getElem]
  have second : h.arrived[h.completed.length + j]?.map Prod.fst = some queue[i] := by
    rw [arrived_queue split, ← same, List.getElem?_eq_getElem]
  have equal := core.once (Nat.le_add_right ..) (Nat.le_add_right ..) first_ second
  omega

/-- A process outside `iderw` has locked no buffer of the queue. -/
theorem Core.not_queued (core : Core s h) (split : h.arrived.map Prod.fst = h.completed ++ queue)
    (outside : s.procs p = .outside) (locked : (s.bufs b).lock = some p)
    : b ∉ queue := by
  intro member
  obtain ⟨i, inside, same⟩ := List.getElem_of_mem member
  have here : h.arrived[h.completed.length + i]?.map Prod.fst = some b := by
    rw [arrived_queue split, List.getElem?_eq_getElem inside, same]
  obtain ⟨q, asleep, waits, -⟩ := core.pending _ b (Nat.le_add_right ..) here
  have owner := (core.requests q b asleep waits).locked
  grind

/-- The first request of the queue, whose command is that of its buffer still. -/
theorem Core.head_request (core : Core s h)
    (split : h.arrived.map Prod.fst = h.completed ++ b :: rest)
    : ∃ p asleep, s.procs p = .waiting b asleep ∧ h.ticket p = h.completed.length
      ∧ h.arrived[h.completed.length]? = some (b, BufSys.command (s.bufs b)) := by
  have here := arrived_queue split 0
  rw [List.getElem?_cons_zero, Nat.add_zero] at here
  obtain ⟨p, asleep, waits, first_⟩ := core.pending _ b le_rfl here
  have request := (core.requests p b asleep waits).open_ first_.ge
  exact ⟨p, asleep, waits, first_, first_ ▸ request.2⟩

/-- The disk is idle when the queue is empty. -/
theorem DeviceOk.idle_iff (device : DeviceOk s h)
    (split : h.arrived.map Prod.fst = h.completed ++ queue)
    : s.ide = .idle ↔ queue = [] := by
  have total := length_arrived split
  rw [← List.length_eq_zero_iff]
  unfold DeviceOk at device
  split at device <;> grind

/-- A disk that works has got the first request of the queue and those before it. -/
theorem DeviceOk.issued_busy (device : DeviceOk s h) (busy : s.ide ≠ .idle)
    : h.issued = h.arrived.take (h.completed.length + 1) := by
  unfold DeviceOk at device
  split at device <;> grind

/-- The invariant looks at the buffers of requests, and at the disk while nothing has halted. -/
theorem Core.frame {s' : IdeSys N P} (core : Core s h) (qnext : s'.qnext = s.qnext)
    (idequeue : s'.idequeue = s.idequeue) (procs : s'.procs = s.procs)
    (bufs : ∀ p b asleep, s.procs p = .waiting b asleep → s'.bufs b = s.bufs b)
    (ends : s'.halted ≠ some .endless)
    : Core s' h := by
  refine ⟨by rw [qnext, idequeue]; exact core.queue, ?_, by rw [procs]; exact core.pending, ends⟩
  intro p b asleep waits
  rw [procs] at waits
  obtain ⟨locked, arrived, open_, done⟩ := core.requests p b asleep waits
  have same := bufs p b asleep waits
  constructor <;> grind

/-- A panic changes nothing else. -/
theorem Core.panic (core : Core s h) (reason : BufPanic) : Inv (s.halt (.panic reason)) h :=
  ⟨core.frame rfl rfl rfl (fun _ _ _ _ => rfl) nofun, nofun⟩

/-- What was given to the disk matters for the disk only. -/
theorem Core.issue (core : Core s h) (issued : List (Fin N × IdeCommand))
    : Core s { h with issued } := by
  refine ⟨core.queue, fun p b asleep waits => ?_, core.pending, core.ends⟩
  obtain ⟨locked, arrived, open_, done⟩ := core.requests p b asleep waits
  exact ⟨locked, arrived, open_, done⟩

/-- `idestart` for the first request of the queue, where all before it are completed. -/
theorem Core.idestart (core : Core s h) (split : h.arrived.map Prod.fst = h.completed ++ b :: rest)
    (issued : h.issued = h.arrived.take h.completed.length)
    {before : IdeSys N P} (resting : ∀ command, before.ide ≠ .busy command)
    : Inv (s.idestart b)
        { h with issued := h.issued ++ IdeLog.started before (s.idestart b) b } := by
  obtain ⟨_, _, _, _, here⟩ := core.head_request split
  unfold IdeSys.idestart
  split
  · exact (core.issue _).panic _
  · have given : IdeLog.started before { s with ide := .busy (BufSys.command (s.bufs b)) } b
        = [(b, BufSys.command (s.bufs b))] := by
      unfold IdeLog.started
      split <;> grind
    refine ⟨(core.issue _).frame rfl rfl rfl (fun _ _ _ _ => rfl) core.ends,
      fun _ => ⟨⟨b, here⟩, ?_⟩⟩
    rw [given, List.take_add_one, here, issued]
    rfl

/-- A caller changes no buffer of the queue. -/
theorem Inv.use (inv : Inv s h) {buf : Buf P} (outside : s.procs p = .outside)
    (owner : (s.bufs b).lock = none ∨ (s.bufs b).lock = some p)
    : Inv { s with bufs := update s.bufs b buf } h := by
  refine ⟨inv.core.frame rfl rfl rfl (fun q b' asleep waits => update_of_ne ?_ _ _) inv.core.ends,
    inv.device⟩
  -- the buffer of a request is locked by a process that is in `iderw`
  have locked := (inv.core.requests q b' asleep waits).locked
  grind

/-- The request of `p` was put behind the others and `p` has gone to sleep. -/
theorem Core.enqueue (core : Core s h) {s' : IdeSys N P} {h' : IdeLog N P}
    (split : h.arrived.map Prod.fst = h.completed ++ queue) (outside : s.procs p = .outside)
    (locked : (s.bufs b).lock = some p) (unsynced : ¬ (s.bufs b).Synced)
    (linked : Linked s'.qnext s'.idequeue (queue ++ [b])) (bufs : ∀ b, s'.bufs b = s.bufs b)
    (procs : ∀ q, s'.procs q = if q = p then .waiting b true else s.procs q)
    (halted : s'.halted = s.halted)
    (arrived : h'.arrived = h.arrived ++ [(b, BufSys.command (s.bufs b))])
    (completed : h'.completed = h.completed)
    (tickets : ∀ q, h'.ticket q = if q = p then h.arrived.length else h.ticket q)
    : Core s' h' := by
  have few := length_arrived split
  refine ⟨⟨queue ++ [b], linked, ?_⟩, ?_, ?_, halted ▸ core.ends⟩
  · rw [arrived, completed, List.map_append, split, List.append_assoc]
    rfl
  · intro q b' asleep waits
    by_cases mine : q = p
    · constructor <;> grind
    · obtain ⟨locked', arrived', open_, done⟩ := core.requests q b' asleep (by grind)
      constructor <;> grind
  · intro ticket b' later here
    by_cases inside : ticket < h.arrived.length
    · obtain ⟨q, asleep, waits, mine⟩ := core.pending ticket b' (by grind) (by grind)
      exact ⟨q, asleep, by grind, by grind⟩
    · exact ⟨p, true, by grind, by grind⟩

/-- The loop does not look at the disk. -/
theorem iderwLoop_idestart (s : IdeSys N P) (p : Fin P) (b b' : Fin N)
    : (s.idestart b).iderwLoop p b' = (s.iderwLoop p b').idestart b := by
  unfold IdeSys.idestart iderwLoop
  split <;> rfl

/-- The tests make sure that the caller has locked the buffer and that its flags ask for I/O. -/
theorem iderwPanic_eq_none (passed : s.iderwPanic havedisk1 p b = none)
    : (s.bufs b).lock = some p ∧ ¬ (s.bufs b).Synced := by
  grind [iderwPanic]

/-- A call that passes the tests puts its request in the queue, and starts the disk if it is the
first.
-/
theorem Inv.iderw (inv : Inv s h) (calm : s.halted = none) (outside : s.procs p = .outside)
    (passed : s.iderwPanic havedisk1 p b = none)
    : Inv (s.iderw havedisk1 p b) (h.iderw s (s.iderw havedisk1 p b) p b) := by
  obtain ⟨locked, unsynced⟩ := iderwPanic_eq_none passed
  obtain ⟨queue, linked, split⟩ := inv.core.queue
  have absent := inv.core.not_queued split outside locked
  have nodup := inv.core.nodup split
  have short : queue.length ≤ N := by
    simpa using nodup.length_le_card
  obtain ⟨qnext, appended, relinked⟩ := linked.append_eq nodup absent short
  have device := inv.device calm
  have idle := device.idle_iff split
  have few := length_arrived split
  -- the request is in the queue and the process asleep, before the disk is started
  have core : Core (iderwLoop { s with qnext, idequeue := (queue ++ [b]).head? } p b)
      { h with
        arrived := h.arrived ++ [(b, BufSys.command (s.bufs b))]
        ticket := update h.ticket p h.arrived.length } := by
    refine inv.core.enqueue split outside locked unsynced relinked (fun _ => rfl) ?_ rfl rfl rfl ?_
    · intro q
      simp only [iderwLoop, if_neg unsynced, update_apply]
    · exact fun q => update_apply ..
  simp only [IdeSys.iderw, passed, appended,
    apply_ite (fun t : IdeSys N P => t.iderwLoop p b), iderwLoop_idestart]
  cases queue with
  | nil =>
    -- the disk is idle, and the request is the first one
    have resting := idle.mpr rfl
    simp only [DeviceOk, resting] at device
    have first_ : (([] : List (Fin N)) ++ [b]).head? = some b := rfl
    have only : (h.arrived ++ [(b, BufSys.command (s.bufs b))]).map Prod.fst
        = h.completed ++ b :: [] := by
      simp [split]
    rw [if_pos first_]
    refine core.idestart only ?_ (by grind)
    show h.issued = (h.arrived ++ _).take h.completed.length
    rw [device.1, List.take_left, device.2]
  | cons a rest =>
    have other : (a :: rest ++ [b]).head? ≠ some b := by grind
    rw [if_neg other]
    refine ⟨core.issue _, fun _ => ?_⟩
    rw [List.length_cons] at few
    unfold DeviceOk at device ⊢
    simp only [iderwLoop, IdeLog.iderw, IdeLog.started]
    rw [List.take_append_of_le_length (by omega), List.length_append,
      List.getElem?_append_left (by omega)]
    cases state : s.ide with
    | idle => exact nomatch idle.mp state
    | busy => simpa only [state, List.append_nil] using device
    | ready =>
      simp only [state] at device
      exact ⟨by omega, by simpa using device.2⟩

/-- A process that was woken up returns, or sleeps again. -/
theorem Inv.iderwLoop (inv : Inv s h) (waits : s.procs p = .waiting b asleep)
    : Inv (s.iderwLoop p b) h := by
  obtain ⟨core, device⟩ := inv
  obtain ⟨locked, arrived, open_, done⟩ := core.requests p b asleep waits
  unfold IdeSys.iderwLoop
  refine ⟨⟨core.queue, ?_, ?_, core.ends⟩, device⟩
  · intro q b' asleep' waits'
    by_cases mine : q = p
    · constructor <;> grind
    · obtain ⟨locked', arrived', open_', done'⟩ := core.requests q b' asleep' (by grind)
      constructor <;> grind
  · intro ticket' b' later here
    obtain ⟨q, asleep', waits', mine⟩ := core.pending ticket' b' later here
    by_cases same : q = p
    · exact ⟨q, true, by grind, mine⟩
    · exact ⟨q, asleep', by grind, mine⟩

/-- The disk finishes its command. -/
theorem Inv.disk (inv : Inv s h) (calm : s.halted = none) {command : IdeCommand}
    (busy : s.ide = .busy command) (latch : Option Block)
    : Inv { s with ide := .ready latch } h := by
  refine ⟨inv.core.frame rfl rfl rfl (fun _ _ _ _ => rfl) inv.core.ends, fun _ => ?_⟩
  have working := inv.device calm
  simp only [DeviceOk, busy] at working
  obtain ⟨⟨b, here⟩, issued⟩ := working
  exact ⟨(List.getElem?_eq_some_iff.mp here).1, issued⟩

/-- `ideintr` takes the first buffer from the queue, sets its flags and wakes up its process. -/
theorem Core.complete (core : Core s h) (split : h.arrived.map Prod.fst = h.completed ++ b :: rest)
    (linked : Linked s.qnext s.idequeue (b :: rest)) (latch : Option Block)
    : Core (s.complete b latch) { h with completed := h.completed ++ [b] } := by
  obtain ⟨p, sleeping, waits', mine, first_⟩ := core.head_request split
  have owner := (core.requests p b sleeping waits').locked
  refine ⟨⟨rest, linked.2, by simp [split]⟩, ?_, ?_, core.ends⟩
  · intro q b' asleep waits
    unfold IdeSys.complete wakeup at *
    dsimp only at *
    obtain ⟨before, waited, woken⟩ : ∃ before, s.procs q = .waiting b' before
        ∧ asleep = if b' = b then false else before := by
      split at waits <;> grind
    obtain ⟨locked, arrived, open_, done⟩ := core.requests q b' before waited
    by_cases same : b' = b
    · constructor <;> grind [Buf.Synced]
    · constructor <;> grind [Buf.Synced]
  · intro ticket b' later here
    obtain ⟨q, asleep, waits, ticket_⟩ := core.pending ticket b' (by grind) here
    refine ⟨q, if b' = b then false else asleep, ?_, ticket_⟩
    simp only [IdeSys.complete, wakeup, waits]

/-- After that it starts the disk for the next buffer, if there is one. -/
theorem Inv.ideintr (inv : Inv s h) (calm : s.halted = none) {latch : Option Block}
    (ready : s.ide = .ready latch)
    : Inv (s.ideintr latch) (h.ideintr s (s.ideintr latch)) := by
  obtain ⟨queue, linked, split⟩ := inv.core.queue
  have device := inv.device calm
  have issued := device.issued_busy (by rw [ready]; nofun)
  cases queue with
  | nil => exact nomatch ready.symm.trans ((device.idle_iff split).mpr rfl)
  | cons b rest =>
    have core := inv.core.complete split linked latch
    have shifted : h.arrived.map Prod.fst = h.completed ++ [b] ++ rest := by simp [split]
    have ready_ : h.issued = h.arrived.take (h.completed ++ [b]).length := by
      rw [List.length_append]
      exact issued
    simp only [IdeSys.ideintr, IdeLog.ideintr, linked.1, Option.toList_some]
    cases rest with
    | nil =>
      have none_ : (s.complete b latch).idequeue = none := linked.2
      simp only [none_, Option.elim_none]
      refine ⟨core.issue _, fun _ => ?_⟩
      have total : h.arrived.length = (h.completed ++ [b]).length := by
        simpa using congrArg List.length shifted
      refine ⟨total.symm, ?_⟩
      show h.issued ++ [] = h.arrived
      rw [List.append_nil, ready_]
      exact List.take_of_length_le total.le
    | cons next =>
      have following : (s.complete b latch).idequeue = some next := linked.2.1
      have same : ((s.complete b latch).idestart next).idequeue = some next := by
        unfold IdeSys.idestart
        split <;> exact following
      simp only [following, same, Option.elim_some]
      exact core.idestart shifted ready_ (by grind)

/-- Every step keeps the invariant. -/
theorem Inv.step {action : IdeAction N P} (inv : Inv s h)
    (taken : step havedisk1 s action = some next)
    : Inv next (note havedisk1 s action h) := by
  unfold note
  rw [taken]
  unfold IdeSys.step at taken
  split at taken
  · cases taken
  rename_i running
  have calm : s.halted = none := by simpa using running
  cases action with
  | use =>
    obtain ⟨allowed, rfl⟩ := guarded taken
    exact inv.use allowed.1 allowed.2.1
  | iderw p b =>
    obtain ⟨outside, rfl⟩ := guarded taken
    simp only
    split
    · exact inv.iderw calm outside ‹_›
    · rename_i failed
      obtain ⟨reason, failed⟩ := Option.ne_none_iff_exists'.mp failed
      rw [IdeSys.iderw, failed]
      exact inv.core.panic reason
  | resume =>
    simp only at taken
    split at taken
    · cases taken
      exact inv.iderwLoop ‹_›
    · cases taken
  | disk latch =>
    simp only at taken
    split at taken
    · cases taken
      exact inv.disk calm ‹_› latch
    · cases taken
  | ideintr =>
    simp only at taken
    split at taken
    · cases taken
      exact inv.ideintr calm ‹_›
    · cases taken

/-- The first stretch of `iderw` ends asleep, since the flags of the buffer are not yet set. -/
theorem iderw_waits (taken : step havedisk1 s (.iderw p b) = some next) (calm : next.halted = none)
    : s.iderwPanic havedisk1 p b = none ∧ next.procs p = .waiting b true := by
  unfold IdeSys.step at taken
  split at taken
  · cases taken
  obtain ⟨_, rfl⟩ := guarded taken
  cases passed : s.iderwPanic havedisk1 p b with
  | some reason =>
    rw [IdeSys.iderw, passed] at calm
    cases calm
  | none =>
    have unsynced := (iderwPanic_eq_none passed).2
    refine ⟨rfl, ?_⟩
    simp only [IdeSys.iderw, passed] at calm ⊢
    split at calm
    · cases calm
    · simp only [iderwLoop]
      rw [update_self, apply_ite bufs]
      have same (t : IdeSys N P) : (t.idestart b).bufs = t.bufs := by
        unfold IdeSys.idestart
        split <;> rfl
      rw [same, ite_self, if_neg unsynced]

/-- `iderw` returns where it finds the flags set. -/
theorem resume_returns (waits : s.procs p = .waiting b asleep)
    (taken : step havedisk1 s (.resume p) = some next) (returned : next.procs p = .outside)
    : (s.bufs b).Synced := by
  unfold IdeSys.step at taken
  split at taken
  · cases taken
  simp only [waits] at taken
  split at taken
  · cases taken
    simp only [iderwLoop, update_self] at returned
    grind
  · cases taken

/-- What holds of the queue, the disk and the callers of `iderw`. -/
structure Orderly (havedisk1 : Bool) (s : IdeSys N P) (h : IdeLog N P) : Prop where
  /-- The pointers make up a list without repetitions, and requests leave it as they came. -/
  queue : ∃ queue,
    Linked s.qnext s.idequeue queue
    ∧ queue.Nodup
    ∧ h.arrived.map Prod.fst = h.completed ++ queue
    -- the disk has the command that `idestart` has issued for the first buffer
    ∧ (s.halted = none → (s.ide ≠ .idle ↔ queue ≠ []))
    ∧ (s.halted = none → ∀ b rest, queue = b :: rest →
        h.issued.getLast? = some (b, BufSys.command (s.bufs b))
        ∧ ∀ command, s.ide = .busy command → command = BufSys.command (s.bufs b))
  /-- The commands reach the disk in the order in which the requests arrived. -/
  issued : s.halted = none → h.issued <+: h.arrived
  /-- No call returns at once; its request is the next one. -/
  starts : ∀ p b next, step havedisk1 s (.iderw p b) = some next → next.halted = none
    → next.procs p = .waiting b true ∧ (note havedisk1 s (.iderw p b) h).ticket p = h.arrived.length
  /-- A call returns only when its request is completed. -/
  returns : ∀ p b asleep next, s.procs p = .waiting b asleep
    → step havedisk1 s (.resume p) = some next
    → next.procs p = .outside
    → h.completed[h.ticket p]? = some b ∧ (s.bufs b).valid = true ∧ (s.bufs b).dirty = false
  /-- Nobody sleeps on when the request is completed. -/
  sleepers : ∀ p b, s.procs p = .waiting b true → h.completed.length ≤ h.ticket p

/-- The invariant gives what is to be shown, part by part. -/
theorem Inv.orderly (inv : Inv s h) (havedisk1 : Bool) : Orderly havedisk1 s h := by
  obtain ⟨queue, linked, split⟩ := inv.core.queue
  have idle (calm : s.halted = none) := (inv.device calm).idle_iff split
  refine ⟨⟨queue, linked, inv.core.nodup split, split, fun calm => (idle calm).not, ?_⟩, ?_, ?_,
    ?_, ?_⟩
  · rintro calm b rest rfl
    obtain ⟨_, _, _, _, here⟩ := inv.core.head_request split
    have device := inv.device calm
    have working : s.ide ≠ .idle := (idle calm).not.mpr (List.cons_ne_nil b rest)
    refine ⟨?_, fun command busy => ?_⟩
    · rw [device.issued_busy working, List.take_add_one, here]
      exact List.getLast?_concat
    · simp only [DeviceOk, busy] at device
      obtain ⟨⟨b', there⟩, -⟩ := device
      exact (Prod.mk.inj (Option.some.inj (there.symm.trans here))).2
  · intro calm
    have device := inv.device calm
    by_cases resting : s.ide = .idle
    · simp only [DeviceOk, resting] at device
      rw [device.2]
    · rw [device.issued_busy resting]
      exact List.take_prefix ..
  · intro p b next taken calm
    obtain ⟨passed, waits⟩ := iderw_waits taken calm
    refine ⟨waits, ?_⟩
    simp only [note, taken, if_pos passed, IdeLog.iderw, update_self]
  · intro p b asleep next waits taken returned
    have request := inv.core.requests p b asleep waits
    have synced : (s.bufs b).Synced := resume_returns waits taken returned
    have done : h.ticket p < h.completed.length := by
      by_contra open_
      exact (request.open_ (Nat.le_of_not_lt open_)).1 synced
    refine ⟨?_, synced⟩
    rw [← request.arrived, ← List.getElem?_map, split, List.getElem?_append_left done]
  · intro p b waits
    by_contra done
    have request := inv.core.requests p b true waits
    exact nomatch (request.done (Nat.lt_of_not_le done)).2

/-- The request queue works in every interleaving of the processes, the disk and its
interrupts.
-/
theorem disk_queue_orderly (N P : Nat) (havedisk1 : Bool) (bufs : Fin N → Buf P)
    (qnext : Fin N → Option (Fin N)) (actions : List (IdeAction N P))
    : Throughout (withHistory (step havedisk1) (note havedisk1))
        (fun now => Orderly havedisk1 now.1 now.2) (fresh bufs qnext, .empty) actions := by
  have initially : Inv (fresh bufs qnext) .empty := by
    refine ⟨⟨⟨[], rfl, rfl⟩, nofun, ?_, nofun⟩, fun _ => ⟨rfl, rfl⟩⟩
    intro ticket b _ here
    cases here
  have always : Throughout (withHistory (step havedisk1) (note havedisk1))
      (fun now => Inv now.1 now.2) (fresh bufs qnext, .empty) actions := by
    refine Throughout.invariant (by exact initially) ?_ actions
    intro now action next inv taken
    obtain ⟨stepped, noted⟩ := withHistory_eq_some taken
    rw [noted]
    exact inv.step stepped
  exact always.mono fun _ inv => inv.orderly havedisk1

end IdeSys

end Xv6Net
