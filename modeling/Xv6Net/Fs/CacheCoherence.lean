import Xv6Net.Fs.BufferCache

/-! The buffer cache stands for a flat array of blocks: of the buffers of a block only the first
in the list is in use, what is valid in the cache is what was last written, and what no buffer
holds as dirty is on the disk.
-/

namespace Xv6Net

open Library Transition Function

/-- One for a process that is counted in `refcnt` beside the owner of the lock. -/
@[grind]
def BufPc.waits {N : Nat} (b : Fin N) : BufPc N → Int
  | .acquiring _ b' => if b' = b then 1 else 0
  | .releasing b' => if b' = b then 1 else 0
  | _ => 0

/-- The process has the buffer locked and is in a call with it. -/
@[grind]
def BufPc.Busy {N : Nat} (b : Fin N) : BufPc N → Prop
  | .testing _ b' => b' = b
  | .writing b' => b' = b
  | .waiting _ b' => b' = b
  | _ => False

/-- The block that a process in `bread` has asked for. -/
@[grind]
def BufPc.asks {N : Nat} : BufPc N → Option BlockKey
  | .acquiring key _ => some key
  | .testing key _ => some key
  | .waiting read _ => read
  | _ => none

/-- A buffer is in use if it is referenced or valid. -/
@[grind]
def Buf.Live {P : Nat} (buf : Buf P) : Prop := 0 < buf.refcnt ∨ buf.valid = true

namespace BufSys

variable {N P : Nat} {s s' : BufSys N P} {h h' : FlatArray N P} {b b' : Fin N} {p : Fin P}
  {pc : BufPc N} {buf : Buf P} {key : BlockKey} {read : Option BlockKey}

/-- The processes that are counted beside the owner of the lock. -/
abbrev waiters (s : BufSys N P) (b : Fin N) : Int := tally (BufPc.waits b) s.procs

/-- References, lock and flags of a buffer go together with where the processes are. -/
structure BufOk (s : BufSys N P) (h : FlatArray N P) (b : Fin N) : Prop where
  refs : (s.bufs b).refcnt = (if (s.bufs b).lock = none then 0 else 1) + s.waiters b
  acquiring : ∀ p key, s.procs p = .acquiring key b → (s.bufs b).key = key
  testing : ∀ p key, s.procs p = .testing key b
    → (s.bufs b).lock = some p ∧ (s.bufs b).key = key ∧ h.unsaved b = false ∧ b ∉ s.idequeue
  writing : ∀ p, s.procs p = .writing b → (s.bufs b).lock = some p ∧ h.unsaved b = false
    ∧ b ∉ s.idequeue ∧ (s.bufs b).dirty = true
  waiting : ∀ p read, s.procs p = .waiting read b → (s.bufs b).lock = some p
    ∧ (∀ key, read = some key → (s.bufs b).key = key) ∧ h.unsaved b = false
    ∧ (b ∈ s.idequeue → (s.bufs b).valid = (s.bufs b).dirty)
    ∧ (b ∉ s.idequeue → (s.bufs b).valid = true ∧ (s.bufs b).dirty = false)
  held : ∀ p, (s.bufs b).lock = some p → ¬ (s.procs p).Busy b
    → (s.bufs b).valid = true ∧ b ∉ s.idequeue
  free : (s.bufs b).lock = none → h.unsaved b = false ∧ b ∉ s.idequeue
  dirtyValid : (s.bufs b).dirty = true → (s.bufs b).valid = true
  cached : (s.bufs b).valid = true → h.unsaved b = false
    → (s.bufs b).data = h.blocks (s.bufs b).key

/-- Of the buffers of a block only the first in the list is in use. -/
def Ordered (s : BufSys N P) : Prop :=
  s.order.Pairwise fun b b' => (s.bufs b).key = (s.bufs b').key → ¬ (s.bufs b').Live

/-- What no buffer holds as dirty is on the disk. -/
def OnDisk (s : BufSys N P) (h : FlatArray N P) : Prop :=
  ∀ key, (∀ b, (s.bufs b).key = key → (s.bufs b).dirty = false) → s.disk key = h.blocks key

/-- What holds of the whole cache, whatever the disk does. -/
structure Core (s : BufSys N P) (h : FlatArray N P) : Prop where
  ok : ∀ b, BufOk s h b
  asks : ∀ p, h.asked p = (s.procs p).asks
  gets : ∀ p, h.asked p ≠ none → s.got p = none
  all : ∀ b, b ∈ s.order
  nodup : s.order.Nodup
  ordered : Ordered s
  queue : s.idequeue.Nodup
  onDisk : OnDisk s h
  reads : ∀ read ∈ h.reads, read.1 = read.2

/-- The disk works on the first buffer of the queue. -/
def Device (s : BufSys N P) (h : FlatArray N P) : Prop :=
  match s.ide with
  | .idle => s.idequeue = []
  | .busy c => ∃ first rest, s.idequeue = first :: rest ∧ c = command (s.bufs first)
  | .ready latch => ∃ first rest, s.idequeue = first :: rest
      ∧ ((s.bufs first).dirty = true → s.disk (s.bufs first).key = h.blocks (s.bufs first).key)
      ∧ ((s.bufs first).dirty = false → latch = some (h.blocks (s.bufs first).key))

structure Inv (s : BufSys N P) (h : FlatArray N P) : Prop where
  core : Core s h
  device : s.panicked = none → Device s h

@[grind =]
theorem goto_procs (s : BufSys N P) (p q : Fin P) (pc : BufPc N)
    : (s.goto p pc).procs q = if q = p then pc else s.procs q :=
  update_apply ..

@[grind =]
theorem setBuf_bufs (s : BufSys N P) (b b' : Fin N) (buf : Buf P)
    : (s.setBuf b buf).bufs b' = if b' = b then buf else s.bufs b' :=
  update_apply ..

@[grind =]
theorem goto_waiters (s : BufSys N P) (p : Fin P) (pc : BufPc N) (b : Fin N)
    : (s.goto p pc).waiters b = s.waiters b - (s.procs p).waits b + pc.waits b :=
  tally_update (BufPc.waits b) s.procs p pc

@[grind =]
theorem goto_bufs (s : BufSys N P) (p : Fin P) (pc : BufPc N) (b : Fin N)
    : (s.goto p pc).bufs b = s.bufs b :=
  rfl

@[grind =]
theorem setBuf_procs (s : BufSys N P) (b : Fin N) (buf : Buf P) (p : Fin P)
    : (s.setBuf b buf).procs p = s.procs p :=
  rfl

@[grind =]
theorem setBuf_waiters (s : BufSys N P) (b b' : Fin N) (buf : Buf P)
    : (s.setBuf b buf).waiters b' = s.waiters b' :=
  rfl

@[grind! .]
theorem goto_rest (s : BufSys N P) (p : Fin P) (pc : BufPc N)
    : (s.goto p pc).order = s.order ∧ (s.goto p pc).idequeue = s.idequeue
      ∧ (s.goto p pc).ide = s.ide ∧ (s.goto p pc).disk = s.disk
      ∧ (s.goto p pc).panicked = s.panicked :=
  ⟨rfl, rfl, rfl, rfl, rfl⟩

@[grind! .]
theorem setBuf_rest (s : BufSys N P) (b : Fin N) (buf : Buf P)
    : (s.setBuf b buf).order = s.order ∧ (s.setBuf b buf).idequeue = s.idequeue
      ∧ (s.setBuf b buf).ide = s.ide ∧ (s.setBuf b buf).disk = s.disk
      ∧ (s.setBuf b buf).panicked = s.panicked :=
  ⟨rfl, rfl, rfl, rfl, rfl⟩

@[grind =]
theorem ask_asked (h : FlatArray N P) (p q : Fin P) (key : BlockKey)
    : (h.ask p key).asked q = if q = p then some key else h.asked q :=
  update_apply ..

@[grind! .]
theorem ask_rest (h : FlatArray N P) (p : Fin P) (key : BlockKey)
    : (h.ask p key).blocks = h.blocks ∧ (h.ask p key).unsaved = h.unsaved
      ∧ (h.ask p key).reads = h.reads :=
  ⟨rfl, rfl, rfl⟩

@[grind =]
theorem modify_unsaved (h : FlatArray N P) (b b' : Fin N)
    : (h.modify b).unsaved b' = if b' = b then true else h.unsaved b' :=
  update_apply ..

@[grind =]
theorem modify_blocks (h : FlatArray N P) (b : Fin N) (key : BlockKey)
    : (h.modify b).blocks key = h.blocks key :=
  rfl

@[grind =]
theorem write_unsaved (h : FlatArray N P) (b b' : Fin N) (buf : Buf P)
    : (h.write b buf).unsaved b' = if b' = b then false else h.unsaved b' :=
  update_apply ..

@[grind =]
theorem write_blocks (h : FlatArray N P) (b : Fin N) (buf : Buf P) (key : BlockKey)
    : (h.write b buf).blocks key = if key = buf.key then buf.data else h.blocks key :=
  update_apply ..

theorem waits_nonneg (b : Fin N) (pc : BufPc N) : 0 ≤ pc.waits b := by
  cases pc <;> grind -linarith

theorem waiters_nonneg (s : BufSys N P) (b : Fin N) : 0 ≤ s.waiters b :=
  tally_nonneg fun q => waits_nonneg b (s.procs q)

/-- A process that waits for a buffer is among its references. -/
theorem le_waiters (s : BufSys N P) (b : Fin N) (q : Fin P) : (s.procs q).waits b ≤ s.waiters b :=
  le_tally (fun q => waits_nonneg b (s.procs q)) q

theorem BufOk.live (ok : BufOk s h b) (locked : (s.bufs b).lock ≠ none) : (s.bufs b).Live := by
  have waits := s.waiters_nonneg b
  have refs := ok.refs
  grind -linarith

/-- A buffer in the queue is locked, and has been written to its end. -/
theorem BufOk.queued (ok : BufOk s h b) (member : b ∈ s.idequeue)
    : (s.bufs b).lock ≠ none ∧ h.unsaved b = false ∧ (s.bufs b).valid = (s.bufs b).dirty := by
  cases lock : (s.bufs b).lock with
  | none =>
    have free := ok.free lock
    grind -linarith
  | some p =>
    cases ok
    cases here : s.procs p <;> grind -linarith

/-- A buffer without references is not locked, and no process waits for it. -/
theorem BufOk.unreferenced (ok : BufOk s h b) (none_ : (s.bufs b).refcnt = 0)
    : (s.bufs b).lock = none ∧ s.waiters b = 0 ∧ ∀ q, (s.procs q).waits b = 0 := by
  have waits := s.waiters_nonneg b
  have refs := ok.refs
  have each := s.le_waiters b
  have least (q : Fin P) := waits_nonneg b (s.procs q)
  grind -linarith

section

variable (ok : BufOk s h b')
include ok

/-- The lock of a buffer passes from nobody to the process. -/
theorem BufOk.acquire (here : s.procs p = .acquiring key b)
    (unlocked : (s.bufs b).lock = none)
    : BufOk ((s.setBuf b { s.bufs b with lock := some p }).goto p (.testing key b)) h b' := by
  cases ok
  constructor <;> grind -linarith

theorem BufOk.unlock (here : s.procs p = .outside)
    (locked : (s.bufs b).lock = some p) (saved : h.unsaved b = false)
    : BufOk ((s.setBuf b { s.bufs b with lock := none }).goto p (.releasing b)) h b' := by
  cases ok
  constructor <;> grind -linarith

theorem BufOk.hit (here : s.procs p = .outside) (same : (s.bufs b).key = key)
    : BufOk ((s.setBuf b { s.bufs b with refcnt := (s.bufs b).refcnt + 1 }).goto p
        (.acquiring key b)) (h.ask p key) b' := by
  cases ok
  constructor <;> grind -linarith

/-- A buffer without references gets another block. -/
theorem BufOk.recycle (here : s.procs p = .outside) (none_ : (s.bufs b).refcnt = 0)
    : BufOk ((s.setBuf b
        { s.bufs b with key, valid := false, dirty := false, refcnt := 1 }).goto p
          (.acquiring key b)) (h.ask p key) b' := by
  have unreferenced := ok.unreferenced
  cases ok
  constructor <;> grind -linarith

theorem BufOk.finish {got : Fin P → Option (Fin N)} {asked : Fin P → Option BlockKey}
    {reads : List ((BlockKey × Block) × (BlockKey × Block))} (key : BlockKey)
    (here : s.procs p = .testing key b ∨ s.procs p = .waiting read b)
    (valid : (s.bufs b).valid = true) (done : b ∉ s.idequeue)
    : BufOk (goto { s with got } p .outside) { h with asked, reads } b' := by
  cases ok
  constructor <;> grind -linarith

/-- The locked buffer joins the queue of the disk. -/
theorem BufOk.enqueue
    (here : s.procs p = .testing key b ∧ read = some key ∨ s.procs p = .writing b ∧ read = none)
    (flags : (s.bufs b).valid = (s.bufs b).dirty)
    : BufOk (goto { s with idequeue := s.idequeue ++ [b] } p (.waiting read b)) h b' := by
  cases ok
  constructor <;> grind -linarith

/-- The holder of the lock writes to the data. -/
theorem BufOk.modify (here : s.procs p = .outside) (locked : (s.bufs b).lock = some p)
    (data : Block)
    : BufOk (s.setBuf b { s.bufs b with data }) (h.modify b) b' := by
  cases ok
  constructor <;> grind -linarith

/-- The owner marks the buffer as dirty, in `log_write` or at the start of `bwrite`. -/
theorem BufOk.mark (here : s.procs p = .outside) (locked : (s.bufs b).lock = some p)
    (next : pc = .outside ∨ pc = .writing b)
    (apart : b' ≠ b → (s.bufs b').valid = true → (s.bufs b').key ≠ (s.bufs b).key)
    : BufOk ((s.mark b).goto p pc) (h.write b (s.bufs b)) b' := by
  cases ok
  constructor <;> grind -linarith [BufSys.mark]

theorem BufOk.drop {order : List (Fin N)} (here : s.procs p = .releasing b)
    : BufOk (goto { s.setBuf b { s.bufs b with refcnt := (s.bufs b).refcnt - 1 } with order } p
        .outside) h b' := by
  cases ok
  constructor <;> grind -linarith

/-- The first request of the queue is finished. -/
theorem BufOk.complete {rest : List (Fin N)} {data : Block} (queued : s.idequeue = b :: rest)
    (nodup : s.idequeue.Nodup) (contents : data = h.blocks (s.bufs b).key)
    : BufOk (setBuf { s with idequeue := rest, ide := .idle } b
        { s.bufs b with valid := true, dirty := false, data }) h b' := by
  cases ok
  constructor <;> grind -linarith

end

/-- No two buffers in use have the same block. -/
theorem Core.key_ne (core : Core s h) (live : (s.bufs b).Live) (live' : (s.bufs b').Live)
    (ne : b' ≠ b)
    : (s.bufs b').key ≠ (s.bufs b).key := by
  intro same
  let Apart (b b' : Fin N) : Prop :=
    (s.bufs b).key = (s.bufs b').key → ¬ ((s.bufs b).Live ∧ (s.bufs b').Live)
  have apart : s.order.Pairwise Apart :=
    core.ordered.imp fun later same both => later same both.2
  have symm : Std.Symm Apart := ⟨fun _ _ apart same both => apart same.symm both.symm⟩
  exact apart.forall (core.all b') (core.all b) ne same ⟨live', live⟩

/-- Where neither blocks nor the list change and no buffer comes into use, the order stays. -/
theorem Ordered.frame (ordered : Ordered s) (order : s'.order = s.order)
    (keys : ∀ b, (s'.bufs b).key = (s.bufs b).key) (live : ∀ b, (s'.bufs b).Live → (s.bufs b).Live)
    : Ordered s' := by
  rw [Ordered, order]
  refine ordered.imp fun later same used => ?_
  rw [keys, keys] at same
  exact later same (live _ used)

/-- What is dirty stays dirty, and the array changes only where a buffer is dirty. -/
theorem OnDisk.frame (onDisk : OnDisk s h) (disk : s'.disk = s.disk)
    (dirty : ∀ b, (s.bufs b).dirty = true
      → (s'.bufs b).key = (s.bufs b).key ∧ (s'.bufs b).dirty = true)
    (blocks : ∀ key, h'.blocks key = h.blocks key
      ∨ ∃ b, (s'.bufs b).key = key ∧ (s'.bufs b).dirty = true)
    : OnDisk s' h' := by
  intro key clean
  rcases blocks key with same | ⟨b, here, still⟩
  · rw [disk, same]
    exact onDisk key fun b here => by grind -linarith
  · grind -linarith

/-- The disk looks at the queued buffers only. -/
theorem Device.frame (device : Device s h) (ide : s'.ide = s.ide) (queue : s'.idequeue = s.idequeue)
    (bufs : ∀ b ∈ s.idequeue, (s'.bufs b).key = (s.bufs b).key
      ∧ (s'.bufs b).dirty = (s.bufs b).dirty ∧ (s'.bufs b).data = (s.bufs b).data)
    (disk : s'.disk = s.disk)
    (blocks : ∀ b ∈ s.idequeue, h'.blocks (s.bufs b).key = h.blocks (s.bufs b).key)
    : Device s' h' := by
  rw [Device] at device ⊢
  rw [ide, queue, disk]
  cases state : s.ide with
  | idle =>
    rw [state] at device
    exact device
  | busy =>
    rw [state] at device
    obtain ⟨first, rest, queued, same⟩ := device
    have here := bufs first (by grind -linarith)
    exact ⟨first, rest, queued, by grind -linarith [command]⟩
  | ready =>
    rw [state] at device
    obtain ⟨first, rest, queued, results⟩ := device
    have here := bufs first (by grind -linarith)
    have contents := blocks first (by grind -linarith)
    exact ⟨first, rest, queued, by grind⟩

/-- A step that the disk and the list do not see. -/
structure Quiet (s s' : BufSys N P) : Prop where
  keys : ∀ b, (s'.bufs b).key = (s.bufs b).key
  dirty : ∀ b, (s'.bufs b).dirty = (s.bufs b).dirty
  data : ∀ b ∈ s.idequeue, (s'.bufs b).data = (s.bufs b).data
  live : ∀ b, (s'.bufs b).Live → (s.bufs b).Live
  order : s'.order = s.order
  queue : s'.idequeue = s.idequeue
  ide : s'.ide = s.ide
  disk : s'.disk = s.disk
  panicked : s'.panicked = s.panicked

/-- The rule for the steps that the disk does not take part in. -/
theorem Inv.quiet (inv : Inv s h) (quiet : Quiet s s') (ok : ∀ b, BufOk s' h' b)
    (asks : ∀ p, h'.asked p = (s'.procs p).asks) (gets : ∀ p, h'.asked p ≠ none → s'.got p = none)
    (blocks : h'.blocks = h.blocks) (reads : ∀ read ∈ h'.reads, read.1 = read.2)
    : Inv s' h' := by
  obtain ⟨keys, dirty, data, live, order, queue, ide, disk, panicked⟩ := quiet
  refine ⟨⟨ok, asks, gets, ?_, ?_, inv.core.ordered.frame order keys live, ?_, ?_, reads⟩,
    fun calm => ?_⟩
  · exact order ▸ inv.core.all
  · exact order ▸ inv.core.nodup
  · exact queue ▸ inv.core.queue
  · exact inv.core.onDisk.frame disk (fun b was => ⟨keys b, (dirty b).trans was⟩)
      fun key => Or.inl (congrFun blocks key)
  · exact (inv.device (panicked ▸ calm)).frame ide queue
      (fun b member => ⟨keys b, dirty b, data b member⟩) disk fun _ _ => congrFun blocks _

theorem Inv.acquire (inv : Inv s h) (here : s.procs p = .acquiring key b)
    (unlocked : (s.bufs b).lock = none)
    : Inv ((s.setBuf b { s.bufs b with lock := some p }).goto p (.testing key b)) h := by
  have asks := inv.core.asks
  refine inv.quiet ?_ (fun b' => (inv.core.ok b').acquire here unlocked) (by grind -linarith)
    inv.core.gets rfl inv.core.reads
  constructor <;> grind -linarith

theorem Inv.unlock (inv : Inv s h) (here : s.procs p = .outside)
    (locked : (s.bufs b).lock = some p) (saved : h.unsaved b = false)
    : Inv ((s.setBuf b { s.bufs b with lock := none }).goto p (.releasing b)) h := by
  have asks := inv.core.asks
  refine inv.quiet ?_ (fun b' => (inv.core.ok b').unlock here locked saved) (by grind -linarith)
    inv.core.gets rfl inv.core.reads
  constructor <;> grind -linarith

theorem Inv.modify (inv : Inv s h) (here : s.procs p = .outside)
    (locked : (s.bufs b).lock = some p) (data : Block)
    : Inv (s.setBuf b { s.bufs b with data }) (h.modify b) := by
  have held := (inv.core.ok b).held p locked
  refine inv.quiet ?_ (fun b' => (inv.core.ok b').modify here locked data) inv.core.asks
    inv.core.gets rfl inv.core.reads
  constructor <;> grind -linarith

/-- A call ends that was not `bread`. -/
theorem Inv.finish (inv : Inv s h) (here : s.procs p = .waiting none b)
    (valid : (s.bufs b).valid = true) (done : b ∉ s.idequeue)
    : Inv (s.goto p .outside) h := by
  have asks := inv.core.asks
  refine inv.quiet ?_ (fun b' => (inv.core.ok b').finish ⟨0, 0⟩ (Or.inr here) valid done)
    (by grind -linarith) inv.core.gets rfl inv.core.reads
  constructor <;> grind -linarith

/-- `bread` returns what the block has in the flat array. -/
theorem Inv.breadReturn (inv : Inv s h)
    (here : s.procs p = .testing key b ∨ s.procs p = .waiting (some key) b)
    (valid : (s.bufs b).valid = true) (done : b ∉ s.idequeue)
    : Inv (s.breadReturn p b) (h.returned p (s.breadReturn p b)) := by
  have asks := inv.core.asks
  have gets := inv.core.gets
  have asked : h.asked p = some key := by grind -linarith
  have noted : h.returned p (s.breadReturn p b)
      = { h with
          asked := update h.asked p none
          reads := h.reads ++ [((key, h.blocks key), ((s.bufs b).key, (s.bufs b).data))] } := by
    simp only [FlatArray.returned, asked, BufSys.breadReturn, goto, update_self]
  have contents : (s.bufs b).key = key ∧ (s.bufs b).data = h.blocks key := by
    have ok := inv.core.ok b
    cases ok
    grind -linarith
  rw [noted]
  refine inv.quiet ?_ (fun b' => (inv.core.ok b').finish _ here valid done) ?_ ?_ rfl ?_
  · constructor <;> grind -linarith [BufSys.breadReturn]
  · intro q
    simp only [BufSys.breadReturn, update_apply]
    grind -linarith
  · intro q
    simp only [BufSys.breadReturn, goto, update_apply]
    grind -linarith
  · intro read member
    rcases List.mem_append.mp member with old | new
    · exact inv.core.reads read old
    · rw [List.mem_singleton.mp new, contents.1, contents.2]

/-- `bwrite` and `log_write` write the flat array; the disk is to follow. -/
theorem Inv.mark (inv : Inv s h) (here : s.procs p = .outside) (locked : (s.bufs b).lock = some p)
    (next : pc = .outside ∨ pc = .writing b)
    : Inv ((s.mark b).goto p pc) (h.write b (s.bufs b)) := by
  have asks := inv.core.asks
  have ok := inv.core.ok b
  obtain ⟨valid, absent⟩ := ok.held p locked (by grind -linarith)
  have live : (s.bufs b).Live := Or.inr valid
  have apart {b' : Fin N} (ne : b' ≠ b) (live' : (s.bufs b').Live) := inv.core.key_ne live live' ne
  refine ⟨⟨fun b' => (inv.core.ok b').mark here locked next fun ne used => apart ne (Or.inr used),
    ?_, inv.core.gets, inv.core.all, inv.core.nodup, ?_, inv.core.queue, ?_, inv.core.reads⟩,
    fun calm => ?_⟩
  · have same : (h.write b (s.bufs b)).asked = h.asked := rfl
    grind -linarith [BufSys.mark]
  · refine inv.core.ordered.frame rfl ?_ ?_ <;> grind -linarith [BufSys.mark]
  · refine inv.core.onDisk.frame rfl (by grind -linarith [BufSys.mark]) fun key => ?_
    by_cases same : key = (s.bufs b).key
    · exact Or.inr ⟨b, by grind -linarith [BufSys.mark], by grind [BufSys.mark]⟩
    · exact Or.inl (by grind -linarith)
  · refine (inv.device calm).frame rfl rfl ?_ rfl fun b' member => ?_
    · grind -linarith [BufSys.mark]
    · obtain ⟨locked', -⟩ := (inv.core.ok b').queued member
      have := apart (by grind -linarith) ((inv.core.ok b').live locked')
      grind -linarith

/-- The first buffer of a block comes into use. -/
theorem Core.ordered_hit (core : Core s h)
    (found : s.order.find? (fun b => (s.bufs b).key = key) = some b) (order : s'.order = s.order)
    (keys : ∀ b, (s'.bufs b).key = (s.bufs b).key) (others : ∀ b', b' ≠ b → s'.bufs b' = s.bufs b')
    : Ordered s' := by
  obtain ⟨isKey, before, after, split_, noKey⟩ := List.find?_eq_some_iff_append.mp found
  have nodup := core.nodup
  have ordered := core.ordered
  rw [Ordered, split_, List.pairwise_append, List.pairwise_cons] at ordered
  rw [split_] at nodup
  rw [Ordered, order, split_, List.pairwise_append, List.pairwise_cons]
  obtain ⟨early, ⟨mine, late⟩, across⟩ := ordered
  refine ⟨early.imp_of_mem ?_, ⟨?_, late.imp_of_mem ?_⟩, ?_⟩ <;> grind -linarith

/-- `bget` finds the block. -/
theorem Inv.hit (inv : Inv s h) (here : s.procs p = .outside) (fresh : s.got p = none)
    (found : s.order.find? (fun b => (s.bufs b).key = key) = some b)
    : Inv ((s.setBuf b { s.bufs b with refcnt := (s.bufs b).refcnt + 1 }).goto p
        (.acquiring key b)) (h.ask p key) := by
  have same : (s.bufs b).key = key := by simpa using List.find?_some found
  have asks := inv.core.asks
  have gets := inv.core.gets
  refine ⟨⟨fun b' => (inv.core.ok b').hit here same, by grind, ?_, inv.core.all, inv.core.nodup,
    inv.core.ordered_hit found rfl ?_ ?_, inv.core.queue, inv.core.onDisk.frame rfl ?_ ?_,
    inv.core.reads⟩, fun calm => (inv.device calm).frame rfl rfl ?_ rfl fun _ _ => rfl⟩
  · intro q asked
    change s.got q = none
    grind -linarith
  all_goals grind -linarith

/-- A buffer that is neither referenced nor dirty is taken for a block that is not cached. -/
theorem Inv.recycle (inv : Inv s h) (here : s.procs p = .outside) (fresh : s.got p = none)
    (missing : ∀ b, (s.bufs b).key ≠ key) (none_ : (s.bufs b).refcnt = 0)
    (clean : (s.bufs b).dirty = false)
    : Inv ((s.setBuf b
        { s.bufs b with key, valid := false, dirty := false, refcnt := 1 }).goto p
          (.acquiring key b)) (h.ask p key) := by
  have asks := inv.core.asks
  have gets := inv.core.gets
  have unlocked := (inv.core.ok b).unreferenced none_
  have idle := (inv.core.ok b).free unlocked.1
  refine ⟨⟨fun b' => (inv.core.ok b').recycle here none_, by grind, ?_, inv.core.all,
    inv.core.nodup, ?_, inv.core.queue, inv.core.onDisk.frame rfl ?_ ?_, inv.core.reads⟩,
    fun calm => (inv.device calm).frame rfl rfl ?_ rfl fun _ _ => rfl⟩
  · intro q asked
    change s.got q = none
    grind -linarith
  · refine (inv.core.nodup.and inv.core.ordered).imp fun {x y} ⟨apart, later⟩ same => ?_
    grind -linarith
  all_goals grind -linarith

/-- `brelse` moves the buffer to the head of the list. -/
theorem Inv.toHead (inv : Inv s h) (here : s.procs p = .releasing b)
    : Inv (goto { s.setBuf b { s.bufs b with refcnt := (s.bufs b).refcnt - 1 } with
        order := b :: s.order.erase b } p .outside) h := by
  have asks := inv.core.asks
  have refs := (inv.core.ok b).refs
  have waits := s.le_waiters b p
  have live : (s.bufs b).Live := by grind -linarith
  have notHere {b' : Fin N} (member : b' ∈ s.order.erase b) : b' ≠ b :=
    ((inv.core.nodup.mem_erase_iff).mp member).1
  have perm := List.perm_cons_erase (inv.core.all b)
  refine ⟨⟨fun b' => (inv.core.ok b').drop here, by grind, inv.core.gets,
    fun b' => perm.mem_iff.mp (inv.core.all b'), perm.nodup_iff.mp inv.core.nodup, ?_,
    inv.core.queue, inv.core.onDisk.frame rfl ?_ ?_, inv.core.reads⟩,
    fun calm => (inv.device calm).frame rfl rfl ?_ rfl fun _ _ => rfl⟩
  · refine List.pairwise_cons.mpr ⟨fun b' member same used => ?_, ?_⟩
    · have apart (live' : (s.bufs b').Live) := inv.core.key_ne live live' (notHere member)
      grind -linarith
    · have rest := inv.core.ordered.sublist (List.erase_sublist (a := b))
      exact rest.imp_of_mem fun {x y} first second later => by grind -linarith
  all_goals grind -linarith

theorem Inv.release (inv : Inv s h) (here : s.procs p = .releasing b)
    : Inv (s.release p b) h := by
  rw [BufSys.release]
  split
  · exact inv.toHead here
  · have asks := inv.core.asks
    refine inv.quiet ?_ (fun b' => (inv.core.ok b').drop here) (by grind -linarith) inv.core.gets
      rfl inv.core.reads
    constructor <;> grind -linarith

/-- What the driver does beside the buffers does not matter to them. -/
theorem BufOk.other {ide : IdeState} {disk : BlockKey → Block} {panicked : Option BufPanic}
    {got : Fin P → Option (Fin N)} (ok : BufOk s h b)
    : BufOk { s with ide, disk, panicked, got } h b := by
  cases ok
  constructor <;> assumption

theorem Inv.panic (core : Core s h) (reason : BufPanic) : Inv (s.panic reason) h := by
  obtain ⟨ok, asks, gets, all, nodup, ordered, queue, onDisk, reads⟩ := core
  refine ⟨⟨fun b => (ok b).other, asks, gets, all, nodup, ordered, queue, onDisk, reads⟩, ?_⟩
  rintro ⟨⟩

/-- The request at the head is passed to the disk, with the data of the buffer. -/
theorem Inv.idestart {rest : List (Fin N)} (core : Core s h) (first_ : s.idequeue = b :: rest)
    : Inv (s.idestart b) h := by
  rw [BufSys.idestart]
  split
  · exact .panic core _
  · obtain ⟨ok, asks, gets, all, nodup, ordered, queue, onDisk, reads⟩ := core
    exact ⟨⟨fun b => (ok b).other, asks, gets, all, nodup, ordered, queue, onDisk, reads⟩,
      fun _ => ⟨b, rest, first_, rfl⟩⟩

theorem Core.enqueue (core : Core s h)
    (here : s.procs p = .testing key b ∧ read = some key ∨ s.procs p = .writing b ∧ read = none)
    (flags : (s.bufs b).valid = (s.bufs b).dirty) (absent : b ∉ s.idequeue)
    : Core (goto { s with idequeue := s.idequeue ++ [b] } p (.waiting read b)) h := by
  obtain ⟨ok, asks, gets, all, nodup, ordered, queue, onDisk, reads⟩ := core
  refine ⟨fun b' => (ok b').enqueue here flags, by grind, gets, all, nodup, ordered, ?_, onDisk,
    reads⟩
  grind -linarith

/-- The request is queued; if the queue was empty, it is started. -/
theorem Inv.iderw (inv : Inv s h) (calm : s.panicked = none) (key : BlockKey)
    (here : s.procs p = .testing key b ∧ read = some key ∨ s.procs p = .writing b ∧ read = none)
    (flags : (s.bufs b).valid = (s.bufs b).dirty) (absent : b ∉ s.idequeue) (havedisk1 : Bool)
    : Inv (s.iderw havedisk1 p b read) h := by
  have core := inv.core.enqueue here flags absent
  rw [BufSys.iderw]
  split
  · exact .panic inv.core _
  split
  · exact .panic inv.core _
  split
  · exact .panic inv.core _
  simp only
  have device := inv.device calm
  split
  · rename_i starts
    change (s.idequeue ++ [b]).head? = some b at starts
    have empty : s.idequeue = [] := by cases queue : s.idequeue <;> simp_all
    exact .idestart core (congrArg (· ++ [b]) empty)
  · rename_i busy
    change ¬ (s.idequeue ++ [b]).head? = some b at busy
    refine ⟨core, fun _ => ?_⟩
    rw [Device] at device ⊢
    simp only [goto]
    cases state : s.ide with
    | idle => grind -linarith
    | busy =>
      rw [state] at device
      obtain ⟨first, rest, queued, command⟩ := device
      exact ⟨first, rest ++ [b], by rw [queued]; rfl, command⟩
    | ready =>
      rw [state] at device
      obtain ⟨first, rest, queued, results⟩ := device
      exact ⟨first, rest ++ [b], by rw [queued]; rfl, results⟩

/-- The disk writes the contents of a dirty buffer, which are those of the flat array, or reads a
block that no buffer holds as dirty.
-/
theorem Inv.disk_ {c : IdeCommand} (inv : Inv s h) (calm : s.panicked = none)
    (state : s.ide = .busy c)
    : Inv (s.disk_ c) h := by
  have device := inv.device calm
  rw [Device, state] at device
  obtain ⟨first, rest, queued, rfl⟩ := device
  have ok := inv.core.ok first
  obtain ⟨locked, saved, flags⟩ := ok.queued (queued ▸ List.mem_cons_self)
  have apart {b : Fin N} (ne : b ≠ first) (live : (s.bufs b).Live) :=
    inv.core.key_ne (ok.live locked) live ne
  obtain ⟨oks, asks, gets, all, nodup, ordered, queue, onDisk, reads⟩ := inv.core
  rw [command]
  cases dirty : (s.bufs first).dirty with
  | true =>
    have data : (s.bufs first).data = h.blocks (s.bufs first).key :=
      ok.cached (flags.trans dirty) saved
    refine ⟨⟨fun b => (oks b).other, asks, gets, all, nodup, ordered, queue, fun key clean => ?_,
      reads⟩, fun _ => ⟨first, rest, queued, fun _ => ?_, ?_⟩⟩
    · have before := onDisk key clean
      simp only [BufSys.disk_, if_true, update_apply]
      grind -linarith
    · exact (update_self ..).trans data
    · intro clean
      exact absurd (dirty.symm.trans clean) (by decide)
  | false =>
    refine ⟨⟨fun b => (oks b).other, asks, gets, all, nodup, ordered, queue, onDisk, reads⟩,
      fun _ => ⟨first, rest, queued, fun wet => ?_, fun _ => ?_⟩⟩
    · exact absurd (dirty.symm.trans wet) (by decide)
    · refine congrArg some (onDisk (s.bufs first).key fun b key => ?_)
      have valid := (oks b).dirtyValid
      grind -linarith

/-- The first request of the queue is finished: the buffer and the disk have the contents of the
flat array.
-/
theorem Core.complete {first : Fin N} {rest : List (Fin N)} {data : Block} (core : Core s h)
    (queued : s.idequeue = first :: rest) (contents : data = h.blocks (s.bufs first).key)
    (written : (s.bufs first).dirty = true →
      s.disk (s.bufs first).key = h.blocks (s.bufs first).key)
    : Core (setBuf { s with idequeue := rest, ide := .idle } first
        { s.bufs first with valid := true, dirty := false, data }) h := by
  have live := (core.ok first).live ((core.ok first).queued (queued ▸ List.mem_cons_self)).1
  obtain ⟨ok, asks, gets, all, nodup, ordered, queue, onDisk, reads⟩ := core
  refine ⟨fun b => (ok b).complete queued queue contents, asks, gets, all, nodup,
    ordered.frame rfl ?_ ?_, ?_, fun key clean => ?_, reads⟩
  · grind -linarith
  · grind -linarith
  · rw [queued] at queue
    exact (List.nodup_cons.mp queue).2
  · change s.disk key = h.blocks key
    by_cases mine : (s.bufs first).key = key ∧ (s.bufs first).dirty = true
    · grind -linarith
    · refine onDisk key fun b here => ?_
      have now := clean b
      grind -linarith

/-- The request at the head is done: the buffer has the data of its block. -/
theorem Inv.ideintr {latch : Option Block} (inv : Inv s h) (calm : s.panicked = none)
    (state : s.ide = .ready latch)
    : Inv (s.ideintr latch) h := by
  have device := inv.device calm
  rw [Device, state] at device
  obtain ⟨first, rest, queued, written, fetched⟩ := device
  obtain ⟨-, saved, flags⟩ := (inv.core.ok first).queued (queued ▸ List.mem_cons_self)
  have cached := (inv.core.ok first).cached
  have contents : (if (s.bufs first).dirty = true then (s.bufs first).data
      else latch.getD (s.bufs first).data) = h.blocks (s.bufs first).key := by
    grind -linarith
  have core := inv.core.complete queued contents written
  rw [BufSys.ideintr, queued]
  cases rest with
  | nil => exact ⟨core, fun _ => rfl⟩
  | cons => exact .idestart core rfl

/-- A hit, a recycled buffer, or a panic if there is none. -/
theorem Inv.bget (inv : Inv s h) (calm : s.panicked = none) (here : s.procs p = .outside)
    (key : BlockKey)
    : Inv (s.bget p key) (if (s.bget p key).panicked = none then h.ask p key else h) := by
  have cleared : Inv { s with got := update s.got p none } h := by
    refine inv.quiet (by constructor <;> grind -linarith) (fun b => (inv.core.ok b).other)
      inv.core.asks ?_ rfl
      inv.core.reads
    intro q asked
    have before := inv.core.gets q asked
    simp only [update_apply]
    grind -linarith
  have fresh : update s.got p none p = none := update_self ..
  rw [BufSys.bget]
  split
  · rename_i found
    convert cleared.hit here fresh found using 1
    exact if_pos calm
  · rename_i missing
    split
    · rename_i b found
      obtain ⟨none_, clean⟩ : (s.bufs b).refcnt = 0 ∧ (s.bufs b).dirty = false := by
        simpa using List.find?_some found
      have other (b' : Fin N) (same : (s.bufs b').key = key) : False := by
        have differs := List.find?_eq_none.mp missing b' (inv.core.all b')
        exact differs (decide_eq_true same)
      convert cleared.recycle here fresh other none_ clean using 1
      exact if_pos calm
    · rw [if_neg nofun]
      exact .panic cleared.core _

/-- A step gives another block only to a buffer that is neither referenced nor dirty. -/
def Spared (s s' : BufSys N P) : Prop :=
  ∀ b, (s'.bufs b).key ≠ (s.bufs b).key → (s.bufs b).refcnt = 0 ∧ (s.bufs b).dirty = false

theorem bget_spared (s : BufSys N P) (p : Fin P) (key : BlockKey) : Spared s (s.bget p key) := by
  rw [BufSys.bget]
  split
  · grind -linarith [Spared]
  · split
    · rename_i b found
      have free : (s.bufs b).refcnt = 0 ∧ (s.bufs b).dirty = false := by
        simpa using List.find?_some found
      grind -linarith [Spared]
    · exact fun b differs => absurd rfl differs

/-- What a step is. -/
inductive Turn (havedisk1 : Bool) (s : BufSys N P) : BufAction N P → BufSys N P → Prop where
  | bread {p : Fin P} {key : BlockKey} (here : s.procs p = .outside)
    : Turn havedisk1 s (.bread p key) (s.bget p key)
  | acquiresleep {p : Fin P} {key : BlockKey} {b : Fin N} (here : s.procs p = .acquiring key b)
      (unlocked : (s.bufs b).lock = none)
    : Turn havedisk1 s (.acquiresleep p)
        ((s.setBuf b { s.bufs b with lock := some p }).goto p (.testing key b))
  | cached {p : Fin P} {key : BlockKey} {b : Fin N} (here : s.procs p = .testing key b)
      (valid : (s.bufs b).valid = true)
    : Turn havedisk1 s (.test p) (s.breadReturn p b)
  | fetch {p : Fin P} {key : BlockKey} {b : Fin N} (here : s.procs p = .testing key b)
      (invalid : (s.bufs b).valid = false)
    : Turn havedisk1 s (.test p) (s.iderw havedisk1 p b (some key))
  | modify {p : Fin P} {b : Fin N} {data : Block} (here : s.procs p = .outside)
      (locked : (s.bufs b).lock = some p)
    : Turn havedisk1 s (.modify p b data) (s.setBuf b { s.bufs b with data })
  | logWrite {p : Fin P} {b : Fin N} (here : s.procs p = .outside)
      (locked : (s.bufs b).lock = some p)
    : Turn havedisk1 s (.logWrite p b) (s.mark b)
  | bwrite {p : Fin P} {b : Fin N} (here : s.procs p = .outside)
      (locked : (s.bufs b).lock = some p)
    : Turn havedisk1 s (.bwrite p b) ((s.mark b).goto p (.writing b))
  | bwritePanic {p : Fin P} {b : Fin N} (unlocked : (s.bufs b).lock ≠ some p)
    : Turn havedisk1 s (.bwrite p b) (s.panic .bwrite)
  | iderw {p : Fin P} {b : Fin N} (here : s.procs p = .writing b)
    : Turn havedisk1 s (.iderw p) (s.iderw havedisk1 p b none)
  | fetched {p : Fin P} {key : BlockKey} {b : Fin N} (here : s.procs p = .waiting (some key) b)
      (valid : (s.bufs b).valid = true) (clean : (s.bufs b).dirty = false)
    : Turn havedisk1 s (.wake p) (s.breadReturn p b)
  | written {p : Fin P} {b : Fin N} (here : s.procs p = .waiting none b)
      (valid : (s.bufs b).valid = true) (clean : (s.bufs b).dirty = false)
    : Turn havedisk1 s (.wake p) (s.goto p .outside)
  | brelse {p : Fin P} {b : Fin N} (here : s.procs p = .outside)
      (locked : (s.bufs b).lock = some p)
    : Turn havedisk1 s (.brelse p b)
        ((s.setBuf b { s.bufs b with lock := none }).goto p (.releasing b))
  | brelsePanic {p : Fin P} {b : Fin N} : Turn havedisk1 s (.brelse p b) (s.panic .brelse)
  | release {p : Fin P} {b : Fin N} (here : s.procs p = .releasing b)
    : Turn havedisk1 s (.release p) (s.release p b)
  | disk {c : IdeCommand} (state : s.ide = .busy c) : Turn havedisk1 s .disk (s.disk_ c)
  | ideintr {latch : Option Block} (state : s.ide = .ready latch)
    : Turn havedisk1 s .ideintr (s.ideintr latch)

/-- Every step is one of the turns, with its guards. -/
theorem step_turn {havedisk1 : Bool} {action : BufAction N P}
    (taken : step havedisk1 s action = some s')
    : s.panicked = none ∧ Turn havedisk1 s action s' := by
  unfold step at taken
  split at taken
  · cases taken
  rename_i running
  refine ⟨by simpa using running, ?_⟩
  cases action <;> grind -linarith [Turn]

theorem idestart_bufs (s : BufSys N P) (b : Fin N) : (s.idestart b).bufs = s.bufs := by
  rw [BufSys.idestart]
  split <;> rfl

theorem iderw_rest (s : BufSys N P) (havedisk1 : Bool) (p : Fin P) (b : Fin N)
    (read : Option BlockKey)
    : (s.iderw havedisk1 p b read).bufs = s.bufs ∧ (s.iderw havedisk1 p b read).got = s.got := by
  unfold BufSys.iderw BufSys.idestart
  simp only
  constructor <;> split_ifs <;> rfl

/-- A process releases a modified buffer only after `log_write` or `bwrite`. -/
def Saves (current : BufSys N P × FlatArray N P) : BufAction N P → Prop
  | .brelse _ b => current.2.unsaved b = false
  | _ => True

instance (current : BufSys N P × FlatArray N P) (action : BufAction N P)
    : Decidable (Saves current action) := by
  unfold Saves
  cases action <;> infer_instance

theorem Spared.of_bufs (same : s'.bufs = s.bufs) : Spared s s' := by
  intro b differs
  rw [same] at differs
  exact absurd rfl differs

/-- Only `bget` gives a buffer another block. -/
theorem Spared.of_turn {havedisk1 : Bool} {action : BufAction N P}
    (turn : Turn havedisk1 s action s')
    : Spared s s' := by
  cases turn with
  | bread => exact bget_spared s _ _
  | fetch | iderw => exact .of_bufs (iderw_rest ..).1
  | bwritePanic | brelsePanic => exact .of_bufs rfl
  | @disk c => cases c <;> exact .of_bufs rfl
  | ideintr =>
    rw [BufSys.ideintr]
    split
    · exact .of_bufs rfl
    · simp only
      split
      · grind -linarith [Spared]
      · intro b
        rw [idestart_bufs]
        grind -linarith
  | _ => grind -linarith [Spared, BufSys.mark, BufSys.breadReturn, BufSys.release]

/-- One step keeps the invariant, by the turns. -/
theorem Inv.kept {havedisk1 : Bool} {action : BufAction N P} (inv : Inv s h)
    (calm : s.panicked = none) (saves : Saves (s, h) action)
    (taken : step havedisk1 s action = some s')
    (turn : Turn havedisk1 s action s')
    : Inv s' (s.note havedisk1 action h) := by
  unfold note
  rw [taken]
  cases turn with
  | bread here => exact inv.bget calm here _
  | acquiresleep here unlocked => exact inv.acquire here unlocked
  | @cached p key b here valid =>
    exact inv.breadReturn (Or.inl here) valid ((inv.core.ok b).testing p key here).2.2.2
  | @fetch p key b here invalid =>
    obtain ⟨-, -, -, absent⟩ := (inv.core.ok b).testing p key here
    have flags : (s.bufs b).valid = (s.bufs b).dirty := by
      have := (inv.core.ok b).dirtyValid
      grind -linarith
    have none_ := inv.core.gets p (by rw [inv.core.asks, here]; simp [BufPc.asks])
    have unchanged : h.returned p (s.iderw havedisk1 p b (some key)) = h := by
      rw [FlatArray.returned, (iderw_rest ..).2, none_]
      split <;> simp_all
    simp only [unchanged]
    exact inv.iderw calm key (Or.inl ⟨here, rfl⟩) flags absent havedisk1
  | modify here locked => exact inv.modify here locked _
  | @logWrite p b here locked =>
    have marked := inv.mark here locked (Or.inl rfl)
    have same : (s.mark b).goto p .outside = s.mark b := by
      have stays : update s.procs p .outside = s.procs := by
        rw [← here, update_eq_self]
      simp only [goto, BufSys.mark, setBuf, stays]
    rwa [same] at marked
  | bwrite here locked =>
    simp only [if_pos locked]
    exact inv.mark here locked (Or.inr rfl)
  | bwritePanic unlocked =>
    simp only [if_neg unlocked]
    exact .panic inv.core _
  | @iderw p b here =>
    obtain ⟨-, -, absent, dirty⟩ := (inv.core.ok b).writing p here
    have flags := ((inv.core.ok b).dirtyValid dirty).trans dirty.symm
    exact inv.iderw calm ⟨0, 0⟩ (Or.inr ⟨here, rfl⟩) flags absent havedisk1
  | @fetched p key b here valid clean =>
    have done := (inv.core.ok b).waiting p _ here
    exact inv.breadReturn (Or.inr here) valid (by grind -linarith)
  | @written p b here valid clean =>
    have done := (inv.core.ok b).waiting p _ here
    have none_ : h.asked p = none := by rw [inv.core.asks, here]; rfl
    have unchanged : h.returned p (s.goto p .outside) = h := by
      rw [FlatArray.returned, none_]
    simp only [unchanged]
    exact inv.finish here valid (by grind -linarith)
  | brelse here locked => exact inv.unlock here locked saves
  | brelsePanic => exact .panic inv.core _
  | release here => exact inv.release here
  | disk state => exact inv.disk_ calm state
  | ideintr state => exact inv.ideintr calm state

/-- Before any call the flat array is the disk. -/
def flatDisk (N P : Nat) (disk : BlockKey → Block) : FlatArray N P :=
  { blocks := disk, unsaved := fun _ => false, asked := fun _ => none, reads := [] }

theorem Inv.fresh (disk : BlockKey → Block) (data : Fin N → Block)
    : Inv (BufSys.fresh P disk data) (flatDisk N P disk) := by
  refine ⟨⟨fun b => ?_, fun _ => rfl, fun _ _ => rfl, fun b => ?_, ?_, ?_, List.nodup_nil,
    fun _ _ => rfl, List.forall_mem_nil _⟩, fun _ => rfl⟩
  · constructor
    case refs =>
      have none_ : (BufSys.fresh P disk data).waiters b = 0 := Finset.sum_eq_zero fun _ _ => rfl
      rw [none_]
      rfl
    all_goals simp [BufSys.fresh, flatDisk]
  · exact List.mem_reverse.mpr (List.mem_finRange b)
  · exact List.nodup_reverse.mpr (List.nodup_finRange N)
  · refine List.Pairwise.imp (fun _ _ => ?_) (List.nodup_reverse.mpr (List.nodup_finRange N))
    simp [Buf.Live, BufSys.fresh]

/-- The cache stands for the flat array, and each block has at most one buffer in use. -/
structure Coherent (havedisk1 : Bool) (current : BufSys N P × FlatArray N P) : Prop where
  single : ∀ b b', (current.1.bufs b).Live → (current.1.bufs b').Live
    → (current.1.bufs b).key = (current.1.bufs b').key → b = b'
  reads : ∀ read ∈ current.2.reads, read.1 = read.2
  cached : ∀ b, (current.1.bufs b).valid = true → current.2.unsaved b = false
    → (current.1.bufs b).data = current.2.blocks (current.1.bufs b).key
  onDisk : ∀ key, (∀ b, (current.1.bufs b).key = key → (current.1.bufs b).dirty = false)
    → current.1.disk key = current.2.blocks key
  spared : ∀ action s', step havedisk1 current.1 action = some s' → Spared current.1 s'

/-- The buffer cache is coherent in every run in which processes save what they have modified. -/
theorem buffer_cache_coherent (N P : Nat) (havedisk1 : Bool) (disk : BlockKey → Block)
    (data : Fin N → Block) (actions : List (BufAction N P))
    (saves : Along (withHistory (step havedisk1) (note havedisk1)) Saves
      (BufSys.fresh P disk data, flatDisk N P disk) actions)
    : Throughout (withHistory (step havedisk1) (note havedisk1)) (Coherent havedisk1)
        (BufSys.fresh P disk data, flatDisk N P disk) actions := by
  have always : Throughout (withHistory (step havedisk1) (note havedisk1))
      (fun now => Inv now.1 now.2) (BufSys.fresh P disk data, flatDisk N P disk) actions :=
    saves.invariant (Inv.fresh disk data) fun now action next inv saved taken => by
      obtain ⟨stepped, noted⟩ := withHistory_eq_some taken
      obtain ⟨calm, turn⟩ := step_turn stepped
      rw [noted]
      exact inv.kept calm saved stepped turn
  refine always.mono fun current inv => ⟨fun b b' live live' same => ?_, inv.core.reads,
    fun b => (inv.core.ok b).cached, inv.core.onDisk, fun action s' taken => ?_⟩
  · by_contra other
    exact inv.core.key_ne live' live other same
  · exact .of_turn (step_turn taken).2

/-- Process 0 reads block 7, writes it and logs it; then process 1 reads it. -/
def readAfterWrite : List (BufAction 2 2) :=
  [.bread 0 ⟨0, 7⟩, .acquiresleep 0, .test 0, .disk, .ideintr, .wake 0, .modify 0 0 (fun _ => 5),
    .logWrite 0 0, .brelse 0 0, .release 0, .bread 1 ⟨0, 7⟩, .acquiresleep 1, .test 1]

/-- The second process gets what the first one has logged, not what is on the disk. -/
theorem buffer_cache_coherent_read
    : Along (withHistory (step false) (note false)) Saves
        (BufSys.fresh 2 (fun _ _ => 0) fun _ _ => 0, flatDisk 2 2 fun _ _ => 0) readAfterWrite
      ∧ Throughout (withHistory (step false) (note false)) (Coherent false)
        (BufSys.fresh 2 (fun _ _ => 0) fun _ _ => 0, flatDisk 2 2 fun _ _ => 0) readAfterWrite
      ∧ (exec (withHistory (step false) (note false))
          (BufSys.fresh 2 (fun _ _ => 0) fun _ _ => 0, flatDisk 2 2 fun _ _ => 0)
          readAfterWrite).map
          (fun current => current.2.reads.map fun read => (read.1.1, read.2.2 0))
        = some [(⟨0, 7⟩, 0), (⟨0, 7⟩, 5)] := by
  have saves : Along (withHistory (step false) (note false)) Saves
      (BufSys.fresh 2 (fun _ _ => 0) fun _ _ => 0, flatDisk 2 2 fun _ _ => 0) readAfterWrite := by
    decide +kernel
  exact ⟨saves, buffer_cache_coherent 2 2 false _ _ _ saves, by decide +kernel⟩

end BufSys

end Xv6Net
