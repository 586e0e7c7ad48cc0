import Xv6Net.Kernel.Pipe

/-! Who sleeps in a pipe: readers of an empty pipe that may still be written, and writers of a
full pipe that may still be read. One return of `pipewrite` comes without a wakeup.
-/

namespace Xv6Net

open Library Transition Function

def PipePc.isReading : PipePc → Bool
  | .reading _ => true
  | _ => false

def PipePc.isWriting : PipePc → Bool
  | .writing _ _ => true
  | _ => false

namespace PipeSys

variable {s : PipeSys} {pid q : Nat}

/-- The process sleeps on `&p->nread` inside `piperead`. -/
def ReaderSleeps (s : PipeSys) (pid : Nat) : Prop :=
  (s.procs pid).sleeping = true ∧ (s.procs pid).pc.isReading = true

/-- The process sleeps on `&p->nwrite` inside `pipewrite`. -/
def WriterSleeps (s : PipeSys) (pid : Nat) : Prop :=
  (s.procs pid).sleeping = true ∧ (s.procs pid).pc.isWriting = true

instance (s : PipeSys) (pid : Nat) : Decidable (s.ReaderSleeps pid) :=
  inferInstanceAs (Decidable (_ ∧ _))

/-- A reader that sleeps has nothing to read yet, and a writer that sleeps has no room yet. -/
structure NoneStranded (s : PipeSys) : Prop where
  readers : ∀ pid, s.ReaderSleeps pid → s.pipe.nread = s.pipe.nwrite ∧ s.pipe.writeopen = true
  writers : ∀ pid, s.WriterSleeps pid → s.pipe.Full ∧ s.pipe.readopen = true

theorem not_readerSleeps_wakeReaders : ¬ s.wakeReaders.ReaderSleeps pid := by
  rintro ⟨sleeping, reading⟩
  simp only [wakeReaders] at sleeping reading
  cases pc : (s.procs pid).pc <;> simp [pc, PipePc.isReading] at sleeping reading

theorem not_writerSleeps_wakeWriters : ¬ s.wakeWriters.WriterSleeps pid := by
  rintro ⟨sleeping, writing⟩
  simp only [wakeWriters] at sleeping writing
  cases pc : (s.procs pid).pc <;> simp [pc, PipePc.isWriting] at sleeping writing

theorem WriterSleeps.of_wakeReaders (h : s.wakeReaders.WriterSleeps pid)
    : s.WriterSleeps pid := by
  obtain ⟨sleeping, writing⟩ := h
  simp only [wakeReaders] at sleeping writing
  cases pc : (s.procs pid).pc with
  | outside => simp [pc, PipePc.isWriting] at writing
  | reading => simp [pc] at sleeping
  | writing => exact ⟨by simpa [pc] using sleeping, by simpa [pc] using writing⟩

theorem ReaderSleeps.of_wakeWriters (h : s.wakeWriters.ReaderSleeps pid)
    : s.ReaderSleeps pid := by
  obtain ⟨sleeping, reading⟩ := h
  simp only [wakeWriters] at sleeping reading
  cases pc : (s.procs pid).pc with
  | outside => simp [pc, PipePc.isReading] at reading
  | reading => exact ⟨by simpa [pc] using sleeping, by simpa [pc] using reading⟩
  | writing => simp [pc] at sleeping

theorem ReaderSleeps.of_return {answer : PipeAnswer} (h : (s.return_ q answer).ReaderSleeps pid)
    : s.ReaderSleeps pid := by
  by_cases same : pid = q
  · subst same
    simp [ReaderSleeps, return_] at h
  · simpa [ReaderSleeps, return_, update_of_ne same] using h

theorem WriterSleeps.of_return {answer : PipeAnswer} (h : (s.return_ q answer).WriterSleeps pid)
    : s.WriterSleeps pid := by
  by_cases same : pid = q
  · subst same
    simp [WriterSleeps, return_] at h
  · simpa [WriterSleeps, return_, update_of_ne same] using h

theorem ReaderSleeps.of_sleep {pc : PipePc} (h : (s.sleep q pc).ReaderSleeps pid)
    : s.ReaderSleeps pid ∨ (pid = q ∧ pc.isReading = true) := by
  by_cases same : pid = q
  · subst same
    exact Or.inr ⟨rfl, by simpa [ReaderSleeps, sleep] using h⟩
  · exact Or.inl (by simpa [ReaderSleeps, sleep, update_of_ne same] using h)

theorem WriterSleeps.of_sleep {pc : PipePc} (h : (s.sleep q pc).WriterSleeps pid)
    : s.WriterSleeps pid ∨ (pid = q ∧ pc.isWriting = true) := by
  by_cases same : pid = q
  · subst same
    exact Or.inr ⟨rfl, by simpa [WriterSleeps, sleep] using h⟩
  · exact Or.inl (by simpa [WriterSleeps, sleep, update_of_ne same] using h)

theorem ReaderSleeps.of_kill (h : (s.kill q).ReaderSleeps pid) : s.ReaderSleeps pid := by
  by_cases same : pid = q
  · subst same
    simp [ReaderSleeps, kill] at h
  · simpa [ReaderSleeps, kill, update_of_ne same] using h

theorem WriterSleeps.of_kill (h : (s.kill q).WriterSleeps pid) : s.WriterSleeps pid := by
  by_cases same : pid = q
  · subst same
    simp [WriterSleeps, kill] at h
  · simpa [WriterSleeps, kill, update_of_ne same] using h

end PipeSys

section

variable {p : Pipe}

theorem pipeFill_of_full (full : p.Full) (bytes : List UInt8)
    : pipeFill p bytes = (p, bytes) := by
  cases bytes with
  | nil => rfl
  | cons => rw [pipeFill, if_pos full]

/-- A writer that is not done has filled the pipe. -/
theorem pipeFill_full {bytes : List UInt8} (left : (pipeFill p bytes).2 ≠ [])
    : (pipeFill p bytes).1.Full := by
  induction bytes generalizing p with
  | nil => exact absurd rfl left
  | cons byte rest ih =>
    by_cases full : p.Full
    · rwa [pipeFill_of_full full]
    · rw [pipeFill, if_neg full] at left ⊢
      exact ih left

theorem pipeFill_readopen (bytes : List UInt8)
    : (pipeFill p bytes).1.readopen = p.readopen := by
  induction bytes generalizing p with
  | nil => rfl
  | cons byte rest ih =>
    by_cases full : p.Full
    · rw [pipeFill_of_full full]
    · rw [pipeFill, if_neg full, ih]
      rfl

theorem Pipe.Carries.fill_of_empty {stored returned bytes : List UInt8}
    (c : p.Carries stored returned) (empty : p.nread = p.nwrite) (few : bytes.length ≤ 512)
    : (pipeFill p bytes).2 = [] := by
  by_contra left
  obtain ⟨now, split, carries⟩ := c.fill bytes
  have full := carries.full_iff.mp (pipeFill_full left)
  have same := congrArg List.length (c.empty_iff.mp empty)
  have total := congrArg List.length split
  have some_ := List.length_pos_of_ne_nil left
  rw [List.length_append] at full total
  omega

end

namespace PipeSys

variable {s : PipeSys}

/-- A process with `count` bytes left that may give up at a full pipe has few enough for an empty
pipe, or no reader waits.
-/
def Heeded (s : PipeSys) (pid count : Nat) : Prop :=
  512 < count
  → s.pipe.readopen = false ∨ (s.procs pid).killed = true
  → ∀ reader, ¬ s.ReaderSleeps reader

/-- The step is no stretch of `pipewrite` that fills an empty pipe and gives up while a process
sleeps in `piperead`.
-/
def Mindful (s : PipeSys) : PipeAction → Prop
  | .write pid _ n => s.Heeded pid n.toNat
  | .resume pid =>
    match (s.procs pid).pc with
    | .writing left _ => s.Heeded pid left.length
    | _ => True
  | _ => True

section

variable (inv : s.NoneStranded)
include inv

/-- Where a writer slept, a stretch of `pipewrite` changes nothing in the pipe. -/
theorem NoneStranded.fill_of_writer {pid : Nat} (sleeps : s.WriterSleeps pid) (left : List UInt8)
    : pipeFill s.pipe left = (s.pipe, left) ∧ s.pipe.Full ∧ s.pipe.readopen = true := by
  obtain ⟨full, readers⟩ := inv.writers pid sleeps
  exact ⟨pipeFill_of_full full left, full, readers⟩

/-- A writer goes to sleep only after it has woken the readers. -/
theorem NoneStranded.pipewrite {h : PipeStreams} (streams : s.Streams h) {pid : Nat}
    {left : List UInt8} (heeded : s.Heeded pid left.length) (n : Int)
    : (s.pipewrite pid left n).NoneStranded := by
  -- a writer that sleeps now slept before or is the caller, which found the pipe full
  have others : ∀ other, s.WriterSleeps other →
      (pipeFill s.pipe left).1.Full ∧ (pipeFill s.pipe left).1.readopen = true := by
    intro other sleeps
    obtain ⟨same, full, readers⟩ := inv.fill_of_writer sleeps left
    rw [same]
    exact ⟨full, readers⟩
  simp only [PipeSys.pipewrite]
  split
  case isTrue =>
      refine ⟨?_, ?_⟩
      · intro other sleeps
        exact absurd sleeps.of_return not_readerSleeps_wakeReaders
      · intro other sleeps
        exact others other sleeps.of_return.of_wakeReaders
  case isFalse more =>
      split
      case isTrue gone =>
          refine ⟨?_, ?_⟩
          · intro reader sleeps
            have asleep : s.ReaderSleeps reader := sleeps.of_return
            obtain ⟨empty, -⟩ := inv.readers reader asleep
            by_cases many : 512 < left.length
            · rw [pipeFill_readopen] at gone
              exact absurd asleep (heeded many gone reader)
            · exact absurd (streams.carries.fill_of_empty empty (Nat.le_of_not_lt many)) more
          · intro other sleeps
            exact others other sleeps.of_return
      case isFalse stays =>
          refine ⟨?_, ?_⟩
          · intro reader sleeps
            rcases sleeps.of_sleep with before | ⟨-, impossible⟩
            · exact absurd before not_readerSleeps_wakeReaders
            · cases impossible
          · intro other sleeps
            rcases sleeps.of_sleep with before | -
            · exact others other before.of_wakeReaders
            · exact ⟨pipeFill_full more,
                Bool.eq_true_of_not_eq_false fun closed => stays (Or.inl closed)⟩

theorem NoneStranded.piperead (pid : Nat) (n : Int)
    : (s.piperead pid n).NoneStranded := by
  simp only [PipeSys.piperead]
  split
  case isTrue waits =>
      split
      case isTrue =>
          exact ⟨fun other sleeps => inv.readers other sleeps.of_return,
            fun other sleeps => inv.writers other sleeps.of_return⟩
      case isFalse =>
          refine ⟨fun _ _ => waits, fun other sleeps => ?_⟩
          rcases sleeps.of_sleep with before | ⟨-, impossible⟩
          · exact inv.writers other before
          · cases impossible
  case isFalse goes =>
      refine ⟨fun other sleeps => ?_, fun other sleeps => ?_⟩
      · exact absurd (inv.readers other sleeps.of_return.of_wakeWriters) goes
      · exact absurd sleeps.of_return not_writerSleeps_wakeWriters

theorem NoneStranded.pipeclose (writable : Bool)
    : (s.pipeclose writable).NoneStranded := by
  cases writable with
  | true =>
    refine ⟨fun other sleeps => absurd sleeps not_readerSleeps_wakeReaders, ?_⟩
    intro other sleeps
    exact inv.writers other (WriterSleeps.of_wakeReaders sleeps)
  | false =>
    refine ⟨?_, fun other sleeps => absurd sleeps not_writerSleeps_wakeWriters⟩
    intro other sleeps
    exact inv.readers other (ReaderSleeps.of_wakeWriters sleeps)

/-- Every mindful step keeps it. -/
theorem NoneStranded.step {h : PipeStreams} (streams : s.Streams h) {action : PipeAction}
    {next : PipeSys} (mindful : s.Mindful action) (taken : s.step action = some next)
    : next.NoneStranded := by
  cases step_turn taken with
  | write =>
    refine inv.pipewrite streams ?_ _
    rwa [bytesAt, List.length_map, List.length_range]
  | read => exact inv.piperead _ _
  | writeOn pc =>
    simp only [Mindful, pc] at mindful
    exact inv.pipewrite streams mindful _
  | readOn => exact inv.piperead _ _
  | close => exact inv.pipeclose _
  | kill =>
    exact ⟨fun other sleeps => inv.readers other sleeps.of_kill,
      fun other sleeps => inv.writers other sleeps.of_kill⟩

end

/-- Nobody is left asleep beside something to do, as long as no writer gives up at a pipe that
it has filled itself while a reader waits.
-/
theorem none_stranded_if_mindful (data : Int → UInt8) (actions : List PipeAction)
    (mindful : Along PipeSys.step Mindful (fresh data) actions)
    : Throughout PipeSys.step NoneStranded (fresh data) actions := by
  have always : Throughout PipeSys.step (fun s => s.NoneStranded ∧ ∃ h, s.Streams h) (fresh data)
      actions := by
    refine mindful.invariant ⟨⟨?_, ?_⟩, _, fresh_streams data⟩ ?_
    · intro pid sleeps
      cases sleeps.1
    · intro pid sleeps
      cases sleeps.1
    · rintro current action next ⟨inv, h, streams⟩ allowed taken
      exact ⟨inv.step streams allowed taken, _, streams.step taken⟩
  exact always.mono fun s both => both.1

/-- A reader that waits is woken up by three bytes. -/
theorem none_stranded_if_mindful_reader
    : Along PipeSys.step Mindful (fresh fun _ => 0) [.read 1 10, .write 2 (fun _ => 7) 3]
      ∧ Throughout PipeSys.step NoneStranded (fresh fun _ => 0)
          [.read 1 10, .write 2 (fun _ => 7) 3] := by
  have mindful : Along PipeSys.step Mindful (fresh fun _ => 0)
      [.read 1 10, .write 2 (fun _ => 7) 3] :=
    ⟨trivial, fun _ _ => ⟨fun many => absurd many (by decide), fun _ _ => trivial⟩⟩
  exact ⟨mindful, none_stranded_if_mindful _ _ mindful⟩

set_option maxRecDepth 20000 in
/-- A writer that was killed before it stores 513 bytes fills the pipe and returns -1, and
the reader sleeps on beside 512 bytes.
-/
theorem killed_writer_strands_reader
    : ¬ Throughout PipeSys.step NoneStranded (fresh fun _ => 0)
        [.read 1 10, .kill 2, .write 2 (fun _ => 0) 513] := by
  intro always
  have run : (exec PipeSys.step (fresh fun _ => 0)
      [.read 1 10, .kill 2, .write 2 (fun _ => 0) 513]).map
        (fun s => decide (s.ReaderSleeps 1 ∧ s.pipe.nread ≠ s.pipe.nwrite)) = some true := by
    decide +kernel
  obtain ⟨final, reached, stranded⟩ := Option.map_eq_some_iff.mp run
  obtain ⟨sleeps, unread⟩ := of_decide_eq_true stranded
  exact unread ((always.finish reached).readers 1 sleeps).1

end PipeSys

end Xv6Net
