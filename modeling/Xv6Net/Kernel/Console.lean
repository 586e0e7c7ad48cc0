import Xv6Net.Library.Ring
import Xv6Net.Library.Transition
import Mathlib.Data.List.DropRight

/-! Console input: `consoleintr` edits the line that is being typed, in a ring behind the bytes
that wait for `consoleread`. Both hold `cons.lock`, and `consoleread` gives it up only where it
sleeps or returns, so that each stretch between two such points is one step.
-/

namespace Xv6Net

open Library Transition Function

/-- The struct `input`; the array `buf` has `INPUT_BUF` = 128 bytes. -/
structure ConsInput where
  buf : Int → UInt8
  r : UInt32
  w : UInt32
  e : UInt32

def ctrlD : UInt8 := 0x04
def ctrlH : UInt8 := 0x08
def ctrlP : UInt8 := 0x10
def ctrlU : UInt8 := 0x15
def del : UInt8 := 0x7f
def newline : UInt8 := 0x0a
def carriageReturn : UInt8 := 0x0d

/-- What `consputc` shows for `BACKSPACE`. -/
def backspace : Nat := 0x100

/-- The byte `buf[index % INPUT_BUF]`. -/
def ConsInput.cell (input : ConsInput) (index : UInt32) : UInt8 := input.buf (index % 128).toNat

/-- `buf[e++ % INPUT_BUF] = c`. -/
def ConsInput.put (input : ConsInput) (c : UInt8) : ConsInput :=
  { input with
    buf := update input.buf (input.e % 128).toNat c
    e := input.e + 1 }

theorem erase_decreases {e w : UInt32} (other : e ≠ w) : (e - 1 - w).toNat < (e - w).toNat := by
  have differ : e.toNat ≠ w.toNat := fun same => other (UInt32.toNat_inj.mp same)
  have := e.toNat_lt
  have := w.toNat_lt
  simp only [UInt32.toNat_sub, UInt32.reduceToNat]
  omega

/-- The loop for `C('U')`, with how many characters it takes off the screen. -/
def ConsInput.killLine (input : ConsInput) : ConsInput × Nat :=
  if input.e ≠ input.w ∧ input.cell (input.e - 1) ≠ newline then
    let (input, count) := killLine { input with e := input.e - 1 }
    (input, count + 1)
  else
    (input, 0)
termination_by (input.e - input.w).toNat
decreasing_by exact erase_decreases (by simp_all)

/-- Where a process is: outside of `consoleread`, or in it with `n` of `target` bytes left. -/
inductive ReadPc where
  | outside
  | reading (target n : Nat)

/-- A process; in `consoleread` it sleeps on `&input.r`. -/
structure Reader where
  pc : ReadPc
  sleeping : Bool
  killed : Bool

/-- The input, the processes that read it and what was shown; then what the last stretch of
`consoleread` has stored at `dst`, and the value if it was the last one of its call.
-/
structure Console where
  input : ConsInput
  readers : Nat → Reader
  screen : List Nat
  stored : List UInt8
  result : Option (Nat × Int)

namespace Console

/-- `wakeup(&input.r)`. -/
def wakeup (s : Console) : Console :=
  { s with readers := fun pid => { s.readers pid with sleeping := false } }

/-- The body of the loop of `consoleintr`. The listing of processes for `C('P')` does not touch the
input.
-/
def typed (s : Console) (c : UInt8) : Console :=
  if c = ctrlP then
    s
  else if c = ctrlU then
    let (input, count) := s.input.killLine
    { s with input, screen := s.screen ++ List.replicate count backspace }
  else if c = ctrlH ∨ c = del then
    if s.input.e ≠ s.input.w then
      { s with
        input := { s.input with e := s.input.e - 1 }
        screen := s.screen ++ [backspace] }
    else
      s
  else if c ≠ 0 ∧ s.input.e - s.input.r < 128 then
    let c := if c = carriageReturn then newline else c
    let s := { s with input := s.input.put c, screen := s.screen ++ [c.toNat] }
    if c = newline ∨ c = ctrlD ∨ s.input.e = s.input.r + 128 then
      wakeup { s with input := { s.input with w := s.input.e } }
    else s
  else
    s

/-- The interrupt handler, with what `getc` returns until it has no more. -/
def consoleintr (s : Console) (cs : List UInt8) : Console := cs.foldl typed s

def sleep (s : Console) (pid target n : Nat) : Console :=
  { s with
    readers := update s.readers pid
      { s.readers pid with pc := .reading target n, sleeping := true }
    stored := []
    result := none }

def return_ (s : Console) (pid : Nat) (value : Int) : Console :=
  { s with
    readers := update s.readers pid
      { s.readers pid with pc := .outside, sleeping := false }
    stored := []
    result := some (pid, value) }

/-- `*dst++ = c`, before the rest of the stretch. -/
def store (c : UInt8) (s : Console) : Console := { s with stored := c :: s.stored }

/-- The loop of `consoleread` with `n` bytes left, as long as it has the lock. -/
def readLoop (s : Console) (pid target : Nat) : Nat → Console
  | 0 => s.return_ pid target
  | n + 1 =>
    if s.input.r = s.input.w then
      if (s.readers pid).killed then s.return_ pid (-1) else s.sleep pid target (n + 1)
    else
      let c := s.input.cell s.input.r
      let s : Console := { s with input := { s.input with r := s.input.r + 1 } }
      if c = ctrlD then
        -- the next call shall get an end of file
        let s : Console :=
          if n + 1 < target then { s with input := { s.input with r := s.input.r - 1 } } else s
        s.return_ pid (target - (n + 1 : Nat))
      else
        store c (if c = newline then s.return_ pid (target - n) else s.readLoop pid target n)

def consoleread (s : Console) (pid : Nat) (n : Int) : Console :=
  s.readLoop pid n.toNat n.toNat

def kill (s : Console) (pid : Nat) : Console :=
  { s with
    readers := update s.readers pid
      { s.readers pid with killed := true, sleeping := false } }

end Console

/-- Characters arrive; a process calls `consoleread`, goes on with it after a wakeup, or is killed.
-/
inductive ConsoleAction where
  | intr (cs : List UInt8)
  | read (pid : Nat) (n : Int)
  | resume (pid : Nat)
  | kill (pid : Nat)

def Console.step (s : Console) : ConsoleAction → Option Console
  | .intr cs => some (s.consoleintr cs)
  | .read pid n =>
    match (s.readers pid).pc with
    | .outside => some (s.consoleread pid n)
    | .reading _ _ => none
  | .resume pid =>
    match (s.readers pid).pc with
    | .outside => none
    | .reading target n =>
      if (s.readers pid).sleeping then none else some (s.readLoop pid target n)
  | .kill pid => some (s.kill pid)

def Console.boot (buf : Int → UInt8) : Console :=
  { input := { buf, r := 0, w := 0, e := 0 }
    readers := fun _ => { pc := .outside, sleeping := false, killed := false }
    screen := []
    stored := []
    result := none }

/-- The bytes from an index to `w`. -/
def ConsInput.upTo (input : ConsInput) (start : UInt32) : List UInt8 :=
  (List.range (input.w - start).toNat).map fun k => input.cell (start + UInt32.ofNat k)

/-- The bytes that `w` has passed, and what the readers have received: the bytes stored for them,
and an end of file for each call that was to read some and returned 0. For each process, what its
last call was to read and how many bytes that call has stored.
-/
structure ConsoleLog where
  committed : List UInt8
  received : List (Option UInt8)
  asked : Nat → Int
  count : Nat → Nat

def ConsoleLog.read (h : ConsoleLog) (pid : Nat) (next : Console) : ConsoleLog :=
  let eof := if next.result = some (pid, 0) ∧ 0 < h.asked pid then [none] else []
  { h with
    received := h.received ++ next.stored.map some ++ eof
    count := update h.count pid (h.count pid + next.stored.length) }

/-- The history of the console, from the outside. -/
def Console.note (s : Console) (action : ConsoleAction) (h : ConsoleLog) : ConsoleLog :=
  match s.step action, action with
  | some next, .intr _ => { h with committed := h.committed ++ next.input.upTo s.input.w }
  | some next, .read pid n =>
    { h with asked := update h.asked pid n, count := update h.count pid 0 }.read pid next
  | some next, .resume pid => h.read pid next
  | _, _ => h

/-- What the ring stands for: the bytes that were read, those that wait for a reader, and the line
that is being typed.
-/
structure Tty where
  consumed : List UInt8
  waiting : List UInt8
  line : List UInt8

namespace Tty

def commit (t : Tty) : Tty := { t with waiting := t.waiting ++ t.line, line := [] }

def typed (t : Tty) (c : UInt8) : Tty :=
  if c = ctrlP then
    t
  else if c = ctrlU then
    { t with line := t.line.rdropWhile (· ≠ newline) }
  else if c = ctrlH ∨ c = del then
    { t with line := t.line.dropLast }
  else if c ≠ 0 ∧ t.waiting.length + t.line.length < 128 then
    let c := if c = carriageReturn then newline else c
    let t := { t with line := t.line ++ [c] }
    if c = newline ∨ c = ctrlD ∨ t.waiting.length + t.line.length = 128 then t.commit else t
  else
    t

end Tty

/-- The ring shows the text. The indexes count all bytes, modulo 2^32. -/
structure ConsInput.Shows (input : ConsInput) (t : Tty) : Prop where
  r : input.r.toNat = t.consumed.length % 2 ^ 32
  w : input.w.toNat = (t.consumed.length + t.waiting.length) % 2 ^ 32
  e : input.e.toNat = (t.consumed.length + t.waiting.length + t.line.length) % 2 ^ 32
  few : t.waiting.length + t.line.length ≤ 128
  holds : Ring.Holds 128 input.buf t.consumed.length (t.waiting ++ t.line)

namespace ConsInput.Shows

variable {input : ConsInput} {t : Tty}

section

variable (h : input.Shows t)
include h

/-- The differences of the indices, also when they have wrapped. -/
theorem distances
    : (input.w - input.r).toNat = t.waiting.length
      ∧ (input.e - input.r).toNat = t.waiting.length + t.line.length
      ∧ (input.e - input.w).toNat = t.line.length := by
  obtain ⟨r, w, e, few, -⟩ := h
  simp only [UInt32.toNat_sub, r, w, e]
  omega

/-- The bytes between `r` and `e` are where the indices say. -/
theorem cell {index : UInt32} {k : Nat} (there : index.toNat = (t.consumed.length + k) % 2 ^ 32)
    (inside : k < (t.waiting ++ t.line).length)
    : input.cell index = (t.waiting ++ t.line)[k] := by
  have place : (index % 128).toNat = (t.consumed.length + k) % 128 :=
    Ring.counter_mod there (by decide)
  rw [ConsInput.cell, place]
  exact h.holds k inside

theorem upTo_append {before added : List UInt8} {start : UInt32}
    (waiting : t.waiting = before ++ added)
    (there : start.toNat = (t.consumed.length + before.length) % 2 ^ 32)
    : input.upTo start = added := by
  have length : t.waiting.length = before.length + added.length := by
    rw [waiting, List.length_append]
  have few := h.few
  have count : (input.w - start).toNat = added.length := by
    rw [UInt32.toNat_sub, h.w, there]
    omega
  apply List.ext_getElem
  · rw [upTo, List.length_map, List.length_range, count]
  · intro k inside inside'
    have place : (start + UInt32.ofNat k).toNat
        = (t.consumed.length + (before.length + k)) % 2 ^ 32 := by
      rw [UInt32.toNat_add, UInt32.toNat_ofNat', there]
      omega
    simp only [upTo, List.getElem_map, List.getElem_range]
    rw [h.cell place (by rw [List.length_append]; omega)]
    simp [waiting, inside']

theorem line_nil_iff : t.line = [] ↔ input.e = input.w := by
  have few := h.few
  rw [← UInt32.toNat_inj, h.e, h.w, ← List.length_eq_zero_iff]
  omega

/-- A backspace takes one byte of the line. -/
theorem erase (some_ : input.e ≠ input.w)
    : ConsInput.Shows { input with e := input.e - 1 } { t with line := t.line.dropLast } := by
  have longer : t.line ≠ [] := fun empty => some_ (h.line_nil_iff.mp empty)
  have length : t.line.length = t.line.dropLast.length + 1 := by
    rw [List.length_dropLast]
    have := List.length_pos_iff.mpr longer
    omega
  obtain ⟨r, w, e, few, holds⟩ := h
  refine ⟨r, w, ?_, ?_, ?_⟩
  · simp only [UInt32.toNat_sub, UInt32.reduceToNat, e, length]
    omega
  · simp only
    omega
  · rw [← List.dropLast_append_getLast longer, ← List.append_assoc] at holds
    exact holds.front

theorem put (room : t.waiting.length + t.line.length < 128) (c : UInt8)
    : (input.put c).Shows { t with line := t.line ++ [c] } := by
  have cell : (input.e % 128).toNat
      = (t.consumed.length + t.waiting.length + t.line.length) % 128 :=
    Ring.counter_mod h.e (by decide)
  obtain ⟨r, w, e, few, holds⟩ := h
  have stores : (input.put c).buf
      = Ring.write 128 input.buf (t.consumed.length + (t.waiting ++ t.line).length) [c] := by
    rw [Ring.write_singleton _ _ _ (by decide), List.length_append, ← Nat.add_assoc, ← cell]
    rfl
  refine ⟨r, w, ?_, ?_, ?_⟩
  · simp only [ConsInput.put, UInt32.toNat_add, e, UInt32.reduceToNat, List.length_append,
      List.length_singleton]
    omega
  · simp only [List.length_append, List.length_singleton]
    omega
  · rw [stores]
    simp only
    rw [← List.append_assoc]
    refine (holds.write [c] (t.waiting ++ t.line).length le_rfl ?_).append
      (Ring.holds_write _ _ ?_)
    · rw [List.length_append, List.length_singleton]
      omega
    · exact Nat.le_of_ble_eq_true rfl

theorem commit
    : ConsInput.Shows { input with w := input.e } t.commit := by
  obtain ⟨r, w, e, few, holds⟩ := h
  refine ⟨r, ?_, ?_, ?_, ?_⟩
  · simp only [Tty.commit, List.length_append, e, Nat.add_assoc]
  · simp only [Tty.commit, List.length_append, List.length_nil, e, Nat.add_assoc, Nat.add_zero]
  · simp only [Tty.commit, List.length_append, List.length_nil]
    omega
  · simp only [Tty.commit, List.append_nil]
    exact holds

variable {c : UInt8} {rest : List UInt8}

theorem cell_last {front : List UInt8} (line : t.line = front ++ [c])
    : input.cell (input.e - 1) = c := by
  have length : t.line.length = front.length + 1 := by
    rw [line, List.length_append, List.length_singleton]
  have there : (input.e - 1).toNat
      = (t.consumed.length + (t.waiting.length + front.length)) % 2 ^ 32 := by
    simp only [UInt32.toNat_sub, UInt32.reduceToNat, h.e, length]
    omega
  rw [h.cell there (by rw [List.length_append]; omega), List.getElem_append_right (by omega)]
  simp [line]

/-- The loop for a whole line. By its own recursion. -/
theorem killLine
    : input.killLine.1.Shows { t with line := t.line.rdropWhile (· ≠ newline) } := by
  fun_induction ConsInput.killLine input generalizing t with
  | case1 input more rest count same ih =>
    rw [same] at ih
    have longer : t.line ≠ [] := fun empty => more.1 (h.line_nil_iff.mp empty)
    have line := (List.dropLast_append_getLast longer).symm
    rw [line, List.rdropWhile_concat_pos]
    · exact ih (h.erase more.1)
    · rw [← h.cell_last line]
      exact decide_eq_true more.2
  | case2 input done =>
    rcases List.eq_nil_or_concat t.line with empty | ⟨front, c, line⟩
    · rw [empty, List.rdropWhile_nil, ← empty]
      exact h
    · rw [List.concat_eq_append] at line
      have other : input.e ≠ input.w := by
        rw [ne_eq, ← h.line_nil_iff, line]
        exact List.concat_ne_nil c front
      have stop : c = newline := by
        rw [← h.cell_last line]
        by_contra different
        exact done ⟨other, different⟩
      rw [line, List.rdropWhile_concat_neg, ← line]
      · exact h
      · simp [stop]

theorem waiting_nil_iff : t.waiting = [] ↔ input.r = input.w := by
  have few := h.few
  rw [← UInt32.toNat_inj, h.r, h.w, ← List.length_eq_zero_iff]
  omega

theorem cell_first (waiting : t.waiting = c :: rest)
    : input.cell input.r = c := by
  rw [h.cell (k := 0) h.r (by simp [waiting])]
  simp [waiting]

theorem cell_waiting {k : UInt32} (inside : k.toNat < t.waiting.length)
    : input.cell (input.r + k) = t.waiting[k.toNat] := by
  have there : (input.r + k).toNat = (t.consumed.length + k.toNat) % 2 ^ 32 := by
    rw [UInt32.toNat_add, h.r]
    omega
  rw [h.cell there (by rw [List.length_append]; omega), List.getElem_append_left inside]

/-- `consoleread` takes the first byte that waits. -/
theorem take (waiting : t.waiting = c :: rest)
    : ConsInput.Shows { input with r := input.r + 1 }
        { t with consumed := t.consumed ++ [c], waiting := rest } := by
  have length : t.waiting.length = rest.length + 1 := by rw [waiting, List.length_cons]
  obtain ⟨r, w, e, few, holds⟩ := h
  rw [waiting] at holds
  refine ⟨?_, ?_, ?_, ?_, ?_⟩
  · simp only [UInt32.toNat_add, UInt32.reduceToNat, r, List.length_append, List.length_singleton]
    omega
  · simp only [w, length, List.length_append, List.length_singleton]
    omega
  · simp only [e, length, List.length_append, List.length_singleton]
    omega
  · simp only
    omega
  · simp only [List.length_append, List.length_singleton]
    exact holds.tail

end

end ConsInput.Shows

def receipt (c : UInt8) : Option UInt8 := if c = ctrlD then none else some c

namespace Console

variable {s next : Console} {t : Tty} {h : ConsoleLog} {pid target : Nat}

/-- A key does to the buffer what it does to the terminal. -/
theorem typed_shows (shows_ : s.input.Shows t) (c : UInt8)
    : (s.typed c).input.Shows (t.typed c) := by
  obtain ⟨-, used, -⟩ := shows_.distances
  unfold Console.typed Tty.typed
  split
  · exact shows_
  split
  · exact shows_.killLine
  split
  · split
    · rename_i some_
      exact shows_.erase some_
    · rename_i empty
      have line := shows_.line_nil_iff.mpr (not_not.mp empty)
      rw [line, List.dropLast_nil, ← line]
      exact shows_
  have room : (c ≠ 0 ∧ s.input.e - s.input.r < 128)
      ↔ (c ≠ 0 ∧ t.waiting.length + t.line.length < 128) := by
    rw [← used, UInt32.lt_iff_toNat_lt]
    rfl
  by_cases allowed : c ≠ 0 ∧ t.waiting.length + t.line.length < 128
  · rw [if_pos (room.mpr allowed), if_pos allowed]
    simp only
    generalize (if c = carriageReturn then newline else c) = c'
    have next := shows_.put allowed.2 c'
    have full : (s.input.put c').e = (s.input.put c').r + 128
        ↔ t.waiting.length + (t.line ++ [c']).length = 128 := by
      have few := next.few
      rw [← UInt32.toNat_inj, next.e, UInt32.toNat_add, next.r]
      simp only [UInt32.reduceToNat] at few ⊢
      omega
    by_cases ends : c' = newline ∨ c' = ctrlD ∨ t.waiting.length + (t.line ++ [c']).length = 128
    · rw [if_pos (by rw [full]; exact ends), if_pos ends]
      exact next.commit
    · rw [if_neg (by rw [full]; exact ends), if_neg ends]
      exact next
  · rw [if_neg (fun now => allowed (room.mp now)), if_neg allowed]
    exact shows_

/-- What is typed concerns no process that reads. -/
theorem typed_readers (s : Console) (c : UInt8) (pid : Nat)
    : ((s.typed c).readers pid).pc = (s.readers pid).pc
      ∧ ((s.typed c).readers pid).killed = (s.readers pid).killed
      ∧ (s.typed c).result = s.result := by
  unfold typed
  grind [wakeup]

theorem typed_grows (t : Tty) (c : UInt8)
    : (t.typed c).consumed = t.consumed ∧ t.waiting <+: (t.typed c).waiting := by
  unfold Tty.typed
  grind [Tty.commit]

/-- The handler works on the line and adds to the bytes that wait. -/
theorem consoleintr_shows (shows_ : s.input.Shows t) (cs : List UInt8)
    : ∃ t', (s.consoleintr cs).input.Shows t' ∧ t'.consumed = t.consumed
      ∧ t.waiting <+: t'.waiting := by
  induction cs generalizing s t with
  | nil => exact ⟨t, shows_, rfl, List.prefix_rfl⟩
  | cons c rest ih =>
    obtain ⟨same, grown⟩ := typed_grows t c
    obtain ⟨t', after, same', grown'⟩ := ih (typed_shows shows_ c)
    exact ⟨t', after, same'.trans same, grown.trans grown'⟩

theorem consoleintr_readers (s : Console) (cs : List UInt8) (pid : Nat)
    : ((s.consoleintr cs).readers pid).pc = (s.readers pid).pc
      ∧ ((s.consoleintr cs).readers pid).killed = (s.readers pid).killed
      ∧ (s.consoleintr cs).result = s.result := by
  induction cs generalizing s with
  | nil => exact ⟨rfl, rfl, rfl⟩
  | cons c rest ih =>
    obtain ⟨pc, killed, result⟩ := ih (s.typed c)
    obtain ⟨pc', killed', result'⟩ := s.typed_readers c pid
    exact ⟨pc.trans pc', killed.trans killed', result.trans result'⟩

@[grind =]
theorem return_readers (s : Console) (value : Int) (q : Nat)
    : (s.return_ pid value).readers q
      = if q = pid then { s.readers pid with pc := .outside, sleeping := false }
        else s.readers q :=
  update_apply ..

@[grind =]
theorem sleep_readers (s : Console) (n q : Nat)
    : (s.sleep pid target n).readers q
      = if q = pid then { s.readers pid with pc := .reading target n, sleeping := true }
        else s.readers q :=
  update_apply ..

/-- What a stretch of `consoleread` does for a call that has stored `base` bytes before: it takes
what it stores from the bytes that wait, and its value is the number of bytes of the call.
-/
structure Stretch (s next : Console) (t : Tty) (pid target base : Nat) : Prop where
  taken : ∃ t', next.input.Shows t' ∧ t'.consumed ++ t'.waiting = t.consumed ++ t.waiting
    ∧ t'.consumed.map receipt = t.consumed.map receipt ++ next.stored.map some
      ++ if next.result = some (pid, 0) ∧ 0 < target then [none] else []
  others : ∀ other, other ≠ pid → next.readers other = s.readers other
  killed : (next.readers pid).killed = (s.readers pid).killed
  told : ∀ value, next.result = some (pid, value)
    → value = (base + next.stored.length : Nat) ∨ value = -1 ∧ (s.readers pid).killed = true
  mine : ∀ other value, next.result = some (other, value) → other = pid
  left : ∀ target' n, (next.readers pid).pc = .reading target' n
    → target' = target ∧ base + next.stored.length + n = target

theorem Stretch.store {base : Nat} {c : UInt8} {rest : List UInt8} (waiting : t.waiting = c :: rest)
    (data : c ≠ ctrlD)
    (h : Stretch { s with input := { s.input with r := s.input.r + 1 } } next
      { t with consumed := t.consumed ++ [c], waiting := rest } pid target (base + 1))
    : Stretch s (store c next) t pid target base := by
  constructor <;> grind [Stretch, Console.store, receipt]

/-- The loop of `consoleread`, up to a newline or the end of the bytes. -/
theorem readLoop_stretch (shows_ : s.input.Shows t) {base n : Nat} (left : base + n = target)
    : Stretch s (s.readLoop pid target n) t pid target base := by
  induction n generalizing s t base with
  | zero =>
    constructor <;> grind [readLoop, return_]
  | succ n ih =>
    rw [readLoop]
    split
    · split
      · constructor <;> grind [return_]
      · constructor <;> grind [Console.sleep]
    · rename_i some_
      obtain ⟨c, rest, waiting⟩ := List.exists_cons_of_ne_nil
        (fun empty => some_ (shows_.waiting_nil_iff.mp empty))
      have after := shows_.take waiting
      rw [shows_.cell_first waiting]
      simp only
      split
      · rename_i eof
        split
        · -- the byte is put back
          rw [UInt32.add_sub_cancel]
          change Stretch s (s.return_ pid _) t pid target base
          constructor <;> grind [return_]
        · constructor <;> grind [return_, receipt]
      · rename_i data
        refine Stretch.store waiting data ?_
        split
        · constructor <;> grind [return_]
        · exact ih after (by omega)

/-- A call returns how many bytes it has stored, or -1 if the process was killed. -/
def Told (s : Console) (h : ConsoleLog) : Prop :=
  ∀ pid value, s.result = some (pid, value)
    → value = h.count pid ∨ value = -1 ∧ (s.readers pid).killed = true

structure IsAt (s : Console) (h : ConsoleLog) (t : Tty) : Prop where
  shows_ : s.input.Shows t
  committed : h.committed = t.consumed ++ t.waiting
  received : h.received = t.consumed.map receipt
  calls : ∀ pid target n, (s.readers pid).pc = .reading target n
    → h.count pid + n = target ∧ (h.asked pid).toNat = target

theorem IsAt.consoleintr (inv : s.IsAt h t) (cs : List UInt8)
    : ∃ t', (s.consoleintr cs).IsAt
        { h with committed := h.committed ++ (s.consoleintr cs).input.upTo s.input.w } t' := by
  obtain ⟨t', after, same, added, grown⟩ := consoleintr_shows inv.shows_ cs
  have passed := after.upTo_append grown.symm (inv.shows_.w.trans (by rw [same]))
  refine ⟨t', after, ?_, by rw [same, inv.received], fun pid => ?_⟩
  · rw [passed, inv.committed, same, ← grown, List.append_assoc]
  · rw [(s.consoleintr_readers cs pid).1]
    exact inv.calls pid

/-- A stretch of `consoleread` adds what it has stored to the history. -/
theorem IsAt.read (target : Nat) (inv : s.IsAt h t) (asked : (h.asked pid).toNat = target)
    (stretch : Stretch s next t pid target (h.count pid))
    : (∃ t', next.IsAt (h.read pid next) t') ∧ next.Told (h.read pid next) := by
  obtain ⟨t', after, committed, received⟩ := stretch.taken
  refine ⟨⟨t', after, ?_, ?_, fun other target' n pc => ?_⟩, fun other value result => ?_⟩
  · exact inv.committed.trans committed.symm
  · have some_ : 0 < h.asked pid ↔ 0 < target := by omega
    simp only [received, ← inv.received, ConsoleLog.read, some_]
  · have before := inv.calls other target' n
    have others := stretch.others other
    have left := stretch.left target' n
    simp only [ConsoleLog.read, update_apply]
    grind
  · obtain rfl := stretch.mine other value result
    simp only [ConsoleLog.read, stretch.killed, update_self]
    exact stretch.told value result

/-- Every step keeps the terminal beside the buffer. -/
theorem IsAt.step {action : ConsoleAction} (inv : s.IsAt h t) (told : s.Told h)
    (taken : s.step action = some next)
    : (∃ t', next.IsAt (s.note action h) t') ∧ next.Told (s.note action h) := by
  unfold note
  rw [taken]
  cases action with
  | intr cs =>
    cases taken
    refine ⟨inv.consoleintr cs, fun pid value result => ?_⟩
    obtain ⟨-, killed, same⟩ := s.consoleintr_readers cs pid
    rw [killed]
    exact told pid value (same.symm.trans result)
  | read pid n =>
    simp only [Console.step] at taken
    split at taken
    · rename_i outside
      cases taken
      refine IsAt.read (t := t) n.toNat
        ⟨inv.shows_, inv.committed, inv.received, fun other target' left reading => ?_⟩ ?_ ?_
      · have differs : other ≠ pid := fun same => by simp [same, outside] at reading
        simpa only [update_of_ne differs] using inv.calls other target' left reading
      · simp only [update_self]
      · simp only [update_self]
        exact readLoop_stretch inv.shows_ (Nat.zero_add _)
    · cases taken
  | resume pid =>
    simp only [Console.step] at taken
    split at taken
    · cases taken
    · rename_i target n reading
      obtain ⟨count, asked⟩ := inv.calls pid target n reading
      split at taken
      · cases taken
      · cases taken
        exact inv.read _ asked (readLoop_stretch inv.shows_ count)
  | kill pid =>
    cases taken
    refine ⟨⟨t, inv.shows_, inv.committed, inv.received, ?_⟩, ?_⟩
    · have calls := inv.calls
      simp only [Console.kill, update_apply]
      grind
    · simp only [Told, Console.kill, update_apply] at told ⊢
      grind

structure Disciplined (current : Console × ConsoleLog) : Prop where
  /-- `r`, `w`, `e` and `r + INPUT_BUF` follow each other, as distances modulo 2^32. -/
  order : current.1.input.w - current.1.input.r ≤ current.1.input.e - current.1.input.r
    ∧ current.1.input.e - current.1.input.r ≤ 128
  /-- Whatever is typed, the bytes from `r` to `w` stay, and `w` does not go back. -/
  edits : ∀ cs, (current.1.consoleintr cs).input.r = current.1.input.r
    ∧ current.1.input.w - current.1.input.r
      ≤ (current.1.consoleintr cs).input.w - current.1.input.r
    ∧ ∀ k < current.1.input.w - current.1.input.r,
      (current.1.consoleintr cs).input.cell (current.1.input.r + k)
        = current.1.input.cell (current.1.input.r + k)
  /-- Readers have received the committed bytes up to `r`, each once, with an end of file for each
  `C('D')`. -/
  reads : ∃ consumed unread, current.2.committed = consumed ++ unread
    ∧ unread.length = (current.1.input.w - current.1.input.r).toNat
    ∧ current.2.received = consumed.map receipt
  told : current.1.Told current.2

theorem IsAt.disciplined (inv : s.IsAt h t) (told : s.Told h) : Disciplined (s, h) := by
  obtain ⟨unread, used, -⟩ := inv.shows_.distances
  have few := inv.shows_.few
  refine ⟨⟨?_, ?_⟩, ?_, ⟨t.consumed, t.waiting, inv.committed, unread.symm, inv.received⟩, told⟩
  · rw [UInt32.le_iff_toNat_le, unread, used]
    omega
  · rw [UInt32.le_iff_toNat_le, used]
    exact few
  · intro cs
    obtain ⟨t', after, same, grown⟩ := consoleintr_shows inv.shows_ cs
    have start : (s.consoleintr cs).input.r = s.input.r := by
      rw [← UInt32.toNat_inj, after.r, inv.shows_.r, same]
    refine ⟨start, ?_, ?_⟩
    · rw [UInt32.le_iff_toNat_le, unread, ← start, after.distances.1]
      exact grown.length_le
    · intro k inside
      rw [UInt32.lt_iff_toNat_lt, unread] at inside
      simp only
      rw [inv.shows_.cell_waiting inside, ← start,
        after.cell_waiting (inside.trans_le grown.length_le)]
      exact (grown.getElem inside).symm

end Console

end Xv6Net
