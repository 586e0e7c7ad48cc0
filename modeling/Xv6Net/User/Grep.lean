import Mathlib.Data.List.TakeWhile

/-! `grep.c`: the matcher, and the loop that reads its input piece by piece into a buffer. The
buffer is the list of its first `m` bytes, which a zero follows, and a pointer into it is what is
there from the pointer on. A line that is not complete after a read stays in the buffer for the next
one, but only if a newline was read.
-/

namespace Xv6Net.Grep

/-- The character `\n`. -/
abbrev newline : UInt8 := 10

/-- The loop of `matchstar`, with `matchhere(re, ·)`. -/
def matchstar (here : List UInt8 → Bool) (c : UInt8) : List UInt8 → Bool
  | [] => here []
  | t :: text => here (t :: text) || (decide (t = c ∨ c = 46) && matchstar here c text)

/-- `matchhere`; 42 is `*`, 36 is `$` and 46 is the dot. -/
def matchhere : List UInt8 → List UInt8 → Bool
  | [], _ => true
  | [c], text =>
    if c = 36 then text.isEmpty
    else
      match text with
      | [] => false
      | t :: _ => decide (c = 46 ∨ c = t)
  | c :: d :: re, text =>
    if d = 42 then matchstar (matchhere re) c text
    else
      match text with
      | [] => false
      | t :: text => decide (c = 46 ∨ c = t) && matchhere (d :: re) text

/-- The loop of `match`. -/
def matchAnywhere (re : List UInt8) : List UInt8 → Bool
  | [] => matchhere re []
  | t :: text => matchhere re (t :: text) || matchAnywhere re text

/-- `match`; 94 is `^`. -/
def match_ (re text : List UInt8) : Bool :=
  match re with
  | 94 :: re => matchhere re text
  | re => matchAnywhere re text

/-- `strchr`: what is before the character, and what is behind it. -/
def strchr (c : UInt8) : List UInt8 → Option (List UInt8 × List UInt8)
  | [] => none
  | b :: s =>
    if b = 0 then none
    else if b = c then some ([], s)
    else (strchr c s).map fun r => (b :: r.1, r.2)

/-- The inner loop of `grep`, from the pointer `p` on: what it writes, and `p` at its end. -/
def grepLines (pattern : List UInt8) : Nat → List UInt8 → List (List UInt8) × List UInt8
  | 0, p => ([], p)
  | fuel + 1, p =>
    match strchr newline p with
    | none => ([], p)
    | some (line, rest) =>
      let later := grepLines pattern fuel rest
      if match_ pattern line then ((line ++ [newline]) :: later.1, later.2) else later

/-- The outer loop, with the pieces that `read` returns; it returns at least one byte and no more
than it is asked for. Where `p` is still at the start, `m` becomes 0.
-/
def grepLoop (pattern : List UInt8)
    : List UInt8 → List (List UInt8) → Option (List (List UInt8))
  | _, [] => some []
  | buf, piece :: pieces =>
    if piece ≠ [] ∧ piece.length ≤ 1024 - buf.length - 1 then
      let r := grepLines pattern 1024 (buf ++ piece)
      let buf := if r.2.length = (buf ++ piece).length then [] else r.2
      (grepLoop pattern buf pieces).map (r.1 ++ ·)
    else none

/-- `grep`: the bytes of each `write`. -/
def grep (pattern : List UInt8) (pieces : List (List UInt8)) : Option (List (List UInt8)) :=
  grepLoop pattern [] pieces

def unlines (lines : List (List UInt8)) : List UInt8 :=
  (lines.map (· ++ [newline])).flatten

/-- The matching lines, as they are in the text. -/
def selected (pattern : List UInt8) (lines : List (List UInt8)) : List (List UInt8) :=
  (lines.filter (match_ pattern)).map (· ++ [newline])

/-- A line without its newline: shorter than 1023 bytes, and without zeros. -/
def IsLine (line : List UInt8) : Prop :=
  newline ∉ line ∧ 0 ∉ line ∧ line.length < 1023

variable {fuel : Nat} {line text last t pattern : List UInt8} {ls lines : List (List UInt8)}

theorem unlines_cons (line : List UInt8) (lines : List (List UInt8))
    : unlines (line :: lines) = line ++ newline :: unlines lines := by
  simp [unlines]

theorem strchr_found (plain : newline ∉ line) (nulFree : 0 ∉ line)
    : strchr newline (line ++ newline :: t) = some (line, t) := by
  induction line with
  | nil => rfl
  | cons b line ih =>
    rw [List.mem_cons, not_or] at plain nulFree
    rw [List.cons_append, strchr, if_neg (Ne.symm nulFree.1), if_neg (Ne.symm plain.1),
      ih plain.2 nulFree.2]
    rfl

theorem strchr_missing (plain : newline ∉ text) : strchr newline text = none := by
  induction text with
  | nil => rfl
  | cons b text ih =>
    rw [List.mem_cons, not_or] at plain
    rw [strchr, if_neg (Ne.symm plain.1), ih plain.2, Option.map_none, ite_self]

/-- The inner loop goes through the complete lines. -/
theorem grepLines_eq (plain : ∀ line ∈ ls, newline ∉ line) (plain' : newline ∉ last)
    (nulFree : 0 ∉ unlines ls) (enough : ls.length < fuel)
    : grepLines pattern fuel (unlines ls ++ last) = (selected pattern ls, last) := by
  induction ls generalizing fuel with
  | nil =>
    obtain ⟨fuel, rfl⟩ := Nat.exists_eq_add_of_lt enough
    rw [grepLines, show unlines [] ++ last = last from rfl, strchr_missing plain']
    rfl
  | cons line ls ih =>
    obtain ⟨fuel, rfl⟩ := Nat.exists_eq_add_one_of_ne_zero (Nat.ne_zero_of_lt enough)
    rw [unlines_cons, List.mem_append, List.mem_cons, not_or, not_or] at nulFree
    obtain ⟨first_, others⟩ := List.forall_mem_cons.mp plain
    rw [grepLines, unlines_cons, List.append_assoc, List.cons_append, strchr_found first_ nulFree.1]
    simp only [ih others nulFree.2.2 (Nat.lt_of_succ_lt_succ enough)]
    by_cases matches_ : match_ pattern line
    · rw [if_pos matches_]
      simp [selected, matches_]
    · rw [if_neg matches_]
      simp [selected, matches_]

/-- Every text consists of complete lines and a part without a newline. -/
theorem exists_lines (text : List UInt8)
    : ∃ ls last, text = unlines ls ++ last ∧ (∀ line ∈ ls, newline ∉ line) ∧ newline ∉ last := by
  induction text with
  | nil => exact ⟨[], [], rfl, by simp, by simp⟩
  | cons c text ih =>
    obtain ⟨ls, last, rfl, plain, plain'⟩ := ih
    by_cases ends : c = newline
    · refine ⟨[] :: ls, last, by rw [unlines_cons, ends]; rfl, ?_, plain'⟩
      simpa using plain
    · cases ls with
      | nil => exact ⟨[], c :: last, rfl, by simp, by simpa [Ne.symm ends] using plain'⟩
      | cons line ls =>
        refine ⟨(c :: line) :: ls, last, by simp [unlines_cons], ?_, plain'⟩
        simpa [Ne.symm ends] using plain

theorem newline_mem_unlines : newline ∈ unlines ls ↔ ls ≠ [] := by
  cases ls <;> simp [unlines]

theorem length_le_unlines (ls : List (List UInt8)) : ls.length ≤ (unlines ls).length := by
  induction ls with
  | nil => rfl
  | cons =>
    rw [unlines_cons, List.length_append, List.length_cons, List.length_cons]
    omega

def carried (ls : List (List UInt8)) (last : List UInt8) : List UInt8 :=
  if ls = [] then [] else last

variable {buf : List UInt8} {pieces : List (List UInt8)}

/-- One pass of the outer loop. -/
theorem grepLoop_cons {piece : List UInt8}
    (parts : buf ++ piece = unlines ls ++ last) (plain : ∀ line ∈ ls, newline ∉ line)
    (plain' : newline ∉ last) (nulFree : 0 ∉ buf ++ piece)
    (possible : grepLoop pattern buf (piece :: pieces) ≠ none)
    : piece ≠ []
      ∧ grepLoop pattern buf (piece :: pieces)
        = (grepLoop pattern (carried ls last) pieces).map (selected pattern ls ++ ·) := by
  rw [grepLoop] at possible ⊢
  by_cases fits : piece ≠ [] ∧ piece.length ≤ 1024 - buf.length - 1
  · have size := congrArg List.length parts
    have some_ := List.length_pos_iff.mpr fits.1
    have few := length_le_unlines ls
    rw [parts, List.mem_append, not_or] at nulFree
    rw [List.length_append, List.length_append] at size
    rw [if_pos fits, parts, grepLines_eq plain plain' nulFree.1 (by omega)]
    refine ⟨fits.1, ?_⟩
    have start : last.length = (unlines ls ++ last).length ↔ ls = [] := by
      cases ls with
      | nil => simp [unlines]
      | cons =>
        rw [unlines_cons, List.append_assoc, List.length_append, List.cons_append,
          List.length_cons, List.length_append]
        exact iff_of_false (by omega) (List.cons_ne_nil _ _)
    simp only [carried, start]
  · rw [if_neg fits] at possible
    exact absurd rfl possible

/-- A text that consists of lines and starts with some lines goes on with the others. -/
theorem unlines_append_eq (whole : unlines ls ++ t = unlines lines)
    (plain : ∀ line ∈ ls, newline ∉ line) (plain' : ∀ line ∈ lines, newline ∉ line)
    : ∃ others, lines = ls ++ others ∧ t = unlines others := by
  induction ls generalizing lines with
  | nil => exact ⟨lines, rfl, whole⟩
  | cons line ls ih =>
    cases lines with
    | nil => simp [unlines] at whole
    | cons line' lines =>
      rw [unlines_cons, unlines_cons, List.append_assoc, List.cons_append] at whole
      obtain ⟨same, rest⟩ : line = line' ∧ unlines ls ++ t = unlines lines := by
        have cut (l m : List UInt8) (absent : newline ∉ l)
            : (l ++ newline :: m).takeWhile (· ≠ newline) = l := by
          rw [List.takeWhile_append_of_pos fun c member => by
            simpa using fun same : c = newline => absent (same ▸ member)]
          simp
        have first_ := congrArg (List.takeWhile (· ≠ newline)) whole
        rw [cut _ _ (plain line List.mem_cons_self), cut _ _ (plain' line' List.mem_cons_self)]
          at first_
        subst first_
        exact ⟨rfl, List.cons.inj (List.append_cancel_left whole) |>.2⟩
      obtain ⟨others, rfl, behind⟩ := ih rest
        (fun other member => plain other (List.mem_cons_of_mem line member))
        (fun other member => plain' other (List.mem_cons_of_mem line' member))
      exact ⟨others, by rw [same]; rfl, behind⟩

/-- If every piece has a newline, the loop writes the matching lines. -/
theorem grepLoop_eq
    (whole : buf ++ pieces.flatten = unlines lines) (plain : ∀ line ∈ lines, newline ∉ line)
    (nulFree : 0 ∉ unlines lines) (newlines : ∀ piece ∈ pieces, newline ∈ piece)
    (possible : grepLoop pattern buf pieces ≠ none) (start : newline ∉ buf)
    : grepLoop pattern buf pieces = some (selected pattern lines) := by
  induction pieces generalizing buf lines with
  | nil =>
    rw [List.flatten_nil, List.append_nil] at whole
    rw [whole, newline_mem_unlines, not_not] at start
    simp [grepLoop, start, selected]
  | cons piece pieces ih =>
    obtain ⟨ls, last, parts, plainLs, plainLast⟩ := exists_lines (buf ++ piece)
    rw [List.flatten_cons, ← List.append_assoc] at whole
    have clean : 0 ∉ buf ++ piece := fun zero => nulFree (whole ▸ List.mem_append_left _ zero)
    have member : newline ∈ unlines ls ++ last :=
      parts ▸ List.mem_append_right buf (newlines piece List.mem_cons_self)
    have some_ : ls ≠ [] :=
      newline_mem_unlines.mp ((List.mem_append.mp member).resolve_right plainLast)
    obtain ⟨-, step⟩ := grepLoop_cons parts plainLs plainLast clean possible
    rw [parts, List.append_assoc] at whole
    obtain ⟨others, rfl, rest⟩ := unlines_append_eq whole plainLs plain
    rw [rest] at whole
    rw [carried, if_neg some_] at step
    rw [step, ih rest (fun line member => plain line (List.mem_append_right ls member))
      (fun zero => nulFree (whole ▸ List.mem_append_right _ zero))
      (fun other member => newlines other (List.mem_cons_of_mem piece member))
      (fun none_ => possible (by rw [step, none_]; rfl)) plainLast]
    simp [selected]

/-- The empty pattern selects all lines. -/
theorem selected_nil (lines : List (List UInt8)) : (selected [] lines).flatten = unlines lines := by
  have all : ∀ line ∈ lines, match_ [] line = true := by
    rintro (_ | ⟨c, line⟩) - <;> simp [match_, matchAnywhere, matchhere]
  rw [selected, List.filter_eq_self.mpr all]
  rfl

/-- With the empty pattern all is written but what is lost, and a piece without a newline is. -/
theorem length_grepLoop {writes : List (List UInt8)}
    (nulFree : 0 ∉ buf ++ pieces.flatten) (start : newline ∉ buf)
    (ran : grepLoop [] buf pieces = some writes)
    : writes.flatten.length + (if ∀ piece ∈ pieces, newline ∈ piece then 0 else 1)
      ≤ buf.length + pieces.flatten.length := by
  induction pieces generalizing buf writes with
  | nil =>
    cases ran
    simp
  | cons piece pieces ih =>
    obtain ⟨ls, last, parts, plain, plain'⟩ := exists_lines (buf ++ piece)
    have size := congrArg List.length parts
    rw [List.length_append, List.length_append] at size
    rw [List.flatten_cons, ← List.append_assoc, List.mem_append, not_or] at nulFree
    have possible : grepLoop [] buf (piece :: pieces) ≠ none := by
      rw [ran]
      nofun
    obtain ⟨some_, step⟩ := grepLoop_cons parts plain plain' nulFree.1 possible
    rw [step] at ran
    obtain ⟨later, ran', rfl⟩ := Option.map_eq_some_iff.mp ran
    have positive := List.length_pos_iff.mpr some_
    rw [List.flatten_append, List.length_append, selected_nil, List.flatten_cons,
      List.length_append]
    rw [parts, List.mem_append, not_or] at nulFree
    by_cases none_ : ls = []
    · rw [carried, if_pos none_] at ran'
      have counted := ih nulFree.2 (by simp) ran'
      rw [List.length_nil] at counted
      rw [none_, unlines, List.map_nil, List.flatten_nil, List.length_nil]
      split <;> split at counted <;> omega
    · rw [carried, if_neg none_] at ran'
      have counted := ih (List.mem_append.not.mpr (not_or.mpr ⟨nulFree.1.2, nulFree.2⟩)) plain' ran'
      have member : newline ∈ buf ++ piece :=
        parts ▸ List.mem_append_left _ (newline_mem_unlines.mpr none_)
      have here : newline ∈ piece := (List.mem_append.mp member).resolve_left start
      simp only [List.forall_mem_cons, here, true_and]
      omega

/-- `grep` writes the matching lines for every pattern if and only if each piece that `read` returns
has a newline: else it forgets the start of a line.
-/
theorem grep_selects_iff (lines pieces : List (List UInt8)) (valid : ∀ line ∈ lines, IsLine line)
    (whole : pieces.flatten = unlines lines) (possible : ∀ pattern, grep pattern pieces ≠ none)
    : (∀ pattern, grep pattern pieces = some (selected pattern lines))
      ↔ ∀ piece ∈ pieces, newline ∈ piece := by
  have nulFree : 0 ∉ unlines lines := by
    simp only [unlines, List.mem_flatten, List.mem_map]
    rintro ⟨_, ⟨line, member, rfl⟩, zero⟩
    rcases List.mem_append.mp zero with inside | ends
    · exact (valid line member).2.1 inside
    · cases List.mem_singleton.mp ends
  constructor
  · intro writes
    have clean : 0 ∉ [] ++ pieces.flatten := whole ▸ nulFree
    have counted := length_grepLoop clean List.not_mem_nil (writes [])
    rw [selected_nil, whole, List.length_nil] at counted
    by_contra missing
    rw [if_neg missing] at counted
    omega
  · intro newlines pattern
    exact grepLoop_eq whole (fun line member => (valid line member).1) nulFree newlines
      (possible pattern) List.not_mem_nil

/-- The line `bc` comes in two pieces, the first of which ends the line before. -/
theorem grep_selects_iff_two
    : grep [99] [[97, 10, 98], [99, 10]] = some (selected [99] [[97], [98, 99]]) := by
  have cut (pattern : List UInt8)
      : grepLines pattern 1024 [97, 10, 98] = (selected pattern [[97]], [98]) :=
    grepLines_eq (show ∀ line ∈ [[97]], newline ∉ line by decide) (show newline ∉ [98] by decide)
      (by decide) (by decide)
  exact (grep_selects_iff [[97], [98, 99]] [[97, 10, 98], [99, 10]] (by unfold IsLine; decide) rfl
    (by simp [grep, grepLoop, cut])).mpr (by simp) [99]

/-- The line `ab` comes in two pieces and has an `a`, but it is not written. -/
theorem grep_forgets_start
    : [[97], [98, 10]].flatten = unlines [[97, 98]]
      ∧ grep [97] [[97], [98, 10]] = some []
      ∧ selected [97] [[97, 98]] = [[97, 98, 10]] := by
  decide +kernel

end Xv6Net.Grep
