import Xv6Net.Fs.Lookup

/-! The elements of a path: what `skipelem` leaves in the buffer `name`, and what the loop of
`namex` gets from a path by calling it until it returns 0.
-/

namespace Xv6Net.Fs

/-- The element is copied to the buffer; a zero follows it where there is room. -/
def storeElem (elem name : List UInt8) : List UInt8 :=
  if elem.length ≥ dirSiz then elem.take dirSiz ++ name.drop dirSiz
  else elem ++ 0 :: name.drop (elem.length + 1)

/-- `skipelem` with the buffer `name`: the rest of the path and the buffer. -/
def skipelemInto (path name : List UInt8) : Option (List UInt8 × List UInt8) :=
  let s := path.dropWhile (· = slash)
  if s = [] then none
  else
    let rest := s.dropWhile (· ≠ slash)
    some (rest.dropWhile (· = slash), storeElem (s.takeWhile (· ≠ slash)) name)

/-- The parts of a path between slashes that are not empty. -/
def components (path : List UInt8) : List (List UInt8) :=
  (path.splitOn slash).filter (· ≠ [])

variable {path rest elem name name' : List UInt8}

theorem components_slash (path : List UInt8) : components (slash :: path) = components path := by
  simp [components, List.splitOn, List.splitOnP_cons_eq_if_modifyHead]

theorem components_dropWhile (path : List UInt8)
    : components (path.dropWhile (· = slash)) = components path := by
  induction path with
  | nil => rfl
  | cons c path ih =>
    by_cases here : c = slash
    · rw [here, List.dropWhile_cons_of_pos (by simp), ih, components_slash]
    · rw [List.dropWhile_cons_of_neg (by simpa using here)]

theorem components_append (some_ : elem ≠ []) (plain : slash ∉ elem)
    (ends : rest = [] ∨ rest.head? = some slash)
    : components (elem ++ rest) = elem :: components rest := by
  have apart : ∀ c ∈ elem, (c == slash) = false := by
    intro c member
    exact beq_eq_false_iff_ne.mpr fun same => plain (same ▸ member)
  rcases ends with rfl | first_
  · rw [List.append_nil, components, List.splitOn, List.splitOnP_eq_singleton apart]
    simp [some_, components]
  · obtain ⟨more, rfl⟩ : ∃ more, rest = slash :: more := by
      cases rest with
      | nil => cases first_
      | cons c more => exact ⟨more, by rw [Option.some.inj first_]⟩
    rw [components_slash, components, List.splitOn,
      List.splitOnP_append_cons_of_forall_mem apart slash (by simp),
      List.filter_cons_of_pos (by simpa using some_)]
    rfl

theorem head_of_dropWhile {p : UInt8 → Bool} {c : UInt8} (begins : path.dropWhile p = c :: rest)
    : p c = false := by
  have head := List.head?_dropWhile_not p path
  rw [begins] at head
  exact head

/-- What one call takes from the path. -/
theorem skipelemInto_eq_some (found : skipelemInto path name = some (rest, name'))
    : ∃ elem, components path = elem :: components rest ∧ name' = storeElem elem name
        ∧ (∀ c ∈ elem, c ∈ path) ∧ (∀ c ∈ rest, c ∈ path) ∧ rest.head? ≠ some slash
        ∧ rest.length < path.length := by
  have shorter := (List.dropWhile_suffix (l := path) (· = slash)).length_le
  have within := (List.dropWhile_suffix (l := path) (· = slash)).subset
  have whole := components_dropWhile path
  rw [skipelemInto] at found
  cases begins : path.dropWhile (· = slash) with
  | nil => simp [begins] at found
  | cons c more =>
    have first_ : c ≠ slash := by simpa using head_of_dropWhile begins
    rw [begins] at found shorter within whole
    simp only [reduceCtorEq, if_false, Option.some.injEq, Prod.mk.injEq] at found
    obtain ⟨rest_eq, name_eq⟩ := found
    have taken : (c :: more).takeWhile (· ≠ slash) = c :: more.takeWhile (· ≠ slash) :=
      List.takeWhile_cons_of_pos (by simpa using first_)
    have left : (c :: more).dropWhile (· ≠ slash) = more.dropWhile (· ≠ slash) :=
      List.dropWhile_cons_of_pos (by simpa using first_)
    have split := List.takeWhile_append_dropWhile (p := (· ≠ slash)) (l := c :: more)
    have behind := (List.dropWhile_suffix (l := more) (· ≠ slash)).length_le
    have last := (List.dropWhile_suffix (l := more.dropWhile (· ≠ slash)) (· = slash)).length_le
    rw [left] at rest_eq split
    refine ⟨(c :: more).takeWhile (· ≠ slash), ?_, name_eq.symm, ?_, ?_, ?_, ?_⟩
    · rw [← whole, ← rest_eq, components_dropWhile]
      nth_rewrite 1 [← split]
      refine components_append (taken ▸ List.cons_ne_nil _ _) (fun member => ?_) ?_
      · simpa using List.mem_takeWhile_imp member
      · cases stops : more.dropWhile (· ≠ slash) with
        | nil => exact Or.inl rfl
        | cons =>
          exact Or.inr (congrArg some (by simpa using head_of_dropWhile stops))
    · intro d member
      exact within ((List.takeWhile_prefix _).subset member)
    · intro d member
      rw [← rest_eq] at member
      exact within (List.mem_cons_of_mem c ((List.dropWhile_suffix _).subset
        ((List.dropWhile_suffix _).subset member)))
    · rw [← rest_eq]
      cases stops : (more.dropWhile (· ≠ slash)).dropWhile (· = slash) with
      | nil => simp
      | cons =>
        simpa using head_of_dropWhile stops
    · rw [← rest_eq]
      rw [List.length_cons] at shorter
      omega

theorem skipelemInto_eq_none (nothing : skipelemInto path name = none) : components path = [] := by
  rw [skipelemInto] at nothing
  simp only [ite_eq_left_iff, reduceCtorEq, imp_false, not_not] at nothing
  rw [← components_dropWhile, nothing]
  rfl

/-- Calls of `skipelem` until it returns 0, with the rest of the path and the buffer after each. -/
def pathElements (path name : List UInt8) : List (List UInt8 × List UInt8) :=
  match _found : skipelemInto path name with
  | none => []
  | some (rest, name') => (rest, name') :: pathElements rest name'
termination_by path.length
decreasing_by
  obtain ⟨_, _, _, _, _, _, shorter⟩ := skipelemInto_eq_some _found
  exact shorter

/-- The buffer holds the component, cut to `DIRSIZ` bytes, and a zero only where it is shorter. -/
def HoldsElem (name component : List UInt8) : Prop :=
  upToZero dirSiz name = component.take dirSiz ∧ (0 ∈ name ↔ component.length < dirSiz)

theorem length_storeElem (room : name.length = dirSiz)
    : (storeElem elem name).length = dirSiz := by
  rw [storeElem]
  split
  · simp [room]
    omega
  · simp [room]
    omega

theorem holdsElem_storeElem (room : name.length = dirSiz) (nulFree : 0 ∉ elem)
    : HoldsElem (storeElem elem name) elem := by
  have plain : ∀ c ∈ elem, decide (c ≠ 0) = true := by
    intro c member
    simpa using fun zero : c = 0 => nulFree (zero ▸ member)
  rw [HoldsElem, storeElem]
  split
  · rename_i long
    rw [List.drop_eq_nil_of_le room.le, List.append_nil]
    refine ⟨?_, iff_of_false (fun zero => nulFree (List.mem_of_mem_take zero)) (by omega)⟩
    rw [upToZero, List.take_take, Nat.min_self]
    exact List.takeWhile_eq_self_iff.mpr fun c member => plain c (List.mem_of_mem_take member)
  · rename_i short
    refine ⟨?_, iff_of_true (by simp) (by omega)⟩
    rw [upToZero, List.take_of_length_le (by simp [room]; omega),
      List.takeWhile_append_of_pos plain, List.takeWhile_cons_of_neg (by simp), List.append_nil,
      List.take_of_length_le (by omega)]

/-- `namex` works with the string in the buffer. -/
theorem skipelem_eq_map (nulFree : 0 ∉ path) (room : name.length = dirSiz)
    : skipelem path
      = (skipelemInto path name).map fun step => (step.1, upToZero dirSiz step.2) := by
  rw [skipelem, skipelemInto]
  split
  · rfl
  · have clean : 0 ∉ (path.dropWhile (· = slash)).takeWhile (· ≠ slash) := fun zero =>
      nulFree ((List.dropWhile_suffix _).subset ((List.takeWhile_prefix _).subset zero))
    rw [Option.map_some, (holdsElem_storeElem room clean).1]

/-- A path without leading slashes has an element unless it is empty. -/
theorem pathElements_eq_nil_iff (name : List UInt8) (bare : path.head? ≠ some slash)
    : pathElements path name = [] ↔ path = [] := by
  have same : path.dropWhile (· = slash) = path := by
    cases path with
    | nil => rfl
    | cons => exact List.dropWhile_cons_of_neg (by simpa using bare)
  rw [pathElements]
  split
  · rename_i nothing
    rw [skipelemInto, same] at nothing
    simpa using nothing
  · rename_i found
    rw [skipelemInto, same] at found
    refine iff_of_false (List.cons_ne_nil _ _) ?_
    rintro rfl
    simp at found

/-- The loop over a path gets the components one by one, and sees an empty rest with the last one
and no other.
-/
theorem pathElements_components (path name : List UInt8) (nulFree : 0 ∉ path)
    (room : name.length = dirSiz)
    : List.Forall₂ (fun step => HoldsElem step.2) (pathElements path name) (components path)
      ∧ ∀ (i : Nat) (inside : i < (pathElements path name).length),
          (pathElements path name)[i].1 = [] ↔ i + 1 = (components path).length := by
  induction length : path.length using Nat.strong_induction_on generalizing path name with
  | _ n ih =>
    cases found : skipelemInto path name with
    | none =>
      have none_ : pathElements path name = [] := by
        rw [pathElements]
        split <;> simp_all
      rw [none_, skipelemInto_eq_none found]
      exact ⟨.nil, fun i inside => absurd inside (Nat.not_lt_zero i)⟩
    | some step =>
      obtain ⟨rest, name'⟩ := step
      obtain ⟨elem, parts, stored, within, behind, bare, shorter⟩ := skipelemInto_eq_some found
      have unfolded : pathElements path name = (rest, name') :: pathElements rest name' := by
        rw [pathElements]
        split <;> simp_all
      have room' : name'.length = dirSiz := stored ▸ length_storeElem room
      obtain ⟨holds, ends⟩ := ih rest.length (length ▸ shorter) rest name'
        (fun zero => nulFree (behind 0 zero)) room' rfl
      have same := holds.length_eq
      rw [unfolded, parts]
      refine ⟨.cons ?_ holds, ?_⟩
      · rw [stored]
        exact holdsElem_storeElem room fun zero => nulFree (within 0 zero)
      · rintro (_ | i) inside
        · have empty := pathElements_eq_nil_iff name' bare
          rw [List.getElem_cons_zero, List.length_cons, ← empty, ← List.length_eq_zero_iff, same]
          omega
        · rw [List.getElem_cons_succ, ends i (Nat.lt_of_succ_lt_succ inside), List.length_cons]
          omega

/-- The second example of the source: the elements of `///a//bb`. -/
theorem pathElements_components_slashes
    : components [47, 47, 47, 97, 47, 47, 98, 98] = [[97], [98, 98]]
      ∧ List.Forall₂ (fun step => HoldsElem step.2)
          (pathElements [47, 47, 47, 97, 47, 47, 98, 98] (List.replicate 14 0))
          (components [47, 47, 47, 97, 47, 47, 98, 98]) :=
  ⟨by decide, (pathElements_components _ _ (by decide) rfl).1⟩

end Xv6Net.Fs
