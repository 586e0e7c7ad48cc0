import Mathlib.Data.Nat.ModEq
import Mathlib.Algebra.BigOperators.Group.List.Basic
import Mathlib.Tactic.Ring

/-! One's complement sums, as Internet checksums define them: the carry out of the highest bit
of a word is added in at the lowest. A sum of words is all ones exactly if the words add up to a
positive multiple of the largest word.
-/

namespace Library.OnesComplement

/-- One's complement addition of words of `w` bits. -/
def add (w a b : Nat) : Nat :=
  (a + b) % 2 ^ w + (a + b) / 2 ^ w

/-- The one's complement sum of a list of words. -/
def sum (w : Nat) (words : List Nat) : Nat :=
  words.foldl (add w) 0

/-- The 16-bit words of a byte string in network byte order, the last one filled up with a zero
byte.
-/
def words : List UInt8 → List Nat
  | first :: second :: rest => (first.toNat * 256 + second.toNat) :: words rest
  | [last] => [last.toNat * 256]
  | [] => []

/-- The 16-bit words of a byte string in little-endian order, filled up in the same way. -/
def littleWords : List UInt8 → List Nat
  | first :: second :: rest => (first.toNat + second.toNat * 2 ^ 8) :: littleWords rest
  | [last] => [last.toNat]
  | [] => []

variable {w a b : Nat}

theorem add_lt (ha : a < 2 ^ w) (hb : b < 2 ^ w) : add w a b < 2 ^ w := by
  have carry : (a + b) / 2 ^ w ≤ 1 := by
    refine Nat.lt_succ_iff.mp (Nat.div_lt_of_lt_mul ?_)
    omega
  have parts := Nat.div_add_mod (a + b) (2 ^ w)
  have low := Nat.mod_lt (a + b) (Nat.two_pow_pos w)
  unfold add
  rcases Nat.le_one_iff_eq_zero_or_eq_one.mp carry with none_ | one
  · omega
  · rw [one] at parts ⊢
    omega

theorem add_modEq (w a b : Nat) : add w a b ≡ a + b [MOD 2 ^ w - 1] := by
  have positive := Nat.two_pow_pos w
  have one : 2 ^ w ≡ 1 [MOD 2 ^ w - 1] := by
    have shifted := Nat.ModEq.add_right 1 (Nat.modEq_zero_iff_dvd.mpr (dvd_refl (2 ^ w - 1)))
    rwa [Nat.sub_add_cancel positive, Nat.zero_add] at shifted
  calc add w a b
      = (a + b) % 2 ^ w + 1 * ((a + b) / 2 ^ w) := by rw [add, one_mul]
    _ ≡ (a + b) % 2 ^ w + 2 ^ w * ((a + b) / 2 ^ w) [MOD 2 ^ w - 1] :=
        ((one.symm).mul_right _).add_left _
    _ = a + b := Nat.mod_add_div ..

theorem add_eq_zero_iff (w a b : Nat) : add w a b = 0 ↔ a + b = 0 := by
  constructor
  · intro zero
    have parts := Nat.mod_add_div (a + b) (2 ^ w)
    obtain ⟨low, high⟩ := Nat.add_eq_zero_iff.mp zero
    rw [low, high] at parts
    omega
  · intro zero
    simp [add, zero]

/-- The running sum keeps the residue of what was added, and is zero only if all of it is. -/
private theorem foldl_add (list : List Nat) (start : Nat) (fits : start < 2 ^ w)
    (small : ∀ x ∈ list, x < 2 ^ w)
    : list.foldl (add w) start < 2 ^ w
      ∧ list.foldl (add w) start ≡ start + list.sum [MOD 2 ^ w - 1]
      ∧ (list.foldl (add w) start = 0 ↔ start + list.sum = 0) := by
  induction list generalizing start with
  | nil => exact ⟨fits, by simp [Nat.ModEq.refl], by simp⟩
  | cons head tail ih =>
    obtain ⟨headFits, tailFits⟩ := List.forall_mem_cons.mp small
    obtain ⟨bound, residue, zero⟩ := ih (add w start head) (add_lt fits headFits) tailFits
    refine ⟨bound, ?_, ?_⟩
    · rw [List.sum_cons, ← Nat.add_assoc]
      exact residue.trans ((add_modEq w start head).add_right tail.sum)
    · rw [List.foldl_cons, zero, List.sum_cons]
      have first := add_eq_zero_iff w start head
      omega

/-- A sum of words is all ones exactly if it is zero modulo the largest word, and not zero. -/
theorem sum_eq_ones_iff {list : List Nat} (wide : 0 < w) (small : ∀ x ∈ list, x < 2 ^ w)
    : sum w list = 2 ^ w - 1 ↔ 0 < list.sum ∧ list.sum ≡ 0 [MOD 2 ^ w - 1] := by
  have two : 2 ≤ 2 ^ w := Nat.le_self_pow wide.ne' 2
  obtain ⟨bound, residue, zero⟩ := foldl_add list 0 (by omega) small
  rw [Nat.zero_add] at residue zero
  constructor
  · intro ones
    have same : list.foldl (add w) 0 = 2 ^ w - 1 := ones
    refine ⟨?_, ?_⟩
    · rw [same] at zero
      omega
    · rw [same] at residue
      exact residue.symm.trans (Nat.modEq_zero_iff_dvd.mpr (dvd_refl _))
  · rintro ⟨positive, multiple⟩
    obtain ⟨factor, value⟩ := Nat.modEq_zero_iff_dvd.mp (residue.trans multiple)
    change list.foldl (add w) 0 = 2 ^ w - 1
    have nonzero : list.foldl (add w) 0 ≠ 0 := by omega
    have least : 1 ≤ factor := by
      rcases Nat.eq_zero_or_pos factor with none_ | some_
      · rw [none_, Nat.mul_zero] at value
        exact absurd value nonzero
      · exact some_
    have atLeast := Nat.le_mul_of_pos_right (2 ^ w - 1) least
    omega

theorem words_lt (bytes : List UInt8) : ∀ x ∈ words bytes, x < 2 ^ 16 := by
  fun_induction words bytes with
  | case1 first second rest ih =>
    have high := first.toNat_lt
    have low := second.toNat_lt
    exact List.forall_mem_cons.mpr ⟨by omega, ih⟩
  | case2 last =>
    have byte := last.toNat_lt
    simp only [List.mem_singleton, forall_eq]
    omega
  | case3 => simp

end Library.OnesComplement
