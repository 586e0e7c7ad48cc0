import Mathlib.Data.UInt
import Mathlib.Tactic.Abel

/-!
`memmove` of `string.c` over the whole memory. Each loop reads bytes that it may itself have
written, so what a loop leaves is stated for the distances at which it does not.
-/

namespace Xv6Net

open Function

/-- `while(n-- > 0) *d++ = *s++;` -/
def copyUp : Nat → (UInt32 → UInt8) → UInt32 → UInt32 → UInt32 → UInt8
  | 0, mem, _, _ => mem
  | n + 1, mem, d, s => copyUp n (update mem d (mem s)) (d + 1) (s + 1)

/-- `while(n-- > 0) *--d = *--s;` -/
def copyDown : Nat → (UInt32 → UInt8) → UInt32 → UInt32 → UInt32 → UInt8
  | 0, mem, _, _ => mem
  | n + 1, mem, d, s => copyDown n (update mem (d - 1) (mem (s - 1))) (d - 1) (s - 1)

/-- `memmove`: the memory that it leaves and the pointer that it returns. -/
def memmove (mem : UInt32 → UInt8) (dst src n : UInt32) : (UInt32 → UInt8) × UInt32 :=
  if src < dst ∧ src + n > dst then (copyDown n.toNat mem (dst + n) (src + n), dst)
  else (copyUp n.toNat mem dst src, dst)

variable {n : Nat} {d s : UInt32}

theorem toNat_sub_one_add {x : UInt32} (nonzero : x ≠ 0) : (x - 1).toNat + 1 = x.toNat := by
  have positive : x.toNat ≠ 0 := fun zero => nonzero (UInt32.toNat_inj.mp zero)
  have small := x.toNat_lt
  rw [UInt32.toNat_sub, UInt32.toNat_one]
  omega

/-- Upwards, a byte is read before it is written unless the target starts inside the source. -/
theorem copyUp_apply (mem : UInt32 → UInt8) (apart : d = s ∨ n ≤ (d - s).toNat) (a : UInt32)
    : copyUp n mem d s a = if (a - d).toNat < n then mem (s + (a - d)) else mem a := by
  induction n generalizing mem d s with
  | zero => rfl
  | succ n ih =>
    have apart' : d + 1 = s + 1 ∨ n ≤ (d + 1 - (s + 1)).toNat := by
      rw [add_sub_add_right_eq_sub]
      exact apart.imp (congrArg (· + 1)) Nat.le_of_succ_le
    rw [copyUp, ih _ apart', show s + 1 + (a - (d + 1)) = s + (a - d) by abel]
    by_cases first_ : a = d
    · subst first_
      by_cases same : s = a <;> simp [same]
    · have before := toNat_sub_one_add (sub_ne_zero_of_ne first_)
      -- this pass does not write the byte that a later one reads for `a`
      have unwritten : (a - d).toNat < n + 1 → s + (a - d) ≠ d := by
        intro near same
        rcases apart with rfl | far
        · exact first_ (by rwa [add_sub_cancel] at same)
        · rw [eq_sub_of_add_eq' same] at near
          omega
      rw [← sub_sub, update_of_ne first_]
      split
      case isTrue near => rw [if_pos (by omega), update_of_ne (unwritten (by omega))]
      case isFalse far => rw [if_neg (by omega)]

/-- Downwards is upwards in the mirrored memory. -/
theorem copyDown_eq (mem : UInt32 → UInt8) (a : UInt32)
    : copyDown n mem d s a = copyUp n (fun x => mem (-1 - x)) (-d) (-s) (-1 - a) := by
  induction n generalizing mem d s with
  | zero => exact congrArg mem (sub_sub_cancel (-1) a).symm
  | succ n ih =>
    have mirrored : (fun x => update mem (d - 1) (mem (s - 1)) (-1 - x))
        = update (fun x => mem (-1 - x)) (-d) (mem (-1 - -s)) := by
      rw [show d - 1 = -1 - -d by abel, show s - 1 = -1 - -s by abel]
      funext x
      exact update_apply_of_injective mem (sub_right_injective (b := (-1 : UInt32))) (-d) _ x
    rw [copyDown, ih, mirrored, copyUp, show -(d - 1) = -d + 1 by abel,
      show -(s - 1) = -s + 1 by abel]

/-- The target holds what the source held, and the rest of the memory is as it was: the loop that
is taken never reaches a byte of the source before it has read it.
-/
theorem memmove_apply (mem : UInt32 → UInt8) {dst src n : UInt32}
    (source : src.toNat + n.toNat ≤ 2 ^ 32) (target : dst.toNat + n.toNat ≤ 2 ^ 32) (a : UInt32)
    : (memmove mem dst src n).1 a
      = if (a - dst).toNat < n.toNat then mem (src + (a - dst)) else mem a := by
  have low := src.toNat_lt
  have high := dst.toNat_lt
  have small := (a - dst).toNat_lt
  unfold memmove
  split
  case isTrue overlap =>
    obtain ⟨below, inside⟩ := overlap
    rw [UInt32.lt_iff_toNat_lt] at below
    rw [gt_iff_lt, UInt32.lt_iff_toNat_lt, UInt32.toNat_add] at inside
    -- mirrored, the target starts below the source, where upwards is right
    have apart : n.toNat ≤ (-(dst + n) - -(src + n)).toNat := by
      rw [show -(dst + n) - -(src + n) = src - dst by abel, UInt32.toNat_sub]
      omega
    have reached : (n - 1 - (a - dst)).toNat < n.toNat ↔ (a - dst).toNat < n.toNat := by
      rw [UInt32.toNat_sub, UInt32.toNat_sub n, UInt32.toNat_one]
      omega
    show copyDown n.toNat mem (dst + n) (src + n) a = _
    rw [copyDown_eq, copyUp_apply _ (.inr apart), sub_sub_cancel,
      show -1 - a - -(dst + n) = n - 1 - (a - dst) by abel,
      show -1 - (-(src + n) + (n - 1 - (a - dst))) = src + (a - dst) by abel]
    simp only [reached]
  case isFalse apart =>
    refine copyUp_apply mem ?_ a
    rw [UInt32.lt_iff_toNat_lt, gt_iff_lt, UInt32.lt_iff_toNat_lt, UInt32.toNat_add] at apart
    by_cases same : dst = src
    · exact .inl same
    · have differ : dst.toNat ≠ src.toNat := fun equal => same (UInt32.toNat_inj.mp equal)
      rw [UInt32.toNat_sub]
      omega

/-- `memmove` is correct under any overlap. -/
theorem memmove_under_overlap (mem : UInt32 → UInt8) (dst src n : UInt32)
    (source : src.toNat + n.toNat ≤ 2 ^ 32) (target : dst.toNat + n.toNat ≤ 2 ^ 32)
    : (∀ i < n, (memmove mem dst src n).1 (dst + i) = mem (src + i))
      ∧ ∀ a, (∀ i < n, a ≠ dst + i) → (memmove mem dst src n).1 a = mem a := by
  constructor
  · intro i inside
    rw [memmove_apply mem source target, add_sub_cancel_left,
      if_pos (UInt32.lt_iff_toNat_lt.mp inside)]
  · intro a outside
    rw [memmove_apply mem source target, if_neg]
    exact fun inside => outside (a - dst) inside (add_sub_cancel dst a).symm

theorem memmove_under_overlap_up_one
    : (∀ i < 3, (memmove (fun a => a.toUInt8) 5 4 3).1 (5 + i) = (4 + i).toUInt8)
      ∧ ∀ a, (∀ i < 3, a ≠ 5 + i)
        → (memmove (fun a => a.toUInt8) 5 4 3).1 a = a.toUInt8 :=
  memmove_under_overlap _ 5 4 3 (by decide) (by decide)

end Xv6Net
