import Xv6Net.Kernel.NetUtils
import Xv6Net.Library.OnesComplement
import Mathlib.Data.UInt

/-! What `checksum` computes. It folds the carry once for each word and truncates at the end; this
is the one's complement sum of the words as long as the start value is a word itself, and decides
whether that sum is all ones for the larger start values of the pseudo headers.
-/

namespace Xv6Net

open Library Memory OnesComplement

theorem foldCarry_add_toNat {sum word : UInt32} (fits : sum.toNat ≤ 65535)
    (wordFits : word.toNat ≤ 65535)
    : (foldCarry (sum + word)).toNat = add 16 sum.toNat word.toNat := by
  rw [foldCarry_toNat, UInt32.toNat_add, add]
  omega

/-- The loop adds up the words with end-around carry; the running sum still fits in a word. -/
theorem checksumLoop_eq_foldl (mem : Int → UInt8) (p : Int) (n : Nat) {sum : UInt32}
    (fits : sum.toNat ≤ 65535)
    : (checksumLoop mem p n sum).toNat
      = (littleWords (slice mem p n)).foldl (add 16) sum.toNat := by
  fun_induction checksumLoop mem p n sum with
  | case1 p n sum ih =>
    have word : (load16 mem p).toUInt32.toNat ≤ 65535 := by
      have bound := (load16 mem p).toNat_lt
      rw [UInt16.toNat_toUInt32]
      omega
    have once := foldCarry_add_toNat fits word
    have small := checksumLoop_le mem p 2 fits
    rw [ih small, once, slice_succ, slice_succ, littleWords, List.foldl_cons,
      UInt16.toNat_toUInt32, load16_toNat, show p + 1 + 1 = p + 2 by ring]
  | case2 p sum =>
    have byte : (mem p).toUInt32.toNat ≤ 65535 := by
      have bound := (mem p).toNat_lt
      rw [UInt8.toNat_toUInt32]
      omega
    rw [foldCarry_add_toNat fits byte, slice_succ, slice_zero, littleWords,
      List.foldl_cons, List.foldl_nil, UInt8.toNat_toUInt32]
  | case3 p sum => rfl

theorem wordSum_eq_sum (mem : Int → UInt8) (p : Int) (n : Nat)
    : wordSum mem p n = (littleWords (slice mem p n)).sum := by
  fun_induction wordSum mem p n with
  | case1 p n ih =>
    rw [ih, slice_succ, slice_succ, littleWords, List.sum_cons, load16_toNat,
      show p + 1 + 1 = p + 2 by ring]
  | case2 p => simp [slice_succ, littleWords]
  | case3 p => rfl

/-- The checksum of the `length` bytes at `data`: the complement of the one's complement sum of the
start value and the words, and zero exactly when they add up to a positive multiple of 65535.
-/
theorem checksum_ones_complement (mem : Int → UInt8) (data : Int) (length : Nat) (start : UInt32)
    : let words := littleWords (slice mem data length)
      (start ≤ 0xffff
        → checksum mem data length start
          = ~~~ UInt16.ofNat (sum 16 (start.toNat :: words)))
      ∧ (2 ≤ length
        → start < 2 ^ 19
        → (checksum mem data length start = 0
          ↔ 0 < start.toNat + words.sum ∧ 65535 ∣ start.toNat + words.sum)) := by
  refine ⟨fun small => ?_, fun long small => ?_⟩
  · have fits : start.toNat ≤ 65535 := small
    have first_ : add 16 0 start.toNat = start.toNat := by
      rw [add]
      omega
    rw [checksum, Int.toNat_natCast, sum, List.foldl_cons, first_,
      ← checksumLoop_eq_foldl mem data length fits]
    rfl
  · have fits : start.toNat < 2 ^ 19 := small
    rw [checksum_eq_zero_iff mem data (by omega) fits, Int.toNat_natCast, wordSum_eq_sum,
      Nat.dvd_iff_mod_eq_zero]

end Xv6Net
