import Mathlib.Data.Nat.Bitwise

/-! Bits of a byte memory: bit `i` is in byte `i / 8`, at place `i % 8`. -/

namespace Library.Bitmap

open Function

/-- `1 << (i % 8)`. -/
def mask (i : Nat) : UInt8 := UInt8.ofNat (2 ^ (i % 8))

def get (mem : Int → UInt8) (i : Nat) : Bool := mem (i / 8 : Nat) &&& mask i ≠ 0

def set (mem : Int → UInt8) (i : Nat) : Int → UInt8 :=
  update mem (i / 8 : Nat) (mem (i / 8 : Nat) ||| mask i)

def clear (mem : Int → UInt8) (i : Nat) : Int → UInt8 :=
  update mem (i / 8 : Nat) (mem (i / 8 : Nat) &&& ~~~ mask i)

theorem mask_toNat (i : Nat) : (mask i).toNat = 2 ^ (i % 8) := by
  have small : 2 ^ (i % 8) < 2 ^ 8 :=
    Nat.pow_lt_pow_right (by decide) (Nat.mod_lt i (by decide))
  rw [mask, UInt8.toNat_ofNat', Nat.mod_eq_of_lt small]

/-- The test with a mask reads a bit of the byte. -/
theorem get_eq_testBit (mem : Int → UInt8) (i : Nat)
    : get mem i = (mem (i / 8 : Nat)).toNat.testBit (i % 8) := by
  have masked : (mem (i / 8 : Nat) &&& mask i).toNat
      = ((mem (i / 8 : Nat)).toNat.testBit (i % 8)).toNat * 2 ^ (i % 8) := by
    rw [UInt8.toNat_and, mask_toNat, Nat.and_two_pow]
  have positive : 0 < 2 ^ (i % 8) := Nat.two_pow_pos _
  rw [get]
  cases bit : (mem (i / 8 : Nat)).toNat.testBit (i % 8) with
  | false =>
    rw [bit, Bool.toNat_false, Nat.zero_mul] at masked
    have zero : mem (i / 8 : Nat) &&& mask i = 0 := UInt8.toNat_inj.mp masked
    exact decide_eq_false (not_not_intro zero)
  | true =>
    rw [bit, Bool.toNat_true, Nat.one_mul] at masked
    refine decide_eq_true fun zero => ?_
    rw [zero, UInt8.toNat_zero] at masked
    omega

theorem testBit_complement {k l : Nat} (insideK : k < 8) (insideL : l < 8)
    : (255 - 2 ^ k).testBit l = decide (l ≠ k) := by
  have all : ∀ k < 8, ∀ l < 8, (255 - 2 ^ k).testBit l = decide (l ≠ k) := by decide
  exact all k insideK l insideL

@[simp]
theorem get_set (mem : Int → UInt8) (i j : Nat)
    : get (set mem i) j = (decide (j = i) || get mem j) := by
  rw [get_eq_testBit, get_eq_testBit, set]
  by_cases byte : j / 8 = i / 8
  · rw [byte, update_self, UInt8.toNat_or, mask_toNat, Nat.testBit_or,
      Nat.testBit_two_pow, Bool.or_comm]
    congr 1
    rw [decide_eq_decide]
    omega
  · rw [update_of_ne (by omega)]
    have other : j ≠ i := fun same => byte (by rw [same])
    simp [other]

@[simp]
theorem get_clear (mem : Int → UInt8) (i j : Nat)
    : get (clear mem i) j = (decide (j ≠ i) && get mem j) := by
  rw [get_eq_testBit, get_eq_testBit, clear]
  by_cases byte : j / 8 = i / 8
  · rw [byte, update_self, UInt8.toNat_and, Nat.testBit_and, UInt8.toNat_not, mask_toNat]
    have rest := testBit_complement (Nat.mod_lt i (by decide : 8 > 0))
      (Nat.mod_lt j (by decide : 8 > 0))
    rw [show UInt8.size - 1 - 2 ^ (i % 8) = 255 - 2 ^ (i % 8) from rfl, rest, Bool.and_comm]
    congr 1
    rw [decide_eq_decide]
    omega
  · rw [update_of_ne (by omega)]
    have other : j ≠ i := fun same => byte (by rw [same])
    simp [other]

end Library.Bitmap
