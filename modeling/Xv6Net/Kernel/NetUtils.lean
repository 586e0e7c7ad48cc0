import Xv6Net.Library.Bytes
import Mathlib.Data.Nat.ModEq

/-! The byte-order conversions and the Internet checksum of `netutils.c`. -/

namespace Xv6Net

open Library.Memory

def htons (n : UInt16) : UInt16 :=
  (List.range 2).foldl
    (fun a i =>
      a ||| (((n >>> UInt16.ofNat (i * 8)) &&& 0xff) <<< UInt16.ofNat (8 * (2 - i - 1))))
    0

def htonl (n : UInt32) : UInt32 :=
  (List.range 4).foldl
    (fun a i =>
      a ||| (((n >>> UInt32.ofNat (i * 8)) &&& 0xff) <<< UInt32.ofNat (8 * (4 - i - 1))))
    0

private theorem and_255 (n : Nat) : n &&& 255 = n % 256 := by
  exact Nat.and_two_pow_sub_one_eq_mod n 8

private theorem or_reverse (a b c d : Nat) : a ||| b ||| c ||| d = d ||| c ||| b ||| a := by
  ac_rfl

theorem htons_toNat (n : UInt16) : (htons n).toNat = n.toNat % 256 * 256 + n.toNat / 256 := by
  have bound := n.toNat_lt
  simp only [htons, List.range, List.range.loop, List.foldl_cons, List.foldl_nil, UInt16.toNat_or,
    UInt16.toNat_and, UInt16.toNat_shiftLeft, UInt16.toNat_shiftRight, Nat.reduceMul, Nat.reduceSub,
    UInt16.reduceOfNat, UInt16.reduceToNat, Nat.reduceMod, and_255, Nat.shiftRight_eq_div_pow,
    Nat.zero_or, Nat.shiftLeft_zero, Nat.pow_zero, Nat.div_one]
  rw [Nat.mod_eq_of_lt (show (n.toNat % 256) <<< 8 < 2 ^ 16 by rw [Nat.shiftLeft_eq]; omega)]
  rw [Nat.or_comm, or_shiftLeft_eq_add _ (by omega)]
  omega

theorem exists_bytes32 (n : UInt32)
    : ∃ b0 b1 b2 b3 : Nat,
        b0 < 256 ∧ b1 < 256 ∧ b2 < 256 ∧ b3 < 256
        ∧ n.toNat = b0 + b1 * 2 ^ 8 + b2 * 2 ^ 16 + b3 * 2 ^ 24 := by
  have bound := n.toNat_lt
  refine ⟨n.toNat % 256, n.toNat / 2 ^ 8 % 256, n.toNat / 2 ^ 16 % 256, n.toNat / 2 ^ 24, ?_⟩
  omega

/-- `htonl` reverses the four bytes. Witness: each byte lands in a range of its own, so the
unions of the loop are sums.
-/
theorem htonl_toNat {n : UInt32} {b0 b1 b2 b3 : Nat} (h0 : b0 < 256) (h1 : b1 < 256) (h2 : b2 < 256)
    (h3 : b3 < 256) (value : n.toNat = b0 + b1 * 2 ^ 8 + b2 * 2 ^ 16 + b3 * 2 ^ 24)
    : (htonl n).toNat = b3 + b2 * 2 ^ 8 + b1 * 2 ^ 16 + b0 * 2 ^ 24 := by
  have byte0 : n.toNat % 256 = b0 := by omega
  have byte1 : n.toNat / 2 ^ 8 % 256 = b1 := by omega
  have byte2 : n.toNat / 2 ^ 16 % 256 = b2 := by omega
  have byte3 : n.toNat / 2 ^ 24 % 256 = b3 := by omega
  simp only [htonl, List.range, List.range.loop, List.foldl_cons, List.foldl_nil,
    UInt32.toNat_or, UInt32.toNat_and, UInt32.toNat_shiftLeft, UInt32.toNat_shiftRight,
    Nat.reduceMul, Nat.reduceSub, UInt32.reduceOfNat, UInt32.reduceToNat, Nat.reduceMod,
    and_255, Nat.shiftRight_eq_div_pow, Nat.zero_or, Nat.pow_zero, Nat.div_one]
  rw [byte0, byte1, byte2, byte3, shiftLeft_byte_mod h0 (k := 24) (by omega),
    shiftLeft_byte_mod h1 (k := 16) (by omega), shiftLeft_byte_mod h2 (k := 8) (by omega),
    shiftLeft_byte_mod h3 (k := 0) (by omega)]
  -- the loop starts at the most significant byte, the sum is built from the least one
  rw [or_reverse, Nat.shiftLeft_zero, or_bytes_eq_sum h3 h2 h1]

theorem htons_htons (n : UInt16) : htons (htons n) = n := by
  have bound := n.toNat_lt
  apply UInt16.toNat_inj.mp
  rw [htons_toNat, htons_toNat]
  omega

theorem htonl_htonl (n : UInt32) : htonl (htonl n) = n := by
  obtain ⟨b0, b1, b2, b3, h0, h1, h2, h3, value⟩ := exists_bytes32 n
  apply UInt32.toNat_inj.mp
  have swapped := htonl_toNat h0 h1 h2 h3 value
  rw [htonl_toNat h3 h2 h1 h0 swapped, value]

/-- `sum = (sum >> 16) + (sum & 0xffff)`. -/
def foldCarry (sum : UInt32) : UInt32 :=
  (sum >>> 16) + (sum &&& 0xffff)

/-- The two loops of `checksum`: 16-bit words while more than one byte is left, then the odd byte.
-/
def checksumLoop (mem : Int → UInt8) : Int → Nat → UInt32 → UInt32
  | p, n + 2, sum => checksumLoop mem (p + 2) n (foldCarry (sum + (load16 mem p).toUInt32))
  | p, 1, sum => foldCarry (sum + (mem p).toUInt32)
  | _, 0, sum => sum

/-- `checksum(data, length, start)` of the bytes at `data`; a negative length reads nothing.
-/
def checksum (mem : Int → UInt8) (data : Int) (length : Int) (start : UInt32) : UInt16 :=
  ~~~ (checksumLoop mem data length.toNat start).toUInt16

/-- The checksum depends on the bytes of the range only. -/
theorem checksum_of_slice_eq {mem other : Int → UInt8} {p q : Int} {n : Nat}
    (same : slice mem p n = slice other q n) (start : UInt32)
    : checksum mem p n start = checksum other q n start := by
  have loop (n : Nat) (p q : Int) (sum : UInt32) (same : slice mem p n = slice other q n)
      : checksumLoop mem p n sum = checksumLoop other q n sum := by
    fun_induction checksumLoop mem p n sum generalizing q with
    | case1 p n sum ih =>
      have word := load16_of_slice_eq same 0 (by omega)
      have rest : slice mem (p + 2) n = slice other (q + 2) n := by
        rw [show n.succ.succ = 2 + n by omega] at same
        calc slice mem (p + 2) n
            = (slice mem p (2 + n)).drop 2 := (drop_slice mem p 2 n).symm
          _ = (slice other q (2 + n)).drop 2 := congrArg (List.drop 2) same
          _ = slice other (q + 2) n := drop_slice other q 2 n
      simp only [Nat.cast_zero, add_zero] at word
      rw [checksumLoop, ← word, ih (q + 2) rest]
    | case2 p sum =>
      have byte := eq_of_slice_eq same (i := 0) (by omega)
      simp only [Nat.cast_zero, add_zero] at byte
      rw [checksumLoop, byte]
    | case3 p sum => rfl
  rw [checksum, checksum, Int.toNat_natCast, loop n p q start same]

/-- The sum of the little-endian words of a range, an odd last byte standing for itself. -/
def wordSum (mem : Int → UInt8) : Int → Nat → Nat
  | p, n + 2 => (load16 mem p).toNat + wordSum mem (p + 2) n
  | p, 1 => (mem p).toNat
  | _, 0 => 0

theorem foldCarry_toNat (sum : UInt32)
    : (foldCarry sum).toNat = sum.toNat / 2 ^ 16 + sum.toNat % 2 ^ 16 := by
  have bound := sum.toNat_lt
  have low : sum.toNat &&& 65535 = sum.toNat % 2 ^ 16 := Nat.and_two_pow_sub_one_eq_mod _ 16
  simp only [foldCarry, UInt32.toNat_add, UInt32.toNat_shiftRight, UInt32.toNat_and,
    UInt32.reduceToNat, Nat.reduceMod, Nat.shiftRight_eq_div_pow, low]
  omega

/-- One addition of the loop: the running sum stays small, keeps its residue and vanishes only if
all of it does.
-/
private theorem foldCarry_add {sum : UInt32} (word : UInt32) (small : sum.toNat < 2 ^ 19)
    (wordBound : word.toNat < 2 ^ 16)
    : (foldCarry (sum + word)).toNat ≤ 65543
      ∧ (foldCarry (sum + word)).toNat % 65535 = (sum.toNat + word.toNat) % 65535
      ∧ ((foldCarry (sum + word)).toNat = 0 ↔ sum.toNat + word.toNat = 0) := by
  have added : (sum + word).toNat = sum.toNat + word.toNat := by
    rw [UInt32.toNat_add]
    omega
  rw [foldCarry_toNat, added]
  omega

section

variable (mem : Int → UInt8)
include mem

/-- The whole loop from a small running sum. -/
private theorem checksumLoop_spec (p : Int) (n : Nat) (sum : UInt32) (small : sum.toNat ≤ 65543)
    : (checksumLoop mem p n sum).toNat ≤ 65543
      ∧ (checksumLoop mem p n sum).toNat % 65535
        = (sum.toNat + wordSum mem p n) % 65535
      ∧ ((checksumLoop mem p n sum).toNat = 0 ↔ sum.toNat + wordSum mem p n = 0) := by
  fun_induction checksumLoop mem p n sum with
  | case1 p n sum ih =>
    have word := (load16 mem p).toNat_lt
    have widened : (load16 mem p).toUInt32.toNat = (load16 mem p).toNat := by simp
    obtain ⟨bound, residue, zero⟩ := foldCarry_add (load16 mem p).toUInt32
      (show sum.toNat < 2 ^ 19 by omega) (by omega)
    obtain ⟨ihBound, ihResidue, ihZero⟩ := ih bound
    simp only [wordSum]
    refine ⟨ihBound, ?_, ?_⟩
    · rw [ihResidue, Nat.add_mod, residue, ← Nat.add_mod, widened]
      congr 1
      omega
    · rw [ihZero]
      omega
  | case2 p sum =>
    have byte := (mem p).toNat_lt
    have widened : (mem p).toUInt32.toNat = (mem p).toNat := by simp
    obtain ⟨bound, residue, zero⟩ := foldCarry_add (mem p).toUInt32
      (show sum.toNat < 2 ^ 19 by omega) (by omega)
    simp only [wordSum]
    rw [widened] at residue zero
    exact ⟨bound, residue, zero⟩
  | case3 p sum => simp [wordSum, small]

variable {start : UInt32} {m n : Nat}

/-- The whole loop over at least one byte, from any pseudo-header sum: the first addition brings the
running sum below the bound of the loop.
-/
theorem checksumLoop_toNat (p : Int) (n : Nat) (small : start.toNat < 2 ^ 19)
    : (checksumLoop mem p (n + 1) start).toNat ≤ 65543
      ∧ (checksumLoop mem p (n + 1) start).toNat % 65535
        = (start.toNat + wordSum mem p (n + 1)) % 65535
      ∧ ((checksumLoop mem p (n + 1) start).toNat = 0
        ↔ start.toNat + wordSum mem p (n + 1) = 0) := by
  cases n with
  | zero =>
    have byte := (mem p).toNat_lt
    have widened : (mem p).toUInt32.toNat = (mem p).toNat := by simp
    have once := foldCarry_add (mem p).toUInt32 small (by omega)
    simpa only [checksumLoop, wordSum, widened] using once
  | succ n =>
    have word := (load16 mem p).toNat_lt
    have widened : (load16 mem p).toUInt32.toNat = (load16 mem p).toNat := by simp
    obtain ⟨bound, residue, zero⟩ := foldCarry_add (load16 mem p).toUInt32
      small (by omega)
    obtain ⟨ihBound, ihResidue, ihZero⟩ := checksumLoop_spec mem (p + 2) n _ bound
    simp only [checksumLoop, wordSum]
    refine ⟨ihBound, ?_, ?_⟩
    · rw [ihResidue, Nat.add_mod, residue, ← Nat.add_mod, widened]
      congr 1
      omega
    · rw [ihZero]
      omega

/-- A checksum over at least one byte, started from any pseudo-header sum, is zero exactly
when the start and the words add up to a positive multiple of 65535.
-/
theorem checksum_eq_zero_iff (data : Int) {length : Int} (nonempty : 1 ≤ length)
    (small : start.toNat < 2 ^ 19)
    : checksum mem data length start = 0
      ↔ 0 < start.toNat + wordSum mem data length.toNat
        ∧ (start.toNat + wordSum mem data length.toNat) % 65535 = 0 := by
  obtain ⟨n, hn⟩ : ∃ n, length.toNat = n + 1 := ⟨length.toNat - 1, by omega⟩
  have spec := checksumLoop_toNat mem data n small
  rw [← hn] at spec
  have complement : checksum mem data length start = 0
      ↔ (checksumLoop mem data length.toNat start).toNat % 2 ^ 16 = 65535 := by
    rw [checksum, ← UInt16.toNat_inj, UInt16.toNat_not]
    simp only [UInt32.toNat_toUInt16, UInt16.size, UInt16.reduceToNat]
    omega
  rw [complement]
  omega

theorem checksumLoop_add (p : Int) (m n : Nat) (sum : UInt32)
    : checksumLoop mem p (2 * m + n) sum
      = checksumLoop mem (p + 2 * m) n (checksumLoop mem p (2 * m) sum) := by
  induction m generalizing p sum with
  | zero => simp [checksumLoop]
  | succ m ih =>
    rw [show 2 * (m + 1) + n = (2 * m + n) + 2 by omega,
      show 2 * (m + 1) = 2 * m + 2 by omega, checksumLoop, checksumLoop, ih]
    congr 1
    push_cast
    ring

theorem checksumLoop_le (p : Int) (n : Nat) {sum : UInt32} (fits : sum.toNat ≤ 65535)
    : (checksumLoop mem p n sum).toNat ≤ 65535 := by
  have once (sum word : UInt32) (fits : sum.toNat ≤ 65535) (wordFits : word.toNat ≤ 65535)
      : (foldCarry (sum + word)).toNat ≤ 65535 := by
    rw [foldCarry_toNat, UInt32.toNat_add]
    omega
  fun_induction checksumLoop mem p n sum with
  | case1 p n sum ih =>
    have word := (load16 mem p).toNat_lt
    exact ih (once sum _ fits (by rw [UInt16.toNat_toUInt32]; omega))
  | case2 p sum =>
    have byte := (mem p).toNat_lt
    exact once sum _ fits (by rw [UInt8.toNat_toUInt32]; omega)
  | case3 p sum => exact fits

theorem wordSum_overlay (p : Int) (inside : 2 * m + 2 ≤ n) (v : UInt16)
    : wordSum (overlay mem (p + 2 * m) (bytes16 v)) p n + (load16 mem (p + 2 * m)).toNat
      = wordSum mem p n + v.toNat := by
  have later (q : Int) (n : Nat) (behind : p + 2 * m + 2 ≤ q)
      : wordSum (overlay mem (p + 2 * m) (bytes16 v)) q n = wordSum mem q n := by
    fun_induction wordSum mem q n with
    | case1 q n ih =>
      rw [wordSum, ih (by omega), load16_overlay_disjoint mem (by simp; omega)]
    | case2 q => rw [wordSum, overlay_beyond mem (by simp; omega)]
    | case3 q => rw [wordSum]
  induction m generalizing p n with
  | zero =>
    obtain ⟨n, rfl⟩ : ∃ k, n = k + 2 := ⟨n - 2, by omega⟩
    simp only [Nat.cast_zero, mul_zero, add_zero] at later ⊢
    rw [wordSum, wordSum, later (p + 2) n (by omega), load16_overlay]
    omega
  | succ m ih =>
    obtain ⟨n, rfl⟩ : ∃ k, n = k + 2 := ⟨n - 2, by omega⟩
    have shift : p + 2 * ((m + 1 : Nat) : Int) = p + 2 + 2 * (m : Int) := by
      push_cast
      ring
    rw [shift] at later ⊢
    rw [wordSum, wordSum, load16_overlay_disjoint mem (by left; omega)]
    have rest := ih (p + 2) (n := n) (by omega) later
    omega

/-- Storing the checksum of a range in a zero word of it makes the checksum zero: a packed segment
passes the test of its receiver.
-/
theorem checksum_fill (data : Int) (behind : 1 ≤ m)
    (inside : 2 * m + 2 ≤ n) (small : start.toNat < 2 ^ 19) (blank : load16 mem (data + 2 * m) = 0)
    : checksum
        (overlay mem (data + 2 * m) (bytes16 (checksum mem data n start))) data n start
      = 0 := by
  obtain ⟨n, rfl⟩ : ∃ k, n = k + 1 := ⟨n - 1, by omega⟩
  obtain ⟨-, residue, zero⟩ := checksumLoop_toNat mem data n small
  have fits : (checksumLoop mem data (n + 1) start).toNat ≤ 65535 := by
    -- the blank word folds the last carry of the words before it
    obtain ⟨l, rfl⟩ : ∃ l, m = l + 1 := ⟨m - 1, by omega⟩
    have earlier := (checksumLoop_toNat mem data (2 * l + 1) small).1
    rw [show 2 * l + 1 + 1 = 2 * (l + 1) by omega] at earlier
    rw [show n + 1 = 2 * (l + 1) + (n - 1 - 2 * (l + 1) + 2) by omega, checksumLoop_add,
      checksumLoop, blank]
    apply checksumLoop_le
    rw [foldCarry_toNat, show UInt16.toUInt32 0 = 0 from rfl, UInt32.add_zero]
    omega
  have value : (checksum mem data ((n + 1 : Nat) : Int) start).toNat
      = 65535 - (checksumLoop mem data (n + 1) start).toNat := by
    rw [checksum, UInt16.toNat_not]
    simp only [Int.toNat_natCast, UInt32.toNat_toUInt16, UInt16.size]
    omega
  rw [checksum_eq_zero_iff _ _ (by omega) small]
  have filled := wordSum_overlay mem data inside (checksum mem data ((n + 1 : Nat) : Int) start)
  rw [blank, value] at filled
  simp only [Int.toNat_natCast, UInt16.toNat_zero, Nat.add_zero] at filled ⊢
  rw [filled]
  omega

end

end Xv6Net
