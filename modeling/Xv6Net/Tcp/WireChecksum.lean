import Xv6Net.Library.OnesComplement
import Xv6Net.Tcp.Segment

/-! The checksum of a segment as another host computes it: over the pseudo header and the
segment, both in network byte order. `tcp_pack` adds the words of the segment in the byte order of
the machine, and so it adds the protocol and the length; the addresses it adds the other way
round. The checksum comes out right only for pairs of addresses for which that makes no
difference.
-/

namespace Xv6Net

open Library Memory OnesComplement

/-- The bytes of a 16-bit field in network byte order. -/
def netBytes16 (v : UInt16) : List UInt8 := (bytes16 v).reverse

/-- The bytes of a 32-bit field in network byte order. -/
def netBytes32 (v : UInt32) : List UInt8 := (bytes32 v).reverse

/-- The pseudo header that TCP puts in front of a segment for the checksum. -/
def pseudoHeader (srcIp dstIp : UInt32) (length : UInt16) : List UInt8 :=
  netBytes32 srcIp ++ netBytes32 dstIp ++ [0, ipProtocolTcp] ++ netBytes16 length

/-- The segment contains its checksum field, and together with the pseudo header its words add
up to all ones.
-/
def CarriesChecksum (srcIp dstIp : UInt32) (segment : List UInt8) : Prop :=
  18 ≤ segment.length
  ∧ sum 16
      (words (pseudoHeader srcIp dstIp (UInt16.ofNat segment.length) ++ segment))
    = 0xffff

instance (srcIp dstIp : UInt32) (segment : List UInt8)
    : Decidable (CarriesChecksum srcIp dstIp segment) :=
  inferInstanceAs (Decidable (_ ∧ _))

def halves (ip : UInt32) : Nat := ip.toNat / 2 ^ 16 + ip.toNat % 2 ^ 16

theorem addrSum_toNat (ip : UInt32) : (addrSum ip).toNat = halves ip := by
  have bound := ip.toNat_lt
  have low : ip.toNat &&& 65535 = ip.toNat % 2 ^ 16 := Nat.and_two_pow_sub_one_eq_mod _ 16
  have high : ip.toNat / 2 ^ 16 &&& 65535 = ip.toNat / 2 ^ 16 % 2 ^ 16 :=
    Nat.and_two_pow_sub_one_eq_mod _ 16
  simp only [addrSum, halves, UInt32.toNat_add, UInt32.toNat_and, UInt32.toNat_shiftRight,
    UInt32.reduceToNat, Nat.reduceMod, Nat.shiftRight_eq_div_pow, low, high]
  omega

/-- Words added in the byte order of the machine are, up to a factor of 256, the words in network
byte order.
-/
theorem sum_words_slice (mem : Int → UInt8) (p : Int) (n : Nat)
    : (words (slice mem p n)).sum ≡ 256 * wordSum mem p n [MOD 65535] := by
  fun_induction wordSum mem p n with
  | case1 p n ih =>
    rw [slice_succ, slice_succ, words, List.sum_cons, load16_toNat, mul_add,
      show p + 1 + 1 = p + 2 by ring]
    refine Nat.ModEq.add ?_ ih
    rw [Nat.ModEq]
    omega
  | case2 p =>
    simp only [slice_succ, slice_zero, words, List.sum_singleton]
    rw [mul_comm]
  | case3 p => simp [words, Nat.ModEq.refl]

theorem htons_mul (n : UInt16) : 256 * (htons n).toNat ≡ n.toNat [MOD 65535] := by
  have bound := n.toNat_lt
  rw [htons_toNat, Nat.ModEq]
  omega

theorem sum_words_pseudoHeader (srcIp dstIp : UInt32) (length : UInt16) (segment : List UInt8)
    : (words (pseudoHeader srcIp dstIp length ++ segment)).sum
      = halves srcIp + halves dstIp + ipProtocolTcp.toNat + length.toNat
        + (words segment).sum := by
  have src := srcIp.toNat_lt
  have dst := dstIp.toNat_lt
  have len := length.toNat_lt
  simp only [pseudoHeader, netBytes32, netBytes16, bytes32, bytes16, List.reverse_cons,
    List.reverse_nil, List.nil_append, List.cons_append, words, List.sum_cons,
    halves, UInt32.toNat_toUInt8, UInt16.toNat_toUInt8, UInt32.toNat_shiftRight,
    UInt16.toNat_shiftRight, UInt32.reduceToNat, UInt16.reduceToNat, Nat.reduceMod,
    Nat.shiftRight_eq_div_pow, UInt8.toNat_zero]
  omega

theorem pseudoIpSum_toNat (myip dstIp : UInt32) (size : UInt16)
    : (pseudoIpSum myip dstIp size).toNat
      = halves myip + halves dstIp + (htons ipProtocolTcp.toUInt16).toNat
        + (htons size).toNat := by
  have first := addrSum_toNat_le myip
  have second := addrSum_toNat_le dstIp
  have third := (htons size).toNat_lt
  have fourth := (htons ipProtocolTcp.toUInt16).toNat_lt
  simp only [pseudoIpSum, UInt32.toNat_add, UInt16.toNat_toUInt32, addrSum_toNat] at *
  omega

/-- A segment whose checksum is zero for `tcp_receive` carries the checksum of TCP exactly if
swapping the bytes of the address words makes no difference.
-/
theorem sum_words_modEq_zero_iff {mem : Int → UInt8} {myip dstIp : UInt32} {n : Nat}
    (long : 1 ≤ n) (valid : checksum mem 0 n (pseudoIpSum myip dstIp (UInt16.ofNat n)) = 0)
    : (words
        (pseudoHeader myip dstIp (UInt16.ofNat n) ++ slice mem 0 n)).sum ≡ 0 [MOD 65535]
      ↔ 257 ∣ halves myip + halves dstIp := by
  obtain ⟨-, zero⟩ := (checksum_eq_zero_iff mem 0 (by omega) (pseudoIpSum_toNat_lt ..)).mp valid
  rw [pseudoIpSum_toNat, Int.toNat_natCast] at zero
  have segment := sum_words_slice mem 0 n
  have protocol := htons_mul ipProtocolTcp.toUInt16
  have length := htons_mul (UInt16.ofNat n)
  rw [sum_words_pseudoHeader]
  have six : ipProtocolTcp.toUInt16.toNat = ipProtocolTcp.toNat := by decide
  simp only [Nat.ModEq, six] at *
  omega

section

variable (packet : Int → UInt8) (myip : UInt32) (srcPort dstPort : UInt16)
  (dstIp seqNum ackNum : UInt32) (flags hdrSize : UInt8) (data : List UInt8)

/-- The segment that `tcp_pack` builds carries the checksum of TCP exactly if it reaches to the
end of its checksum field and the halves of the two addresses add up to a multiple of 257.
Witness: `tcp_pack` makes the sum of the words zero in its own byte order; swapping bytes
multiplies a sum by 256, and 65535 divides 255 times the addresses only if 257 divides them.
-/
theorem tcpPack_carriesChecksum_iff
    : CarriesChecksum myip dstIp
        (slice (tcpPack packet myip srcPort dstPort dstIp seqNum ackNum flags hdrSize data) 0
          (hdrSize.toNat + data.length))
      ↔ 18 ≤ hdrSize.toNat + data.length ∧ 257 ∣ halves myip + halves dstIp := by
  rw [CarriesChecksum, length_slice]
  refine and_congr_right fun long => ?_
  have valid := checksum_tcpPack_of_field packet myip srcPort dstPort dstIp seqNum ackNum flags
    hdrSize data long
  refine (sum_eq_ones_iff (by omega) (words_lt _)).trans ?_
  rw [← sum_words_modEq_zero_iff (by omega) valid]
  refine and_iff_right ?_
  rw [sum_words_pseudoHeader]
  have protocol : 0 < ipProtocolTcp.toNat := by decide
  omega

end

/-- The SYN that the host of `ip.c` sends to its gateway does not carry the checksum of TCP. -/
theorem syn_to_gateway_checksum_wrong
    : ¬ CarriesChecksum 0xc0a80202 0xc0a80201
        (slice
          (tcpPack (fun _ => 0) 0xc0a80202 1024 80 0xc0a80201 initialSeq 0 tcpFlagSyn 24
            tcpMssOption)
          0 28) := by
  decide +kernel

end Xv6Net
