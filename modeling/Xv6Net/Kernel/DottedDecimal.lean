import Xv6Net.Kernel.NetUtils

/-! Addresses as text: `printint`, `cprintf` and `printf`, which print the four octets of an address
in decimal, and `inet_addr`, which reads them back.
-/

namespace Xv6Net

/-- The loop of `printint`, least significant digit first. There are at most 32 digits to any base.
-/
def digitLoop (digits : List UInt8) (base : UInt32) : Nat → UInt32 → List UInt8
  | 0, _ => []
  | fuel + 1, x =>
    digits.getD (x % base).toNat 0
      :: if x / base ≠ 0 then digitLoop digits base fuel (x / base) else []

/-- The characters that `printint` puts out: the buffer from its end. -/
def printDigits (digits : List UInt8) (xx : Int32) (base : UInt32) (sign : Bool) : List UInt8 :=
  let negative := sign && xx < 0
  let x := if negative then (-xx).toUInt32 else xx.toUInt32
  let buf := digitLoop digits base 32 x ++ if negative then [45] else []
  buf.reverse

/-- `printint` of `console.c`, with the digits `0123456789abcdef`. -/
def printint (xx : Int32) (base : UInt32) (sign : Bool) : List UInt8 :=
  printDigits [48, 49, 50, 51, 52, 53, 54, 55, 56, 57, 97, 98, 99, 100, 101, 102] xx base sign

/-- `printint` of `printf.c`, with the digits `0123456789ABCDEF`. -/
def User.printint (xx : Int32) (base : UInt32) (sgn : Bool) : List UInt8 :=
  printDigits [48, 49, 50, 51, 52, 53, 54, 55, 56, 57, 65, 66, 67, 68, 69, 70] xx base sgn

/-- The string that is printed for a pointer; `(null)` stands for the null pointer. -/
def stringAt (strings : UInt32 → List UInt8) (s : UInt32) : List UInt8 :=
  if s = 0 then [40, 110, 117, 108, 108, 41] else strings s

/-- The loop of `cprintf` from here on in the format, with the next argument at `argp`. -/
def cprintfLoop (strings : UInt32 → List UInt8) (args : Nat → UInt32)
    : List UInt8 → Nat → List UInt8
  | [], _ => []
  | [c], _ => if c ≠ 37 then [c] else []
  | c :: c' :: rest, argp =>
    if c ≠ 37 then c :: cprintfLoop strings args (c' :: rest) argp
    else if c' = 100 then
      printint (args argp).toInt32 10 true ++ cprintfLoop strings args rest (argp + 1)
    else if c' = 120 ∨ c' = 112 then
      printint (args argp).toInt32 16 false ++ cprintfLoop strings args rest (argp + 1)
    else if c' = 115 then
      stringAt strings (args argp) ++ cprintfLoop strings args rest (argp + 1)
    else if c' = 37 then 37 :: cprintfLoop strings args rest argp
    else 37 :: c' :: cprintfLoop strings args rest argp

/-- `cprintf`; `args` are the words that follow the format on the stack. -/
def cprintf (strings : UInt32 → List UInt8) (fmt : List UInt8) (args : Nat → UInt32) : List UInt8 :=
  cprintfLoop strings args fmt 0

/-- The loop of `printf`; `percent` says that its state is `'%'`. -/
def User.printfLoop (strings : UInt32 → List UInt8) (args : Nat → UInt32)
    : List UInt8 → Bool → Nat → List UInt8
  | [], _, _ => []
  | c :: rest, false, ap =>
    if c = 37 then printfLoop strings args rest true ap
    else c :: printfLoop strings args rest false ap
  | c :: rest, true, ap =>
    if c = 100 then
      User.printint (args ap).toInt32 10 true ++ printfLoop strings args rest false (ap + 1)
    else if c = 120 ∨ c = 112 then
      User.printint (args ap).toInt32 16 false ++ printfLoop strings args rest false (ap + 1)
    else if c = 115 then
      stringAt strings (args ap) ++ printfLoop strings args rest false (ap + 1)
    else if c = 99 then (args ap).toUInt8 :: printfLoop strings args rest false (ap + 1)
    else if c = 37 then c :: printfLoop strings args rest false ap
    else 37 :: c :: printfLoop strings args rest false ap

/-- `printf`. -/
def User.printf (strings : UInt32 → List UInt8) (fmt : List UInt8) (args : Nat → UInt32)
    : List UInt8 :=
  User.printfLoop strings args fmt false 0

/-- The four octets of an address, as `sys_ifconfig` passes them. -/
def octets (ip : UInt32) (stack : Nat → UInt32) : Nat → UInt32
  | 0 => (ip >>> 24) &&& 0xff
  | 1 => (ip >>> 16) &&& 0xff
  | 2 => (ip >>> 8) &&& 0xff
  | 3 => ip &&& 0xff
  | n + 4 => stack n

/-- The format `%d.%d.%d.%d`. -/
def dottedFormat : List UInt8 := [37, 100, 46, 37, 100, 46, 37, 100, 46, 37, 100]

def dotted (strings : UInt32 → List UInt8) (stack : Nat → UInt32) (ip : UInt32) : List UInt8 :=
  cprintf strings dottedFormat (octets ip stack)

def User.dotted (strings : UInt32 → List UInt8) (stack : Nat → UInt32) (ip : UInt32)
    : List UInt8 :=
  User.printf strings dottedFormat (octets ip stack)

/-- What `sys_ifconfig` prints; the three lines start with `IP: `, `Netmask: ` and `Gateway: `. -/
def sysIfconfig (strings : UInt32 → List UInt8) (stack : Nat → UInt32)
    (myip netmask gateway : UInt32)
    : List UInt8 :=
  cprintf strings ([73, 80, 58, 32] ++ dottedFormat ++ [10]) (octets myip stack)
  ++ cprintf strings ([78, 101, 116, 109, 97, 115, 107, 58, 32] ++ dottedFormat ++ [10])
      (octets netmask stack)
  ++ cprintf strings ([71, 97, 116, 101, 119, 97, 121, 58, 32] ++ dottedFormat ++ [10])
      (octets gateway stack)

/-- The loop of `inet_addr` over the characters before the final NUL, and what follows it. -/
def inetAddrLoop : List UInt8 → Int32 → Int32 → UInt32
  | [], ip, byte => ((ip <<< 8) ||| byte).toUInt32
  | c :: rest, ip, byte =>
    if c = 46 then inetAddrLoop rest ((ip <<< 8) ||| byte) 0
    else inetAddrLoop rest ip (byte * 10 + (c.toInt8.toInt32 - 48))

/-- `inet_addr` of `netutils.c`. -/
def inetAddr (ipStr : List UInt8) : UInt32 := inetAddrLoop ipStr 0 0

/-- `inet_addr` of `unet.c`. -/
def User.inetAddr (ipStr : List UInt8) : UInt32 := inetAddrLoop ipStr 0 0

/-- The table has the decimal digits where they belong. -/
def Decimal (digits : List UInt8) : Prop := ∀ d < 10, digits.getD d 0 = UInt8.ofNat (48 + d)

instance (digits : List UInt8) : Decidable (Decimal digits) :=
  inferInstanceAs (Decidable (∀ d < 10, digits.getD d 0 = UInt8.ofNat (48 + d)))

theorem digit_not_dot (d : Nat) (small : d < 10) : UInt8.ofNat (48 + d) ≠ 46 := by
  revert d
  decide

theorem digit_value (d : Nat) (small : d < 10)
    : (UInt8.ofNat (48 + d)).toInt8.toInt32 - 48 = (UInt32.ofNat d).toInt32 := by
  revert d
  decide

theorem div_ten_add_mod (x : UInt32) : x / 10 * 10 + x % 10 = x := by
  apply UInt32.toNat_inj.mp
  have bound := x.toNat_lt
  simp only [UInt32.toNat_add, UInt32.toNat_mul, UInt32.toNat_div, UInt32.toNat_mod,
    UInt32.reduceToNat]
  omega

variable {digits : List UInt8} {x : UInt32}

/-- Reading the digits of a number gives it back; the last one printed is the first of the buffer.
-/
theorem inetAddrLoop_digits (decimal : Decimal digits) {fuel : Nat}
    (enough : x.toNat < 10 ^ fuel) (positive : 0 < fuel) (rest : List UInt8) (ip : Int32)
    : inetAddrLoop ((digitLoop digits 10 fuel x).reverse ++ rest) ip 0
      = inetAddrLoop rest ip x.toInt32 := by
  induction fuel generalizing x rest with
  | zero => cases positive
  | succ fuel ih =>
    have small : (x % 10).toNat < 10 := by
      rw [UInt32.toNat_mod]
      exact Nat.mod_lt _ (by decide)
    have last : inetAddrLoop (digits.getD (x % 10).toNat 0 :: rest) ip (x / 10).toInt32
        = inetAddrLoop rest ip x.toInt32 := by
      rw [decimal _ small, inetAddrLoop, if_neg (digit_not_dot _ small), digit_value _ small,
        UInt32.ofNat_toNat]
      congr 1
      exact congrArg UInt32.toInt32 (div_ten_add_mod x)
    rw [digitLoop, List.reverse_cons, List.append_assoc, List.singleton_append]
    by_cases more : x / 10 = 0
    · rw [if_neg (not_not.mpr more), List.reverse_nil, List.nil_append, ← last, more]
      rfl
    · have fewer : (x / 10).toNat < 10 ^ fuel := by
        rw [UInt32.toNat_div]
        exact Nat.div_lt_of_lt_mul (by rw [Nat.pow_succ, Nat.mul_comm] at enough; exact enough)
      have still : 0 < fuel := by
        by_contra none_
        rw [Nat.eq_zero_of_not_pos none_] at fewer
        exact more (UInt32.toNat_inj.mp (Nat.lt_one_iff.mp fewer))
      rw [if_pos more, ih fewer still, last]

theorem inetAddrLoop_printDigits (decimal : Decimal digits)
    (small : x.toNat < 256) (rest : List UInt8) (ip : Int32)
    : inetAddrLoop (printDigits digits x.toInt32 10 true ++ rest) ip 0
      = inetAddrLoop rest ip x.toInt32 := by
  have value : x.toInt32.toInt = x.toNat := by
    refine BitVec.toInt_eq_toNat_of_lt ?_
    change 2 * x.toNat < 2 ^ 32
    omega
  have nonneg : (true && decide (x.toInt32 < 0)) = false := by
    rw [Bool.true_and, decide_eq_false_iff_not, Int32.lt_iff_toInt_lt, value]
    exact Int.not_lt.mpr (Int.natCast_nonneg _)
  have printed : printDigits digits x.toInt32 10 true = (digitLoop digits 10 32 x).reverse := by
    simp only [printDigits, nonneg, Bool.false_eq_true, if_false, List.append_nil]
    rfl
  rw [printed]
  exact inetAddrLoop_digits decimal (by omega) (by decide) rest ip

theorem shift_or_toNat (ip : Int32) {byte : UInt32} (small : byte.toNat < 256)
    : ((ip <<< 8) ||| byte.toInt32).toUInt32.toNat
      = ip.toUInt32.toNat % 2 ^ 24 * 256 + byte.toNat := by
  have same : ((ip <<< 8) ||| byte.toInt32).toUInt32 = (ip.toUInt32 <<< 8) ||| byte := rfl
  have shifted : (ip.toUInt32.toNat <<< 8) % 2 ^ 32 = (ip.toUInt32.toNat % 2 ^ 24) <<< 8 := by
    rw [Nat.shiftLeft_eq, Nat.shiftLeft_eq]
    omega
  rw [same, UInt32.toNat_or, UInt32.toNat_shiftLeft]
  simp only [UInt32.reduceToNat, Nat.reduceMod]
  rw [shifted, ← Nat.shiftLeft_add_eq_or_of_lt small, Nat.shiftLeft_eq]

theorem octet_toNat (x : UInt32) : (x &&& 0xff).toNat = x.toNat % 256 := by
  rw [UInt32.toNat_and]
  exact Nat.and_two_pow_sub_one_eq_mod _ 8

theorem octet_lt (x : UInt32) : (x &&& 0xff).toNat < 256 := by
  rw [octet_toNat]
  exact Nat.mod_lt _ (by decide)

/-- The character `.`. -/
def dot : UInt8 := 46

/-- The text of an address as `%d.%d.%d.%d` prints it. -/
def dottedText (digits : List UInt8) (ip : UInt32) : List UInt8 :=
  let octet x := printDigits digits (x &&& 0xff).toInt32 10 true
  octet (ip >>> 24) ++ dot :: (octet (ip >>> 16) ++ dot :: (octet (ip >>> 8) ++ dot ::
    (octet ip ++ [])))

theorem inetAddrLoop_dottedText (decimal : Decimal digits) (ip : UInt32)
    : inetAddrLoop (dottedText digits ip) 0 0 = ip := by
  have next (rest : List UInt8) (ip byte : Int32)
      : inetAddrLoop (dot :: rest) ip byte = inetAddrLoop rest ((ip <<< 8) ||| byte) 0 := rfl
  rw [dottedText, inetAddrLoop_printDigits decimal (octet_lt _), next,
    inetAddrLoop_printDigits decimal (octet_lt _), next,
    inetAddrLoop_printDigits decimal (octet_lt _), next,
    inetAddrLoop_printDigits decimal (octet_lt _), inetAddrLoop]
  apply UInt32.toNat_inj.mp
  rw [shift_or_toNat _ (octet_lt _), shift_or_toNat _ (octet_lt _), shift_or_toNat _ (octet_lt _),
    shift_or_toNat _ (octet_lt _)]
  have bound := ip.toNat_lt
  have zero : (0 : Int32).toUInt32.toNat = 0 := rfl
  simp only [octet_toNat, UInt32.toNat_shiftRight, UInt32.reduceToNat, Nat.reduceMod,
    Nat.shiftRight_eq_div_pow, zero]
  omega

/-- Both libraries read back every address that either of them prints, and `sys_ifconfig` prints its
three addresses in this way.
-/
theorem dotted_round_trip (strings : UInt32 → List UInt8) (stack : Nat → UInt32) (ip : UInt32)
    : inetAddr (dotted strings stack ip) = ip ∧ User.inetAddr (dotted strings stack ip) = ip
      ∧ inetAddr (User.dotted strings stack ip) = ip
      ∧ User.inetAddr (User.dotted strings stack ip) = ip
      ∧ ∀ netmask gateway, sysIfconfig strings stack ip netmask gateway
          = [73, 80, 58, 32] ++ dotted strings stack ip ++ [10]
            ++ ([78, 101, 116, 109, 97, 115, 107, 58, 32] ++ dotted strings stack netmask ++ [10])
            ++ ([71, 97, 116, 101, 119, 97, 121, 58, 32] ++ dotted strings stack gateway
              ++ [10]) := by
  have lower : Decimal [48, 49, 50, 51, 52, 53, 54, 55, 56, 57, 97, 98, 99, 100, 101, 102] := by
    decide
  have upper : Decimal [48, 49, 50, 51, 52, 53, 54, 55, 56, 57, 65, 66, 67, 68, 69, 70] := by
    decide
  have kernel := inetAddrLoop_dottedText lower ip
  have user := inetAddrLoop_dottedText upper ip
  refine ⟨kernel, kernel, user, user, fun netmask gateway => ?_⟩
  simp [sysIfconfig, dotted, cprintf, dottedFormat, cprintfLoop]

end Xv6Net
