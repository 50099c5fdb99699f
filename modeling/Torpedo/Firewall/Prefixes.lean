import Torpedo.Firewall.Decisions
import Torpedo.Util.Cidr

/-!
# Prefixes of rules

A rule has the addresses of a prefix as the number of an address and the number of bits that count. Both
are read from a text in CIDR notation.
-/

namespace Torpedo

open DHCP (trim)

/-- `toIPv4Address` of a text. -/
def IPv4.toIPv4Address (characters : Digits) (ipAddress : List Char) : Except Stop Int32 :=
  let octets := splitPieces '.' ipAddress
  if octets.length ≠ 4 then .error .exception
  else
    (octets.zip [24, 16, 8, 0]).foldlM (fun result (octet, shift) => do
      let number ← orThrow (characters.valueOf 10 32 (.ofList octet))
      return result ||| Int32.ofInt number <<< shift) 0

namespace FirewallRule

/-- `IPCIDRToPrefixBits`. -/
def ipCidrToPrefixBits (characters : Digits) (cidr : String) : Except Stop (Int32 × Int32) :=
  match splitPieces '/' cidr.toList with
  | [] => .error .exception
  | cidrPrefix :: rest => do
    let cidrBits : Int32 :=
      match rest with
      | [bits] => ((characters.valueOf 10 32 (.ofList (trim bits))).map Int32.ofInt).getD 32
      | _ => 0
    let address ← IPv4.toIPv4Address characters (trim cidrPrefix)
    return (address, cidrBits)

/-! ## Texts of prefixes -/

theorem trim_of_forall {cs : List Char} (h : ∀ c ∈ cs, 32 < c.toNat) : trim cs = cs := by
  have hdrop : ∀ l : List Char, (∀ c ∈ l, 32 < c.toNat) → l.dropWhile (·.toNat ≤ 32) = l := by
    intro l hl
    cases l with
    | nil => rfl
    | cons c l =>
      have hc := hl c List.mem_cons_self
      rw [List.dropWhile_cons_of_neg]
      simpa using hc
  unfold trim
  rw [hdrop cs h, hdrop cs.reverse fun c hc => h c (List.mem_reverse.1 hc), List.reverse_reverse]

theorem lt_toNat_of_isDigit {c : Char} (h : c.isDigit) : 32 < c.toNat := by
  have hrange := Char.isDigit_iff_toNat.1 h
  have hzero : '0'.toNat = 48 := rfl
  omega

theorem trim_dotted (address : UInt32) : trim (dotted address) = dotted address := by
  refine trim_of_forall fun c hc => ?_
  obtain hdigit | rfl := mem_dotted hc
  · exact lt_toNat_of_isDigit hdigit
  · decide

theorem trim_toDigits (n : ℕ) : trim (Nat.toDigits 10 n) = Nat.toDigits 10 n :=
  trim_of_forall fun _ hc => lt_toNat_of_isDigit (isDigit_of_mem_toDigits hc)

/-- Numbers of a byte put together are the address. -/
theorem or_shiftLeft_octets (address : UInt32) :
    (0 : Int32) ||| Int32.ofInt (address.toNat / 2 ^ 24 : ℕ) <<< 24 |||
      Int32.ofInt (address.toNat / 2 ^ 16 % 256 : ℕ) <<< 16 |||
      Int32.ofInt (address.toNat / 2 ^ 8 % 256 : ℕ) <<< 8 ||| Int32.ofInt (address.toNat % 256 : ℕ) <<< 0 =
        address.toInt32 := by
  have hlt := address.toNat_lt
  refine Int32.toBitVec_inj.1 (BitVec.eq_of_toNat_eq ?_)
  simp only [Int32.toBitVec_or, BitVec.toNat_or]
  rw [toNat_shiftLeft_ofInt (k := 24) (by decide) (by rw [Nat.shiftLeft_eq]; omega),
    toNat_shiftLeft_ofInt (k := 16) (by decide) (by rw [Nat.shiftLeft_eq]; omega),
    toNat_shiftLeft_ofInt (k := 8) (by decide) (by rw [Nat.shiftLeft_eq]; omega),
    toNat_shiftLeft_ofInt (k := 0) (by decide) (by rw [Nat.shiftLeft_zero]; omega)]
  exact (Nat.zero_or _).symm ▸ or_octets address

theorem toIPv4Address_dotted (characters : Digits) (address : UInt32) :
    IPv4.toIPv4Address characters (dotted address) = .ok address.toInt32 := by
  have hvalue : ∀ n ∈ octets address, characters.valueOf 10 32 (.ofList (Nat.toDigits 10 n)) = some (n : ℤ) :=
    fun n hn => valueOf_octets characters hn
  unfold octets at hvalue
  simp only [List.forall_mem_cons] at hvalue
  obtain ⟨h0, h1, h2, h3, -⟩ := hvalue
  unfold IPv4.toIPv4Address
  rw [splitPieces_dotted, ← or_shiftLeft_octets]
  unfold octets
  simp only [List.map_cons, List.map_nil, List.zip_cons_cons, List.zip_nil_left, List.foldlM_cons, h0, h1, h2, h3]
  rfl

/-- What a rule keeps as the number of bits that count: for a plain address it is 0. -/
def maskbitsOf (c : Cidr) : Int32 := c.length.elim 0 fun n => .ofInt n.val

theorem ipCidrToPrefixBits_text (characters : Digits) (c : Cidr) :
    ipCidrToPrefixBits characters c.text = .ok (c.address.toInt32, maskbitsOf c) := by
  unfold ipCidrToPrefixBits maskbitsOf
  rw [c.splitPieces_text]
  cases c.length with
  | none =>
    simp only [Option.elim_none, trim_dotted, toIPv4Address_dotted]
    rfl
  | some n =>
    have hn : n.val < 2 ^ (32 - 1) := n.isLt.trans (by decide)
    simp only [Option.elim_some, trim_dotted, toIPv4Address_dotted, trim_toDigits, Digits.valueOf_toDigits hn]
    rfl

/-! ## Addresses that are accepted -/

/-- A shift by 32 is none. -/
theorem matchIPAddress_zero {rulePrefix packetAddress : Int32} :
    matchIPAddress rulePrefix 0 packetAddress = true ↔ rulePrefix = packetAddress := by
  have hshift : ∀ x : Int32, x >>> (32 - 0) <<< (32 - 0) = x := by
    intro x
    have hdistance : (32 - 0 : Int32).toBitVec.smod 32 = 0 := by decide
    refine Int32.toBitVec_inj.1 ?_
    rw [Int32.toBitVec_shiftLeft, Int32.toBitVec_shiftRight, hdistance]
    simp
  unfold matchIPAddress
  simp only [if_pos (show (0 : Int32) < 32 - 0 by decide), hshift, decide_eq_true_eq]

/-- The bits that count are compared where there are some, and given. -/
theorem matchIPAddress_length {c : Cidr} {n : Fin 33} (h : c.length = some n) (hn : n ≠ 0) (address : UInt32) :
    matchIPAddress c.address.toInt32 (maskbitsOf c) address.toInt32 = true ↔ c.Covers address := by
  have hlt := n.isLt
  have hpos : 0 < n.val := Fin.pos_iff_ne_zero.2 hn
  have hbits : (maskbitsOf c).toInt = n.val := by
    unfold maskbitsOf
    rw [h, Option.elim_some, Int32.toInt_ofInt, show Int32.size = 2 ^ 32 from rfl]
    exact Int.bmod_eq_of_le (by omega) (by omega)
  rw [matchIPAddress_iff (Int32.lt_iff_toInt_lt.2 (hbits ▸ Int.natCast_pos.2 hpos))]
  unfold Contains Cidr.Covers Cidr.bits
  rw [hbits, h, Option.elim_some, Int.toNat_natCast, UInt32.toUInt32_toInt32]

theorem matchIPAddress_exact {c : Cidr} (h : maskbitsOf c = 0) (address : UInt32) :
    matchIPAddress c.address.toInt32 (maskbitsOf c) address.toInt32 = true ↔ address = c.address := by
  rw [h, matchIPAddress_zero]
  refine ⟨fun heq => ?_, fun heq => heq ▸ rfl⟩
  exact (congrArg Int32.toUInt32 heq).symm

/-- The first bits are compared in every notation but `/0`, which stands for the address alone. -/
theorem prefix_accepts_iff (characters : Digits) (c : Cidr) (address : UInt32) :
    (∃ rulePrefix maskbits, ipCidrToPrefixBits characters c.text = .ok (rulePrefix, maskbits) ∧
      (matchIPAddress rulePrefix maskbits address.toInt32 = true ↔ c.Covers address)) ↔
        ¬(c.length = some 0 ∧ address ≠ c.address) := by
  have hreads : (∃ rulePrefix maskbits, ipCidrToPrefixBits characters c.text = .ok (rulePrefix, maskbits) ∧
      (matchIPAddress rulePrefix maskbits address.toInt32 = true ↔ c.Covers address)) ↔
        (matchIPAddress c.address.toInt32 (maskbitsOf c) address.toInt32 = true ↔ c.Covers address) := by
    rw [ipCidrToPrefixBits_text]
    constructor
    · rintro ⟨_, _, ⟨⟩, h⟩
      exact h
    · exact fun h => ⟨_, _, rfl, h⟩
  rw [hreads]
  cases hlength : c.length with
  | none =>
    have hmaskbits : maskbitsOf c = 0 := by simp [maskbitsOf, hlength]
    have hbits : c.bits = 32 := by simp [Cidr.bits, hlength]
    rw [matchIPAddress_exact hmaskbits, Cidr.covers_iff_eq hbits]
    exact iff_of_true Iff.rfl nofun
  | some n =>
    by_cases hn : n = 0
    · subst hn
      have hmaskbits : maskbitsOf c = 0 := by simp [maskbitsOf, hlength]
      have hbits : c.bits = 0 := by simp [Cidr.bits, hlength]
      rw [matchIPAddress_exact hmaskbits, iff_true_right (Cidr.covers_of_bits_eq_zero hbits address)]
      exact ⟨fun heq h => h.2 heq, fun h => of_not_not fun hne => h ⟨rfl, hne⟩⟩
    · exact iff_of_true (matchIPAddress_length hlength hn address) fun h => hn (Option.some.inj h.1)

/-- A rule for `0.0.0.0/0` is none for 10.0.0.1. -/
theorem not_prefix_accepts : ¬(∃ rulePrefix maskbits,
    ipCidrToPrefixBits Digits.ascii (Cidr.mk 0 (some 0)).text = .ok (rulePrefix, maskbits) ∧
      (matchIPAddress rulePrefix maskbits (0x0a000001 : UInt32).toInt32 = true ↔
        (Cidr.mk 0 (some 0)).Covers 0x0a000001)) := by
  rw [ipCidrToPrefixBits_text]
  rintro ⟨_, _, ⟨⟩, h⟩
  exact absurd h (by decide)

end FirewallRule

end Torpedo
