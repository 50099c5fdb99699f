import Torpedo.LinkDiscovery.Messages
import Torpedo.Packet.MatchLibrary
import Torpedo.Packet.Matches
import Torpedo.StaticEntryManager.StaticFlowEntry
import Torpedo.Util.Cidr

/-!
# Matches of texts

`OFProtocol.loadOFMatchFromString` makes a match of a text with pairs of a key and a value. Some keys are
spelled in two ways, and the ports are those of the protocol that has been read before them.
-/

namespace Torpedo

/-- What is thrown, with the message if it is one of the method itself. -/
inductive MatchTextFailure
  | illegalArgument (message : String)
  | runtime
deriving DecidableEq, Repr

/-- A value that a builder is given for a field, with a mask for `setMasked`. -/
structure FieldSetting where
  field : MatchField
  value : ℤ
  mask : Option UInt32
deriving DecidableEq, Repr

namespace OFProtocol

/-! ## Builders -/

/-- Where a builder keeps a field. OpenFlow 1.0 has the same ports for all protocols. -/
def slot : OFVersion → MatchField → MatchField
  | .of10, .udpSrc | .of10, .icmpv4Type => .tcpSrc
  | .of10, .udpDst | .of10, .icmpv4Code => .tcpDst
  | _, f => f

/-- A single bit is left of the complement of the mask and one. -/
def isCidrMask (mask : UInt32) : Bool := (List.range 32).any fun k => ~~~mask + 1 = .ofNat (2 ^ k)

/-- What is kept for a value: a mask of ones is none, and with a mask of zeros nothing is. -/
def content (setting : FieldSetting) : Option (Oxm ℤ) :=
  match setting.mask with
  | none => some ⟨setting.value, none⟩
  | some mask =>
    if mask = 0 then none
    else if mask = 0xffffffff then some ⟨setting.value, none⟩
    else some ⟨setting.value, some mask.toNat⟩

/-- OpenFlow 1.0 has no field for `IP_ECN`, and takes masks of prefixes only. -/
def supports (version : OFVersion) (setting : FieldSetting) : Bool :=
  match version with
  | .of10 => setting.field ≠ .ipEcn && setting.mask.all isCidrMask
  | .of11 | .of12 | .of13 => true

/-- `setExact` and `setMasked`. Nothing is set in a builder of OpenFlow 1.1. -/
def set (version : OFVersion) (builder : OfMatch MatchField ℤ) (setting : FieldSetting) :
    Except MatchTextFailure (OfMatch MatchField ℤ) :=
  if supports version setting then
    match version with
    | .of11 => .ok builder
    | .of10 | .of12 | .of13 => .ok (Function.update builder (slot version setting.field) (content setting))
  else .error .runtime

/-- The fields that are kept when a match is built. In OpenFlow 1.0 these are the ones that the others ask for, and
the match of OpenFlow 1.1 has none. -/
def keeps (version : OFVersion) (builder : OfMatch MatchField ℤ) (f : MatchField) : Bool :=
  match version with
  | .of10 =>
    let isIPv4 := decide (builder .ethType = some ⟨0x0800, none⟩)
    let isArp := decide (builder .ethType = some ⟨0x0806, none⟩)
    match f with
    | .ipDscp => isIPv4
    | .ipProto | .ipv4Src | .ipv4Dst => isIPv4 || isArp
    | .tcpSrc | .tcpDst =>
      isIPv4 && ([6, 17, 1].any fun n => builder .ipProto = some ⟨n, none⟩)
    | _ => true
  | .of11 => false
  | .of12 | .of13 => true

def build (version : OFVersion) (builder : OfMatch MatchField ℤ) : OfMatch MatchField ℤ := fun f =>
  if keeps version builder f then builder f else none

/-! ## Values -/

/-- What is there, or an exception of the library. -/
def orFail {α : Type} : Option α → Except MatchTextFailure α
  | some a => .ok a
  | none => .error .runtime

variable (characters : Digits)

/-- `Integer.valueOf`, `Short.valueOf` and `Byte.valueOf`. -/
def number (radix bits : ℕ) (value : String) : Except MatchTextFailure ℤ :=
  orFail (characters.valueOf radix bits value)

/-- `replaceFirst("0x", "")`. -/
def replaceFirstHexMark : List Char → List Char
  | '0' :: 'x' :: cs => cs
  | c :: cs => c :: replaceFirstHexMark cs
  | [] => []

/-- A number that is hexadecimal if there is a mark in it. -/
def markedNumber (isMarked : Bool) (value : String) : Except MatchTextFailure ℤ :=
  if isMarked then number characters 16 32 (.ofList (replaceFirstHexMark value.toList))
  else number characters 10 32 value

/-- The setting of a field for which its type takes a number. -/
def ofNumber (field : MatchField) (n : ℤ) : Except MatchTextFailure (List FieldSetting) := do
  let n ← orFail (OFFactory.ofNumber13 field n)
  return [⟨field, n, none⟩]

def readMac (field : MatchField) (value : String) : Except MatchTextFailure (List FieldSetting) := do
  let address ← orFail (OFFactory.macAddressOf characters value)
  return [⟨field, address, none⟩]

def readProtocol (value : String) : Except MatchTextFailure ℤ := do
  let n ← number characters 10 16 value
  orFail (OFFactory.ofNumber13 .ipProto n)

/-- The four numbers of an address, each at its place. -/
def readAddress (address : List Char) : Except MatchTextFailure Int32 :=
  let octets := splitPieces '.' address
  if octets.length < 4 then .error .runtime
  else
    (octets.zip [24, 16, 8, 0]).foldlM (fun ip (octet, shift) => do
      let n ← number characters 10 32 (.ofList octet)
      return ip + Int32.ofInt n <<< shift) 0

/-- All bits are fixed by default. -/
def readPrefixLength : Option (List Char) → Except MatchTextFailure Int32
  | some bits => (number characters 10 32 (.ofList bits)).map Int32.ofInt
  | none => .ok 32

/-- A shift of the sign. Its distance is taken modulo 32. -/
def maskOf (prefixLength : Int32) : UInt32 := (Int32.minValue >>> (prefixLength - 1)).toUInt32

/-- The address and the mask that `setFromCIDR` reads. `Masked.of` cuts the address to the mask. -/
def readCIDR (cidr : String) : Except MatchTextFailure Masked := do
  let values := splitPieces '/' cidr.toList
  let address ← orFail values[0]?
  let ip ← readAddress characters address
  let prefixLength ← readPrefixLength characters values[1]?
  let mask := maskOf prefixLength
  return ⟨ip.toUInt32 &&& mask, mask⟩

/-- The fields of `setFromCIDR`. -/
inductive Which
  | nwDst | nwSrc
deriving DecidableEq, Repr

def Which.field : Which → MatchField
  | nwDst => .ipv4Dst
  | nwSrc => .ipv4Src

def cidrSetting (which : Which) (masked : Masked) : FieldSetting :=
  ⟨which.field, masked.value.toNat, some masked.mask⟩

def setFromCIDR (version : OFVersion) (builder : OfMatch MatchField ℤ) (cidr : String) (which : Which) :
    Except MatchTextFailure (OfMatch MatchField ℤ) := do
  let masked ← readCIDR characters cidr
  set version builder (cidrSetting which masked)

/-! ## Prefixes -/

/-- Numbers of a byte added up are the address. -/
theorem add_shiftLeft_octets (address : UInt32) :
    (0 : Int32) + Int32.ofInt (address.toNat / 2 ^ 24 : ℕ) <<< 24 +
      Int32.ofInt (address.toNat / 2 ^ 16 % 256 : ℕ) <<< 16 +
      Int32.ofInt (address.toNat / 2 ^ 8 % 256 : ℕ) <<< 8 + Int32.ofInt (address.toNat % 256 : ℕ) <<< 0 =
        address.toInt32 := by
  have hlt := address.toNat_lt
  refine Int32.toBitVec_inj.1 (BitVec.eq_of_toNat_eq ?_)
  simp only [Int32.toBitVec_add, BitVec.toNat_add]
  rw [toNat_shiftLeft_ofInt (k := 24) (by decide) (by rw [Nat.shiftLeft_eq]; omega),
    toNat_shiftLeft_ofInt (k := 16) (by decide) (by rw [Nat.shiftLeft_eq]; omega),
    toNat_shiftLeft_ofInt (k := 8) (by decide) (by rw [Nat.shiftLeft_eq]; omega),
    toNat_shiftLeft_ofInt (k := 0) (by decide) (by rw [Nat.shiftLeft_zero]; omega)]
  simp only [Nat.shiftLeft_eq]
  show _ = address.toNat
  have hzero : (0 : Int32).toBitVec.toNat = 0 := rfl
  omega

theorem readAddress_dotted (address : UInt32) : readAddress characters (dotted address) = .ok address.toInt32 := by
  have hvalue : ∀ n ∈ octets address, characters.valueOf 10 32 (.ofList (Nat.toDigits 10 n)) = some (n : ℤ) :=
    fun n hn => valueOf_octets characters hn
  unfold octets at hvalue
  simp only [List.forall_mem_cons] at hvalue
  obtain ⟨h0, h1, h2, h3, -⟩ := hvalue
  unfold readAddress number
  rw [splitPieces_dotted, ← add_shiftLeft_octets]
  unfold octets
  simp only [List.map_cons, List.map_nil, List.zip_cons_cons, List.zip_nil_left, List.foldlM_cons, h0, h1, h2, h3]
  rfl

theorem readPrefixLength_toDigits (n : Fin 33) :
    readPrefixLength characters (some (Nat.toDigits 10 n.val)) = .ok (.ofInt n.val) := by
  have hn : n.val < 2 ^ (32 - 1) := Nat.lt_trans n.isLt (by decide)
  unfold readPrefixLength number
  dsimp only
  rw [Digits.valueOf_toDigits hn]
  rfl

/-- The number of bits of a prefix, as it is read. -/
def lengthOf (c : Cidr) : Int32 := .ofInt c.bits

theorem readCIDR_text (c : Cidr) :
    readCIDR characters c.text = .ok ⟨c.address &&& maskOf (lengthOf c), maskOf (lengthOf c)⟩ := by
  have hlength : readPrefixLength characters
      (c.length.elim [dotted c.address] fun n => [dotted c.address, Nat.toDigits 10 n])[1]? =
        .ok (lengthOf c) := by
    unfold lengthOf Cidr.bits
    cases c.length with
    | none => rfl
    | some n => exact readPrefixLength_toDigits characters n
  have haddress : (c.length.elim [dotted c.address] fun n => [dotted c.address, Nat.toDigits 10 n])[0]? =
      some (dotted c.address) := by
    cases c.length <;> rfl
  unfold readCIDR
  dsimp only
  rw [c.splitPieces_text, haddress, hlength]
  show (do
    let ip ← readAddress characters (dotted c.address)
    _) = _
  rw [readAddress_dotted]
  rfl

/-- The first bits of a mask, as many as the prefix has. -/
def IsMaskOf (bits : ℕ) (mask : UInt32) : Prop := ∀ i < 32, mask.toNat.testBit i = decide (32 - bits ≤ i)

/-- The field is restricted to the prefix: the bits that count are those of the mask. If there are none, the field
is free. -/
def HasPrefix (m : OfMatch MatchField ℤ) (c : Cidr) (which : Which) : Prop :=
  ∃ mask, IsMaskOf c.bits mask ∧ m which.field = content (cidrSetting which ⟨c.address &&& mask, mask⟩)

/-- The builder gets the prefix, and is otherwise as it was. -/
def PutsPrefix (version : OFVersion) (builder : OfMatch MatchField ℤ) (c : Cidr) (which : Which) : Prop :=
  ∃ builder', setFromCIDR characters version builder c.text which = .ok builder' ∧ HasPrefix builder' c which ∧
    ∀ f ≠ which.field, builder' f = builder f

theorem isMaskOf_maskOf {c : Cidr} (h : c.bits ≠ 0) : IsMaskOf c.bits (maskOf (lengthOf c)) := by
  have hall : ∀ n : Fin 33, n ≠ 0 → ∀ i < 32,
      (maskOf (.ofInt n.val)).toNat.testBit i = decide (32 - n.val ≤ i) := by
    decide +kernel
  exact hall ⟨c.bits, Nat.lt_succ_of_le c.bits_le⟩ fun hzero => h (congrArg Fin.val hzero)

theorem isCidrMask_maskOf (c : Cidr) : isCidrMask (maskOf (lengthOf c)) := by
  have hall : ∀ n : Fin 33, isCidrMask (maskOf (.ofInt n.val)) := by decide +kernel
  exact hall ⟨c.bits, Nat.lt_succ_of_le c.bits_le⟩

/-- The distance of -1 is one of 31. -/
theorem maskOf_zero : maskOf 0 = 0xffffffff := by decide +kernel

theorem testBit_eq_false {a : UInt32} {i : ℕ} (h : 32 ≤ i) : a.toNat.testBit i = false :=
  Nat.testBit_lt_two_pow (Nat.lt_of_lt_of_le a.toNat_lt (Nat.pow_le_pow_right (by decide) h))

theorem IsMaskOf.eq_zero {mask : UInt32} (h : IsMaskOf 0 mask) : mask = 0 := by
  refine UInt32.toNat_inj.1 (Nat.eq_of_testBit_eq fun i => ?_)
  rw [UInt32.toNat_zero, Nat.zero_testBit]
  by_cases hi : i < 32
  · rw [h i hi, decide_eq_false_iff_not]
    omega
  · exact testBit_eq_false (by omega)

variable {version : OFVersion} {builder m : OfMatch MatchField ℤ} {c : Cidr} {which : Which}

/-- A new builder has a prefix just if no bits of it count. -/
theorem hasPrefix_new_iff : HasPrefix (fun _ => none) c which ↔ c.bits = 0 := by
  constructor
  · rintro ⟨mask, hmask, hcontent⟩
    by_contra hne
    have hbit := hmask 31 (by decide)
    have hzero : mask = 0 := by
      by_contra hmaskne
      unfold content cidrSetting at hcontent
      simp only [if_neg hmaskne] at hcontent
      split_ifs at hcontent
    have hlt : 32 - c.bits ≤ 31 := by omega
    rw [hzero, decide_eq_true hlt, UInt32.toNat_zero, Nat.zero_testBit] at hbit
    exact nomatch hbit
  · intro hzero
    refine ⟨0, fun i hi => ?_, rfl⟩
    rw [hzero, decide_eq_false (by omega), UInt32.toNat_zero, Nat.zero_testBit]

theorem slot_field (version : OFVersion) (which : Which) : slot version which.field = which.field := by
  cases version <;> cases which <;> rfl

theorem set_cidrSetting {masked : Masked} (hversion : version ≠ .of11) (hmask : isCidrMask masked.mask) :
    set version builder (cidrSetting which masked) =
      .ok (Function.update builder which.field (content (cidrSetting which masked))) := by
  have hsupports : supports version (cidrSetting which masked) := by
    cases version with
    | of10 => cases which <;> simp [supports, cidrSetting, Which.field, hmask]
    | _ => rfl
  have hslot : slot version (cidrSetting which masked).field = which.field := slot_field version which
  unfold set
  rw [if_pos hsupports, hslot]
  cases version with
  | of11 => exact absurd rfl hversion
  | _ => rfl

theorem setFromCIDR_text (hversion : version ≠ .of11) : setFromCIDR characters version builder c.text which =
    .ok (Function.update builder which.field
      (content (cidrSetting which ⟨c.address &&& maskOf (lengthOf c), maskOf (lengthOf c)⟩))) := by
  unfold setFromCIDR
  rw [readCIDR_text]
  exact set_cidrSetting hversion (isCidrMask_maskOf c)

/-! ### Addresses of a prefix -/

/-- The address is one that a field lets through. -/
def Matches (field : Option (Oxm ℤ)) (address : UInt32) : Prop :=
  match field with
  | none => True
  | some ⟨value, none⟩ => (address.toNat : ℤ) = value
  | some ⟨value, some mask⟩ => ((address.toNat &&& mask.toNat : ℕ) : ℤ) = value

theorem matches_content_iff {a mask address : UInt32} :
    Matches (content (cidrSetting which ⟨a &&& mask, mask⟩)) address ↔ address &&& mask = a &&& mask := by
  unfold content cidrSetting
  dsimp only
  split_ifs with hzero hones
  · subst hzero
    simp [Matches]
  · subst hones
    have hneg : (0xffffffff : UInt32) = -1 := rfl
    rw [hneg, UInt32.and_neg_one, UInt32.and_neg_one]
    show (address.toNat : ℤ) = a.toNat ↔ _
    rw [Int.natCast_inj, UInt32.toNat_inj]
  · show ((address.toNat &&& (mask.toNat : ℤ).toNat : ℕ) : ℤ) = (a &&& mask).toNat ↔ _
    rw [Int.natCast_inj, ← UInt32.toNat_inj, UInt32.toNat_and, UInt32.toNat_and, Int.toNat_natCast]

/-- Cut to the mask of a prefix, addresses are the same if the bits that count are. -/
theorem IsMaskOf.and_eq_and_iff {bits : ℕ} {mask : UInt32} (h : IsMaskOf bits mask) (a b : UInt32) :
    a &&& mask = b &&& mask ↔ a.toNat / 2 ^ (32 - bits) = b.toNat / 2 ^ (32 - bits) := by
  constructor
  · intro hand
    refine Nat.eq_of_testBit_eq fun i => ?_
    rw [Nat.testBit_div_two_pow, Nat.testBit_div_two_pow]
    by_cases hi : i + (32 - bits) < 32
    · have hbit := congrArg (fun x : UInt32 => x.toNat.testBit (i + (32 - bits))) hand
      have hmask := h _ hi
      rw [decide_eq_true (Nat.le_add_left _ _)] at hmask
      simpa [Nat.testBit_and, hmask] using hbit
    · rw [testBit_eq_false (by omega), testBit_eq_false (by omega)]
  · intro hdiv
    refine UInt32.toNat_inj.1 (Nat.eq_of_testBit_eq fun i => ?_)
    rw [UInt32.toNat_and, UInt32.toNat_and, Nat.testBit_and, Nat.testBit_and]
    by_cases hi : i < 32
    · rw [h i hi]
      by_cases hle : 32 - bits ≤ i
      · have hbit := congrArg (fun x : ℕ => x.testBit (i - (32 - bits))) hdiv
        rw [Nat.testBit_div_two_pow, Nat.testBit_div_two_pow, Nat.sub_add_cancel hle] at hbit
        rw [hbit]
      · rw [decide_eq_false hle, Bool.and_false, Bool.and_false]
    · rw [testBit_eq_false (a := a) (by omega), testBit_eq_false (a := b) (by omega)]

/-- A field that is restricted to a prefix lets the addresses of the prefix through. -/
theorem HasPrefix.matches_iff (h : HasPrefix m c which) (address : UInt32) :
    Matches (m which.field) address ↔ c.Covers address := by
  obtain ⟨mask, hmask, hcontent⟩ := h
  rw [hcontent, matches_content_iff, hmask.and_eq_and_iff, eq_comm]
  rfl

/-- When a builder gets a prefix. -/
theorem putsPrefix_iff (version : OFVersion) (builder : OfMatch MatchField ℤ) (c : Cidr) (which : Which) :
    PutsPrefix characters version builder c which ↔
      version ≠ .of11 ∧ c.bits ≠ 0 ∨ version = .of11 ∧ HasPrefix builder c which := by
  by_cases hversion : version = .of11
  · subst hversion
    have hset : setFromCIDR characters .of11 builder c.text which = .ok builder := by
      unfold setFromCIDR
      rw [readCIDR_text]
      rfl
    constructor
    · rintro ⟨builder', h, hprefix, -⟩
      exact .inr ⟨rfl, Except.ok.inj (hset.symm.trans h) ▸ hprefix⟩
    · rintro (⟨hne, -⟩ | ⟨-, hprefix⟩)
      · exact absurd rfl hne
      · exact ⟨builder, hset, hprefix, fun _ _ => rfl⟩
  · constructor
    · rintro ⟨builder', h, ⟨mask, hmask, hcontent⟩, -⟩
      refine .inl ⟨hversion, fun hzero => ?_⟩
      have hbuilder := Except.ok.inj ((setFromCIDR_text characters hversion).symm.trans h)
      have hlength : lengthOf c = 0 := by
        unfold lengthOf
        rw [hzero]
        rfl
      rw [hzero] at hmask
      rw [← hbuilder, Function.update_self, hlength, maskOf_zero, hmask.eq_zero] at hcontent
      exact nomatch hcontent
    · rintro (⟨-, hne⟩ | ⟨heq, -⟩)
      · refine ⟨_, setFromCIDR_text characters hversion, ⟨_, isMaskOf_maskOf hne, ?_⟩, fun f hf => ?_⟩
        · rw [Function.update_self]
        · rw [Function.update_of_ne hf]
      · exact absurd heq hversion

/-- A prefix of length 0 is taken for the address itself. -/
theorem not_putsPrefix : ¬∀ c : Cidr, PutsPrefix .ascii .of13 (fun _ => none) c .nwDst := by
  intro hall
  obtain ⟨builder', h, ⟨mask, hmask, hcontent⟩, -⟩ := hall ⟨0x0a000001, some 0⟩
  rw [IsMaskOf.eq_zero hmask] at hcontent
  have hversion : OFVersion.of13 ≠ .of11 := by decide
  have hbuilder := Except.ok.inj ((setFromCIDR_text .ascii hversion).symm.trans h)
  rw [← hbuilder] at hcontent
  exact absurd hcontent (by decide +kernel)

end OFProtocol

end Torpedo
