import Torpedo.Firewall.Prefixes
import Torpedo.Firewall.Purge
import Torpedo.Util.SeparatedTexts
import Torpedo.VxlanFlowMapper.Storage

/-!
# Texts of addresses

Addresses of IPv4 and MAC addresses are written as texts and read back. The readers cut a text at its
separators, look at the number of the pieces, and read each of them as a numeral of Java, which may have a
sign, digits of any script and any number of them.
-/

namespace Torpedo

/-- `fromIPv4Address`. -/
def IPv4.fromIPv4Address (ipAddress : Int32) : String :=
  ".".intercalate ([24, 16, 8, 0].map fun shift : Int32 => (ipAddress >>> shift &&& 0xff).toInt.repr)

namespace MACAddress

/-- `valueOf` of a text. -/
def valueOfString (characters : Digits) (address : List Char) : Except Stop MACAddress :=
  let elements := splitPieces ':' address
  if elements.length ≠ 6 then .error .exception
  else do
    let addressInBytes ← elements.mapM fun element => do
      let number ← orThrow (characters.valueOf 16 32 (.ofList element))
      return UInt8.ofInt number
    return new addressInBytes

/-- `valueOf` of a number, of which the lower 48 bits count. -/
def valueOfLong (address : Int64) : MACAddress :=
  new ([40, 32, 24, 16, 8, 0].map fun shift : Int64 => (address >>> shift &&& 0xff).toUInt64.toUInt8)

end MACAddress

/-! ## The grammars -/

/-- A decimal octet. -/
structure IsOctet (piece : List Char) : Prop where
  ne_nil : piece ≠ []
  length_le : piece.length ≤ 3
  isDigit : ∀ c ∈ piece, c.isDigit
  value_le : Nat.ofDigitChars 10 piece 0 ≤ 255

def IsHexDigit (c : Char) : Prop := c.isDigit ∨ 'a' ≤ c ∧ c ≤ 'f' ∨ 'A' ≤ c ∧ c ≤ 'F'

/-- Two hexadecimal digits. -/
structure IsHexOctet (piece : List Char) : Prop where
  length_eq : piece.length = 2
  isHexDigit : ∀ c ∈ piece, IsHexDigit c

def DottedQuad : List Char → Prop := Separated '.' 4 IsOctet

def ColonHex : List Char → Prop := Separated ':' 6 IsHexOctet

/-! ## Readers that keep to the grammars -/

/-- What is written is read back, and written again as it was. -/
structure ReadBack {α β : Type} (write : α → β) (read : β → Except Stop α) : Prop where
  read_write : ∀ a, read (write a) = .ok a
  write_read : ∀ b ∈ Set.range write, ∃ a, read b = .ok a ∧ write a = b

theorem ReadBack.of_read_write {α β : Type} {write : α → β} {read : β → Except Stop α}
    (h : ∀ a, read (write a) = .ok a) : ReadBack write read := by
  refine ⟨h, ?_⟩
  rintro _ ⟨a, rfl⟩
  exact ⟨a, h a, rfl⟩

/-- The text is read if it is one of the grammar, and only then; and the texts of addresses and numbers of MAC
addresses are read back. -/
structure ReadsAddresses (characters : Digits) (text : List Char) : Prop where
  ip : (∃ ipAddress, IPv4.toIPv4Address characters text = .ok ipAddress) ↔ DottedQuad text
  mac : (∃ address, MACAddress.valueOfString characters text = .ok address) ↔ ColonHex text
  ip_back : ReadBack (fun ipAddress => (IPv4.fromIPv4Address ipAddress).toList) (IPv4.toIPv4Address characters)
  mac_back : ReadBack (fun address : MACAddress => address.toString.toList) (MACAddress.valueOfString characters)
  long_back : ReadBack MACAddress.toLong fun address => .ok (MACAddress.valueOfLong address)

variable {characters : Digits}

/-! ## The pieces that are read -/

/-- A numeral of Java. -/
def Numeral (characters : Digits) (radix : ℕ) (piece : List Char) : Prop :=
  ∃ n, characters.valueOf radix 32 (.ofList piece) = some n

/-- A sign, a character that is none of ASCII, more than three characters, or a number over 255. -/
def OddOctet (characters : Digits) (piece : List Char) : Prop :=
  Digits.Signed piece ∨ (∃ c ∈ piece, 128 ≤ c.toNat) ∨ 3 < piece.length ∨
    ∃ n, 255 < n ∧ characters.valueOf 10 32 (.ofList piece) = some n

/-- A sign, a character that is none of ASCII, or not two characters. -/
def OddHexOctet (piece : List Char) : Prop :=
  Digits.Signed piece ∨ (∃ c ∈ piece, 128 ≤ c.toNat) ∨ piece.length ≠ 2

theorem isDigit_iff_range {c : Char} : c.isDigit ↔ 48 ≤ c.toNat ∧ c.toNat ≤ 57 := Char.isDigit_iff_toNat

theorem isHexDigit_iff {c : Char} : IsHexDigit c ↔ 48 ≤ c.toNat ∧ c.toNat ≤ 57 ∨
    97 ≤ c.toNat ∧ c.toNat ≤ 102 ∨ 65 ≤ c.toNat ∧ c.toNat ≤ 70 :=
  or_congr_left isDigit_iff_range

theorem isDigit_of_digit {c : Char} {k : ℕ} (hlt : c.toNat < 128) (h : characters.digit c = some k)
    (hk : k < 10) : c.isDigit := by
  rw [characters.digit_ascii c hlt, asciiDigit_eq_some] at h
  exact isDigit_iff_range.2 (by omega)

theorem IsHexDigit.of_digit {c : Char} {k : ℕ} (hlt : c.toNat < 128) (h : characters.digit c = some k)
    (hk : k < 16) : IsHexDigit c := by
  rw [characters.digit_ascii c hlt, asciiDigit_eq_some] at h
  exact isHexDigit_iff.2 (by omega)

theorem IsHexDigit.lt {c : Char} (h : IsHexDigit c) : c.toNat < 128 := by
  have hrange := isHexDigit_iff.1 h
  omega

theorem IsHexDigit.digit {c : Char} (h : IsHexDigit c) : ∃ k < 16, characters.digit c = some k := by
  have hrange := isHexDigit_iff.1 h
  simp only [characters.digit_ascii c h.lt, asciiDigit_eq_some]
  obtain hdigit | hlower | hupper := hrange
  · exact ⟨c.toNat - 48, by omega, by omega⟩
  · exact ⟨c.toNat - 87, by omega, by omega⟩
  · exact ⟨c.toNat - 55, by omega, by omega⟩

/-- What a numeral without a sign is made of. -/
theorem Numeral.digits {radix : ℕ} {piece : List Char} {n : ℤ}
    (h : characters.valueOf radix 32 (.ofList piece) = some n) (hsign : ¬Digits.Signed piece) :
    piece ≠ [] ∧ (∀ c ∈ piece, ∃ k < radix, characters.digit c = some k) := by
  have hparse := (Digits.valueOf_eq_some.1 h).1
  rw [Digits.parse_of_not_signed hsign] at hparse
  obtain ⟨m, hm, -⟩ := Option.map_eq_some_iff.1 hparse
  exact Digits.digit_of_parseDigits hm

theorem IsOctet.valueOf {piece : List Char} (h : IsOctet piece) :
    characters.valueOf 10 32 (.ofList piece) = some (Nat.ofDigitChars 10 piece 0 : ℤ) :=
  Digits.valueOf_of_isDigit h.ne_nil h.isDigit (Nat.lt_of_le_of_lt h.value_le (by decide))

theorem isOctet_iff (piece : List Char) :
    IsOctet piece ↔ Numeral characters 10 piece ∧ ¬OddOctet characters piece := by
  constructor
  · intro h
    refine ⟨⟨_, h.valueOf⟩, ?_⟩
    rintro (hsign | ⟨c, hc, hle⟩ | hlength | ⟨n, hn, hvalue⟩)
    · refine Digits.not_signed (d := characters) (fun c hc => ?_) hsign
      have hhex : IsHexDigit c := .inl (h.isDigit c hc)
      obtain ⟨k, -, hk⟩ : ∃ k < 16, characters.digit c = some k := hhex.digit
      exact ⟨k, hk⟩
    · have hrange := isDigit_iff_range.1 (h.isDigit c hc)
      omega
    · exact absurd h.length_le (by omega)
    · rw [h.valueOf] at hvalue
      have hle := h.value_le
      have hcast := Option.some.inj hvalue
      omega
  · rintro ⟨⟨n, hn⟩, hodd⟩
    unfold OddOctet at hodd
    push Not at hodd
    obtain ⟨hsign, hascii, hlength, hvalue⟩ := hodd
    obtain ⟨hne, hdigits⟩ := Numeral.digits hn hsign
    have hdigit : ∀ c ∈ piece, c.isDigit := fun c hc => by
      obtain ⟨k, hk, hdigit⟩ := hdigits c hc
      exact isDigit_of_digit (hascii c hc) hdigit hk
    refine ⟨hne, hlength, hdigit, ?_⟩
    by_contra hgt
    have hparse := (Digits.valueOf_eq_some.1 hn).1
    rw [Digits.parse_of_not_signed hsign, Digits.parseDigits_of_isDigit hne hdigit] at hparse
    have hcast : (Nat.ofDigitChars 10 piece 0 : ℤ) = n := Option.some.inj hparse
    exact hvalue n (by omega) hn

theorem isHexOctet_iff (piece : List Char) :
    IsHexOctet piece ↔ Numeral characters 16 piece ∧ ¬OddHexOctet piece := by
  constructor
  · intro h
    have hdigit : ∀ c ∈ piece, ∃ k < 16, characters.digit c = some k := fun c hc => (h.isHexDigit c hc).digit
    constructor
    · obtain ⟨a, b, rfl⟩ := List.length_eq_two.1 h.length_eq
      obtain ⟨x, hx, ha⟩ := hdigit a (by simp)
      obtain ⟨y, hy, hb⟩ := hdigit b (by simp)
      exact ⟨_, Digits.valueOf_pair ha hb hx hy⟩
    · rintro (hsign | ⟨c, hc, hle⟩ | hlength)
      · exact Digits.not_signed (d := characters) (fun c hc => (hdigit c hc).imp fun _ hk => hk.2) hsign
      · exact absurd (h.isHexDigit c hc).lt (by omega)
      · exact hlength h.length_eq
  · rintro ⟨⟨n, hn⟩, hodd⟩
    unfold OddHexOctet at hodd
    push Not at hodd
    obtain ⟨hsign, hascii, hlength⟩ := hodd
    refine ⟨hlength, fun c hc => ?_⟩
    obtain ⟨k, hk, hdigit⟩ := (Numeral.digits hn hsign).2 c hc
    exact .of_digit (hascii c hc) hdigit hk

/-! ## The texts that are read -/

theorem toIPv4Address_ok_iff {text : List Char} :
    (∃ ipAddress, IPv4.toIPv4Address characters text = .ok ipAddress) ↔
      Cut '.' 4 (Numeral characters 10) text := by
  unfold IPv4.toIPv4Address Cut
  by_cases hlength : (splitPieces '.' text).length = 4
  · have hpieces : ((splitPieces '.' text).zip [(24 : Int32), 16, 8, 0]).map Prod.fst = splitPieces '.' text :=
      List.map_fst_zip (Nat.le_of_eq hlength)
    rw [if_neg (not_not_intro hlength), and_iff_right hlength, ← hpieces, List.forall_mem_map, hpieces]
    exact foldlM_orThrow_ok_iff (f := fun x : List Char × Int32 => characters.valueOf 10 32 (.ofList x.1))
      (g := fun result x number => result ||| Int32.ofInt number <<< x.2)
  · rw [if_pos hlength]
    exact iff_of_false nofun fun h => hlength h.1

theorem valueOfString_ok_iff {text : List Char} :
    (∃ address, MACAddress.valueOfString characters text = .ok address) ↔
      Cut ':' 6 (Numeral characters 16) text := by
  unfold MACAddress.valueOfString Cut
  by_cases hlength : (splitPieces ':' text).length = 6
  · rw [if_neg (not_not_intro hlength), and_iff_right hlength]
    refine Iff.trans ?_ (mapM_orThrow_ok_iff (f := fun element => characters.valueOf 16 32 (.ofList element))
      (g := UInt8.ofInt))
    constructor
    · rintro ⟨address, h⟩
      cases hbytes : (splitPieces ':' text).mapM fun element => do
          return UInt8.ofInt (← orThrow (characters.valueOf 16 32 (.ofList element))) with
      | error stop => rw [hbytes] at h; cases h
      | ok bytes => exact ⟨bytes, rfl⟩
    · rintro ⟨bytes, h⟩
      rw [h]
      exact ⟨_, rfl⟩
  · rw [if_pos hlength]
    exact iff_of_false nofun fun h => hlength h.1

/-- The text is read, and ends with a dot or has a piece that is no octet. -/
def LaxDotted (characters : Digits) (text : List Char) : Prop :=
  Cut '.' 4 (Numeral characters 10) text ∧
    (text.getLast? = some '.' ∨ ∃ piece ∈ splitPieces '.' text, OddOctet characters piece)

/-- The text is read, and ends with a colon or has a piece that is no pair of digits. -/
def LaxColons (characters : Digits) (text : List Char) : Prop :=
  Cut ':' 6 (Numeral characters 16) text ∧
    (text.getLast? = some ':' ∨ ∃ piece ∈ splitPieces ':' text, OddHexOctet piece)

theorem dottedQuad_iff (text : List Char) :
    ((∃ ipAddress, IPv4.toIPv4Address characters text = .ok ipAddress) ↔ DottedQuad text) ↔
      ¬LaxDotted characters text := by
  rw [toIPv4Address_ok_iff]
  refine cut_iff_separated_iff (fun p hp => ⟨fun hdot => ?_, hp.ne_nil⟩) (by decide) isOctet_iff
  exact absurd (hp.isDigit '.' hdot) (by decide)

theorem colonHex_iff (text : List Char) :
    ((∃ address, MACAddress.valueOfString characters text = .ok address) ↔ ColonHex text) ↔
      ¬LaxColons characters text := by
  rw [valueOfString_ok_iff]
  refine cut_iff_separated_iff (fun p hp => ⟨fun hcolon => ?_, ?_⟩) (by decide) isHexOctet_iff
  · have hrange := isHexDigit_iff.1 (hp.isHexDigit ':' hcolon)
    have hcode : ':'.toNat = 58 := rfl
    omega
  · rintro rfl
    exact absurd hp.length_eq (by decide)

/-! ## The texts that are written -/

/-- A byte of a number, after a shift that keeps the sign. -/
theorem sshiftRight_mod {w k : ℕ} (x : BitVec w) (h : k + 8 ≤ w) :
    (x.sshiftRight k).toNat % 256 = x.toNat / 2 ^ k % 256 := by
  refine Nat.eq_of_testBit_eq fun i => ?_
  rw [show 256 = 2 ^ 8 from rfl, Nat.testBit_mod_two_pow, Nat.testBit_mod_two_pow, Nat.testBit_div_two_pow,
    BitVec.testBit_toNat, BitVec.testBit_toNat, BitVec.getLsbD_sshiftRight]
  by_cases hi : i < 8
  · have hlt : k + i < w := by omega
    have hw : ¬w ≤ i := by omega
    simp [hi, hlt, hw, Nat.add_comm]
  · simp [hi]

theorem and_255 (n : ℕ) : n &&& 255 = n % 256 := Nat.and_two_pow_sub_one_eq_mod n 8

theorem toInt_shiftRight_and {ipAddress shift : Int32} {k : ℕ} (hshift : (shift.toBitVec.smod 32).toNat = k)
    (hk : k ≤ 24) : (ipAddress >>> shift &&& 0xff).toInt = (ipAddress.toUInt32.toNat / 2 ^ k % 256 : ℕ) := by
  have htoNat : (ipAddress >>> shift &&& 0xff).toBitVec.toNat = ipAddress.toUInt32.toNat / 2 ^ k % 256 := by
    rw [Int32.toBitVec_and, BitVec.toNat_and, Int32.toBitVec_shiftRight, BitVec.sshiftRight_eq', hshift,
      show (0xff : Int32).toBitVec.toNat = 255 from rfl, and_255, sshiftRight_mod _ (by omega)]
    rfl
  have hlt : ipAddress.toUInt32.toNat / 2 ^ k % 256 < 256 := Nat.mod_lt _ (by decide)
  show (ipAddress >>> shift &&& 0xff).toBitVec.toInt = _
  rw [BitVec.toInt_eq_toNat_of_lt (by rw [htoNat]; omega), htoNat]

theorem fromIPv4Address_eq (ipAddress : Int32) :
    (IPv4.fromIPv4Address ipAddress).toList = dotted ipAddress.toUInt32 := by
  have hlt := ipAddress.toUInt32.toNat_lt
  have hfirst : ipAddress.toUInt32.toNat / 2 ^ 24 % 256 = ipAddress.toUInt32.toNat / 2 ^ 24 :=
    Nat.mod_eq_of_lt (by omega)
  have hlast : ipAddress.toUInt32.toNat / 2 ^ 0 % 256 = ipAddress.toUInt32.toNat % 256 := by simp
  have hrepr : ∀ n : ℕ, (Int.repr (n : ℤ)).toList = Nat.toDigits 10 n := fun _ => Nat.toList_repr
  unfold IPv4.fromIPv4Address dotted octets
  simp only [String.toList_intercalate, List.map_cons, List.map_nil]
  rw [toInt_shiftRight_and (k := 24) (by decide) (by decide),
    toInt_shiftRight_and (k := 16) (by decide) (by decide),
    toInt_shiftRight_and (k := 8) (by decide) (by decide),
    toInt_shiftRight_and (k := 0) (by decide) (by decide), hfirst, hlast]
  simp only [hrepr]
  rfl

theorem ip_back : ReadBack (fun ipAddress => (IPv4.fromIPv4Address ipAddress).toList)
    (IPv4.toIPv4Address characters) := by
  refine .of_read_write fun ipAddress => ?_
  rw [fromIPv4Address_eq, FirewallRule.toIPv4Address_dotted]
  rfl

namespace MACAddress

theorem eq_of_address_eq {a b : MACAddress} (h : a.address = b.address) : a = b := by
  cases a
  cases b
  cases h
  rfl

theorem new_address (a : MACAddress) : new a.address = a := by
  refine eq_of_address_eq ?_
  rw [show (new a.address).address = (a.address ++ List.replicate 6 0).take 6 from rfl]
  exact List.take_left' a.length_eq

theorem toUInt8_shiftRight_and {address shift : Int64} {k : ℕ} (hshift : (shift.toBitVec.smod 64).toNat = k)
    (hk : k ≤ 56) :
    (address >>> shift &&& 0xff).toUInt64.toUInt8 = UInt8.ofNat (address.toUInt64.toNat / 2 ^ k) := by
  refine UInt8.toNat_inj.1 ?_
  show (address >>> shift &&& 0xff).toBitVec.toNat % 256 = address.toUInt64.toNat / 2 ^ k % 256
  rw [Int64.toBitVec_and, BitVec.toNat_and, Int64.toBitVec_shiftRight, BitVec.sshiftRight_eq', hshift,
    show (0xff : Int64).toBitVec.toNat = 255 from rfl, and_255, Nat.mod_mod, sshiftRight_mod _ (by omega)]
  rfl

theorem valueOfLong_address (address : Int64) : (valueOfLong address).address = MacAddress.of address := by
  have hbytes : ([40, 32, 24, 16, 8, 0].map fun shift : Int64 => (address >>> shift &&& 0xff).toUInt64.toUInt8) =
      MacAddress.of address := by
    simp only [List.map_cons, List.map_nil]
    rw [toUInt8_shiftRight_and (k := 40) (by decide) (by decide),
      toUInt8_shiftRight_and (k := 32) (by decide) (by decide),
      toUInt8_shiftRight_and (k := 24) (by decide) (by decide),
      toUInt8_shiftRight_and (k := 16) (by decide) (by decide),
      toUInt8_shiftRight_and (k := 8) (by decide) (by decide),
      toUInt8_shiftRight_and (k := 0) (by decide) (by decide)]
    simp [MacAddress.of, bytesOf, Nat.div_div_eq_div_mul]
  unfold valueOfLong new
  rw [hbytes]
  exact List.take_left' (length_bytesOf 6 _)

theorem long_back : ReadBack toLong fun address => .ok (valueOfLong address) := by
  refine .of_read_write fun a => congrArg Except.ok (eq_of_address_eq ?_)
  rw [valueOfLong_address, FirewallRule.macAddress_of_toLong]

theorem digit_hexDigit {n : ℕ} (h : n < 16) : characters.digit (hexDigit n) = some n := by
  have hall : ∀ n < 16, (hexDigit n).toNat < 128 ∧ asciiDigit (hexDigit n) = some n := by decide
  obtain ⟨hlt, hdigit⟩ := hall n h
  rw [characters.digit_ascii _ hlt, hdigit]

theorem valueOf_hexByte (b : UInt8) : characters.valueOf 16 32 (hexByte b) = some (b.toNat : ℤ) := by
  have hlt := b.toNat_lt
  have hhigh : b.toNat / 16 < 16 := by omega
  have hlow : b.toNat % 16 < 16 := Nat.mod_lt _ (by decide)
  have hsum : 16 * (b.toNat / 16) + b.toNat % 16 = b.toNat := Nat.div_add_mod ..
  unfold hexByte
  rw [Digits.valueOf_pair (digit_hexDigit hhigh) (digit_hexDigit hlow) hhigh hlow, hsum]

theorem colon_notMem_hexByte (b : UInt8) : ':' ∉ (hexByte b).toList := by
  have hall : ∀ n < 16, hexDigit n ≠ ':' := by decide
  have hlt := b.toNat_lt
  unfold hexByte
  rw [String.toList_ofList]
  have hhigh := (hall (b.toNat / 16) (by omega)).symm
  have hlow := (hall (b.toNat % 16) (Nat.mod_lt _ (by decide))).symm
  simp [hhigh, hlow]

theorem splitPieces_toString (a : MACAddress) :
    splitPieces ':' a.toString.toList = a.address.map fun b => (hexByte b).toList := by
  obtain ⟨init, last, h⟩ : ∃ init last, a.address = init ++ [last] := by
    have hne : a.address ≠ [] := List.ne_nil_of_length_pos (a.length_eq ▸ by decide)
    exact ⟨_, _, (List.dropLast_concat_getLast hne).symm⟩
  have hnot : ∀ p ∈ (init ++ [last]).map fun b => (hexByte b).toList, ':' ∉ p :=
    List.forall_mem_map.2 fun b _ => colon_notMem_hexByte b
  have hlast : (hexByte last).toList ≠ [] := by simp [hexByte]
  unfold toString
  rw [h, String.toList_intercalate, List.map_map]
  rw [List.map_append, List.map_singleton] at hnot
  rw [List.map_append, List.map_append, List.map_singleton, List.map_singleton]
  exact splitPieces_intercalate _ hnot hlast

theorem mac_back :
    ReadBack (fun address : MACAddress => address.toString.toList) (valueOfString characters) := by
  refine .of_read_write fun a => ?_
  have hbytes : ∀ bs : List UInt8, (bs.map fun b => (hexByte b).toList).mapM (fun element => do
      return UInt8.ofInt (← orThrow (characters.valueOf 16 32 (.ofList element)))) = Except.ok bs := by
    intro bs
    induction bs with
    | nil => rfl
    | cons b bs ih =>
      have hlt := b.toNat_lt
      have hmod : ((b.toNat : ℤ) % 2 ^ 8).toNat = b.toNat := by omega
      have hb : UInt8.ofInt (b.toNat : ℤ) = b := by
        unfold UInt8.ofInt
        rw [hmod, UInt8.ofNat_toNat]
      rw [List.map_cons, List.mapM_cons, String.ofList_toList, valueOf_hexByte, ih]
      show Except.ok (UInt8.ofInt (b.toNat : ℤ) :: bs) = _
      rw [hb]
  unfold valueOfString
  rw [splitPieces_toString]
  simp only [List.length_map, a.length_eq]
  rw [if_neg (by decide), hbytes]
  exact congrArg Except.ok a.new_address

end MACAddress

/-- A text is read as one of the grammars, and what is written is read back, unless the text is one that the
readers take too generously. -/
theorem readsAddresses_iff (characters : Digits) (text : List Char) :
    ReadsAddresses characters text ↔ ¬(LaxDotted characters text ∨ LaxColons characters text) := by
  rw [not_or, ← dottedQuad_iff, ← colonHex_iff]
  exact ⟨fun h => ⟨h.ip, h.mac⟩, fun h => ⟨h.1, h.2, ip_back, MACAddress.mac_back, MACAddress.long_back⟩⟩

/-- `1:2:3:4:5:6` is read as `01:02:03:04:05:06`. -/
theorem not_readsAddresses : ¬ReadsAddresses .ascii "1:2:3:4:5:6".toList := by
  intro h
  refine (colonHex_iff _).1 h.mac ⟨valueOfString_ok_iff.1 ⟨_, rfl⟩, .inr ⟨['1'], ?_, .inr (.inr ?_)⟩⟩ <;> decide

end Torpedo
