import Torpedo.Util.Numerals
import Mathlib.Data.Nat.Basic

/-!
# Addresses in CIDR notation

An address of 32 bits is written as its four bytes with dots between, and a prefix as an address with the
number of bits that count behind a slash.
-/

namespace Torpedo

/-! ## Texts in pieces -/

/-- A text is cut at each separator, and the pieces at the end that are empty are left out. A text without
one is a piece of its own. -/
def splitPieces (sep : Char) (text : List Char) : List (List Char) :=
  if sep ∈ text then ((text.splitOn sep).reverse.dropWhile List.isEmpty).reverse else [text]

section

variable {sep : Char}

theorem splitPieces_of_notMem {text : List Char} (h : sep ∉ text) : splitPieces sep text = [text] := if_neg h

theorem splitPieces_intercalate (pieces : List (List Char)) {piece : List Char}
    (h : ∀ p ∈ pieces ++ [piece], sep ∉ p) (hne : piece ≠ []) :
    splitPieces sep ([sep].intercalate (pieces ++ [piece])) = pieces ++ [piece] := by
  have hsplit : ([sep].intercalate (pieces ++ [piece])).splitOn sep = pieces ++ [piece] :=
    List.splitOn_intercalate sep h (by simp)
  by_cases hmem : sep ∈ [sep].intercalate (pieces ++ [piece])
  · unfold splitPieces
    rw [if_pos hmem, hsplit]
    have hpiece : piece.isEmpty = false := by simp [hne]
    simp [hpiece]
  · rw [List.splitOn_eq_singleton hmem] at hsplit
    rw [splitPieces_of_notMem hmem, hsplit]

theorem mem_intercalate {pieces : List (List Char)} {c : Char} (h : c ∈ [sep].intercalate pieces) :
    c = sep ∨ ∃ p ∈ pieces, c ∈ p := by
  induction pieces with
  | nil => cases h
  | cons p pieces ih =>
    cases pieces with
    | nil => exact .inr ⟨p, List.mem_cons_self, by simpa using h⟩
    | cons q pieces =>
      rw [List.intercalate_cons_cons, List.append_assoc, List.mem_append, List.mem_append] at h
      obtain hp | hsep | htail := h
      · exact .inr ⟨p, List.mem_cons_self, hp⟩
      · exact .inl (List.mem_singleton.1 hsep)
      · exact (ih htail).imp_right fun ⟨p', hp', hc⟩ => ⟨p', List.mem_cons_of_mem _ hp', hc⟩

end

/-! ## Addresses -/

/-- The four bytes of an address, from the first one. -/
def octets (address : UInt32) : List ℕ :=
  [address.toNat / 2 ^ 24, address.toNat / 2 ^ 16 % 256, address.toNat / 2 ^ 8 % 256, address.toNat % 256]

theorem octets_lt {address : UInt32} {n : ℕ} (h : n ∈ octets address) : n < 256 := by
  have haddress := address.toNat_lt
  simp only [octets, List.mem_cons, List.not_mem_nil, or_false] at h
  omega

/-- The bytes of an address with dots between. -/
def dotted (address : UInt32) : List Char := ['.'].intercalate ((octets address).map (Nat.toDigits 10))

theorem isDigit_of_mem_toDigits {n : ℕ} {c : Char} (h : c ∈ Nat.toDigits 10 n) : c.isDigit :=
  Nat.isDigit_of_mem_toDigits (by decide) (by decide) h

theorem notMem_toDigits {n : ℕ} {c : Char} (h : c.isDigit = false) : c ∉ Nat.toDigits 10 n := fun hmem =>
  nomatch h.symm.trans (isDigit_of_mem_toDigits hmem)

theorem splitPieces_dotted (address : UInt32) :
    splitPieces '.' (dotted address) = (octets address).map (Nat.toDigits 10) := by
  refine splitPieces_intercalate (((octets address).take 3).map (Nat.toDigits 10)) (fun p hp => ?_)
    Nat.toDigits_ne_nil
  have hmem : p ∈ (octets address).map (Nat.toDigits 10) := hp
  obtain ⟨n, -, rfl⟩ := List.mem_map.1 hmem
  exact notMem_toDigits (by decide)

theorem mem_dotted {address : UInt32} {c : Char} (h : c ∈ dotted address) : c.isDigit ∨ c = '.' := by
  obtain hdot | ⟨p, hp, hc⟩ := mem_intercalate h
  · exact .inr hdot
  · obtain ⟨n, -, rfl⟩ := List.mem_map.1 hp
    exact .inl (isDigit_of_mem_toDigits hc)

theorem or_eq_add (m : ℕ) {k n : ℕ} (h : n < 2 ^ k) : m * 2 ^ k ||| n = m * 2 ^ k + n := by
  rw [Nat.mul_comm, ← Nat.two_pow_add_eq_or_of_lt h]

/-- The bytes of an address put together again. -/
theorem or_octets (address : UInt32) :
    (address.toNat / 2 ^ 24) <<< 24 ||| (address.toNat / 2 ^ 16 % 256) <<< 16 |||
      (address.toNat / 2 ^ 8 % 256) <<< 8 ||| address.toNat % 256 = address.toNat := by
  simp only [Nat.shiftLeft_eq]
  generalize address.toNat = n
  calc n / 2 ^ 24 * 2 ^ 24 ||| n / 2 ^ 16 % 256 * 2 ^ 16 ||| n / 2 ^ 8 % 256 * 2 ^ 8 ||| n % 256
      = n / 2 ^ 24 * 2 ^ 24 + n / 2 ^ 16 % 256 * 2 ^ 16 ||| n / 2 ^ 8 % 256 * 2 ^ 8 ||| n % 256 := by
        have hlt : n / 2 ^ 16 % 256 * 2 ^ 16 < 2 ^ 24 := by omega
        rw [or_eq_add _ hlt]
    _ = n / 2 ^ 16 * 2 ^ 16 + n / 2 ^ 8 % 256 * 2 ^ 8 ||| n % 256 := by
        have hlt : n / 2 ^ 8 % 256 * 2 ^ 8 < 2 ^ 16 := by omega
        have hsum : n / 2 ^ 24 * 2 ^ 24 + n / 2 ^ 16 % 256 * 2 ^ 16 = n / 2 ^ 16 * 2 ^ 16 := by omega
        rw [hsum, or_eq_add _ hlt]
    _ = n / 2 ^ 8 * 2 ^ 8 + n % 256 := by
        have hlt : n % 256 < 2 ^ 8 := by omega
        have hsum : n / 2 ^ 16 * 2 ^ 16 + n / 2 ^ 8 % 256 * 2 ^ 8 = n / 2 ^ 8 * 2 ^ 8 := by omega
        rw [hsum, or_eq_add _ hlt]
    _ = n := by omega

theorem toNat_shiftLeft_ofInt {n k : ℕ} {shift : Int32} (h : (shift.toBitVec.smod 32).toNat = k)
    (hlt : n <<< k < 2 ^ 32) : (Int32.ofInt n <<< shift).toBitVec.toNat = n <<< k := by
  have hn : n < 2 ^ 32 := Nat.lt_of_le_of_lt (Nat.le_shiftLeft ..) hlt
  rw [Int32.toBitVec_shiftLeft, BitVec.shiftLeft_eq', BitVec.toNat_shiftLeft, h, Int32.toBitVec_ofInt,
    BitVec.ofInt_natCast, BitVec.toNat_ofNat, Nat.mod_eq_of_lt hn, Nat.mod_eq_of_lt hlt]

theorem valueOf_octets (characters : Digits) {address : UInt32} {n : ℕ} (hn : n ∈ octets address) :
    characters.valueOf 10 32 (.ofList (Nat.toDigits 10 n)) = some (n : ℤ) :=
  Digits.valueOf_toDigits (Nat.lt_of_lt_of_le (octets_lt hn) (by decide))

/-! ## Prefixes -/

/-- A plain address, or one with the number of bits that count. -/
structure Cidr where
  address : UInt32
  length : Option (Fin 33)
deriving DecidableEq, Repr

namespace Cidr

def text (c : Cidr) : String :=
  .ofList (c.length.elim (dotted c.address) fun n => dotted c.address ++ '/' :: Nat.toDigits 10 n)

/-- The bits that count; in a plain address all of them. -/
def bits (c : Cidr) : ℕ := c.length.elim 32 Fin.val

/-- The bits that count are the same. -/
def Covers (c : Cidr) (address : UInt32) : Prop :=
  c.address.toNat / 2 ^ (32 - c.bits) = address.toNat / 2 ^ (32 - c.bits)

instance (c : Cidr) (address : UInt32) : Decidable (c.Covers address) := inferInstanceAs (Decidable (_ = _))

theorem bits_le (c : Cidr) : c.bits ≤ 32 := by
  unfold bits
  cases c.length with
  | none => exact Nat.le_refl _
  | some n => exact Nat.lt_succ_iff.1 n.isLt

theorem covers_of_bits_eq_zero {c : Cidr} (h : c.bits = 0) (address : UInt32) : c.Covers address := by
  unfold Covers
  rw [h, Nat.div_eq_of_lt c.address.toNat_lt, Nat.div_eq_of_lt address.toNat_lt]

theorem covers_iff_eq {c : Cidr} (h : c.bits = 32) (address : UInt32) : c.Covers address ↔ address = c.address := by
  unfold Covers
  rw [h, Nat.sub_self, Nat.pow_zero, Nat.div_one, Nat.div_one, UInt32.toNat_inj]
  exact eq_comm

theorem slash_notMem_dotted (address : UInt32) : '/' ∉ dotted address := fun h => by
  obtain h | h := mem_dotted h <;> cases h

theorem splitPieces_text (c : Cidr) :
    splitPieces '/' c.text.toList =
      c.length.elim [dotted c.address] fun n => [dotted c.address, Nat.toDigits 10 n] := by
  unfold text
  rw [String.toList_ofList]
  cases c.length with
  | none => exact splitPieces_of_notMem (slash_notMem_dotted _)
  | some n =>
    have hnot : ∀ p ∈ [dotted c.address] ++ [Nat.toDigits 10 n], '/' ∉ p := by
      intro p hp
      obtain rfl | hp := List.mem_cons.1 hp
      · exact slash_notMem_dotted _
      · exact List.mem_singleton.1 hp ▸ notMem_toDigits (by decide)
    simpa using splitPieces_intercalate [dotted c.address] hnot Nat.toDigits_ne_nil

end Cidr

end Torpedo
