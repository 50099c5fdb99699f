import Torpedo.Util.ByteBuffer
import Mathlib.Algebra.BigOperators.Group.List.Basic

/-!
# One's-complement sums

The sum of the 16-bit words of some bytes, where what is carried out of 16 bits is added again at the
end (`fold`). It is the remainder modulo 65535, except that no sum but zero folds to zero.
-/

namespace Torpedo.OnesComplement

/-- The 16-bit words. The last one is padded with a zero. -/
def words : List UInt8 → List ℕ
  | [] => []
  | [a] => [a.toNat * 256]
  | a :: b :: bs => (a.toNat * 256 + b.toNat) :: words bs

def wordSum (bs : List UInt8) : ℕ := (words bs).sum

/-- Add what is over 16 bits to the 16 bits, once. -/
def carry (n : ℕ) : ℕ := n / 65536 + n % 65536

/-- Carry until 16 bits are left. -/
def fold (n : ℕ) : ℕ := if n < 65536 then n else fold (carry n)
termination_by n
decreasing_by
  unfold carry
  omega

/-! ## The fold -/

theorem carry_mod (n : ℕ) : carry n % 65535 = n % 65535 := by
  unfold carry
  omega

theorem fold_of_lt {n : ℕ} (h : n < 65536) : fold n = n := by
  rw [fold, if_pos h]

theorem fold_carry (n : ℕ) : fold (carry n) = fold n := by
  by_cases h : n < 65536
  · have hcarry : carry n = n := by
      unfold carry
      omega
    rw [hcarry]
  · conv_rhs => rw [fold, if_neg h]

theorem fold_spec (n : ℕ) : fold n < 65536 ∧ fold n % 65535 = n % 65535 ∧ (fold n = 0 ↔ n = 0) := by
  induction n using fold.induct with
  | case1 n h =>
    rw [fold_of_lt h]
    exact ⟨h, rfl, Iff.rfl⟩
  | case2 n h ih =>
    rw [← fold_carry, ← carry_mod n]
    refine ⟨ih.1, ih.2.1, ih.2.2.trans ?_⟩
    unfold carry
    omega

/-- A sum folds to all ones when it is a multiple of 65535, and not zero. -/
theorem fold_eq_iff (n : ℕ) : fold n = 0xffff ↔ n ≠ 0 ∧ n % 65535 = 0 := by
  obtain ⟨hlt, hmod, hzero⟩ := fold_spec n
  omega

/-- The complement of a sum that was carried once completes it to all ones if no second carry is left. -/
theorem fold_complement (n : ℕ) (hn : n < 4294967296) :
    fold (n + (65535 - carry n % 65536)) = 0xffff ↔ carry n < 65536 := by
  have hle : carry n < 131072 := by
    unfold carry
    omega
  have hsum : n = 65535 * (n / 65536) + carry n := by
    unfold carry
    omega
  rw [fold_eq_iff]
  by_cases h : carry n < 65536
  · have hmul : n + (65535 - carry n % 65536) = 65535 * (n / 65536 + 1) := by omega
    rw [hmul, Nat.mul_mod_right]
    omega
  · have hmul : n + (65535 - carry n % 65536) = 65535 * (n / 65536 + 2) + 1 := by omega
    rw [hmul, Nat.mul_add_mod]
    omega

/-! ## The words -/

@[simp] theorem wordSum_nil : wordSum [] = 0 := rfl

@[simp] theorem wordSum_cons_cons (a b : UInt8) (bs : List UInt8) :
    wordSum (a :: b :: bs) = a.toNat * 256 + b.toNat + wordSum bs := by
  unfold wordSum
  rw [words, List.sum_cons]

theorem wordSum_append {as : List UInt8} (bs : List UInt8) (h : as.length % 2 = 0) :
    wordSum (as ++ bs) = wordSum as + wordSum bs := by
  induction as using words.induct with
  | case1 => rw [List.nil_append, wordSum_nil, Nat.zero_add]
  | case2 a => exact absurd h (by simp)
  | case3 a b as ih =>
    have hlen : as.length % 2 = 0 := by
      rw [List.length_cons, List.length_cons] at h
      omega
    rw [List.cons_append, List.cons_append, wordSum_cons_cons, wordSum_cons_cons, ih hlen,
      ← Nat.add_assoc]

theorem wordSum_shortBytes {n : ℕ} (hn : n < 65536) : wordSum (shortBytes n) = n := by
  have hhigh : (UInt8.ofNat (n / 256)).toNat = n / 256 := by
    rw [UInt8.toNat_ofNat']
    omega
  have hlow : (UInt8.ofNat n).toNat = n % 256 := UInt8.toNat_ofNat'
  rw [shortBytes, wordSum_cons_cons, wordSum_nil, hhigh, hlow]
  omega

/-- A word written over a zero is added to the sum. -/
theorem wordSum_word {as bs : List UInt8} {n : ℕ} (h : as.length % 2 = 0) (hn : n < 65536) :
    wordSum (as ++ shortBytes n ++ bs) = wordSum (as ++ shortBytes 0 ++ bs) + n := by
  have hlen : ∀ n, (as ++ shortBytes n).length % 2 = 0 := by
    intro n
    rw [List.length_append]
    show (as.length + 2) % 2 = 0
    omega
  rw [wordSum_append bs (hlen n), wordSum_append bs (hlen 0), wordSum_append _ h, wordSum_append _ h,
    wordSum_shortBytes hn, wordSum_shortBytes (by omega)]
  omega

/-- Each word is at most 65535. -/
theorem wordSum_le (bs : List UInt8) : wordSum bs ≤ (bs.length + 1) / 2 * 65535 := by
  induction bs using words.induct with
  | case1 => exact Nat.zero_le _
  | case2 a =>
    have := a.toNat_lt
    show a.toNat * 256 + 0 ≤ _
    rw [List.length_singleton]
    omega
  | case3 a b bs ih =>
    have := a.toNat_lt
    have := b.toNat_lt
    rw [wordSum_cons_cons, List.length_cons, List.length_cons]
    omega

end Torpedo.OnesComplement
