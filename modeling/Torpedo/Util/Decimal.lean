import Mathlib.Algebra.Group.Int.Defs
import Mathlib.Algebra.Group.Nat.Defs
import Mathlib.Data.Int.Basic

/-!
# Decimal numbers

Numbers of a fixed width are written as decimal strings, and parsed again.
-/

namespace Torpedo

namespace Decimal

/-- One digit or more. -/
def parseDigits (ds : List Char) : Option ℕ :=
  if ds ≠ [] ∧ ds.all Char.isDigit then some (Nat.ofDigitChars 10 ds 0) else none

/-- Digits with a sign, or without one. -/
def parse (s : String) : Option ℤ :=
  match s.toList with
  | '-' :: ds => (parseDigits ds).map fun n : ℕ => -(n : ℤ)
  | '+' :: ds => (parseDigits ds).map Int.ofNat
  | ds => (parseDigits ds).map Int.ofNat

/-- A number of a width. -/
def parseNumber (bits : ℕ) (s : String) : Option ℤ :=
  (parse s).filter fun n => -2 ^ (bits - 1) ≤ n ∧ n < 2 ^ (bits - 1)

theorem parseDigits_toDigits (n : ℕ) : parseDigits (Nat.toDigits 10 n) = some n := by
  have hall : (Nat.toDigits 10 n).all Char.isDigit :=
    List.all_eq_true.2 fun c hc => Nat.isDigit_of_mem_toDigits (by decide) (by decide) hc
  unfold parseDigits
  rw [if_pos ⟨Nat.toDigits_ne_nil, hall⟩, Nat.ofDigitChars_ten_toDigits]

theorem parse_repr_nat (n : ℕ) : parse n.repr = some (n : ℤ) := by
  unfold parse
  rw [Nat.toList_repr]
  have hdigits := parseDigits_toDigits n
  split
  · next ds heq =>
    have hdigit : '-'.isDigit = true :=
      Nat.isDigit_of_mem_toDigits (b := 10) (n := n) (by decide) (by decide) (by rw [heq]; simp)
    cases hdigit
  · next ds heq =>
    have hdigit : '+'.isDigit = true :=
      Nat.isDigit_of_mem_toDigits (b := 10) (n := n) (by decide) (by decide) (by rw [heq]; simp)
    cases hdigit
  · rw [hdigits]
    rfl

theorem parse_repr (n : ℤ) : parse n.repr = some n := by
  cases n with
  | ofNat n => exact parse_repr_nat n
  | negSucc n =>
    have hlist : (Int.repr (.negSucc n)).toList = '-' :: Nat.toDigits 10 (n + 1) := by
      show ("-" ++ (n + 1).repr).toList = _
      rw [String.toList_append, Nat.toList_repr]
      rfl
    unfold parse
    rw [hlist]
    show (parseDigits (Nat.toDigits 10 (n + 1))).map (fun n : ℕ => -(n : ℤ)) = _
    rw [parseDigits_toDigits]
    rfl

theorem parseNumber_repr {bits : ℕ} {n : ℤ} (hle : -2 ^ (bits - 1) ≤ n) (hlt : n < 2 ^ (bits - 1)) :
    parseNumber bits n.repr = some n := by
  unfold parseNumber
  rw [parse_repr]
  simp [hle, hlt]

theorem repr_injective : Function.Injective Int.repr := fun m n h => by
  have hparse := parse_repr m
  rw [h, parse_repr n] at hparse
  exact (Option.some.inj hparse).symm

end Decimal

end Torpedo
