import Mathlib.Algebra.Group.Int.Defs
import Mathlib.Algebra.Group.Nat.Defs
import Mathlib.Data.Int.Basic

/-!
# Numerals

A numeral is digits of a radix, with a sign or without one. Which characters beside those of ASCII are digits
is left open.
-/

namespace Torpedo

/-- The digits of ASCII, and their values. -/
def asciiDigit (c : Char) : Option ℕ :=
  if '0' ≤ c ∧ c ≤ '9' then some (c.toNat - '0'.toNat)
  else if 'a' ≤ c ∧ c ≤ 'z' then some (c.toNat - 'a'.toNat + 10)
  else if 'A' ≤ c ∧ c ≤ 'Z' then some (c.toNat - 'A'.toNat + 10)
  else none

theorem asciiDigit_eq_some {c : Char} {k : ℕ} : asciiDigit c = some k ↔
    48 ≤ c.toNat ∧ c.toNat ≤ 57 ∧ k + 48 = c.toNat ∨ 97 ≤ c.toNat ∧ c.toNat ≤ 122 ∧ k + 87 = c.toNat ∨
      65 ≤ c.toNat ∧ c.toNat ≤ 90 ∧ k + 55 = c.toNat := by
  have hdigit : '0' ≤ c ∧ c ≤ '9' ↔ 48 ≤ c.toNat ∧ c.toNat ≤ 57 := Iff.rfl
  have hlower : 'a' ≤ c ∧ c ≤ 'z' ↔ 97 ≤ c.toNat ∧ c.toNat ≤ 122 := Iff.rfl
  have hupper : 'A' ≤ c ∧ c ≤ 'Z' ↔ 65 ≤ c.toNat ∧ c.toNat ≤ 90 := Iff.rfl
  have hzero : '0'.toNat = 48 := rfl
  have ha : 'a'.toNat = 97 := rfl
  have hA : 'A'.toNat = 65 := rfl
  unfold asciiDigit
  simp only [hdigit, hlower, hupper, hzero, ha, hA]
  split_ifs <;> simp <;> omega

/-- Which characters are digits. -/
structure Digits where
  digit : Char → Option ℕ
  digit_ascii : ∀ c : Char, c.toNat < 128 → digit c = asciiDigit c

namespace Digits

/-- No others than those of ASCII. -/
def ascii : Digits := ⟨asciiDigit, fun _ _ => rfl⟩

variable (d : Digits) (radix : ℕ)

/-- One digit or more. -/
def parseDigits (cs : List Char) : Option ℕ :=
  if cs = [] then none
  else (cs.mapM fun c => (d.digit c).filter (· < radix)).map fun ds => ds.foldl (radix * · + ·) 0

/-- Digits with a sign, or without one. -/
def parse (s : String) : Option ℤ :=
  match s.toList with
  | '-' :: cs => (d.parseDigits radix cs).map fun n : ℕ => -(n : ℤ)
  | '+' :: cs => (d.parseDigits radix cs).map Int.ofNat
  | cs => (d.parseDigits radix cs).map Int.ofNat

/-- A number that fits into so many bits. -/
def valueOf (bits : ℕ) (s : String) : Option ℤ :=
  (d.parse radix s).filter fun n => -2 ^ (bits - 1) ≤ n ∧ n < 2 ^ (bits - 1)

variable {d radix}

theorem parseDigits_ascii {cs : List Char} (h : ∀ c ∈ cs, c.toNat < 128) :
    d.parseDigits radix cs = ascii.parseDigits radix cs := by
  have hmap : (cs.mapM fun c => (d.digit c).filter (· < radix)) =
      cs.mapM fun c => (ascii.digit c).filter (· < radix) := by
    induction cs with
    | nil => rfl
    | cons c cs ih =>
      have hdigit : d.digit c = ascii.digit c := d.digit_ascii c (h c List.mem_cons_self)
      rw [List.mapM_cons, List.mapM_cons, hdigit, ih fun c hc => h c (List.mem_cons_of_mem _ hc)]
  unfold parseDigits
  rw [hmap]

theorem parse_ascii {s : String} (h : ∀ c ∈ s.toList, c.toNat < 128) :
    d.parse radix s = ascii.parse radix s := by
  unfold parse
  split
  · next cs heq => rw [parseDigits_ascii fun c hc => h c (heq ▸ List.mem_cons_of_mem _ hc)]
  · next cs heq => rw [parseDigits_ascii fun c hc => h c (heq ▸ List.mem_cons_of_mem _ hc)]
  · rw [parseDigits_ascii h]

theorem valueOf_ascii {bits : ℕ} {s : String} (h : ∀ c ∈ s.toList, c.toNat < 128) :
    d.valueOf radix bits s = ascii.valueOf radix bits s := by
  unfold valueOf
  rw [parse_ascii h]

theorem valueOf_eq_some {bits : ℕ} {s : String} {n : ℤ} :
    d.valueOf radix bits s = some n ↔ d.parse radix s = some n ∧ -2 ^ (bits - 1) ≤ n ∧ n < 2 ^ (bits - 1) := by
  unfold valueOf
  rw [Option.filter_eq_some_iff]
  simp

theorem parseDigits_of_isDigit {cs : List Char} (hne : cs ≠ []) (h : ∀ c ∈ cs, c.isDigit) :
    d.parseDigits 10 cs = some (Nat.ofDigitChars 10 cs 0) := by
  have hdigit : ∀ c ∈ cs, (d.digit c).filter (· < 10) = some (c.toNat - '0'.toNat) := by
    intro c hc
    have hle := Char.isDigit_iff_toNat.1 (h c hc)
    have hzero : '0'.toNat = 48 := rfl
    have hnine : '9'.toNat = 57 := rfl
    have hrange : '0' ≤ c ∧ c ≤ '9' := hle
    rw [d.digit_ascii c (by omega)]
    unfold asciiDigit
    rw [if_pos hrange, Option.filter_some, if_pos (decide_eq_true (by omega))]
  have hmap : (cs.mapM fun c => (d.digit c).filter (· < 10)) = some (cs.map fun c => c.toNat - '0'.toNat) := by
    clear hne h
    induction cs with
    | nil => rfl
    | cons c cs ih =>
      rw [List.mapM_cons, hdigit c List.mem_cons_self, ih fun c hc => hdigit c (List.mem_cons_of_mem _ hc)]
      rfl
  unfold parseDigits Nat.ofDigitChars
  rw [if_neg hne, hmap, Option.map_some, List.foldl_map]

theorem parse_repr (n : ℕ) : d.parse 10 (Int.repr n) = some (n : ℤ) := by
  have hlist : (Int.repr (n : ℤ)).toList = Nat.toDigits 10 n := Nat.toList_repr
  have hall : ∀ c ∈ Nat.toDigits 10 n, c.isDigit := fun c hc =>
    Nat.isDigit_of_mem_toDigits (by decide) (by decide) hc
  have hdigits : d.parseDigits 10 (Nat.toDigits 10 n) = some n := by
    rw [parseDigits_of_isDigit Nat.toDigits_ne_nil hall, Nat.ofDigitChars_ten_toDigits]
  unfold parse
  rw [hlist]
  split
  · next cs heq => exact absurd (hall '-' (heq ▸ List.mem_cons_self)) (by decide)
  · next cs heq => exact absurd (hall '+' (heq ▸ List.mem_cons_self)) (by decide)
  · rw [hdigits]
    rfl

theorem valueOf_toDigits {bits n : ℕ} (h : n < 2 ^ (bits - 1)) :
    d.valueOf 10 bits (.ofList (Nat.toDigits 10 n)) = some (n : ℤ) := by
  have hlt : (n : ℤ) < 2 ^ (bits - 1) := by exact_mod_cast h
  have hle : -2 ^ (bits - 1) ≤ (n : ℤ) := by
    have hpow : 0 ≤ (2 : ℤ) ^ (bits - 1) := Int.pow_nonneg (by decide)
    omega
  exact valueOf_eq_some.2 ⟨d.parse_repr n, hle, hlt⟩

/-! ## Numerals that are read -/

/-- The text begins with a sign. -/
def Signed (cs : List Char) : Prop := cs.head? = some '-' ∨ cs.head? = some '+'

theorem parse_of_not_signed {cs : List Char} (h : ¬Signed cs) :
    d.parse radix (.ofList cs) = (d.parseDigits radix cs).map Int.ofNat := by
  unfold parse
  rw [String.toList_ofList]
  split
  · exact absurd (.inl rfl) h
  · exact absurd (.inr rfl) h
  · rfl

/-- A sign is no digit. -/
theorem not_signed {cs : List Char} (h : ∀ c ∈ cs, ∃ k, d.digit c = some k) : ¬Signed cs := by
  have hsign : ∀ c, cs.head? = some c → asciiDigit c = none → 128 ≤ c.toNat := by
    intro c hc hnone
    by_contra hlt
    obtain ⟨k, hk⟩ := h c (List.mem_of_head? hc)
    rw [d.digit_ascii c (by omega), hnone] at hk
    cases hk
  rintro (hminus | hplus)
  · exact absurd (hsign '-' hminus (by decide)) (by decide)
  · exact absurd (hsign '+' hplus (by decide)) (by decide)

theorem digit_of_parseDigits {cs : List Char} {n : ℕ} (h : d.parseDigits radix cs = some n) :
    cs ≠ [] ∧ ∀ c ∈ cs, ∃ k < radix, d.digit c = some k := by
  have hall : ∀ {l : List Char} {ds : List ℕ}, (l.mapM fun c => (d.digit c).filter (· < radix)) = some ds →
      ∀ c ∈ l, ∃ k < radix, d.digit c = some k := by
    intro l
    induction l with
    | nil => exact fun _ c hc => absurd hc List.not_mem_nil
    | cons c l ih =>
      intro ds hds
      simp only [List.mapM_cons, Option.bind_eq_bind, Option.bind_eq_some_iff] at hds
      obtain ⟨k, hk, ks, hks, -⟩ := hds
      obtain ⟨hdigit, hlt⟩ := Option.filter_eq_some_iff.1 hk
      exact List.forall_mem_cons.2 ⟨⟨k, of_decide_eq_true hlt, hdigit⟩, ih hks⟩
  unfold parseDigits at h
  split_ifs at h with hempty
  obtain ⟨ds, hds, -⟩ := Option.map_eq_some_iff.1 h
  exact ⟨hempty, hall hds⟩

theorem valueOf_of_isDigit {bits : ℕ} {cs : List Char} (hne : cs ≠ []) (h : ∀ c ∈ cs, c.isDigit)
    (hlt : Nat.ofDigitChars 10 cs 0 < 2 ^ (bits - 1)) :
    d.valueOf 10 bits (.ofList cs) = some (Nat.ofDigitChars 10 cs 0 : ℤ) := by
  have hdigits := parseDigits_of_isDigit (d := d) hne h
  have hsign : ¬Signed cs := not_signed fun c hc => ((digit_of_parseDigits hdigits).2 c hc).imp fun _ hk => hk.2
  have hlt' : (Nat.ofDigitChars 10 cs 0 : ℤ) < 2 ^ (bits - 1) := by exact_mod_cast hlt
  have hle : -2 ^ (bits - 1) ≤ (Nat.ofDigitChars 10 cs 0 : ℤ) := by
    have hpow : 0 ≤ (2 : ℤ) ^ (bits - 1) := Int.pow_nonneg (by decide)
    omega
  refine valueOf_eq_some.2 ⟨?_, hle, hlt'⟩
  rw [parse_of_not_signed hsign, hdigits]
  rfl

/-- Two digits of a radix. -/
theorem valueOf_pair {a b : Char} {x y : ℕ} (ha : d.digit a = some x) (hb : d.digit b = some y)
    (hx : x < 16) (hy : y < 16) : d.valueOf 16 32 (.ofList [a, b]) = some ((16 * x + y : ℕ) : ℤ) := by
  have hsign : ¬Signed [a, b] := not_signed (d := d) (by simp [ha, hb])
  have hfilter : ∀ {k : ℕ}, k < 16 → (some k).filter (fun k => decide (k < 16)) = some k := fun hk => by
    rw [Option.filter_some, if_pos (decide_eq_true hk)]
  refine valueOf_eq_some.2 ⟨?_, by omega, by omega⟩
  rw [parse_of_not_signed hsign]
  simp [parseDigits, ha, hb, hfilter hx, hfilter hy]

end Digits

end Torpedo
