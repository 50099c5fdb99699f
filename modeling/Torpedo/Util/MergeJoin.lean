import Mathlib.Data.List.Basic
import Mathlib.Order.Basic

/-!
# Sort-merge join

Two lists are sorted by a key and read side by side. The pairs with the same key are kept, and otherwise the
element with the smaller key is passed over. If no list has a key twice, these are all pairs with the same key,
each of them once.
-/

namespace Torpedo

section Join

variable {α β κ : Type} (cmp : κ → κ → Ordering) (key₁ : α → κ) (key₂ : β → κ)

/-- The pairs with the same key that are met when the lists are read side by side. -/
def mergeJoin : List α → List β → List (α × β)
  | a :: as, b :: bs =>
    match cmp (key₁ a) (key₂ b) with
    | .eq => (a, b) :: mergeJoin as bs
    | .lt => mergeJoin as (b :: bs)
    | .gt => mergeJoin (a :: as) bs
  | _, _ => []
termination_by as bs => as.length + bs.length

variable {cmp key₁ key₂} {a : α} {b : β} {as : List α} {bs : List β} {p : α × β}

variable [Std.LawfulEqCmp cmp]

/-- The pairs are of an element of each list with the same key. -/
theorem of_mem_mergeJoin (h : p ∈ mergeJoin cmp key₁ key₂ as bs) :
    p.1 ∈ as ∧ p.2 ∈ bs ∧ key₁ p.1 = key₂ p.2 := by
  fun_induction mergeJoin cmp key₁ key₂ as bs with
  | case1 a as b bs heq ih =>
    obtain rfl | h := List.mem_cons.1 h
    · exact ⟨List.mem_cons_self, List.mem_cons_self, Std.LawfulEqCmp.eq_of_compare heq⟩
    · obtain ⟨h₁, h₂, hkey⟩ := ih h
      exact ⟨List.mem_cons_of_mem _ h₁, List.mem_cons_of_mem _ h₂, hkey⟩
  | case2 a as b bs hlt ih =>
    obtain ⟨h₁, h₂, hkey⟩ := ih h
    exact ⟨List.mem_cons_of_mem _ h₁, h₂, hkey⟩
  | case3 a as b bs hgt ih =>
    obtain ⟨h₁, h₂, hkey⟩ := ih h
    exact ⟨h₁, List.mem_cons_of_mem _ h₂, hkey⟩
  | case4 as bs hnot => cases h

/-- The keys of the pairs increase. -/
theorem pairwise_mergeJoin (has : as.Pairwise fun x y => cmp (key₁ x) (key₁ y) = .lt) :
    (mergeJoin cmp key₁ key₂ as bs).Pairwise fun p q => cmp (key₁ p.1) (key₁ q.1) = .lt := by
  fun_induction mergeJoin cmp key₁ key₂ as bs with
  | case1 a as b bs heq ih =>
    obtain ⟨ha, has⟩ := List.pairwise_cons.1 has
    exact List.pairwise_cons.2 ⟨fun q hq => ha _ (of_mem_mergeJoin hq).1, ih has⟩
  | case2 a as b bs hlt ih => exact ih (List.pairwise_cons.1 has).2
  | case3 a as b bs hgt ih => exact ih has
  | case4 as bs hnot => exact .nil

variable [Std.TransCmp cmp]

/-- A key below that of the first element of a sorted list is not in the list. -/
theorem ne_of_lt_head (hbs : (b :: bs).Pairwise fun x y => cmp (key₂ x) (key₂ y) = .lt) {k : κ}
    (hlt : cmp k (key₂ b) = .lt) {x : β} (hx : x ∈ b :: bs) : k ≠ key₂ x := by
  rintro rfl
  obtain rfl | hx := List.mem_cons.1 hx
  · exact nomatch hlt.symm.trans Std.ReflCmp.compare_self
  · have hself := Std.TransCmp.lt_trans hlt ((List.pairwise_cons.1 hbs).1 x hx)
    exact nomatch hself.symm.trans Std.ReflCmp.compare_self

/-- No pair of elements with the same key is passed over. -/
theorem mem_mergeJoin (has : as.Pairwise fun x y => cmp (key₁ x) (key₁ y) = .lt)
    (hbs : bs.Pairwise fun x y => cmp (key₂ x) (key₂ y) = .lt) :
    p ∈ mergeJoin cmp key₁ key₂ as bs ↔ p.1 ∈ as ∧ p.2 ∈ bs ∧ key₁ p.1 = key₂ p.2 := by
  refine ⟨of_mem_mergeJoin, ?_⟩
  rintro ⟨h₁, h₂, hkey⟩
  fun_induction mergeJoin cmp key₁ key₂ as bs with
  | case1 a as b bs heq ih =>
    obtain ⟨ha, has'⟩ := List.pairwise_cons.1 has
    obtain ⟨hb, hbs'⟩ := List.pairwise_cons.1 hbs
    have heq' : key₁ a = key₂ b := Std.LawfulEqCmp.eq_of_compare heq
    obtain hp₁ | h₁ := List.mem_cons.1 h₁
    · obtain hp₂ | h₂ := List.mem_cons.1 h₂
      · exact List.mem_cons.2 (.inl (Prod.ext hp₁ hp₂))
      · have hlt := hb _ h₂
        rw [← hkey, hp₁, heq'] at hlt
        exact nomatch hlt.symm.trans Std.ReflCmp.compare_self
    · obtain hp₂ | h₂ := List.mem_cons.1 h₂
      · have hlt := ha _ h₁
        rw [hkey, hp₂, heq'] at hlt
        exact nomatch hlt.symm.trans Std.ReflCmp.compare_self
      · exact List.mem_cons_of_mem _ (ih has' hbs' h₁ h₂)
  | case2 a as b bs hlt ih =>
    refine ih (List.pairwise_cons.1 has).2 hbs ((List.mem_cons.1 h₁).resolve_left fun hp₁ => ?_) h₂
    exact ne_of_lt_head hbs hlt h₂ (hp₁ ▸ hkey)
  | case3 a as b bs hgt ih =>
    refine ih has (List.pairwise_cons.1 hbs).2 h₁ ((List.mem_cons.1 h₂).resolve_left fun hp₂ => ?_)
    exact ne_of_lt_head has (Std.OrientedCmp.gt_iff_lt.1 hgt) h₁ (hp₂ ▸ hkey.symm)
  | case4 as bs hnot =>
    cases as with
    | nil => cases h₁
    | cons a as =>
      cases bs with
      | nil => cases h₂
      | cons b bs => exact (hnot a as b bs rfl rfl).elim

end Join

end Torpedo
