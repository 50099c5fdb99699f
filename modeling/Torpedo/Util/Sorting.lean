import Mathlib.Data.List.Sort
import Torpedo.Util.ByteBuffer

/-!
# Stable sorting

What a library promises of a stable sort by a comparator: if the comparator is consistent on the elements
of a list, then the list is sorted, and elements that compare equal keep their order. Nothing is promised
otherwise, and the sort may throw.
-/

namespace Torpedo

variable {α : Type} {cmp : α → α → ℤ} {l l' : List α}

/-- The comparator is a total preorder on the elements of the list. -/
structure Consistent (cmp : α → α → ℤ) (l : List α) : Prop where
  antisymm : ∀ a ∈ l, ∀ b ∈ l, cmp a b < 0 ↔ 0 < cmp b a
  trans : ∀ a ∈ l, ∀ b ∈ l, ∀ c ∈ l, cmp a b ≤ 0 → cmp b c ≤ 0 → cmp a c ≤ 0

/-- The second list is the first one, sorted. -/
structure StablySorted (cmp : α → α → ℤ) (l l' : List α) : Prop where
  perm : l'.Perm l
  sorted : l'.Pairwise (cmp · · ≤ 0)
  stable : ∀ a ∈ l, l'.filter (cmp · a = 0) = l.filter (cmp · a = 0)

/-- The function sorts the lists on which the comparator is consistent. -/
def SortsBy (cmp : α → α → ℤ) (sort : List α → Except Stop (List α)) : Prop :=
  ∀ l, Consistent cmp l → ∃ l', sort l = .ok l' ∧ StablySorted cmp l l'

/-- Elements that compare equal to the same element compare equal. -/
theorem Consistent.le_of_eq (h : Consistent cmp l) {a x y : α} (ha : a ∈ l) (hx : x ∈ l) (hy : y ∈ l)
    (hxa : cmp x a = 0) (hya : cmp y a = 0) : cmp x y ≤ 0 := by
  have hay : cmp a y ≤ 0 := by
    by_contra hay
    have hneg := (h.antisymm y hy a ha).2 (Int.not_le.1 hay)
    omega
  exact h.trans x hx a ha y hy hxa.le hay

end Torpedo
