import Mathlib.Data.List.Dedup
import Mathlib.Data.List.Sort
import Mathlib.Data.Int.Order.Basic

/-!
# Binary search

Binary search in a list that is strictly sorted by a comparison. The comparison may regard
different elements as equal: the search finds some element that compares equal to the key if there
is one. Sorted lists come from sorting, or from a `TreeSet`.
-/

namespace Torpedo

variable {α : Type} (cmp : α → α → Ordering) (a : List α) (key : α)

/-- The loop of `Arrays.binarySearch` on the elements from `low` up to `high`, for at most `fuel`
rounds; a negative result encodes the place where the key would be inserted. -/
def binarySearchFrom : ℕ → ℕ → ℕ → ℤ
  | 0, low, _ => -(low + 1)
  | fuel + 1, low, high =>
    if low < high then
      let mid := (low + (high - 1)) / 2
      match a[mid]? with
      | none => -(low + 1)
      | some midVal =>
        match cmp midVal key with
        | .lt => binarySearchFrom fuel (mid + 1) high
        | .gt => binarySearchFrom fuel low mid
        | .eq => mid
    else -(low + 1)

/-- `Arrays.binarySearch`. -/
def binarySearch : ℤ := binarySearchFrom cmp a key a.length 0 a.length

variable {cmp a key}

/-- What is found compares equal to the key. -/
theorem binarySearchFrom_sound (fuel : ℕ) :
    ∀ low high, 0 ≤ binarySearchFrom cmp a key fuel low high →
      ∃ i x, binarySearchFrom cmp a key fuel low high = (i : ℕ) ∧ a[i]? = some x ∧
        cmp x key = .eq := by
  induction fuel with
  | zero =>
    intro low high h
    unfold binarySearchFrom at h
    omega
  | succ fuel ih =>
    intro low high h
    unfold binarySearchFrom at h ⊢
    split_ifs at h ⊢
    · dsimp only at h ⊢
      cases hmid : a[(low + (high - 1)) / 2]? with
      | none =>
        rw [hmid] at h
        dsimp only at h
        omega
      | some x =>
        rw [hmid] at h
        dsimp only at h ⊢
        cases hx : cmp x key with
        | lt =>
          rw [hx] at h
          exact ih _ _ h
        | gt =>
          rw [hx] at h
          exact ih _ _ h
        | eq => exact ⟨_, x, rfl, hmid, hx⟩
    · omega

/-- In a sorted list the search goes on where the key is. -/
theorem binarySearchFrom_complete [Std.TransCmp cmp] (hs : a.Pairwise fun x y => cmp x y = .lt)
    {i : ℕ} {x : α} (hi : a[i]? = some x) (hx : cmp x key = .eq) (fuel : ℕ) :
    ∀ low high, low ≤ i → i < high → high ≤ a.length → high - low ≤ fuel →
      0 ≤ binarySearchFrom cmp a key fuel low high := by
  induction fuel with
  | zero =>
    intro low high hlow hhigh _ hfuel
    omega
  | succ fuel ih =>
    intro low high hlow hhigh hlen hfuel
    unfold binarySearchFrom
    rw [if_pos (by omega)]
    dsimp only
    set mid := (low + (high - 1)) / 2 with hmid
    have hget : a[mid]? = some a[mid] := List.getElem?_eq_getElem (by omega)
    obtain ⟨hlt, rfl⟩ := List.getElem?_eq_some_iff.1 hi
    rw [hget]
    dsimp only
    cases hc : cmp a[mid] key with
    | lt =>
      -- the key is to the right of the middle
      refine ih _ _ ?_ hhigh hlen (by omega)
      by_contra hle
      rcases Nat.lt_or_eq_of_le (show i ≤ mid by omega) with hlt' | heq
      · have hsorted := List.pairwise_iff_getElem.1 hs i mid hlt (by omega) hlt'
        have htrans := Std.TransCmp.lt_trans hsorted hc
        rw [hx] at htrans
        cases htrans
      · subst heq
        rw [hc] at hx
        cases hx
    | gt =>
      refine ih _ _ hlow ?_ (by omega) (by omega)
      by_contra hle
      rcases Nat.lt_or_eq_of_le (show mid ≤ i by omega) with hlt' | heq
      · have hsorted := List.pairwise_iff_getElem.1 hs mid i (by omega) hlt hlt'
        have htrans := Std.TransCmp.lt_of_lt_of_eq hsorted hx
        rw [hc] at htrans
        cases htrans
      · have hxm : cmp a[mid] key = .eq := by
          simp only [heq]
          exact hx
        rw [hc] at hxm
        cases hxm
    | eq =>
      show (0 : ℤ) ≤ (mid : ℤ)
      omega

/-- **The search finds the key in a sorted list if and only if it is there.** -/
theorem binarySearch_nonneg_iff [Std.TransCmp cmp] (hs : a.Pairwise fun x y => cmp x y = .lt) :
    0 ≤ binarySearch cmp a key ↔ ∃ x ∈ a, cmp x key = .eq := by
  unfold binarySearch
  constructor
  · intro h
    obtain ⟨i, x, -, hi, hx⟩ := binarySearchFrom_sound _ _ _ h
    exact ⟨x, List.mem_of_getElem? hi, hx⟩
  · rintro ⟨x, hmem, hx⟩
    obtain ⟨i, hi⟩ := List.mem_iff_getElem?.1 hmem
    have hlt := (List.getElem?_eq_some_iff.1 hi).1
    exact binarySearchFrom_complete hs hi hx _ _ _ (Nat.zero_le i) hlt (Nat.le_refl _) (by omega)

theorem binarySearch_sound (h : 0 ≤ binarySearch cmp a key) :
    ∃ i x, binarySearch cmp a key = (i : ℕ) ∧ a[i]? = some x ∧ cmp x key = .eq :=
  binarySearchFrom_sound _ _ _ h

/-! ## Sorting -/

/-- Sorting elements no two of which compare equal sorts them strictly. -/
theorem pairwise_lt_insertionSort [hcmp : Std.TransCmp cmp]
    (h : a.Pairwise fun x y => cmp x y ≠ .eq) :
    (a.insertionSort fun x y => cmp x y ≠ .gt).Pairwise fun x y => cmp x y = .lt := by
  have hle : ∀ {x y : α}, cmp x y ≠ .gt ↔ (cmp x y).isLE := by
    intro x y
    cases cmp x y <;> simp
  have htotal : Std.Total fun x y : α => cmp x y ≠ .gt := by
    refine ⟨fun x y => ?_⟩
    rw [hle, hle, hcmp.eq_swap (a := y)]
    cases cmp x y <;> simp
  have htrans : IsTrans α fun x y => cmp x y ≠ .gt :=
    ⟨fun x y z hxy hyz => hle.2 (hcmp.isLE_trans (hle.1 hxy) (hle.1 hyz))⟩
  have hsorted := List.pairwise_insertionSort (fun x y : α => cmp x y ≠ .gt) a
  have hne : (a.insertionSort fun x y => cmp x y ≠ .gt).Pairwise fun x y => cmp x y ≠ .eq := by
    refine ((List.perm_insertionSort _ a).pairwise_iff ?_).2 h
    intro x y hxy hyx
    rw [hcmp.eq_swap, hyx] at hxy
    exact hxy rfl
  refine (hsorted.and hne).imp ?_
  rintro x y ⟨hgt, hne⟩
  cases hc : cmp x y with
  | lt => rfl
  | eq => exact absurd hc hne
  | gt => exact absurd hc hgt

/-- `toArray` of a `TreeSet`: the elements in their order, each of them once. -/
def treeSet (cmp : α → α → Ordering) [DecidableEq α] (vals : List α) : List α :=
  vals.dedup.insertionSort fun x y => cmp x y ≠ .gt

section TreeSet

variable [DecidableEq α] {vals : List α}

theorem mem_treeSet {x : α} : x ∈ treeSet cmp vals ↔ x ∈ vals := by
  unfold treeSet
  rw [List.mem_insertionSort, List.mem_dedup]

theorem binarySearch_treeSet [Std.TransCmp cmp] [Std.LawfulEqCmp cmp] :
    0 ≤ binarySearch cmp (treeSet cmp vals) key ↔ key ∈ vals := by
  have hs : (treeSet cmp vals).Pairwise fun x y => cmp x y = .lt := by
    refine pairwise_lt_insertionSort ((List.nodup_dedup vals).imp ?_)
    exact fun hne heq => hne (Std.LawfulEqCmp.eq_of_compare heq)
  rw [binarySearch_nonneg_iff hs]
  simp only [mem_treeSet, Std.LawfulEqCmp.compare_eq_iff_eq, exists_eq_right]

end TreeSet

end Torpedo
