import Mathlib.Data.List.Nodup

/-!
# Maps in the order of insertion

Elements are put into a list one by one. An element takes the place of the one with its key.
-/

namespace Torpedo

variable {α κ : Type} [DecidableEq κ] (key : α → κ)

/-- Put an element in the place of the one with its key, or behind the others. -/
def putBy (a : α) : List α → List α
  | [] => [a]
  | b :: l => if key b = key a then a :: l else b :: putBy a l

/-- The elements that are left when they are put one by one. -/
def linked (l : List α) : List α := l.foldl (fun acc a => putBy key a acc) []

variable {key}

theorem putBy_of_notMem {a : α} {l : List α} (h : key a ∉ l.map key) : putBy key a l = l ++ [a] := by
  induction l with
  | nil => rfl
  | cons b l ih =>
    rw [List.map_cons, List.mem_cons, not_or] at h
    rw [putBy, if_neg (Ne.symm h.1), ih h.2]
    rfl

theorem map_putBy (a : α) (l : List α) :
    (putBy key a l).map key = if key a ∈ l.map key then l.map key else l.map key ++ [key a] := by
  induction l with
  | nil => rfl
  | cons b l ih =>
    by_cases heq : key b = key a
    · simp [putBy, heq]
    · rw [putBy, if_neg heq, List.map_cons, ih, List.map_cons]
      have hne : key a ≠ key b := Ne.symm heq
      simp only [List.mem_cons, hne, false_or]
      split_ifs <;> rfl

theorem nodup_putBy {a : α} {l : List α} (h : (l.map key).Nodup) : ((putBy key a l).map key).Nodup := by
  rw [map_putBy]
  split_ifs with hmem
  · exact h
  · refine List.nodup_append.2 ⟨h, List.nodup_singleton _, ?_⟩
    rintro k hk k' hk' rfl
    exact hmem (List.mem_singleton.1 hk' ▸ hk)

/-- The element with a key is the last that was put there. -/
theorem find_putBy (a : α) (l : List α) (k : κ) :
    (putBy key a l).find? (key · = k) = if key a = k then some a else l.find? (key · = k) := by
  induction l with
  | nil => simp [putBy, List.find?]
  | cons b l ih =>
    by_cases heq : key b = key a
    · rw [putBy, if_pos heq]
      by_cases hk : key a = k
      · simp [hk]
      · simp [hk, heq]
    · rw [putBy, if_neg heq]
      by_cases hk : key b = k
      · have hne : key a ≠ k := fun h => heq (hk.trans h.symm)
        simp [hk, hne]
      · simp [hk, ih]

theorem find_foldl_putBy (l : List α) (acc : List α) (k : κ) :
    (l.foldl (fun acc a => putBy key a acc) acc).find? (key · = k) =
      (l.reverse.find? (key · = k)).or (acc.find? (key · = k)) := by
  induction l generalizing acc with
  | nil => rfl
  | cons a l ih =>
    rw [List.foldl_cons, ih, find_putBy, List.reverse_cons, List.find?_append, Option.or_assoc]
    refine congrArg _ ?_
    split_ifs with h <;> simp [h]

theorem putBy_map {α' κ' : Type} [DecidableEq κ'] {key' : α' → κ'} {f : α → α'}
    (h : ∀ a b, key' (f a) = key' (f b) ↔ key a = key b) (a : α) (l : List α) :
    putBy key' (f a) (l.map f) = (putBy key a l).map f := by
  induction l with
  | nil => rfl
  | cons b l ih =>
    simp only [putBy, List.map_cons, h]
    split_ifs
    · rfl
    · rw [ih]
      rfl

theorem linked_map {α' κ' : Type} [DecidableEq κ'] {key' : α' → κ'} {f : α → α'}
    (h : ∀ a b, key' (f a) = key' (f b) ↔ key a = key b) (l : List α) :
    linked key' (l.map f) = (linked key l).map f := by
  have hfold : ∀ l acc : List α, (l.map f).foldl (fun acc a => putBy key' a acc) (acc.map f) =
      (l.foldl (fun acc a => putBy key a acc) acc).map f := by
    intro l
    induction l with
    | nil => exact fun _ => rfl
    | cons a l ih =>
      intro acc
      rw [List.map_cons, List.foldl_cons, List.foldl_cons, putBy_map h]
      exact ih _
  exact hfold l []

/-- Elements with different keys stay as they are. -/
theorem linked_of_nodup {l : List α} (h : (l.map key).Nodup) : linked key l = l := by
  have hfold : ∀ (l acc : List α), ((acc ++ l).map key).Nodup →
      l.foldl (fun acc a => putBy key a acc) acc = acc ++ l := by
    intro l
    induction l with
    | nil => simp
    | cons a l ih =>
      intro acc hnodup
      have hnot : key a ∉ acc.map key := by
        rw [List.map_append, List.map_cons] at hnodup
        intro hmem
        exact (List.nodup_append.1 hnodup).2.2 _ hmem _ List.mem_cons_self rfl
      rw [List.foldl_cons, putBy_of_notMem hnot]
      have hsame : acc ++ [a] ++ l = acc ++ a :: l := by simp
      rw [ih _ (hsame ▸ hnodup), hsame]
  exact hfold l [] h

end Torpedo
