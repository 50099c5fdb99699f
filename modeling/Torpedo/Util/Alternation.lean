import Mathlib.Data.List.Perm.Basic

/-!
# Every second element

A loop that takes two elements in each round may do something else to the second one.
-/

namespace Torpedo

variable {α : Type} {f : α → α}

/-- The second element of each pair. -/
def seconds : List α → List α
  | [] => []
  | [_] => []
  | _ :: b :: l => b :: seconds l

/-- The first element of each pair, and the last element if it is alone. -/
def firsts : List α → List α
  | [] => []
  | [a] => [a]
  | a :: _ :: l => a :: firsts l

/-- A map of the second element of each pair. -/
def mapSeconds (f : α → α) : List α → List α
  | [] => []
  | [a] => [a]
  | a :: b :: l => a :: f b :: mapSeconds f l

theorem firsts_append_seconds_perm (l : List α) : (firsts l ++ seconds l).Perm l := by
  fun_induction seconds l with
  | case1 => rfl
  | case2 => rfl
  | case3 a b l ih =>
    show (a :: (firsts l ++ b :: seconds l)).Perm _
    exact (List.perm_middle.trans (ih.cons b)).cons a

theorem mapSeconds_perm (l : List α) : (mapSeconds f l).Perm (firsts l ++ (seconds l).map f) := by
  fun_induction seconds l with
  | case1 => rfl
  | case2 => rfl
  | case3 a b l ih => exact ((ih.cons (f b)).trans List.perm_middle.symm).cons a

theorem mapSeconds_eq {l : List α} (h : ∀ a ∈ seconds l, f a = a) : mapSeconds f l = l := by
  fun_induction seconds l with
  | case1 => rfl
  | case2 => rfl
  | case3 a b l ih =>
    rw [List.forall_mem_cons] at h
    show a :: f b :: mapSeconds f l = _
    rw [h.1, ih h.2]

/-- If what comes out is left as it is, a list comes out of a map as the elements it has had if all of them are
left as they are. -/
theorem map_perm_self_iff (hf : ∀ a, f (f a) = f a) {l : List α} : (l.map f).Perm l ↔ ∀ a ∈ l, f a = a := by
  constructor
  · intro h a ha
    obtain ⟨b, -, rfl⟩ := List.mem_map.1 (h.mem_iff.2 ha)
    exact hf b
  · intro h
    rw [List.map_congr_left h, List.map_id']

theorem mapSeconds_perm_self_iff (hf : ∀ a, f (f a) = f a) {l : List α} :
    (mapSeconds f l).Perm l ↔ ∀ a ∈ seconds l, f a = a := by
  constructor
  · intro h
    have hsplit := ((mapSeconds_perm l).symm.trans h).trans (firsts_append_seconds_perm l).symm
    exact (map_perm_self_iff hf).1 ((List.perm_append_left_iff _).1 hsplit)
  · intro h
    rw [mapSeconds_eq h]

end Torpedo
