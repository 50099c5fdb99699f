import Torpedo.Util.Collections
import Torpedo.Util.Method

/-!
# Iterators of hash sets

The iterator of a hash set throws if the set has been changed since it was made and there is a next element.
A loop that takes elements out of the set it walks over gets to the element behind the first that is taken
out only if there is none.
-/

namespace Torpedo

namespace Method

variable {σ α : Type}

/-- A loop over a hash set of the state, which the iterator was `made` for. -/
def forEachIn [DecidableEq α] (set : σ → List α) (made : List α) (f : α → Method σ Unit) :
    List α → Method σ Unit
  | [] => pure ()
  | a :: as => do
    f a
    let s ← get
    -- the iterator looks for a change only where there is a next element
    if set s ≠ made ∧ as ≠ [] then throw else forEachIn set made f as

theorem forEachIn_cons [DecidableEq α] (set : σ → List α) (made : List α) (f : α → Method σ Unit) (a : α)
    (as : List α) : forEachIn set made f (a :: as) = (do
      f a
      let s ← get
      if set s ≠ made ∧ as ≠ [] then throw else forEachIn set made f as) := rfl

section Idle

variable [DecidableEq α] {set : σ → List α} {f : α → Method σ Unit} {s : σ} {as : List α}

@[simp] theorem forEachIn_singleton (set : σ → List α) (made : List α) (f : α → Method σ Unit) (a : α) :
    forEachIn set made f [a] = f a := by
  funext s
  rw [forEachIn_cons]
  cases hfa : f a s with
  | mk r s' =>
    cases r with
    | ok u =>
      rw [bind_ok hfa, get_bind_apply, if_neg fun h => h.2 rfl]
      rfl
    | error e => exact bind_error hfa

/-- If all but the last element do nothing, then the loop does what the last one does. -/
theorem forEachIn_of_idle (hidle : ∀ a ∈ as.dropLast, f a s = (.ok (), s)) :
    forEachIn set (set s) f as s = (as.getLast?.elim (pure ()) f) s := by
  induction as with
  | nil => rfl
  | cons a as ih =>
    cases as with
    | nil => rw [forEachIn_singleton]; rfl
    | cons b as =>
      rw [List.dropLast_cons_cons, List.forall_mem_cons] at hidle
      rw [forEachIn_cons, bind_ok hidle.1, get_bind_apply, if_neg fun h => h.1 rfl, ih hidle.2,
        List.getLast?_cons_cons]

/-- A loop whose elements do nothing or change the set returns only if all but the last do nothing. -/
theorem idle_of_forEachIn (hchange : ∀ a ∈ as, f a s = (.ok (), s) ∨ ∀ s', f a s = (.ok (), s') → set s' ≠ set s)
    (hreturns : (forEachIn set (set s) f as s).1 = .ok ()) : ∀ a ∈ as.dropLast, f a s = (.ok (), s) := by
  induction as with
  | nil => exact nofun
  | cons a as ih =>
    cases as with
    | nil => exact nofun
    | cons b as =>
      rw [List.dropLast_cons_cons, List.forall_mem_cons]
      rw [forEachIn_cons] at hreturns
      rcases hchange a List.mem_cons_self with hidle | hchanged
      · rw [bind_ok hidle, get_bind_apply, if_neg fun h => h.1 rfl] at hreturns
        exact ⟨hidle, ih (fun c hc => hchange c (List.mem_cons_of_mem _ hc)) hreturns⟩
      · cases hfa : f a s with
        | mk r s' =>
          cases r with
          | ok u =>
            rw [bind_ok hfa, get_bind_apply, if_pos ⟨hchanged s' hfa, List.cons_ne_nil b as⟩] at hreturns
            cases hreturns
          | error e =>
            rw [bind_error hfa] at hreturns
            cases hreturns

end Idle

theorem keeps_forEachIn [DecidableEq α] {I : σ → Prop} (set : σ → List α) (made : List α)
    {f : α → Method σ Unit} (h : ∀ a, Keeps I (f a)) (as : List α) : Keeps I (forEachIn set made f as) := by
  induction as with
  | nil => exact keeps_pure
  | cons a as ih =>
    refine (h a).bind fun _ => keeps_get.bind fun s => ?_
    split_ifs
    · exact keeps_throw
    · exact ih

end Method

theorem mem_dropLast_or {α : Type} {a : α} {as : List α} (h : a ∈ as) : a ∈ as.dropLast ∨ as.getLast? = some a := by
  have hne : as ≠ [] := List.ne_nil_of_mem h
  rw [← List.dropLast_append_getLast hne, List.mem_append, List.mem_singleton] at h
  exact h.imp_right fun heq => (List.getLast?_eq_some_getLast hne).trans (congrArg some heq.symm)

/-! ## The elements that a loop gets to -/

section Reached

variable {α : Type} {good : α → Bool} {as : List α}

/-- The elements up to the first that is not good. -/
def upToBad (good : α → Bool) : List α → List α
  | [] => []
  | a :: as => a :: if good a then upToBad good as else []

@[simp] theorem upToBad_nil : upToBad good [] = [] := rfl

end Reached

end Torpedo
