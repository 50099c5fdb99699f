import Mathlib.Data.List.Perm.Basic

/-!
# Latches

A flag that is set on the way over a list, and that nothing clears again, is right for every element just if the
elements that set it are followed by such elements only.
-/

namespace Torpedo

variable {α : Type}

/-- The elements of a list, with the flag as it is when an element has been met. -/
def latched (p : α → Bool) : Bool → List α → List (α × Bool)
  | _, [] => []
  | on, a :: as => (a, on || p a) :: latched p (on || p a) as

variable {p : α → Bool}

@[simp] theorem latched_nil (on : Bool) : latched p on [] = [] := rfl

@[simp] theorem latched_cons (on : Bool) (a : α) (as : List α) :
    latched p on (a :: as) = (a, on || p a) :: latched p (on || p a) as := rfl

theorem latched_true (as : List α) : latched p true as = as.map (·, true) := by
  induction as with
  | nil => rfl
  | cons a as ih => rw [latched_cons, Bool.true_or, ih, List.map_cons]

theorem map_fst_latched (p : α → Bool) (on : Bool) (as : List α) : (latched p on as).map Prod.fst = as := by
  induction as generalizing on with
  | nil => rfl
  | cons a as ih => rw [latched_cons, List.map_cons, ih]

/-- An element with the flag set is met. -/
private theorem countP_latched_true (as : List α) : (latched p true as).countP Prod.snd = as.length := by
  rw [latched_true, List.countP_map]
  exact List.countP_eq_length.2 fun _ _ => rfl

/-- The flag is set for as many elements as set it. -/
theorem countP_latched_iff {as : List α} :
    (latched p false as).countP Prod.snd = as.countP p ↔ as.Pairwise fun a b => p a → p b := by
  induction as with
  | nil => exact iff_of_true rfl List.Pairwise.nil
  | cons a as ih =>
    rw [latched_cons, Bool.false_or, List.pairwise_cons]
    cases ha : p a with
    | false =>
      rw [List.countP_cons_of_neg (by simp), List.countP_cons_of_neg (by simp [ha]), ih]
      exact (and_iff_right fun _ _ h => nomatch h).symm
    | true =>
      have hall : as.length = as.countP p ↔ ∀ b ∈ as, p b := by rw [eq_comm, List.countP_eq_length]
      rw [List.countP_cons_of_pos (by simp), List.countP_cons_of_pos ha, countP_latched_true,
        Nat.add_right_cancel_iff, hall]
      refine ⟨fun h => ⟨fun b hb _ => h b hb, ?_⟩, fun h b hb => h.1 b hb rfl⟩
      exact List.pairwise_of_forall_mem_list fun _ _ b hb _ => h b hb

/-- The flag is set for the elements that set it. -/
theorem latched_eq {as : List α} (h : as.Pairwise fun a b => p a → p b) :
    latched p false as = as.map fun a => (a, p a) := by
  induction as with
  | nil => rfl
  | cons a as ih =>
    obtain ⟨ha, has⟩ := List.pairwise_cons.1 h
    rw [latched_cons, List.map_cons, Bool.false_or]
    cases hp : p a with
    | false => rw [ih has]
    | true =>
      rw [latched_true]
      exact congrArg _ (List.map_congr_left fun b hb => by rw [ha b hb hp])

end Torpedo
