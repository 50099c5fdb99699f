import Mathlib.Data.List.Basic
import Mathlib.Logic.Function.Basic

/-!
# Last writes

Writes to the keys of a map, one after the other. What counts for a key is the last write to it, and where all
writes to a key agree, it is what they say.
-/

namespace Torpedo

variable {κ ν : Type} [DecidableEq κ]

/-- The map after writes. -/
def writes (m : κ → ν) (ws : List (κ × ν)) : κ → ν := ws.foldl (fun m w => Function.update m w.1 w.2) m

variable {m : κ → ν} {ws ws' : List (κ × ν)} {k : κ} {v : ν}

@[simp] theorem writes_nil : writes m [] = m := rfl

@[simp] theorem writes_cons (w : κ × ν) : writes m (w :: ws) = writes (Function.update m w.1 w.2) ws := rfl

theorem writes_append : writes m (ws ++ ws') = writes (writes m ws) ws' := List.foldl_append

/-- A key that is not written is as it was. -/
theorem writes_of_forall_ne (h : ∀ w ∈ ws, w.1 ≠ k) : writes m ws k = m k := by
  induction ws generalizing m with
  | nil => rfl
  | cons w ws ih =>
    obtain ⟨hw, hws⟩ := List.forall_mem_cons.1 h
    rw [writes_cons, ih hws, Function.update_of_ne hw.symm]

/-- A key that is written has one of the values that are written to it. -/
theorem exists_mem_writes (h : ∃ w ∈ ws, w.1 = k) : ∃ w ∈ ws, w.1 = k ∧ writes m ws k = w.2 := by
  induction ws generalizing m with
  | nil =>
    obtain ⟨w, hw, -⟩ := h
    exact absurd hw List.not_mem_nil
  | cons w ws ih =>
    by_cases hws : ∃ w ∈ ws, w.1 = k
    · obtain ⟨w', hw', hkey, hvalue⟩ := ih (m := Function.update m w.1 w.2) hws
      exact ⟨w', List.mem_cons_of_mem _ hw', hkey, hvalue⟩
    · have hne : ∀ w' ∈ ws, w'.1 ≠ k := fun w' hw' hkey => hws ⟨w', hw', hkey⟩
      obtain ⟨w', hw', hkey⟩ := h
      obtain rfl | hmem := List.mem_cons.1 hw'
      · refine ⟨w', List.mem_cons_self, hkey, ?_⟩
        rw [writes_cons, writes_of_forall_ne hne, ← hkey, Function.update_self]
      · exact absurd hkey (hne w' hmem)

/-- A key that is written, always with the same value, has it. -/
theorem writes_eq (hmem : ∃ w ∈ ws, w.1 = k) (hall : ∀ w ∈ ws, w.1 = k → w.2 = v) : writes m ws k = v := by
  obtain ⟨w, hw, hkey, hvalue⟩ := exists_mem_writes (m := m) hmem
  exact hvalue.trans (hall w hw hkey)

/-- What is written in the end counts. -/
theorem writes_append_eq (hmem : ∃ w ∈ ws', w.1 = k) (hall : ∀ w ∈ ws', w.1 = k → w.2 = v) :
    writes m (ws ++ ws') k = v := by
  rw [writes_append]
  exact writes_eq hmem hall

end Torpedo
