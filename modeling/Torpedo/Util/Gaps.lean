import Mathlib.Data.List.Chain
import Mathlib.Data.List.Induction

/-!
# The latest run of a list

A list falls into runs, in each of which every element is close to the one before it, and which begin
where an element is not. An element behind the others joins the latest run or begins a run of its own.
-/

namespace Torpedo

section

variable {α : Type} {close : α → α → Prop} {ts : List α} {t u a b : α}

/-- The latest run of the list begins with `a`. -/
def LatestRun (close : α → α → Prop) (ts : List α) (a : α) : Prop :=
  ∃ before run, ts = before ++ a :: run ∧ (a :: run).IsChain close ∧ ∀ t ∈ before.getLast?, ¬close t a

@[simp] theorem latestRun_singleton : LatestRun close [t] a ↔ a = t := by
  constructor
  · rintro ⟨before, run, heq, -⟩
    obtain ⟨-, hrun⟩ | ⟨-, hrun⟩ := List.singleton_eq_append_iff.1 heq
    · exact (List.cons.inj hrun).1
    · cases hrun
  · rintro rfl
    exact ⟨[], [], rfl, .singleton _, nofun⟩

/-- A list ends where a part of it ends that is not empty. -/
theorem getLast?_of_append_cons {before run : List α} (heq : ts = before ++ a :: run) :
    ts.getLast? = (a :: run).getLast? := by
  rw [heq, List.getLast?_append_cons]

/-- An element that is close to the last joins the latest run. -/
theorem latestRun_of_close (h : close t u) :
    LatestRun close (ts ++ [t, u]) a ↔ LatestRun close (ts ++ [t]) a := by
  have hsplit : ts ++ [t, u] = (ts ++ [t]) ++ [u] := by simp
  constructor
  · rintro ⟨before, run, heq, hchain, hbefore⟩
    rw [hsplit] at heq
    obtain rfl | ⟨run, v, rfl⟩ := run.eq_nil_or_concat'
    · obtain ⟨rfl, rfl⟩ := List.append_inj' heq rfl |>.imp_right List.singleton_inj.1
      exact absurd h (hbefore t (by simp))
    · rw [← List.cons_append, ← List.append_assoc] at heq
      obtain ⟨heq, -⟩ := List.append_inj' heq rfl
      exact ⟨before, run, heq, hchain.left_of_append, hbefore⟩
  · rintro ⟨before, run, heq, hchain, hbefore⟩
    refine ⟨before, run ++ [u], by rw [hsplit, heq]; simp, ?_, hbefore⟩
    rw [← List.cons_append]
    refine hchain.append (.singleton u) fun x hx y hy => ?_
    -- the run ends where the list does
    rw [← getLast?_of_append_cons heq] at hx
    simp only [List.getLast?_append, List.getLast?_singleton, Option.some_or, Option.mem_some_iff] at hx
    simp only [List.head?_cons, Option.mem_some_iff] at hy
    exact hx ▸ hy ▸ h

/-- An element that is not close to the last begins a run of its own. -/
theorem latestRun_of_not_close (h : ¬close t u) : LatestRun close (ts ++ [t, u]) a ↔ a = u := by
  have hsplit : ts ++ [t, u] = (ts ++ [t]) ++ [u] := by simp
  constructor
  · rintro ⟨before, run, heq, hchain, -⟩
    rw [hsplit] at heq
    obtain rfl | ⟨run, v, rfl⟩ := run.eq_nil_or_concat'
    · exact (List.singleton_inj.1 (List.append_inj' heq rfl).2).symm
    · rw [← List.cons_append, ← List.append_assoc] at heq
      obtain ⟨hinit, hv⟩ := List.append_inj' heq rfl
      obtain rfl := List.singleton_inj.1 hv
      rw [← List.cons_append] at hchain
      have hclose := (List.isChain_append.1 hchain).2.2 t
      rw [← getLast?_of_append_cons hinit] at hclose
      exact absurd (hclose (by simp) u rfl) h
  · rintro rfl
    refine ⟨ts ++ [t], [], hsplit, .singleton _, fun x hx => ?_⟩
    obtain rfl : t = x := by simpa using hx
    exact h

/-- Only one element begins the latest run, and there is one. -/
theorem existsUnique_latestRun (close : α → α → Prop) (t : α) (ts : List α) : ∃! a, LatestRun close (t :: ts) a := by
  induction ts using List.reverseRecOn with
  | nil => exact ⟨t, latestRun_singleton.2 rfl, fun a h => latestRun_singleton.1 h⟩
  | append_singleton ts u ih =>
    obtain ⟨before, v, hv⟩ : ∃ before v, t :: ts = before ++ [v] := by
      simpa using List.eq_nil_or_concat (t :: ts)
    have heq : t :: (ts ++ [u]) = before ++ [v, u] := by
      rw [← List.cons_append, hv]
      simp
    rw [heq]
    by_cases hclose : close v u
    · simpa only [latestRun_of_close hclose, ← hv] using ih
    · exact ⟨u, (latestRun_of_not_close hclose).2 rfl, fun a h => (latestRun_of_not_close hclose).1 h⟩

end

end Torpedo
