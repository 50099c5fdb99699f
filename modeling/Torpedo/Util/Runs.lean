import Mathlib.Data.List.Basic
import Mathlib.Order.WellFounded

/-!
# Runs of a machine

A machine takes one step for each label. Some steps may be *bad*; a run is clean if none of its
steps is. An invariant that the other steps keep holds along a clean run. If moreover each bad step
breaks it, then the clean runs are just the runs along which it holds.
-/

namespace Torpedo

namespace Machine

variable {σ α : Type} (step : σ → α → σ) (bad : σ → α → Prop)

/-- The state after a run. -/
def run (s : σ) (as : List α) : σ := as.foldl step s

@[simp] theorem run_nil (s : σ) : run step s [] = s := rfl

@[simp] theorem run_cons (s : σ) (a : α) (as : List α) :
    run step s (a :: as) = run step (step s a) as := rfl

theorem run_append (s : σ) (as bs : List α) :
    run step s (as ++ bs) = run step (run step s as) bs := List.foldl_append ..

/-- No step of the run is bad. -/
def Clean : σ → List α → Prop
  | _, [] => True
  | s, a :: as => ¬bad s a ∧ Clean (step s a) as

instance [∀ s a, Decidable (bad s a)] : ∀ s as, Decidable (Clean step bad s as)
  | _, [] => .isTrue trivial
  | s, a :: as =>
    have := instDecidableClean (step s a) as
    inferInstanceAs (Decidable (¬bad s a ∧ Clean step bad (step s a) as))

variable {step bad} {s : σ} {as : List α}

/-- A run is clean if and only if each of its steps is. -/
theorem clean_iff : Clean step bad s as ↔
    ∀ pre a post, as = pre ++ a :: post → ¬bad (run step s pre) a := by
  induction as generalizing s with
  | nil =>
    refine ⟨fun _ pre a post h => absurd h (by simp), fun _ => trivial⟩
  | cons a as ih =>
    constructor
    · rintro ⟨ha, has⟩ pre b post h
      cases pre with
      | nil =>
        cases h
        exact ha
      | cons c pre =>
        obtain ⟨rfl, heq⟩ := List.cons.inj h
        exact ih.1 has pre b post heq
    · intro h
      refine ⟨h [] a as rfl, ih.2 fun pre b post heq => ?_⟩
      exact h (a :: pre) b post (by rw [heq]; rfl)

theorem Clean.prefix {bs : List α} (h : Clean step bad s (as ++ bs)) : Clean step bad s as := by
  rw [clean_iff] at h ⊢
  intro pre a post heq
  exact h pre a (post ++ bs) (by rw [heq]; simp)

theorem Clean.suffix {bs : List α} (h : Clean step bad s (as ++ bs)) :
    Clean step bad (run step s as) bs := by
  induction as generalizing s with
  | nil => exact h
  | cons a as ih => exact ih h.2

/-- An invariant that every step keeps holds along every run. -/
theorem run_invariant {I : σ → Prop} (hstep : ∀ s a, I s → I (step s a)) (hs : I s) (as : List α) :
    I (run step s as) := by
  induction as generalizing s with
  | nil => exact hs
  | cons a as ih => exact ih (hstep s a hs)

/-- An invariant that all but the bad steps keep holds along every clean run. -/
theorem Clean.invariant {I : σ → Prop} (hstep : ∀ s a, I s → ¬bad s a → I (step s a)) (hs : I s)
    (h : Clean step bad s as) : I (run step s as) := by
  induction as generalizing s with
  | nil => exact hs
  | cons a as ih => exact ih (hstep s a hs h.1) h.2

/-! ## Infinite runs -/

/-- The state after `n` steps of an infinite run. -/
def after (step : σ → α → σ) (s : σ) (f : ℕ → α) : ℕ → σ
  | 0 => s
  | n + 1 => step (after step s f n) (f n)

/-- Every label comes again and again. -/
def Fair (f : ℕ → α) : Prop := ∀ a n, ∃ m ≥ n, f m = a

theorem after_eq_run (f : ℕ → α) (n : ℕ) : after step s f n = run step s ((List.range n).map f) := by
  induction n with
  | zero => rfl
  | succ n ih =>
    rw [List.range_succ, List.map_append, run_append, ← ih]
    rfl

/-- If each step lowers a rank or leaves the state as it is, then at some time the run comes to rest. -/
theorem exists_rest {W : Type} [LT W] [WellFoundedLT W] (rank : σ → W) {f : ℕ → α}
    (hstep : ∀ n, rank (after step s f (n + 1)) < rank (after step s f n) ∨
      after step s f (n + 1) = after step s f n) :
    ∃ n, ∀ m ≥ n, after step s f m = after step s f n := by
  have hall : ∀ w n, rank (after step s f n) = w → ∃ n, ∀ m ≥ n, after step s f m = after step s f n := by
    intro w
    induction w using WellFoundedLT.induction with
    | _ w ih =>
      rintro n rfl
      by_cases hlower : ∃ m, rank (after step s f m) < rank (after step s f n)
      · obtain ⟨m, hm⟩ := hlower
        exact ih _ hm m rfl
      · push Not at hlower
        refine ⟨n, fun m hm => ?_⟩
        obtain ⟨i, rfl⟩ := Nat.exists_eq_add_of_le hm
        clear hm
        induction i with
        | zero => rfl
        | succ i ih =>
          obtain h | h := hstep (n + i)
          · exact absurd (ih ▸ h) (hlower _)
          · exact h.trans ih
  exact hall _ 0 rfl

/-- If a bad step always breaks a property and no other step does, then the property holds all along a
run if and only if the run is clean. It is enough to look at the steps that a run is promised to take. -/
theorem always_iff_clean_of {I P : σ → Prop} {A : σ → α → Prop}
    (hA : ∀ pre a post, as = pre ++ a :: post → A (run step s pre) a)
    (hI : ∀ s a, A s a → I s → I (step s a))
    (hgood : ∀ s a, A s a → I s → P s → ¬bad s a → P (step s a))
    (hbad : ∀ s a, A s a → I s → P s → bad s a → ¬P (step s a)) (hs : I s) (hP : P s) :
    (∀ pre post, as = pre ++ post → P (run step s pre)) ↔ Clean step bad s as := by
  induction as generalizing s with
  | nil =>
    refine iff_of_true (fun pre post h => ?_) trivial
    obtain ⟨rfl, -⟩ := List.append_eq_nil_iff.1 h.symm
    exact hP
  | cons a as ih =>
    have ha : A s a := hA [] a as rfl
    have hrest : P (step s a) → ((∀ pre post, as = pre ++ post → P (run step (step s a) pre)) ↔
        Clean step bad (step s a) as) := fun hP' =>
      ih (fun pre b post h => hA (a :: pre) b post (congrArg (a :: ·) h)) (hI s a ha hs) hP'
    constructor
    · intro hall
      have hP' : P (step s a) := hall [a] as rfl
      refine ⟨fun hb => hbad s a ha hs hP hb hP', (hrest hP').1 fun pre post h => ?_⟩
      exact hall (a :: pre) post (congrArg (a :: ·) h)
    · rintro ⟨hb, hclean⟩ pre post h
      cases pre with
      | nil => exact hP
      | cons b pre =>
        obtain ⟨rfl, rfl⟩ := List.cons.inj h
        exact (hrest (hgood s a ha hs hP hb)).2 hclean pre post rfl

/-- The same without a promise. -/
theorem always_iff_clean {I P : σ → Prop} (hI : ∀ s a, I s → I (step s a))
    (hgood : ∀ s a, I s → P s → ¬bad s a → P (step s a))
    (hbad : ∀ s a, I s → P s → bad s a → ¬P (step s a)) (hs : I s) (hP : P s) :
    (∀ pre post, as = pre ++ post → P (run step s pre)) ↔ Clean step bad s as :=
  always_iff_clean_of (A := fun _ _ => True) (fun _ _ _ _ => trivial) (fun s a _ => hI s a)
    (fun s a _ => hgood s a) (fun s a _ => hbad s a) hs hP

end Machine

end Torpedo
