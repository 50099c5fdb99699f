import Mathlib.Logic.Function.Basic
import Mathlib.Tactic.Push

/-!
# Inverse partial functions

Two tables, each of which is the other one read backwards.
-/

namespace Torpedo

variable {α β : Type} {f : α → Option β} {g : β → Option α} {a : α} {b : β}

def Inverses (f : α → Option β) (g : β → Option α) : Prop := ∀ a b, f a = some b ↔ g b = some a

theorem inverses_none : Inverses (fun _ : α => (none : Option β)) fun _ => none :=
  fun _ _ => iff_of_false nofun nofun

namespace Inverses

theorem symm (h : Inverses f g) : Inverses g f := fun b a => (h a b).symm

/-- No two arguments have one value. -/
theorem injective (h : Inverses f g) {a' : α} (ha : f a = some b) (ha' : f a' = some b) : a = a' :=
  Option.some.inj (((h a b).1 ha).symm.trans ((h a' b).1 ha'))

variable [DecidableEq α] [DecidableEq β]

/-- The old partner of an argument would still lead to it. -/
theorem of_update (h : Inverses f g) (hnew : Inverses (Function.update f a (some b)) (Function.update g b (some a))) :
    f a = none ∨ f a = some b := by
  by_contra hold
  push Not at hold
  obtain ⟨b', hb'⟩ := Option.ne_none_iff_exists'.1 hold.1
  have hne : b' ≠ b := fun heq => hold.2 (heq ▸ hb')
  have hback := (hnew a b').2 (by rw [Function.update_of_ne hne]; exact (h a b').1 hb')
  rw [Function.update_self] at hback
  exact hne (Option.some.inj hback).symm

theorem update (h : Inverses f g) (hf : f a = none ∨ f a = some b) (hg : g b = none ∨ g b = some a) :
    Inverses (Function.update f a (some b)) (Function.update g b (some a)) := by
  have hfree : ∀ b', f a = some b' → b' = b := fun b' hb' => by
    obtain hf | hf := hf
    · exact absurd (hf.symm.trans hb') nofun
    · exact Option.some.inj (hb'.symm.trans hf)
  have hfree' : ∀ a', g b = some a' → a' = a := fun a' ha' => by
    obtain hg | hg := hg
    · exact absurd (hg.symm.trans ha') nofun
    · exact Option.some.inj (ha'.symm.trans hg)
  intro a' b'
  by_cases ha : a' = a
  · subst ha
    rw [Function.update_self]
    by_cases hb : b' = b
    · subst hb
      exact iff_of_true rfl (Function.update_self ..)
    · rw [Function.update_of_ne hb, ← h]
      exact iff_of_false (fun heq => hb (Option.some.inj heq).symm) fun heq => hb (hfree b' heq)
  · rw [Function.update_of_ne ha]
    by_cases hb : b' = b
    · subst hb
      rw [Function.update_self, h]
      exact iff_of_false (fun heq => ha (hfree' a' heq)) fun heq => ha (Option.some.inj heq).symm
    · rw [Function.update_of_ne hb]
      exact h a' b'

/-- A pair can be entered if and only if neither is in a pair, or they are one already. -/
theorem update_iff (h : Inverses f g) :
    Inverses (Function.update f a (some b)) (Function.update g b (some a)) ↔
      (f a = none ∨ f a = some b) ∧ (g b = none ∨ g b = some a) :=
  ⟨fun hnew => ⟨h.of_update hnew, h.symm.of_update hnew.symm⟩, fun hold => h.update hold.1 hold.2⟩

/-- A pair is taken out. -/
theorem remove (h : Inverses f g) (hab : f a = some b) :
    Inverses (Function.update f a none) (Function.update g b none) := by
  intro a' b'
  by_cases ha : a' = a
  · subst ha
    rw [Function.update_self]
    refine iff_of_false nofun fun hback => ?_
    by_cases hb : b' = b
    · rw [hb, Function.update_self] at hback
      cases hback
    · rw [Function.update_of_ne hb, ← h] at hback
      exact hb (Option.some.inj (hback.symm.trans hab))
  · rw [Function.update_of_ne ha]
    by_cases hb : b' = b
    · subst hb
      rw [Function.update_self]
      exact iff_of_false (fun hforth => ha (h.injective hforth hab)) nofun
    · rw [Function.update_of_ne hb]
      exact h a' b'

end Inverses

end Torpedo
