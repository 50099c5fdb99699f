import Mathlib.Logic.Function.Basic
import Mathlib.Order.Lattice

/-!
# Parties and their names

Parties come, name themselves and leave. A directory keeps for each name the party that took it last,
until a party leaves: then it forgets the name of that party. The directory is right as long as no
party changes a name that the directory has, and none leaves while another has its name.

Where things are kept for parties and looked up by their names, what is found is of the latest party with a
name just if things are kept for the latest parties only.
-/

namespace Torpedo

variable {α β : Type}

/-- The names of the parties that are there, and the directory. -/
structure Registrations (α β : Type) where
  name : α → Option β
  entry : β → Option α

namespace Registrations

section Steps

variable [DecidableEq α] [DecidableEq β]

/-- A party takes a name. -/
def join (r : Registrations α β) (a : α) (b : β) : Registrations α β :=
  ⟨Function.update r.name a (some b), Function.update r.entry b (some a)⟩

/-- The party with a name leaves. -/
def leave (r : Registrations α β) (a : α) (b : β) : Registrations α β :=
  ⟨Function.update r.name a none, Function.update r.entry b none⟩

end Steps

/-- The directory has just the names of the parties that are there, each with a party of that name. -/
structure Right (r : Registrations α β) : Prop where
  named : ∀ b a, r.entry b = some a → r.name a = some b
  listed : ∀ a b, r.name a = some b → r.entry b ≠ none

variable {r : Registrations α β} {a : α} {b : β}

/-- The party has another name, and the directory has it under that name. -/
def Renames (r : Registrations α β) (a : α) (b : β) : Prop :=
  ∃ b' ≠ b, r.name a = some b' ∧ r.entry b' = some a

/-- Another party has the name. -/
def Shares (r : Registrations α β) (a : α) (b : β) : Prop := ∃ a' ≠ a, r.name a' = some b

variable [DecidableEq α] [DecidableEq β]

theorem Right.join (h : r.Right) (hb : ¬r.Renames a b) : (r.join a b).Right where
  named b' a' ha' := by
    unfold Registrations.join at ha' ⊢
    dsimp only at ha' ⊢
    by_cases hbb : b' = b
    · subst hbb
      rw [Function.update_self] at ha'
      cases ha'
      rw [Function.update_self]
    · rw [Function.update_of_ne hbb] at ha'
      have hname := h.named b' a' ha'
      by_cases haa : a' = a
      · subst haa
        exact absurd ⟨b', hbb, hname, ha'⟩ hb
      · rw [Function.update_of_ne haa]
        exact hname
  listed a' b' ha' := by
    unfold Registrations.join at ha' ⊢
    dsimp only at ha' ⊢
    by_cases hbb : b' = b
    · subst hbb
      rw [Function.update_self]
      exact nofun
    · rw [Function.update_of_ne hbb]
      by_cases haa : a' = a
      · subst haa
        rw [Function.update_self] at ha'
        exact absurd (Option.some.inj ha').symm hbb
      · rw [Function.update_of_ne haa] at ha'
        exact h.listed a' b' ha'

theorem Right.leave (h : r.Right) (ha : r.name a = some b) (hb : ¬r.Shares a b) :
    (r.leave a b).Right where
  named b' a' ha' := by
    unfold Registrations.leave at ha' ⊢
    dsimp only at ha' ⊢
    by_cases hbb : b' = b
    · subst hbb
      rw [Function.update_self] at ha'
      cases ha'
    · rw [Function.update_of_ne hbb] at ha'
      have hname := h.named b' a' ha'
      by_cases haa : a' = a
      · subst haa
        exact absurd (Option.some.inj (hname.symm.trans ha)) hbb
      · rw [Function.update_of_ne haa]
        exact hname
  listed a' b' ha' := by
    unfold Registrations.leave at ha' ⊢
    dsimp only at ha' ⊢
    by_cases haa : a' = a
    · subst haa
      rw [Function.update_self] at ha'
      cases ha'
    · rw [Function.update_of_ne haa] at ha'
      by_cases hbb : b' = b
      · subst hbb
        exact absurd ⟨a', haa, ha'⟩ hb
      · rw [Function.update_of_ne hbb]
        exact h.listed a' b' ha'

end Registrations

/-! ## The latest parties -/

section Latest

variable [LinearOrder α] {name : α → Option β} {kept : α → Prop} {a a' : α} {b : β}

/-- No later party has the name. -/
def Latest (name : α → Option β) (b : β) (a : α) : Prop := name a = some b ∧ ∀ a', name a' = some b → a' ≤ a

theorem Latest.unique (h : Latest name b a) (h' : Latest name b a') : a = a' :=
  le_antisymm (h'.2 a h.1) (h.2 a' h'.1)

/-- Something is kept for the latest parties only. -/
def KeptForLatest (name : α → Option β) (kept : α → Prop) : Prop := ∀ a, kept a → ∃ b, Latest name b a

/-- Something is kept for one more party. -/
theorem KeptForLatest.keep_iff (h : KeptForLatest name kept) :
    KeptForLatest name (fun x => kept x ∨ x = a) ↔ ∃ b, Latest name b a := by
  refine ⟨fun h' => h' a (.inr rfl), fun ha x hx => ?_⟩
  obtain hx | rfl := hx
  · exact h x hx
  · exact ha

variable [DecidableEq α]

/-- A party leaves. -/
theorem KeptForLatest.leave_iff (h : KeptForLatest name kept) :
    KeptForLatest (Function.update name a none) kept ↔ ¬kept a := by
  constructor
  · intro h' ha
    obtain ⟨b, hb, -⟩ := h' a ha
    rw [Function.update_self] at hb
    cases hb
  · intro ha x hx
    obtain ⟨b, hb, hlatest⟩ := h x hx
    have hne : x ≠ a := fun heq => ha (heq ▸ hx)
    refine ⟨b, (Function.update_of_ne hne ..).trans hb, fun y hy => ?_⟩
    rw [Function.update_apply] at hy
    split_ifs at hy
    exact hlatest y hy

/-- A party takes a name, and what is kept for it may change. -/
theorem KeptForLatest.join_iff {kept' : α → Prop} (h : KeptForLatest name kept)
    (hkept : ∀ x ≠ a, kept' x ↔ kept x) :
    KeptForLatest (Function.update name a (some b)) kept' ↔
      ¬(kept' a ∧ ∃ a' > a, name a' = some b) ∧ ¬∃ a' < a, kept a' ∧ name a' = some b := by
  constructor
  · intro h'
    refine ⟨?_, ?_⟩
    · rintro ⟨ha, a', hlt, ha'⟩
      obtain ⟨b', hb', hlatest⟩ := h' a ha
      rw [Function.update_self] at hb'
      cases hb'
      exact not_lt_of_ge (hlatest a' ((Function.update_of_ne hlt.ne' ..).trans ha')) hlt
    · rintro ⟨a', hlt, hkept', ha'⟩
      obtain ⟨b', hb', hlatest⟩ := h' a' ((hkept a' hlt.ne).2 hkept')
      rw [Function.update_of_ne hlt.ne, ha'] at hb'
      cases hb'
      exact not_lt_of_ge (hlatest a (Function.update_self ..)) hlt
  · rintro ⟨hlater, hearlier⟩ x hx
    by_cases hxa : x = a
    · subst hxa
      refine ⟨b, Function.update_self .., fun y hy => ?_⟩
      rw [Function.update_apply] at hy
      split_ifs at hy with hyx
      · exact hyx.le
      · exact le_of_not_gt fun hlt => hlater ⟨hx, y, hlt, hy⟩
    · have hkx := (hkept x hxa).1 hx
      obtain ⟨b', hb', hlatest⟩ := h x hkx
      refine ⟨b', (Function.update_of_ne hxa ..).trans hb', fun y hy => ?_⟩
      rw [Function.update_apply] at hy
      split_ifs at hy with hya
      · cases hy
        subst hya
        exact le_of_not_gt fun hlt => hearlier ⟨x, hlt, hkx, hb'⟩
      · exact hlatest y hy

end Latest

end Torpedo
