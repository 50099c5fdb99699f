import Mathlib.Data.List.Nodup
import Mathlib.Logic.Function.Basic

/-!
# Tags

Tags are free, or lent to holders. They are accounted for if each tag is either free, just once, or lent to
just one holder, and no holder has two tags.
-/

namespace Torpedo

structure Tags (τ κ : Type) where
  free : List τ
  holder : τ → Option κ
  tag : κ → Option τ

namespace Tags

variable {τ κ : Type} (t : Tags τ κ) {a : τ} {k : κ} {rest : List τ} {all : τ → Prop}

section Steps

variable [DecidableEq τ] [DecidableEq κ]

/-- A tag is lent, and the rest stays free. -/
def lend (rest : List τ) (a : τ) (k : κ) : Tags τ κ :=
  ⟨rest, Function.update t.holder a (some k), Function.update t.tag k (some a)⟩

/-- A tag is given back. -/
def giveBack (a : τ) (k : κ) : Tags τ κ :=
  ⟨t.free ++ [a], Function.update t.holder a none, Function.update t.tag k none⟩

end Steps

/-- All tags are accounted for. -/
structure Accounted (all : τ → Prop) (t : Tags τ κ) : Prop where
  nodup : t.free.Nodup
  all_iff : ∀ a, all a ↔ a ∈ t.free ∨ t.holder a ≠ none
  holder_of_free : ∀ a ∈ t.free, t.holder a = none
  holder_iff : ∀ a k, t.holder a = some k ↔ t.tag k = some a

variable {t}

theorem accounted_free {free : List τ} (hnodup : free.Nodup) (hall : ∀ a, all a ↔ a ∈ free) :
    Accounted all (⟨free, fun _ => none, fun _ => none⟩ : Tags τ κ) where
  nodup := hnodup
  all_iff a := by rw [hall, or_iff_left (not_not.2 rfl)]
  holder_of_free _ _ := rfl
  holder_iff a k := iff_of_false (by simp) (by simp)

theorem Accounted.perm {free : List τ} (h : t.Accounted all) (hperm : t.free.Perm free) :
    ({ t with free } : Tags τ κ).Accounted all where
  nodup := hperm.nodup_iff.1 h.nodup
  all_iff a := by rw [h.all_iff, hperm.mem_iff]
  holder_of_free a ha := h.holder_of_free a (hperm.mem_iff.2 ha)
  holder_iff := h.holder_iff

variable [DecidableEq τ] [DecidableEq κ]

theorem Accounted.lend (h : t.Accounted all) (hfree : t.free.Perm (a :: rest)) (hk : t.tag k = none) :
    (t.lend rest a k).Accounted all := by
  obtain ⟨ha, hrest⟩ := List.nodup_cons.1 (hfree.nodup_iff.1 h.nodup)
  have hholder : t.holder a = none := h.holder_of_free a (hfree.mem_iff.2 List.mem_cons_self)
  refine ⟨hrest, fun b => ?_, fun b hb => ?_, fun b k' => ?_⟩
  · rw [h.all_iff, hfree.mem_iff, List.mem_cons]
    show _ ↔ b ∈ rest ∨ Function.update t.holder a (some k) b ≠ none
    rw [Function.update_apply]
    by_cases hb : b = a
    · simp [hb]
    · simp [hb]
  · show Function.update t.holder a (some k) b = none
    rw [Function.update_of_ne fun hb' : b = a => ha (hb' ▸ hb)]
    exact h.holder_of_free b (hfree.mem_iff.2 (List.mem_cons_of_mem a hb))
  · show Function.update t.holder a (some k) b = some k' ↔ Function.update t.tag k (some a) k' = some b
    rw [Function.update_apply, Function.update_apply]
    have hiff := h.holder_iff b k'
    by_cases hb : b = a
    · by_cases hk' : k' = k
      · simp [hb, hk']
      · have hne : t.tag k' ≠ some a := fun htag => by simp [(h.holder_iff a k').2 htag] at hholder
        simp [hb, hk', hne, Ne.symm hk']
    · by_cases hk' : k' = k
      · have hne : t.holder b ≠ some k := fun hb' => by simp [(h.holder_iff b k).1 hb'] at hk
        simp [hb, hk', hne, Ne.symm hb]
      · simp [hb, hk', hiff]

theorem Accounted.giveBack (h : t.Accounted all) (hk : t.tag k = some a) :
    (t.giveBack a k).Accounted all := by
  have hholder : t.holder a = some k := (h.holder_iff a k).2 hk
  have ha : a ∉ t.free := fun ha => by simp [h.holder_of_free a ha] at hholder
  refine ⟨?_, fun b => ?_, fun b hb => ?_, fun b k' => ?_⟩
  · refine List.nodup_append.2 ⟨h.nodup, List.nodup_singleton a, fun b hb c hc heq => ?_⟩
    rw [List.mem_singleton] at hc
    exact ha (hc ▸ heq ▸ hb)
  · rw [h.all_iff]
    show _ ↔ b ∈ t.free ++ [a] ∨ Function.update t.holder a none b ≠ none
    rw [Function.update_apply]
    by_cases hb : b = a
    · simp [hb, hholder]
    · simp [hb]
  · show Function.update t.holder a none b = none
    rw [Function.update_apply]
    split_ifs with hb'
    · rfl
    · obtain hb | hb := List.mem_append.1 hb
      · exact h.holder_of_free b hb
      · exact absurd (List.mem_singleton.1 hb) hb'
  · show Function.update t.holder a none b = some k' ↔ Function.update t.tag k none k' = some b
    rw [Function.update_apply, Function.update_apply]
    have hiff := h.holder_iff b k'
    by_cases hb : b = a
    · by_cases hk' : k' = k
      · simp [hb, hk']
      · have hne : t.tag k' ≠ some a := fun htag => by
          have hholder' := (h.holder_iff a k').2 htag
          rw [hholder] at hholder'
          exact hk' (Option.some.inj hholder').symm
        simp [hb, hk', hne]
    · by_cases hk' : k' = k
      · have hne : t.holder b ≠ some k := fun hb' => by
          have htag := (h.holder_iff b k).1 hb'
          rw [hk] at htag
          exact hb (Option.some.inj htag).symm
        simp [hb, hk', hne]
      · simp [hb, hk', hiff]

end Tags

end Torpedo
