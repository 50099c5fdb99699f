import Mathlib.Data.List.AList

/-!
# Hash maps, hash sets and maps of sets

Hash maps are association lists without repeated keys, hash sets are lists without repetitions.
The order in which an iterator walks them is left open (`HashOrder`). A map of sets is an *index*
of a family of elements (`SetMap.Indexes`) when it files each element under its keys and under no
other key, and keeps no empty set.
-/

set_option linter.unusedSectionVars false

namespace Torpedo

/-- The order in which an iterator yields the elements of a hash set, or the keys of a hash map. -/
structure HashOrder where
  iter : {α : Type} → List α → List α
  perm : ∀ {α : Type} (s : List α), (iter s).Perm s

namespace HashOrder

/-- The order of insertion. -/
def insertion : HashOrder := ⟨id, fun _ => .rfl⟩

variable (ord : HashOrder) {α : Type} {s : List α}

@[simp] theorem mem_iter {x : α} : x ∈ ord.iter s ↔ x ∈ s := (ord.perm s).mem_iff

@[simp] theorem nodup_iter : (ord.iter s).Nodup ↔ s.Nodup := (ord.perm s).nodup_iff

end HashOrder

/-! ## Hash maps -/

abbrev HashMap (κ ν : Type) := AList fun _ : κ => ν

namespace HashMap

variable {κ ν : Type} [DecidableEq κ] (m : HashMap κ ν)

def get (k : κ) : Option ν := m.lookup k

def put (k : κ) (v : ν) : HashMap κ ν := m.insert k v

def remove (k : κ) : HashMap κ ν := m.erase k

def containsKey (k : κ) : Bool := (m.get k).isSome

def keySet : List κ := m.keys

@[simp] theorem get_empty (k : κ) : (∅ : HashMap κ ν).get k = none := rfl

@[simp] theorem keySet_empty : (∅ : HashMap κ ν).keySet = [] := rfl

@[grind =] theorem get_put (k k' : κ) (v : ν) :
    (m.put k v).get k' = if k' = k then some v else m.get k' := by
  unfold get put
  split_ifs with h
  · subst h; exact AList.lookup_insert m
  · exact AList.lookup_insert_ne h

@[grind =] theorem get_remove (k k' : κ) :
    (m.remove k).get k' = if k' = k then none else m.get k' := by
  unfold get remove
  split_ifs with h
  · subst h; exact AList.lookup_erase k' m
  · exact AList.lookup_erase_ne h

@[simp] theorem get_put_self (k : κ) (v : ν) : (m.put k v).get k = some v := by
  rw [get_put, if_pos rfl]

@[simp] theorem get_remove_self (k : κ) : (m.remove k).get k = none := by
  rw [get_remove, if_pos rfl]

theorem get_put_eq (k : κ) (v : ν) : (m.put k v).get = Function.update m.get k (some v) := by
  funext k'
  rw [get_put, Function.update_apply]

theorem get_remove_eq (k : κ) : (m.remove k).get = Function.update m.get k none := by
  funext k'
  rw [get_remove, Function.update_apply]

theorem remove_remove (k : κ) : (m.remove k).remove k = m.remove k :=
  AList.ext (List.kerase_of_notMem_keys (List.notMem_keys_kerase k m.nodupKeys))

theorem remove_put (k : κ) (v : ν) : (m.put k v).remove k = m.remove k := by
  have hcons : List.kerase k (⟨k, v⟩ :: List.kerase k m.entries) = List.kerase k m.entries :=
    List.kerase_cons_eq rfl
  exact AList.ext hcons

theorem mem_keySet {k : κ} : k ∈ m.keySet ↔ (m.get k).isSome := by
  unfold keySet get
  rw [AList.lookup_isSome, AList.mem_keys]

theorem mem_keySet_iff {k : κ} : k ∈ m.keySet ↔ ∃ v, m.get k = some v := by
  rw [mem_keySet, Option.isSome_iff_exists]

theorem nodup_keySet : m.keySet.Nodup := AList.keys_nodup m

end HashMap

/-! ## Hash sets -/

section Sets

variable {α : Type} [DecidableEq α] (s : List α)

/-- `HashSet.add`. -/
def setAdd (x : α) : List α := if x ∈ s then s else s ++ [x]

/-- `HashSet.remove`. -/
def setRemove (x : α) : List α := s.filter (· ≠ x)

@[simp] theorem mem_setAdd {x y : α} : y ∈ setAdd s x ↔ y ∈ s ∨ y = x := by
  unfold setAdd; split_ifs with h
  · exact ⟨Or.inl, fun hy => hy.elim id fun e => e ▸ h⟩
  · simp

@[simp] theorem mem_setRemove {x y : α} : y ∈ setRemove s x ↔ y ∈ s ∧ y ≠ x := by
  simp [setRemove]

theorem setAdd_ne_nil (x : α) : setAdd s x ≠ [] :=
  List.ne_nil_of_mem ((mem_setAdd s).2 (.inr rfl))

variable {s}

theorem nodup_setAdd (hs : s.Nodup) (x : α) : (setAdd s x).Nodup := by
  unfold setAdd; split_ifs with h
  · exact hs
  · exact List.nodup_append.2 ⟨hs, List.nodup_singleton x, by
      intro a ha b hb e
      rw [List.mem_singleton] at hb
      exact h (hb ▸ e ▸ ha)⟩

theorem nodup_setRemove (hs : s.Nodup) (x : α) : (setRemove s x).Nodup := hs.filter _

end Sets

/-! ## Maps of sets -/

abbrev SetMap (κ α : Type) := HashMap κ (List α)

namespace SetMap

variable {κ α : Type} [DecidableEq κ] [DecidableEq α] (m : SetMap κ α)

/-- Put an empty set under `k` if there is none, then add `x` to the set under `k`. -/
def add (k : κ) (x : α) : SetMap κ α := m.put k (setAdd ((m.get k).getD []) x)

/-- Remove `x` from the set under `k`, and the set when that leaves it empty. -/
def erase (k : κ) (x : α) : SetMap κ α :=
  match m.get k with
  | none => m
  | some s => if setRemove s x = [] then HashMap.remove m k else m.put k (setRemove s x)

/-- `x` is filed under `k`. -/
def Has (k : κ) (x : α) : Prop := ∃ s, m.get k = some s ∧ x ∈ s

instance (k : κ) (x : α) : Decidable (m.Has k x) :=
  match h : m.get k with
  | none => .isFalse fun ⟨_, hs, _⟩ => by simp [h] at hs
  | some s => decidable_of_iff (x ∈ s) ⟨fun hx => ⟨s, h, hx⟩, fun ⟨s', hs', hx⟩ => by
      rw [h] at hs'; exact Option.some.inj hs' ▸ hx⟩

theorem has_add {k k' : κ} {x y : α} :
    (m.add k x).Has k' y ↔ m.Has k' y ∨ k' = k ∧ y = x := by
  unfold Has add
  simp only [HashMap.get_put]
  by_cases hk : k' = k
  · subst hk
    cases h : m.get k' <;> simp
  · simp [hk]

theorem has_erase {k k' : κ} {x y : α} :
    (m.erase k x).Has k' y ↔ m.Has k' y ∧ ¬(k' = k ∧ y = x) := by
  unfold erase
  cases h : m.get k with
  | none =>
    refine ⟨fun hy => ⟨hy, fun ⟨hk, _⟩ => ?_⟩, And.left⟩
    obtain ⟨s, hs, _⟩ := hy
    rw [hk, h] at hs; cases hs
  | some s =>
    by_cases hk : k' = k
    · subst hk
      have hr : (∀ y ∈ s, y = x) ↔ setRemove s x = [] := by
        rw [List.eq_nil_iff_forall_not_mem]; simp
      by_cases hn : setRemove s x = []
      · simp only [hn, if_true, Has, HashMap.get_remove_self, h, Option.some.injEq]
        have := hr.2 hn
        grind
      · simp only [hn, if_false, Has, HashMap.get_put_self, h, Option.some.injEq]
        simp
    · have hg : ∀ m' : SetMap κ α, m' = HashMap.remove m k ∨ m' = m.put k (setRemove s x) →
          m'.get k' = m.get k' := by
        rintro m' (rfl | rfl) <;> simp [HashMap.get_remove, HashMap.get_put, hk]
      simp only [Has, hk, false_and, not_false_eq_true, and_true]
      split_ifs
      · rw [hg _ (.inl rfl)]
      · rw [hg _ (.inr rfl)]

/-- The map that files each value under the key of its entry. -/
def ofEntries (es : List (κ × α)) : SetMap κ α := es.foldl (fun m e => m.add e.1 e.2) ∅

theorem has_foldl_add (es : List (κ × α)) (k : κ) (x : α) :
    ∀ m : SetMap κ α, (es.foldl (fun m e => m.add e.1 e.2) m).Has k x ↔ m.Has k x ∨ (k, x) ∈ es := by
  induction es with
  | nil => simp
  | cons e es ih =>
    intro m
    rw [List.foldl_cons, ih, has_add, List.mem_cons, or_assoc, Prod.ext_iff]

theorem has_ofEntries {es : List (κ × α)} {k : κ} {x : α} :
    (ofEntries es).Has k x ↔ (k, x) ∈ es := by
  unfold ofEntries
  rw [has_foldl_add]
  constructor
  · rintro (⟨s, hs, -⟩ | h)
    · cases hs
    · exact h
  · exact .inr

/-- `m` files exactly the elements of `P`, each under its `keys`, and keeps no empty set. -/
structure Indexes (keys : α → List κ) (P : α → Prop) : Prop where
  has_iff : ∀ k x, m.Has k x ↔ P x ∧ k ∈ keys x
  ne_nil : ∀ k, m.get k ≠ some []
  nodup : ∀ k s, m.get k = some s → s.Nodup

variable {m} {keys : α → List κ} {P Q : α → Prop}

theorem indexes_empty : (∅ : SetMap κ α).Indexes keys fun _ => False :=
  ⟨fun k x => by simp [Has], fun k => by simp, fun k s h => by simp at h⟩

theorem Indexes.congr (h : m.Indexes keys P) (hPQ : ∀ x, P x ↔ Q x) : m.Indexes keys Q :=
  ⟨fun k x => by rw [h.has_iff, hPQ], h.ne_nil, h.nodup⟩

theorem get_add_ne_nil (h : ∀ k, m.get k ≠ some []) (k : κ) (x : α) (k' : κ) :
    (m.add k x).get k' ≠ some [] := by
  unfold add; rw [HashMap.get_put]
  split_ifs
  · exact fun e => setAdd_ne_nil _ x (Option.some.inj e)
  · exact h k'

theorem get_erase_ne_nil (h : ∀ k, m.get k ≠ some []) (k : κ) (x : α) (k' : κ) :
    (m.erase k x).get k' ≠ some [] := by
  unfold erase
  cases m.get k with
  | none => exact h k'
  | some s =>
    dsimp only
    split_ifs with hn
    · rw [HashMap.get_remove]; split_ifs <;> [simp; exact h k']
    · rw [HashMap.get_put]; split_ifs <;> [exact fun e => hn (Option.some.inj e); exact h k']

theorem get_ofEntries_ne_nil (es : List (κ × α)) (k : κ) : (ofEntries es).get k ≠ some [] := by
  unfold ofEntries
  have h : ∀ m : SetMap κ α, (∀ k, m.get k ≠ some []) →
      ∀ k, (es.foldl (fun m e => m.add e.1 e.2) m).get k ≠ some [] := by
    induction es with
    | nil => exact fun m hm => hm
    | cons e es ih => exact fun m hm => ih _ (get_add_ne_nil hm e.1 e.2)
  exact h ∅ (by simp) k

theorem nodup_add (h : ∀ k s, m.get k = some s → s.Nodup) (k : κ) (x : α) :
    ∀ k' s, (m.add k x).get k' = some s → s.Nodup := by
  intro k' s hs
  unfold add at hs; rw [HashMap.get_put] at hs
  split_ifs at hs
  · cases Option.some.inj hs
    refine nodup_setAdd ?_ x
    cases hk : m.get k with
    | none => exact List.nodup_nil
    | some s => exact h k s hk
  · exact h k' s hs

theorem nodup_erase (h : ∀ k s, m.get k = some s → s.Nodup) (k : κ) (x : α) :
    ∀ k' s, (m.erase k x).get k' = some s → s.Nodup := by
  intro k' s hs
  unfold erase at hs
  cases hk : m.get k with
  | none => rw [hk] at hs; exact h k' s hs
  | some t =>
    rw [hk] at hs; dsimp only at hs
    split_ifs at hs with hn
    · rw [HashMap.get_remove] at hs; split_ifs at hs; exact h k' s hs
    · rw [HashMap.get_put] at hs; split_ifs at hs
      · cases Option.some.inj hs; exact nodup_setRemove (h k t hk) x
      · exact h k' s hs

/-- Filing `x` under both of its two keys. -/
theorem Indexes.add_add (h : m.Indexes keys P) {x : α} {k₁ k₂ : κ} (hk : keys x = [k₁, k₂]) :
    ((m.add k₁ x).add k₂ x).Indexes keys fun y => P y ∨ y = x where
  has_iff k y := by
    rw [has_add, has_add, h.has_iff]
    grind
  ne_nil := get_add_ne_nil (get_add_ne_nil h.ne_nil k₁ x) k₂ x
  nodup := nodup_add (nodup_add h.nodup k₁ x) k₂ x

/-- Erasing `x` under both of its two keys. -/
theorem Indexes.erase_erase (h : m.Indexes keys P) {x : α} {k₁ k₂ : κ} (hk : keys x = [k₁, k₂]) :
    ((m.erase k₁ x).erase k₂ x).Indexes keys fun y => P y ∧ y ≠ x where
  has_iff k y := by
    rw [has_erase, has_erase, h.has_iff]
    grind
  ne_nil := get_erase_ne_nil (get_erase_ne_nil h.ne_nil k₁ x) k₂ x
  nodup := nodup_erase (nodup_erase h.nodup k₁ x) k₂ x

/-- A key of the index is a key of some element. -/
theorem Indexes.get_isSome_iff (h : m.Indexes keys P) (k : κ) :
    (m.get k).isSome ↔ ∃ x, P x ∧ k ∈ keys x := by
  constructor
  · intro hk
    obtain ⟨s, hs⟩ := Option.isSome_iff_exists.1 hk
    cases s with
    | nil => exact absurd hs (h.ne_nil k)
    | cons x t => exact ⟨x, (h.has_iff k x).1 ⟨_, hs, List.mem_cons_self⟩⟩
  · rintro ⟨x, hx⟩
    obtain ⟨s, hs, _⟩ := (h.has_iff k x).2 hx
    rw [hs]; rfl

theorem Indexes.mem_get_iff (h : m.Indexes keys P) {k : κ} {s : List α} (hs : m.get k = some s)
    (x : α) : x ∈ s ↔ P x ∧ k ∈ keys x := by
  rw [← h.has_iff]
  refine ⟨fun hx => ⟨s, hs, hx⟩, ?_⟩
  rintro ⟨t, ht, hx⟩
  rw [hs] at ht; exact Option.some.inj ht ▸ hx

end SetMap

end Torpedo
