import Torpedo.Util.Collections

/-!
# Objects in hash maps

The objects of a map are changed in place: the keys stay, in their order.
-/

namespace Torpedo

namespace HashMap

variable {κ ν : Type} [DecidableEq κ] (m : HashMap κ ν)

/-- The entry of a key is changed. -/
def changeEntry (k : κ) (f : ν → ν) (e : Sigma fun _ : κ => ν) : Sigma fun _ : κ => ν :=
  if e.1 = k then ⟨e.1, f e.2⟩ else e

theorem changeEntry_fst (k : κ) (f : ν → ν) (e : Sigma fun _ : κ => ν) : (changeEntry k f e).1 = e.1 := by
  unfold changeEntry
  split_ifs <;> rfl

theorem keys_map_changeEntry (k : κ) (f : ν → ν) (es : List (Sigma fun _ : κ => ν)) :
    (es.map (changeEntry k f)).keys = es.keys := by
  unfold List.keys
  rw [List.map_map]
  exact congrArg (List.map · es) (funext fun e => changeEntry_fst k f e)

/-- Change the object under a key, if there is one. -/
def change (k : κ) (f : ν → ν) : HashMap κ ν where
  entries := m.entries.map (changeEntry k f)
  nodupKeys := by
    unfold List.NodupKeys
    rw [keys_map_changeEntry]
    exact m.nodupKeys

@[simp] theorem keySet_change (k : κ) (f : ν → ν) : (m.change k f).keySet = m.keySet :=
  keys_map_changeEntry k f m.entries

theorem dlookup_map_changeEntry (k k' : κ) (f : ν → ν) (es : List (Sigma fun _ : κ => ν)) :
    (es.map (changeEntry k f)).dlookup k' = if k' = k then (es.dlookup k').map f else es.dlookup k' := by
  induction es with
  | nil => split_ifs <;> rfl
  | cons e es ih =>
    obtain ⟨k₀, v⟩ := e
    rw [List.map_cons]
    by_cases hk : k' = k₀
    · subst hk
      unfold changeEntry
      split_ifs with h
      · rw [List.dlookup_cons_eq, List.dlookup_cons_eq]
        rfl
      · rw [List.dlookup_cons_eq, List.dlookup_cons_eq]
    · have hne : k' ≠ (changeEntry k f ⟨k₀, v⟩).1 := by rwa [changeEntry_fst]
      have hskip : (Sigma.mk k₀ v :: es).dlookup k' = es.dlookup k' := List.dlookup_cons_ne _ _ hk
      rw [hskip, ← ih]
      exact List.dlookup_cons_ne _ _ hne

theorem get_change (k k' : κ) (f : ν → ν) :
    (m.change k f).get k' = if k' = k then (m.get k').map f else m.get k' :=
  dlookup_map_changeEntry k k' f m.entries

theorem get_change_of_ne {k k' : κ} (h : k' ≠ k) (f : ν → ν) : (m.change k f).get k' = m.get k' := by
  rw [get_change, if_neg h]

@[simp] theorem change_change (k : κ) (f g : ν → ν) : (m.change k f).change k g = m.change k (g ∘ f) := by
  refine AList.ext ?_
  show (m.entries.map _).map _ = m.entries.map _
  rw [List.map_map]
  refine congrArg (List.map · m.entries) (funext fun e => ?_)
  unfold changeEntry
  by_cases h : e.1 = k
  · simp [h]
  · simp [h]

variable {m}

/-- The object that is there is put there. -/
theorem change_eq_self {k : κ} {v : ν} (h : m.get k = some v) : m.change k (fun _ => v) = m := by
  refine AList.ext ((List.map_congr_left fun e he => ?_).trans (List.map_id _))
  unfold changeEntry
  split_ifs with hk
  · obtain ⟨k', v'⟩ := e
    obtain rfl : k' = k := hk
    have hv : m.get k' = some v' := List.mem_dlookup m.nodupKeys he
    obtain rfl := Option.some.inj (h.symm.trans hv)
    rfl
  · rfl

/-! ## Entries that are put one by one -/

section Puts

variable {α : Type} (key : α → κ) (value : α → ν)

theorem get_foldl_put_of_notMem {as : List α} {k : κ} (h : ∀ a ∈ as, key a ≠ k) (m : HashMap κ ν) :
    (as.foldl (fun m a => m.put (key a) (value a)) m).get k = m.get k := by
  induction as generalizing m with
  | nil => rfl
  | cons a as ih =>
    rw [List.foldl_cons, ih fun b hb => h b (List.mem_cons_of_mem _ hb), get_put,
      if_neg (h a List.mem_cons_self).symm]

/-- A key that is put at least once, and always with the same value. -/
theorem get_foldl_put_of_mem {as : List α} {k : κ} {v : ν} (hmem : ∃ a ∈ as, key a = k)
    (hall : ∀ a ∈ as, key a = k → value a = v) (m : HashMap κ ν) :
    (as.foldl (fun m a => m.put (key a) (value a)) m).get k = some v := by
  induction as generalizing m with
  | nil =>
    obtain ⟨a, ha, -⟩ := hmem
    cases ha
  | cons a as ih =>
    rw [List.foldl_cons]
    by_cases hrest : ∃ b ∈ as, key b = k
    · exact ih hrest (fun b hb => hall b (List.mem_cons_of_mem _ hb)) _
    · obtain ⟨b, hb, hkey⟩ := hmem
      obtain rfl | hb := List.mem_cons.1 hb
      · rw [get_foldl_put_of_notMem key value (fun c hc hck => hrest ⟨c, hc, hck⟩), hkey, get_put_self,
          hall b List.mem_cons_self hkey]
      · exact absurd ⟨b, hb, hkey⟩ hrest

/-- Values that are all put under one key. -/
theorem get_foldl_put_last (k : κ) {as : List α} {a : α} (h : as.getLast? = some a) (m : HashMap κ ν) (k' : κ) :
    (as.foldl (fun m a => m.put k (value a)) m).get k' = if k' = k then some (value a) else m.get k' := by
  obtain ⟨init, rfl⟩ := List.getLast?_eq_some_iff.1 h
  rw [List.foldl_append]
  show ((init.foldl (fun m a => m.put k (value a)) m).put k (value a)).get k' = _
  rw [get_put]
  split_ifs with hk
  · rfl
  · exact get_foldl_put_of_notMem (fun _ => k) value (fun _ _ => Ne.symm hk) m

/-- What is found has been put. -/
theorem mem_of_get_foldl_put {as : List α} {k : κ} {v : ν}
    (h : (as.foldl (fun m a => m.put (key a) (value a)) (∅ : HashMap κ ν)).get k = some v) :
    ∃ a ∈ as, key a = k ∧ value a = v := by
  have hgeneral : ∀ m : HashMap κ ν, (as.foldl (fun m a => m.put (key a) (value a)) m).get k = some v →
      (∃ a ∈ as, key a = k ∧ value a = v) ∨ m.get k = some v := by
    clear h
    induction as with
    | nil => exact fun m h => .inr h
    | cons a as ih =>
      intro m h
      obtain ⟨b, hb, hbk⟩ | h := ih _ h
      · exact .inl ⟨b, List.mem_cons_of_mem _ hb, hbk⟩
      · rw [get_put] at h
        split_ifs at h with hk
        · exact .inl ⟨a, List.mem_cons_self, hk.symm, Option.some.inj h⟩
        · exact .inr h
  exact (hgeneral ∅ h).resolve_right nofun

end Puts

end HashMap

end Torpedo
