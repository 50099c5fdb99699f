import Mathlib.Logic.Function.Basic
import Mathlib.Logic.Relation
import Torpedo.DeviceManager.Devices

/-!
# The registry of hosts

What the device store is for: devices under ids, each with the entities of one host, an index that
finds the device of a host, and a second index of the hosts to sets of ids. The operations of the
store are made of a few changes to the registry, and all invariants of the store are invariants of
these changes.
-/

namespace Torpedo

open Relation

/-! ## Devices of one host -/

/-- The entities of a device: some, strictly sorted, and all with the same key fields. -/
structure Device.WellFormed (ports : PortOrder) (d : Device) : Prop where
  nonempty : d.entities ≠ []
  sorted : SortedEntities ports d.entities
  same : ∀ e ∈ d.entities, ∀ o ∈ d.entities, e.indexed = o.indexed

/-- The device has an entity with key fields `k`. -/
def Device.HasKey (d : Device) (k : IndexedEntity) : Prop := ∃ e ∈ d.entities, e.indexed = k

section Keys

variable {ports : PortOrder} {d d' : Device} {k k' : IndexedEntity}

theorem Device.WellFormed.exists_hasKey (h : d.WellFormed ports) : ∃ k, d.HasKey k := by
  obtain ⟨e, he⟩ := List.exists_mem_of_ne_nil _ h.nonempty
  exact ⟨e.indexed, e, he, rfl⟩

theorem Device.WellFormed.hasKey_unique (h : d.WellFormed ports) (hk : d.HasKey k)
    (hk' : d.HasKey k') : k = k' := by
  obtain ⟨e, he, rfl⟩ := hk
  obtain ⟨o, ho, rfl⟩ := hk'
  exact h.same e he o ho

theorem Device.WellFormed.indexed (h : d.WellFormed ports) (hk : d.HasKey k) {e : Entity}
    (he : e ∈ d.entities) : e.indexed = k := h.hasKey_unique ⟨e, he, rfl⟩ hk

end Keys

/-! ## The registry -/

/-- The devices, the index of the hosts, the index of the hosts to sets of ids, the key fields that
have an index to sets of ids, and the next id. -/
@[ext]
structure Registry where
  device : ℕ → Option Device
  primary : IndexedEntity → Option ℕ
  filed : IndexedEntity → List ℕ
  kinds : Finset DeviceField → Bool
  counter : ℕ

namespace Registry

variable {ports : PortOrder} {r r' r'' : Registry}

/-- Some index refers from `k` to `id`. -/
def Refers (r : Registry) (k : IndexedEntity) (id : ℕ) : Prop := r.primary k = some id ∨ id ∈ r.filed k

/-- A change that keeps the indices in step with the devices. -/
inductive Change (ports : PortOrder) (r : Registry) : Registry → Prop
  -- an id that no device takes
  | draw : Change ports r { r with counter := r.counter + 1 }
  | add (d : Device) (k : IndexedEntity) :
    r.primary k = none → d.deviceKey = r.counter → d.WellFormed ports → d.HasKey k →
    Change ports r {
      device := Function.update r.device r.counter (some d)
      primary := Function.update r.primary k (some r.counter)
      filed := Function.update r.filed k (setAdd (r.filed k) r.counter)
      kinds := Function.update r.kinds keyFields true
      counter := r.counter + 1 }
  | replace (id : ℕ) (d d' : Device) :
    r.device id = some d → d'.deviceKey = id → d'.WellFormed ports →
    (∀ k, d'.HasKey k ↔ d.HasKey k) →
    Change ports r { r with device := Function.update r.device id (some d') }
  | remove (id : ℕ) (d : Device) (k : IndexedEntity) :
    r.device id = some d → d.HasKey k →
    Change ports r {
      device := Function.update r.device id none
      primary := Function.update r.primary k none
      filed := Function.update r.filed k (setRemove (r.filed k) id)
      kinds := r.kinds
      counter := r.counter }
  -- an index entry that refers to no device
  | repair (k : IndexedEntity) (id : ℕ) :
    r.primary k = some id → r.device id = none →
    Change ports r { r with primary := Function.update r.primary k none }

/-- A device that goes while the indices keep referring to it. -/
inductive Drop (r : Registry) : Registry → Prop
  | drop (id : ℕ) (d : Device) :
    r.device id = some d → Drop r { r with device := Function.update r.device id none }

/-- A change or a drop. -/
def Move (ports : PortOrder) (r r' : Registry) : Prop := Change ports r r' ∨ Drop r r'

/-! ## Invariants -/

/-- What changes and drops keep. -/
structure Inv (ports : PortOrder) (r : Registry) : Prop where
  key : ∀ id d, r.device id = some d → d.deviceKey = id
  lt : ∀ id d, r.device id = some d → id < r.counter
  wellFormed : ∀ id d, r.device id = some d → d.WellFormed ports
  indexed : ∀ id d k, r.device id = some d → d.HasKey k → r.primary k = some id
  filed : ∀ id d k, r.device id = some d → d.HasKey k → id ∈ r.filed k
  nodup : ∀ k, (r.filed k).Nodup
  kinds : ∀ f, r.kinds f = true → f = keyFields
  kindsFiled : ∀ k id, id ∈ r.filed k → r.kinds keyFields = true
  refersLt : ∀ k id, r.Refers k id → id < r.counter
  owner : ∀ k id d, r.Refers k id → r.device id = some d → d.HasKey k

/-- No index refers to a device that is not there. -/
def NoDangling (r : Registry) : Prop := ∀ k id, r.Refers k id → ∃ d, r.device id = some d

/-- The registry with no device. -/
def empty : Registry := ⟨fun _ => none, fun _ => none, fun _ => [], fun _ => false, 0⟩

theorem inv_empty : empty.Inv ports where
  key _ _ h := nomatch h
  lt _ _ h := nomatch h
  wellFormed _ _ h := nomatch h
  indexed _ _ _ h := nomatch h
  filed _ _ _ h := nomatch h
  nodup _ := List.nodup_nil
  kinds _ h := nomatch h
  kindsFiled _ _ h := nomatch h
  refersLt _ _ h := h.elim (fun h => nomatch h) fun h => nomatch h
  owner _ _ _ _ h := nomatch h

theorem noDangling_empty : empty.NoDangling := fun _ _ h =>
  h.elim (fun h => nomatch h) fun h => nomatch h

theorem Inv.not_device_counter (h : r.Inv ports) : r.device r.counter = none := by
  cases hd : r.device r.counter with
  | none => rfl
  | some d => exact absurd (h.lt _ d hd) (lt_irrefl _)

theorem Inv.unique (h : r.Inv ports) {id id' : ℕ} {d d' : Device} {k : IndexedEntity}
    (hd : r.device id = some d) (hd' : r.device id' = some d') (hk : d.HasKey k)
    (hk' : d'.HasKey k) : id = id' := by
  have h₁ := h.indexed id d k hd hk
  rw [h.indexed id' d' k hd' hk'] at h₁
  exact (Option.some.inj h₁).symm

/-- The devices after `update`. -/
theorem device_update {f : ℕ → Option Device} {id i : ℕ} {o : Option Device} {d : Device}
    (h : Function.update f id o i = some d) : i = id ∧ o = some d ∨ i ≠ id ∧ f i = some d := by
  by_cases hi : i = id
  · subst hi
    rw [Function.update_self] at h
    exact .inl ⟨rfl, h⟩
  · rw [Function.update_of_ne hi] at h
    exact .inr ⟨hi, h⟩

theorem mem_file {f : IndexedEntity → List ℕ} {k k' : IndexedEntity} {id i : ℕ} :
    i ∈ Function.update f k (setAdd (f k) id) k' ↔ i ∈ f k' ∨ k' = k ∧ i = id := by
  by_cases hk : k' = k
  · subst hk
    rw [Function.update_self, mem_setAdd]
    simp
  · rw [Function.update_of_ne hk]
    simp [hk]

theorem mem_unfile {f : IndexedEntity → List ℕ} {k k' : IndexedEntity} {id i : ℕ} :
    i ∈ Function.update f k (setRemove (f k) id) k' ↔ i ∈ f k' ∧ ¬(k' = k ∧ i = id) := by
  by_cases hk : k' = k
  · subst hk
    rw [Function.update_self, mem_setRemove]
    simp
  · rw [Function.update_of_ne hk]
    simp [hk]

theorem nodup_update {f : IndexedEntity → List ℕ} {k : IndexedEntity} {ids : List ℕ}
    (hf : ∀ k', (f k').Nodup) (hids : ids.Nodup) (k' : IndexedEntity) :
    (Function.update f k ids k').Nodup := by
  by_cases hk : k' = k
  · subst hk
    rw [Function.update_self]
    exact hids
  · rw [Function.update_of_ne hk]
    exact hf k'

theorem Inv.draw (h : r.Inv ports) : Inv ports { r with counter := r.counter + 1 } :=
  { h with
    lt := fun id d hd => Nat.lt_succ_of_lt (h.lt id d hd)
    refersLt := fun k id hr => Nat.lt_succ_of_lt (h.refersLt k id hr) }

theorem Inv.add (h : r.Inv ports) {d : Device} {k : IndexedEntity} (hp : r.primary k = none)
    (hkey : d.deviceKey = r.counter) (hwf : d.WellFormed ports) (hk : d.HasKey k) :
    Inv ports {
      device := Function.update r.device r.counter (some d)
      primary := Function.update r.primary k (some r.counter)
      filed := Function.update r.filed k (setAdd (r.filed k) r.counter)
      kinds := Function.update r.kinds keyFields true
      counter := r.counter + 1 } := by
  -- a device that was there has other key fields
  have hne : ∀ {id d' k'}, r.device id = some d' → d'.HasKey k' → k' ≠ k := by
    rintro id d' k' hd hk' rfl
    rw [h.indexed id d' k' hd hk'] at hp
    cases hp
  -- what the indices refer to
  have hrefers : ∀ {k' id}, Refers {
      device := Function.update r.device r.counter (some d)
      primary := Function.update r.primary k (some r.counter)
      filed := Function.update r.filed k (setAdd (r.filed k) r.counter)
      kinds := Function.update r.kinds keyFields true
      counter := r.counter + 1 } k' id → r.Refers k' id ∨ k' = k ∧ id = r.counter := by
    rintro k' id (hr | hr)
    · by_cases hkk : k' = k
      · subst hkk
        simp only [Function.update_self, Option.some.injEq] at hr
        exact .inr ⟨rfl, hr.symm⟩
      · simp only [Function.update_of_ne hkk] at hr
        exact .inl (.inl hr)
    · exact (mem_file.1 hr).imp_left .inr
  refine ⟨?_, ?_, ?_, ?_, ?_, ?_, ?_, ?_, ?_, ?_⟩
  · intro id d' hb
    obtain ⟨rfl, hd⟩ | ⟨-, hd⟩ := device_update hb
    · cases hd; exact hkey
    · exact h.key id d' hd
  · intro id d' hb
    obtain ⟨rfl, -⟩ | ⟨-, hd⟩ := device_update hb
    · exact Nat.lt_succ_self _
    · exact Nat.lt_succ_of_lt (h.lt id d' hd)
  · intro id d' hb
    obtain ⟨-, hd⟩ | ⟨-, hd⟩ := device_update hb
    · cases hd; exact hwf
    · exact h.wellFormed id d' hd
  · intro id d' k' hb hk'
    obtain ⟨rfl, hd⟩ | ⟨-, hd⟩ := device_update hb
    · cases hd
      cases hwf.hasKey_unique hk hk'
      exact Function.update_self ..
    · show Function.update r.primary k (some r.counter) k' = some id
      rw [Function.update_of_ne (hne hd hk')]
      exact h.indexed id d' k' hd hk'
  · intro id d' k' hb hk'
    obtain ⟨rfl, hd⟩ | ⟨-, hd⟩ := device_update hb
    · cases hd
      exact mem_file.2 (.inr ⟨hwf.hasKey_unique hk' hk, rfl⟩)
    · exact mem_file.2 (.inl (h.filed id d' k' hd hk'))
  · exact nodup_update h.nodup (nodup_setAdd (h.nodup k) _)
  · intro f hf
    by_contra hne
    have hf : Function.update r.kinds keyFields true f = true := hf
    rw [Function.update_of_ne hne] at hf
    exact hne (h.kinds f hf)
  · intro _ _ _
    show Function.update r.kinds keyFields true keyFields = true
    rw [Function.update_self]
  · intro k' id hr
    obtain hr | ⟨-, rfl⟩ := hrefers hr
    · exact Nat.lt_succ_of_lt (h.refersLt k' id hr)
    · exact Nat.lt_succ_self _
  · intro k' id d' hr hb
    obtain ⟨rfl, hd⟩ | ⟨hid, hd⟩ := device_update hb
    · cases hd
      obtain hr | ⟨rfl, -⟩ := hrefers hr
      · exact absurd (h.refersLt k' _ hr) (lt_irrefl _)
      · exact hk
    · obtain hr | ⟨-, rfl⟩ := hrefers hr
      · exact h.owner k' id d' hr hd
      · exact absurd rfl hid

theorem Inv.replace (h : r.Inv ports) {id : ℕ} {d d' : Device} (hd : r.device id = some d)
    (hkey : d'.deviceKey = id) (hwf : d'.WellFormed ports) (hk : ∀ k, d'.HasKey k ↔ d.HasKey k) :
    Inv ports { r with device := Function.update r.device id (some d') } where
  key i b hi := by
    obtain ⟨rfl, hb⟩ | ⟨-, hb⟩ := device_update hi
    · cases hb; exact hkey
    · exact h.key i b hb
  lt i b hi := by
    obtain ⟨rfl, -⟩ | ⟨-, hb⟩ := device_update hi
    · exact h.lt i d hd
    · exact h.lt i b hb
  wellFormed i b hi := by
    obtain ⟨-, hb⟩ | ⟨-, hb⟩ := device_update hi
    · cases hb; exact hwf
    · exact h.wellFormed i b hb
  indexed i b k hi hbk := by
    obtain ⟨rfl, hb⟩ | ⟨-, hb⟩ := device_update hi
    · cases hb; exact h.indexed i d k hd ((hk k).1 hbk)
    · exact h.indexed i b k hb hbk
  filed i b k hi hbk := by
    obtain ⟨rfl, hb⟩ | ⟨-, hb⟩ := device_update hi
    · cases hb; exact h.filed i d k hd ((hk k).1 hbk)
    · exact h.filed i b k hb hbk
  nodup := h.nodup
  kinds := h.kinds
  kindsFiled := h.kindsFiled
  refersLt := h.refersLt
  owner k i b hr hi := by
    obtain ⟨rfl, hb⟩ | ⟨-, hb⟩ := device_update hi
    · cases hb; exact (hk k).2 (h.owner k i d hr hd)
    · exact h.owner k i b hr hb

theorem Inv.drop (h : r.Inv ports) (id : ℕ) :
    Inv ports { r with device := Function.update r.device id none } := by
  have hdev : ∀ {i b}, Function.update r.device id none i = some b → r.device i = some b := by
    intro i b hb
    obtain ⟨-, hb⟩ | ⟨-, hb⟩ := device_update hb
    · cases hb
    · exact hb
  exact {
    key := fun i b hb => h.key i b (hdev hb)
    lt := fun i b hb => h.lt i b (hdev hb)
    wellFormed := fun i b hb => h.wellFormed i b (hdev hb)
    indexed := fun i b k hb => h.indexed i b k (hdev hb)
    filed := fun i b k hb => h.filed i b k (hdev hb)
    nodup := h.nodup
    kinds := h.kinds
    kindsFiled := h.kindsFiled
    refersLt := h.refersLt
    owner := fun k i b hr hb => h.owner k i b hr (hdev hb) }

/-- Index entries may go that refer to no device. -/
theorem Inv.shrink (h : r.Inv ports) {primary : IndexedEntity → Option ℕ}
    {filed : IndexedEntity → List ℕ} (hp : ∀ k id, primary k = some id → r.primary k = some id)
    (hf : ∀ k id, id ∈ filed k → id ∈ r.filed k) (hn : ∀ k, (filed k).Nodup)
    (hp' : ∀ k id d, r.device id = some d → r.primary k = some id → primary k = some id)
    (hf' : ∀ k id d, r.device id = some d → id ∈ r.filed k → id ∈ filed k) :
    Inv ports { r with primary := primary, filed := filed } where
  key := h.key
  lt := h.lt
  wellFormed := h.wellFormed
  indexed i b k hb hk := hp' k i b hb (h.indexed i b k hb hk)
  filed i b k hb hk := hf' k i b hb (h.filed i b k hb hk)
  nodup := hn
  kinds := h.kinds
  kindsFiled k i hi := h.kindsFiled k i (hf k i hi)
  refersLt k i hr := h.refersLt k i (hr.imp (hp k i) (hf k i))
  owner k i b hr := h.owner k i b (hr.imp (hp k i) (hf k i))

theorem of_update_none {f : IndexedEntity → Option ℕ} {k k' : IndexedEntity} {id : ℕ}
    (h : Function.update f k none k' = some id) : k' ≠ k ∧ f k' = some id := by
  by_cases hk : k' = k
  · subst hk
    rw [Function.update_self] at h
    cases h
  · rw [Function.update_of_ne hk] at h
    exact ⟨hk, h⟩

theorem Inv.remove (h : r.Inv ports) {id : ℕ} {d : Device} {k : IndexedEntity}
    (hd : r.device id = some d) (hk : d.HasKey k) :
    Inv ports {
      device := Function.update r.device id none
      primary := Function.update r.primary k none
      filed := Function.update r.filed k (setRemove (r.filed k) id)
      kinds := r.kinds
      counter := r.counter } := by
  have hindex := h.indexed id d k hd hk
  -- the other devices do not need the entries that go
  have hne : ∀ {i b}, Function.update r.device id none i = some b → i ≠ id := by
    intro i b hb
    obtain ⟨-, hb⟩ | ⟨hi, -⟩ := device_update hb
    · cases hb
    · exact hi
  refine (h.drop id).shrink (fun _ _ hp => (of_update_none hp).2) (fun _ _ hf => (mem_unfile.1 hf).1)
    (nodup_update h.nodup (nodup_setRemove (h.nodup k) id)) ?_ ?_
  · intro k' i b hb hp
    have hkk : k' ≠ k := by
      rintro rfl
      exact hne hb (Option.some.inj (hp.symm.trans hindex))
    rw [Function.update_of_ne hkk]
    exact hp
  · exact fun k' i b hb hf => mem_unfile.2 ⟨hf, fun hki => hne hb hki.2⟩

theorem Inv.repair (h : r.Inv ports) {k : IndexedEntity} {id : ℕ} (hp : r.primary k = some id)
    (hd : r.device id = none) : Inv ports { r with primary := Function.update r.primary k none } := by
  refine h.shrink (fun _ _ hp => (of_update_none hp).2) (fun _ _ hf => hf) h.nodup ?_
    fun _ _ _ _ hf => hf
  intro k' i b hb hi
  have hkk : k' ≠ k := by
    rintro rfl
    cases hi.symm.trans hp
    rw [hb] at hd
    cases hd
  rw [Function.update_of_ne hkk]
  exact hi

theorem Inv.change (h : r.Inv ports) (hc : Change ports r r') : r'.Inv ports := by
  cases hc with
  | draw => exact h.draw
  | add d k hp hkey hwf hk => exact h.add hp hkey hwf hk
  | replace id d d' hd hkey hwf hk => exact h.replace hd hkey hwf hk
  | remove id d k hd hk => exact h.remove hd hk
  | repair k id hp hd => exact h.repair hp hd

theorem Inv.move (h : r.Inv ports) (hm : Move ports r r') : r'.Inv ports := by
  obtain hc | ⟨id, d, hd⟩ := hm
  · exact h.change hc
  · exact h.drop id

theorem Inv.moves (h : r.Inv ports) (hm : ReflTransGen (Move ports) r r') : r'.Inv ports := by
  induction hm with
  | refl => exact h
  | tail _ hm ih => exact ih.move hm

theorem Change.moves (h : ReflTransGen (Change ports) r r') : ReflTransGen (Move ports) r r' := by
  induction h with
  | refl => exact .refl
  | tail _ hc ih => exact ih.tail (.inl hc)

/-! ## Dangling references -/

theorem NoDangling.change (h : r.NoDangling) (hi : r.Inv ports) (hc : Change ports r r') :
    r'.NoDangling := by
  intro k' i hr
  cases hc with
  | draw => exact h k' i hr
  | add d k hp hkey hwf hk =>
    by_cases hid : i = r.counter
    · subst hid
      exact ⟨d, Function.update_self ..⟩
    · show ∃ b, Function.update r.device r.counter (some d) i = some b
      rw [Function.update_of_ne hid]
      refine h k' i ?_
      rcases hr with hr | hr
      · by_cases hkk : k' = k
        · subst hkk
          simp only [Function.update_self, Option.some.injEq] at hr
          exact absurd hr.symm hid
        · simp only [Function.update_of_ne hkk] at hr
          exact .inl hr
      · rcases mem_file.1 hr with hr | hr
        · exact .inr hr
        · exact absurd hr.2 hid
  | replace id d d' hd hkey hwf hk =>
    by_cases hid : i = id
    · subst hid
      exact ⟨d', Function.update_self ..⟩
    · show ∃ b, Function.update r.device id (some d') i = some b
      rw [Function.update_of_ne hid]
      exact h k' i hr
  | remove id d k hd hk =>
    -- every entry that refers to the device is under its own key fields
    have hr' : r.Refers k' i ∧ i ≠ id := by
      rcases hr with hr | hr
      · obtain ⟨hkk, hp⟩ := of_update_none hr
        refine ⟨.inl hp, ?_⟩
        rintro rfl
        exact hkk ((hi.wellFormed i d hd).hasKey_unique (hi.owner k' i d (.inl hp) hd) hk)
      · obtain ⟨hf, hne⟩ := mem_unfile.1 hr
        refine ⟨.inr hf, ?_⟩
        rintro rfl
        exact hne ⟨(hi.wellFormed i d hd).hasKey_unique (hi.owner k' i d (.inr hf) hd) hk, rfl⟩
    show ∃ b, Function.update r.device id none i = some b
    rw [Function.update_of_ne hr'.2]
    exact h k' i hr'.1
  | repair k id hp hd =>
    refine h k' i ?_
    rcases hr with hr | hr
    · exact .inl (of_update_none hr).2
    · exact .inr hr

theorem NoDangling.changes (h : r.NoDangling) (hi : r.Inv ports)
    (hc : ReflTransGen (Change ports) r r') : r'.NoDangling := by
  induction hc with
  | refl => exact h
  | tail hcs hc ih => exact ih.change (hi.moves (Change.moves hcs)) hc

/-- After a drop the indices refer to the device that has gone. -/
theorem Inv.not_noDangling (h : r.Inv ports) (hd : Drop r r') : ¬r'.NoDangling := by
  obtain ⟨id, d, hd⟩ := hd
  intro hn
  obtain ⟨k, hk⟩ := (h.wellFormed id d hd).exists_hasKey
  obtain ⟨b, hb⟩ := hn k id (.inl (h.indexed id d k hd hk))
  simp only [Function.update_self] at hb
  cases hb

/-! ## Ids -/

/-- The ids of `r` in a later registry: an id that was drawn stays with its host or stays free. -/
structure Follows (r r' : Registry) : Prop where
  counter : r.counter ≤ r'.counter
  device : ∀ id d', r'.device id = some d' → id < r.counter →
    ∃ d, r.device id = some d ∧ ∀ k, d'.HasKey k ↔ d.HasKey k

theorem Follows.refl (r : Registry) : Follows r r :=
  ⟨le_rfl, fun _ d hd _ => ⟨d, hd, fun _ => Iff.rfl⟩⟩

theorem Follows.trans (h : Follows r r') (h' : Follows r' r'') : Follows r r'' where
  counter := h.counter.trans h'.counter
  device id d'' hd hid := by
    obtain ⟨d', hd', hk'⟩ := h'.device id d'' hd (hid.trans_le h.counter)
    obtain ⟨d, hd, hk⟩ := h.device id d' hd' hid
    exact ⟨d, hd, fun k => (hk' k).trans (hk k)⟩

theorem follows_drop (id : ℕ) (r : Registry) {primary : IndexedEntity → Option ℕ}
    {filed : IndexedEntity → List ℕ} :
    Follows r ⟨Function.update r.device id none, primary, filed, r.kinds, r.counter⟩ where
  counter := le_rfl
  device i b hb _ := by
    obtain ⟨-, hb⟩ | ⟨-, hb⟩ := device_update hb
    · cases hb
    · exact ⟨b, hb, fun _ => Iff.rfl⟩

theorem Move.follows (h : Move ports r r') : Follows r r' := by
  rcases h with (_ | ⟨d, k, hp, hkey, hwf, hk⟩ | ⟨id, d, d', hd, hkey, hwf, hk⟩ | ⟨id⟩ | _) |
    ⟨id, d, hd⟩
  · exact ⟨Nat.le_succ _, fun _ b hb _ => ⟨b, hb, fun _ => Iff.rfl⟩⟩
  · refine ⟨Nat.le_succ _, fun i b hi hlt => ?_⟩
    obtain ⟨rfl, -⟩ | ⟨-, hb⟩ := device_update hi
    · exact absurd hlt (lt_irrefl _)
    · exact ⟨b, hb, fun _ => Iff.rfl⟩
  · refine ⟨le_rfl, fun i b hi hlt => ?_⟩
    obtain ⟨rfl, hb⟩ | ⟨-, hb⟩ := device_update hi
    · cases hb; exact ⟨d, hd, hk⟩
    · exact ⟨b, hb, fun _ => Iff.rfl⟩
  · exact follows_drop id r
  · exact ⟨le_rfl, fun _ b hb _ => ⟨b, hb, fun _ => Iff.rfl⟩⟩
  · exact follows_drop id r

theorem follows_of_moves (h : ReflTransGen (Move ports) r r') : Follows r r' := by
  induction h with
  | refl => exact .refl r
  | tail _ hm ih => exact ih.trans hm.follows

end Registry

end Torpedo
