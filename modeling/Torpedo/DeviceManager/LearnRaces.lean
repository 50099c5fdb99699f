import Mathlib.Data.List.Zip
import Mathlib.Data.Prod.Lex
import Mathlib.Order.Basic
import Torpedo.DeviceManager.LearnCalls

/-!
# Races between two calls of learnDeviceByEntity

A step of one call is one of four changes of the store (`StoreStep`), and what the other call knows
of the store (`Knows`) outlives each of them, as long as no step is `Bad`. So at the end of a clean
run both calls find their entity in the one device of the key fields (`Safe.learned`), and no fair
clean run goes on for ever (`potential_step`).
-/

namespace Torpedo

/-! ## Entities of a device -/

/-- The device has an entity that equals `e`. -/
def Device.Holds (d : Device) (e : Entity) : Prop := ∃ o ∈ d.entities, o.equals e = true

section Holds

variable {ports : PortOrder} {d d' : Device} {e o : Entity}

theorem Entity.equals_iff : e.equals o = true ↔ e.ipv4Address = o.ipv4Address ∧
    e.macAddress = o.macAddress ∧ e.switchDPID = o.switchDPID ∧ e.switchPort = o.switchPort ∧
    e.vlan = o.vlan := by
  unfold Entity.equals
  simp only [Bool.and_eq_true, decide_eq_true_eq, and_assoc]

theorem Entity.equals_trans {a b c : Entity} (h : a.equals b = true) (h' : b.equals c = true) :
    a.equals c = true := by
  rw [Entity.equals_iff] at *
  obtain ⟨h₁, h₂, h₃, h₄, h₅⟩ := h
  rw [h₁, h₂, h₃, h₄, h₅]
  exact h'

theorem Device.equals_comm (d d' : Device) : d.equals d' = d'.equals d := by
  have hzip : (d.entities.zip d'.entities).all (fun p => p.1.equals p.2) =
      (d'.entities.zip d.entities).all fun p => p.1.equals p.2 := by
    rw [← List.zip_swap, List.all_map]
    congr 1
    funext p
    exact Entity.equals_comm ..
  unfold Device.equals
  rw [hzip]
  simp only [eq_comm]

/-- Equal devices hold the same entities. -/
theorem Device.Holds.of_equals (h : d.Holds e) (heq : d.equals d' = true) : d'.Holds e := by
  obtain ⟨o, ho, hoe⟩ := h
  obtain ⟨i, hi, rfl⟩ := List.mem_iff_getElem.1 ho
  unfold Device.equals at heq
  simp only [Bool.and_eq_true, decide_eq_true_eq] at heq
  obtain ⟨⟨-, hlen⟩, hall⟩ := heq
  have hi' : i < d'.entities.length := hlen ▸ hi
  have hzip : (d.entities[i], d'.entities[i]) ∈ d.entities.zip d'.entities := by
    refine List.mem_iff_getElem.2 ⟨i, by simp [hi, hi'], ?_⟩
    rw [List.getElem_zip]
  have hio := List.all_eq_true.1 hall _ hzip
  rw [Entity.equals_comm] at hio
  exact ⟨d'.entities[i], List.getElem_mem hi', Entity.equals_trans hio hoe⟩

theorem holds_addEntity : (d.addEntity ports o).Holds e ↔ d.Holds e ∨ o.equals e = true := by
  unfold Device.Holds Device.addEntity
  simp only [mem_sortEntities, List.mem_append, List.mem_singleton, or_and_right, exists_or,
    exists_eq_left]

theorem Device.SameHost.holds (h : d.SameHost d') : d'.Holds e ↔ d.Holds e := by
  unfold Device.Holds
  rw [h.2]

theorem holds_singleton (h : d.entities = [o]) : d.Holds e ↔ o.equals e = true := by
  unfold Device.Holds
  simp [h]

theorem Device.Holds.hasKey (h : d.Holds e) : d.HasKey e.indexed := by
  obtain ⟨o, ho, hoe⟩ := h
  obtain ⟨-, hmac, -, -, hvlan⟩ := Entity.equals_iff.1 hoe
  refine ⟨o, ho, ?_⟩
  unfold Entity.indexed
  rw [hmac, hvlan]

end Holds

namespace LearnCall

variable {ord : HashOrder} {ports : PortOrder} {topology : TopologyService} {s s' : Devices}
variable {k : IndexedEntity} {e : Entity} {c : LearnCall}

/-! ## What a step does to the store -/

/-- The devices are well formed, and the index has the entry of `k` if some device has these key
fields. -/
structure StoreOk (ports : PortOrder) (k : IndexedEntity) (s : Devices) : Prop where
  key : ∀ id d, s.deviceIdToDeviceMap.get id = some d → d.deviceKey = id
  lt : ∀ id d, s.deviceIdToDeviceMap.get id = some d → id < s.deviceKeyCounter
  wellFormed : ∀ id d, s.deviceIdToDeviceMap.get id = some d → d.WellFormed ports
  owner : ∀ id d, s.primaryIndex.get k = some id → s.deviceIdToDeviceMap.get id = some d → d.HasKey k
  indexed : ∀ id d, s.deviceIdToDeviceMap.get id = some d → d.HasKey k →
    s.primaryIndex.get k = some id

/-- A step of a call for an entity with key fields `k`, if it does no damage. -/
inductive StoreStep (ports : PortOrder) (k : IndexedEntity) (s : Devices) : Devices → Prop
  | same (s' : Devices) : s'.deviceIdToDeviceMap = s.deviceIdToDeviceMap →
    s'.primaryIndex = s.primaryIndex → s.deviceKeyCounter ≤ s'.deviceKeyCounter → StoreStep ports k s s'
  | index (id : ℕ) : s.primaryIndex.get k = none → s.deviceIdToDeviceMap.get id = none →
    StoreStep ports k s { s with primaryIndex := s.primaryIndex.put k id }
  | unindex : (∀ id, s.primaryIndex.get k = some id → s.deviceIdToDeviceMap.get id = none) →
    StoreStep ports k s { s with primaryIndex := s.primaryIndex.remove k }
  | put (id : ℕ) (d : Device) : s.primaryIndex.get k = some id → id < s.deviceKeyCounter →
    d.deviceKey = id → d.WellFormed ports → d.HasKey k →
    (∀ d₀ e, s.deviceIdToDeviceMap.get id = some d₀ → d₀.Holds e → d.Holds e) →
    StoreStep ports k s (s.putDevice id d)

theorem get_putDevice (s : Devices) (id : ℕ) (d : Device) {id' : ℕ} {d' : Device}
    (h : (s.putDevice id d).deviceIdToDeviceMap.get id' = some d') :
    id' = id ∧ d' = d ∨ id' ≠ id ∧ s.deviceIdToDeviceMap.get id' = some d' := by
  have h : (s.deviceIdToDeviceMap.put id d).get id' = some d' := h
  rw [HashMap.get_put] at h
  split_ifs at h with hid
  · exact .inl ⟨hid, (Option.some.inj h).symm⟩
  · exact .inr ⟨hid, h⟩

theorem StoreStep.counter_le (hs : StoreStep ports k s s') :
    s.deviceKeyCounter ≤ s'.deviceKeyCounter := by
  cases hs with
  | same _ _ _ h => exact h
  | index => exact le_rfl
  | unindex => exact le_rfl
  | put => exact le_rfl

/-- A device that is there afterwards was there before, or has the key fields. -/
theorem StoreStep.device (hs : StoreStep ports k s s') {id : ℕ} {d : Device}
    (hd : s'.deviceIdToDeviceMap.get id = some d) :
    s.deviceIdToDeviceMap.get id = some d ∨ d.HasKey k := by
  cases hs with
  | same _ hmap => rw [hmap] at hd; exact .inl hd
  | index => exact .inl hd
  | unindex => exact .inl hd
  | put id₀ d₀ _ _ _ _ hk =>
    obtain ⟨-, rfl⟩ | ⟨-, hd⟩ := get_putDevice s id₀ d₀ hd
    · exact .inr hk
    · exact .inl hd

/-- A device stays, with its entities. -/
theorem StoreStep.holds (hs : StoreStep ports k s s') {id : ℕ} {d : Device}
    (hd : s.deviceIdToDeviceMap.get id = some d) (he : d.Holds e) :
    ∃ d', s'.deviceIdToDeviceMap.get id = some d' ∧ d'.Holds e := by
  cases hs with
  | same _ hmap => rw [hmap]; exact ⟨d, hd, he⟩
  | index => exact ⟨d, hd, he⟩
  | unindex => exact ⟨d, hd, he⟩
  | put id₀ d₀ _ _ _ _ _ hkeep =>
    have hget : (s.putDevice id₀ d₀).deviceIdToDeviceMap.get id =
      if id = id₀ then some d₀ else s.deviceIdToDeviceMap.get id := HashMap.get_put ..
    rw [hget]
    by_cases hid : id = id₀
    · rw [if_pos hid]
      exact ⟨d₀, rfl, hkeep d e (hid ▸ hd) he⟩
    · rw [if_neg hid]
      exact ⟨d, hd, he⟩

theorem StoreOk.step (h : StoreOk ports k s) (hs : StoreStep ports k s s') : StoreOk ports k s' := by
  cases hs with
  | same _ hmap hindex hcounter =>
    obtain ⟨hkey, hlt, hwf, hown, hidx⟩ := h
    rw [← hmap] at hkey hlt hwf hown hidx
    rw [← hindex] at hown hidx
    exact ⟨hkey, fun id d hd => (hlt id d hd).trans_le hcounter, hwf, hown, hidx⟩
  | index id hnone hfree =>
    refine ⟨h.key, h.lt, h.wellFormed, ?_, ?_⟩
    · intro i d hi hd
      have hi : (s.primaryIndex.put k id).get k = some i := hi
      rw [HashMap.get_put_self] at hi
      cases hi
      exact absurd (hfree.symm.trans hd) nofun
    · intro i d hd hk
      exact absurd (hnone.symm.trans (h.indexed i d hd hk)) nofun
  | unindex hdead =>
    refine ⟨h.key, h.lt, h.wellFormed, ?_, ?_⟩
    · intro i d hi _
      have hi : (s.primaryIndex.remove k).get k = some i := hi
      rw [HashMap.get_remove_self] at hi
      cases hi
    · intro i d hd hk
      exact absurd ((hdead i (h.indexed i d hd hk)).symm.trans hd) nofun
  | put id d hid hlt hkey hwf hk _ =>
    refine ⟨?_, ?_, ?_, ?_, ?_⟩
    · intro i b hb
      obtain ⟨rfl, rfl⟩ | ⟨-, hb⟩ := get_putDevice s id d hb
      · exact hkey
      · exact h.key i b hb
    · intro i b hb
      obtain ⟨rfl, rfl⟩ | ⟨-, hb⟩ := get_putDevice s id d hb
      · exact hlt
      · exact h.lt i b hb
    · intro i b hb
      obtain ⟨rfl, rfl⟩ | ⟨-, hb⟩ := get_putDevice s id d hb
      · exact hwf
      · exact h.wellFormed i b hb
    · intro i b hi hb
      obtain ⟨rfl, rfl⟩ | ⟨-, hb⟩ := get_putDevice s id d hb
      · exact hk
      · exact h.owner i b hi hb
    · intro i b hb hbk
      obtain ⟨rfl, rfl⟩ | ⟨-, hb⟩ := get_putDevice s id d hb
      · exact hid
      · exact h.indexed i b hb hbk

/-! ## What a call knows -/

/-- A new device of the entity, under an id that no device has. -/
structure Fresh (s : Devices) (e : Entity) (d : Device) : Prop where
  entities : d.entities = [e]
  lt : d.deviceKey < s.deviceKeyCounter
  free : s.deviceIdToDeviceMap.get d.deviceKey = none

/-- What a call for the entity knows of the store, from its earlier steps. -/
def Knows (ports : PortOrder) (s : Devices) (e : Entity) : LearnCall → Prop
  | publish d => Fresh s e d
  | put d => Fresh s e d ∧ s.primaryIndex.get e.indexed = some d.deviceKey
  | load id => ∀ d, s.deviceIdToDeviceMap.get id = some d → d.HasKey e.indexed
  | replace id d => d.deviceKey = id ∧ d.WellFormed ports ∧ d.HasKey e.indexed ∧
    entityIndex ports d.entities e < 0
  | update id es => (∃ d, s.deviceIdToDeviceMap.get id = some d ∧ d.Holds e) ∧
    ∀ o ∈ es, o.indexed = e.indexed
  | file id => ∃ d, s.deviceIdToDeviceMap.get id = some d ∧ d.Holds e
  | returned => ∃ id d, s.deviceIdToDeviceMap.get id = some d ∧ d.Holds e
  | refused => False
  | lookup | draw | repair => True

/-- The device that the call is about to put. -/
def newDevice? : LearnCall → Option Device
  | publish d => some d
  | put d => some d
  | _ => none

theorem Knows.fresh (h : Knows ports s e c) {d : Device} (hd : newDevice? c = some d) :
    Fresh s e d := by
  cases c with
  | publish d' => cases hd; exact h
  | put d' => cases hd; exact h.1
  | _ => cases hd

/-- A step of the other call leaves what a call knows true, if it puts no device in the place of the
new one, and keeps its entry. -/
theorem Knows.step (h : Knows ports s e c) (hs : StoreStep ports e.indexed s s')
    (hfree : ∀ d, newDevice? c = some d → s'.deviceIdToDeviceMap.get d.deviceKey = none)
    (hput : ∀ d, c = put d → s'.primaryIndex.get e.indexed = some d.deviceKey) :
    Knows ports s' e c := by
  have hfresh : ∀ d, newDevice? c = some d → Fresh s' e d := fun d hd =>
    ⟨(h.fresh hd).entities, (h.fresh hd).lt.trans_le hs.counter_le, hfree d hd⟩
  cases c with
  | publish d => exact hfresh d rfl
  | put d => exact ⟨hfresh d rfl, hput d rfl⟩
  | load id => exact fun d hd => (hs.device hd).elim (h d) fun hk => hk
  | replace id d => exact h
  | update id es =>
    obtain ⟨⟨d, hd, he⟩, hes⟩ := h
    exact ⟨hs.holds hd he, hes⟩
  | file id =>
    obtain ⟨d, hd, he⟩ := h
    exact hs.holds hd he
  | returned =>
    obtain ⟨id, d, hd, he⟩ := h
    exact ⟨id, hs.holds hd he⟩
  | refused => exact h
  | lookup => trivial
  | draw => trivial
  | repair => trivial

/-! ## A step of a call -/

/-- A step from `c` to `next` that does no damage. -/
structure Advanced (ports : PortOrder) (e : Entity) (s : Devices) (c : LearnCall)
    (next : LearnCall × Devices) : Prop where
  store : StoreStep ports e.indexed s next.2
  knows : Knows ports next.2 e next.1
  newDevice : ∀ d, newDevice? next.1 = some d →
    newDevice? c = some d ∨ s.deviceKeyCounter ≤ d.deviceKey
  mapped : ∀ id, s.deviceIdToDeviceMap.get id = none →
    next.2.deviceIdToDeviceMap.get id = none ∨ ∃ d, c = put d ∧ d.deviceKey = id
  entry : ∀ id, s.primaryIndex.get e.indexed = some id →
    next.2.primaryIndex.get e.indexed = some id ∨ c = repair

/-- The step leaves the devices and the index as they are. -/
theorem Advanced.same {c' : LearnCall} (hmap : s'.deviceIdToDeviceMap = s.deviceIdToDeviceMap)
    (hindex : s'.primaryIndex = s.primaryIndex) (hcounter : s.deviceKeyCounter ≤ s'.deviceKeyCounter)
    (hk : Knows ports s' e c')
    (hnew : ∀ d, newDevice? c' = some d → newDevice? c = some d ∨ s.deviceKeyCounter ≤ d.deviceKey) :
    Advanced ports e s c (c', s') where
  store := .same s' hmap hindex hcounter
  knows := hk
  newDevice := hnew
  mapped id hid := .inl (by rw [hmap]; exact hid)
  entry id hid := .inl (by rw [hindex]; exact hid)

/-- The step leaves the store as it is, and the call has no new device afterwards. -/
theorem Advanced.stay {c' : LearnCall} (hk : Knows ports s e c') (hnew : newDevice? c' = none) :
    Advanced ports e s c (c', s) :=
  .same rfl rfl le_rfl hk fun _ hd => absurd (hnew.symm.trans hd) nofun

theorem advanced_lookup (hs : StoreOk ports e.indexed s) :
    Advanced ports e s lookup (lookup.advance ord ports topology e s) := by
  unfold advance
  cases hi : s.primaryIndex.get e.indexed with
  | none => exact .stay trivial rfl
  | some id => exact .stay (fun d hd => hs.owner id d hi hd) rfl

theorem advanced_draw (hs : StoreOk ports e.indexed s)
    (hd : Device.allocateDevice ports topology s.suppressedAPs s.deviceKeyCounter e ≠ none) :
    Advanced ports e s draw (draw.advance ord ports topology e s) := by
  unfold advance
  cases ha : Device.allocateDevice ports topology s.suppressedAPs s.deviceKeyCounter e with
  | none => exact absurd ha hd
  | some d =>
    obtain ⟨hkey, hes⟩ := Devices.allocateDevice_some ha
    simp only [ha]
    refine .same rfl rfl (Nat.le_succ _) ⟨hes, ?_, ?_⟩ fun d' hd' => ?_
    · show d.deviceKey < s.deviceKeyCounter + 1
      rw [hkey]
      exact Nat.lt_succ_self _
    · show s.deviceIdToDeviceMap.get d.deviceKey = none
      cases hget : s.deviceIdToDeviceMap.get d.deviceKey with
      | none => rfl
      | some b => exact absurd (hs.lt _ b hget) (by rw [hkey]; exact lt_irrefl _)
    · cases hd'
      exact .inr hkey.ge

theorem advanced_publish {d : Device} (hk : Fresh s e d) :
    Advanced ports e s (publish d) ((publish d).advance ord ports topology e s) := by
  unfold advance
  cases hi : s.primaryIndex.get e.indexed with
  | none =>
    dsimp only
    refine ⟨.index _ hi hk.free, ⟨⟨hk.entities, hk.lt, hk.free⟩, HashMap.get_put_self ..⟩, fun d' hd' => .inl hd',
      fun id hid => .inl hid, fun id hid => absurd (hi.symm.trans hid) nofun⟩
  | some id =>
    dsimp only
    by_cases hid : id ≠ d.deviceKey
    · rw [if_pos hid]
      exact .stay trivial rfl
    · rw [if_neg hid]
      rw [not_not.1 hid] at hi
      exact .same rfl rfl le_rfl ⟨hk, hi⟩ fun d' hd' => .inl hd'

theorem advanced_put {d : Device} (hk : Fresh s e d)
    (hi : s.primaryIndex.get e.indexed = some d.deviceKey) :
    Advanced ports e s (put d) ((put d).advance ord ports topology e s) := by
  have hholds : d.Holds e := (holds_singleton hk.entities).2 (Entity.equals_self e)
  unfold advance
  simp only [hk.free]
  refine ⟨.put _ d hi hk.lt rfl (Devices.wellFormed_singleton ports hk.entities).1 hholds.hasKey ?_,
    ⟨d, HashMap.get_put_self .., hholds⟩, fun _ => nofun, fun id hid => ?_, fun id hid => .inl hid⟩
  · intro d₀ _ hd₀
    exact absurd (hk.free.symm.trans hd₀) nofun
  · by_cases heq : id = d.deviceKey
    · exact .inr ⟨d, rfl, heq.symm⟩
    · refine .inl ?_
      show (s.deviceIdToDeviceMap.put d.deviceKey d).get id = none
      rw [HashMap.get_put, if_neg heq]
      exact hid

theorem advanced_load (hs : StoreOk ports e.indexed s) {id : ℕ}
    (hk : ∀ d, s.deviceIdToDeviceMap.get id = some d → d.HasKey e.indexed) :
    Advanced ports e s (load id) ((load id).advance ord ports topology e s) := by
  unfold advance
  dsimp only
  cases hd : s.deviceIdToDeviceMap.get id with
  | none => exact .stay trivial rfl
  | some d =>
    dsimp only
    have hwf := hs.wellFormed id d hd
    by_cases hes : entityIndex ports d.entities e ≥ 0
    · rw [if_pos hes]
      exact .stay ⟨id, d, hd, (entityIndex_nonneg_iff hwf.sorted).1 hes⟩ rfl
    · rw [if_neg hes]
      exact .stay ⟨hs.key id d hd, hwf, hk d hd, not_le.1 hes⟩ rfl

theorem advanced_repair
    (hr : ∀ id, s.primaryIndex.get e.indexed = some id → s.deviceIdToDeviceMap.get id = none) :
    Advanced ports e s repair (repair.advance ord ports topology e s) :=
  ⟨.unindex hr, trivial, fun _ => nofun, fun _ hid => .inl hid, fun _ _ => .inr rfl⟩

theorem advanced_replace (hs : StoreOk ports e.indexed s) {id : ℕ} {d : Device}
    (hk : Knows ports s e (replace id d)) :
    Advanced ports e s (replace id d) ((replace id d).advance ord ports topology e s) := by
  obtain ⟨hkey, hwf, hhk, hes⟩ := hk
  -- the new device is the old one with the entity
  have hsame := sameHost_sight ord topology s.suppressedAPs (d.addEntity ports e) e
    e.lastSeenTimestamp
  unfold advance
  dsimp only
  generalize Devices.sight ord topology s.suppressedAPs (d.addEntity ports e) e e.lastSeenTimestamp =
    newDevice at hsame
  have hholds : newDevice.Holds e :=
    hsame.holds.2 (holds_addEntity.2 (.inr (Entity.equals_self e)))
  have hwf' : newDevice.WellFormed ports := hsame.wellFormed (hwf.addEntity hhk hes)
  unfold Devices.replaceDevice
  cases hget : s.deviceIdToDeviceMap.get id with
  | none => exact .stay trivial rfl
  | some d₀ =>
    dsimp only
    by_cases heq : d₀.equals d = true
    · rw [if_pos heq]
      have hid : s.primaryIndex.get e.indexed = some id := by
        obtain ⟨o, ho, hok⟩ := hhk
        have hd₀ : d₀.Holds o := Device.Holds.of_equals ⟨o, ho, Entity.equals_self o⟩
          (by rw [Device.equals_comm]; exact heq)
        exact hs.indexed id d₀ hget (hok ▸ hd₀.hasKey)
      refine ⟨.put id newDevice hid (hs.lt id d₀ hget) (hsame.1.trans hkey) hwf' hholds.hasKey ?_,
        ⟨⟨newDevice, HashMap.get_put_self .., hholds⟩, fun o ho => hwf'.indexed hholds.hasKey ho⟩,
        fun _ => nofun, fun i hi => .inl ?_, fun i hi => .inl hi⟩
      · intro d₁ o hd₁ ho
        cases hget.symm.trans hd₁
        exact hsame.holds.2 (holds_addEntity.2 (.inl (ho.of_equals heq)))
      · have hne : i ≠ id := fun h => absurd ((h ▸ hi).symm.trans hget) nofun
        show (s.deviceIdToDeviceMap.put id newDevice).get i = none
        rw [HashMap.get_put, if_neg hne]
        exact hi
    · rw [if_neg heq]
      exact .stay trivial rfl

theorem advanced_update (hs : StoreOk ports e.indexed s) {id : ℕ} {es : List Entity}
    (hk : Knows ports s e (update id es)) :
    Advanced ports e s (update id es) ((update id es).advance ord ports topology e s) := by
  obtain ⟨⟨d, hd, hde⟩, hes⟩ := hk
  have hid := hs.indexed id d hd hde.hasKey
  unfold advance
  cases es with
  | nil => exact .stay ⟨d, hd, hde⟩ rfl
  | cons o es =>
    have ho : s.primaryIndex.get o.indexed = some id := by
      rw [hes o List.mem_cons_self]
      exact hid
    simp only [ho, ne_eq, not_true_eq_false, if_false]
    exact .stay ⟨⟨d, hd, hde⟩, fun o' ho' => hes o' (List.mem_cons_of_mem _ ho')⟩ rfl

theorem advanced_file {id : ℕ} (hk : Knows ports s e (file id)) :
    Advanced ports e s (file id) ((file id).advance ord ports topology e s) := by
  refine .same rfl rfl le_rfl ⟨id, hk⟩ fun _ => nofun

/-- A step of a call that does no damage. -/
theorem advanced (hs : StoreOk ports e.indexed s) (hk : Knows ports s e c)
    (hdraw : c = draw →
      Device.allocateDevice ports topology s.suppressedAPs s.deviceKeyCounter e ≠ none)
    (hrepair : c = repair → ∀ id, s.primaryIndex.get e.indexed = some id →
      s.deviceIdToDeviceMap.get id = none) :
    Advanced ports e s c (c.advance ord ports topology e s) := by
  cases c with
  | lookup => exact advanced_lookup hs
  | draw => exact advanced_draw hs (hdraw rfl)
  | publish d => exact advanced_publish hk
  | put d => exact advanced_put hk.1 hk.2
  | load id => exact advanced_load hs hk
  | repair => exact advanced_repair (hrepair rfl)
  | replace id d => exact advanced_replace hs hk
  | update id es => exact advanced_update hs hk
  | file id => exact advanced_file hk
  | returned => exact .stay hk rfl
  | refused => exact hk.elim

/-! ## Progress -/

/-- The call has not found out yet what becomes of its entity. -/
def searching : LearnCall → ℕ
  | lookup | draw | publish _ | load _ | repair | replace _ _ => 1
  | put _ | update _ _ | file _ | returned | refused => 0

/-- The steps that the call takes until it changes the store, if it is searching and the other call
does nothing, and some number that falls with each step if it is not. -/
def cost (s : Devices) (e : Entity) : LearnCall → ℕ
  | lookup => 3
  | draw => if s.primaryIndex.get e.indexed = none then 2 else 5
  | publish _ => if s.primaryIndex.get e.indexed = none then 1 else 4
  | load id => if s.primaryIndex.get e.indexed = some id then 2 else 5
  | repair => if s.primaryIndex.get e.indexed = none then 4 else 1
  | replace id d => if (s.deviceIdToDeviceMap.get id).any (·.equals d) then 1 else 4
  | put _ => 200
  | update _ es => 200 + 100 * es.length
  | file _ => 100
  | returned | refused => 0

/-- Whether the entry of `k` refers to no device. -/
def dangling (k : IndexedEntity) (s : Devices) : ℕ :=
  match s.primaryIndex.get k with
  | none => 0
  | some id => if s.deviceIdToDeviceMap.get id = none then 1 else 0

theorem dangling_le (k : IndexedEntity) (s : Devices) : dangling k s ≤ 1 := by
  unfold dangling
  split
  · exact Nat.zero_le _
  · split_ifs <;> simp

theorem cost_le (s s' : Devices) (e : Entity) (c : LearnCall) : cost s' e c ≤ cost s e c + 5 := by
  unfold cost
  cases c <;> dsimp only <;> (try split_ifs) <;> omega

theorem cost_congr (hmap : s'.deviceIdToDeviceMap = s.deviceIdToDeviceMap)
    (hindex : s'.primaryIndex.get e.indexed = s.primaryIndex.get e.indexed) (c : LearnCall) :
    cost s' e c = cost s e c := by
  unfold cost
  rw [hmap, hindex]

theorem dangling_congr (hmap : s'.deviceIdToDeviceMap = s.deviceIdToDeviceMap)
    (hindex : s'.primaryIndex.get k = s.primaryIndex.get k) : dangling k s' = dangling k s := by
  unfold dangling
  rw [hmap, hindex]

/-- What a step of the call from `c` to `next` does for its progress: it ends the search, or it changes
nothing in the store and comes nearer to the end, or it comes nearer than any change of the store
takes the other call away from it. -/
inductive Progress (e : Entity) (s : Devices) (c : LearnCall) (next : LearnCall × Devices) : Prop
  | found : searching next.1 < searching c → Progress e s c next
  | same : searching next.1 = searching c → next.2.deviceIdToDeviceMap = s.deviceIdToDeviceMap →
    next.2.primaryIndex.get e.indexed = s.primaryIndex.get e.indexed →
    cost next.2 e next.1 < cost s e c → Progress e s c next
  | changed : searching next.1 = searching c →
    50 * dangling e.indexed next.2 + cost next.2 e next.1 + 10 ≤ 50 * dangling e.indexed s + cost s e c →
    Progress e s c next

theorem progress_load (id : ℕ) :
    Progress e s (load id) ((load id).advance ord ports topology e s) := by
  unfold advance
  dsimp only
  cases hd : s.deviceIdToDeviceMap.get id with
  | none =>
    refine .same rfl rfl rfl ?_
    unfold cost
    dsimp only
    by_cases hi : s.primaryIndex.get e.indexed = none
    · rw [if_pos hi, if_neg (by rw [hi]; exact nofun)]
      omega
    · rw [if_neg hi]
      split_ifs <;> omega
  | some d =>
    dsimp only
    by_cases hes : entityIndex ports d.entities e ≥ 0
    · rw [if_pos hes]
      exact .found Nat.zero_lt_one
    · rw [if_neg hes]
      refine .same rfl rfl rfl ?_
      unfold cost
      simp only [hd, Option.any_some, d.equals_self, if_true]
      split_ifs <;> omega

theorem progress_repair
    (hr : ∀ id, s.primaryIndex.get e.indexed = some id → s.deviceIdToDeviceMap.get id = none) :
    Progress e s repair (repair.advance ord ports topology e s) := by
  unfold advance
  cases hi : s.primaryIndex.get e.indexed with
  | none =>
    refine .same rfl rfl ((HashMap.get_remove_self ..).trans hi.symm) ?_
    unfold cost
    simp [hi]
  | some id =>
    refine .changed rfl ?_
    unfold dangling cost
    simp [hi, hr id hi, HashMap.get_remove_self]

theorem progress_replace (id : ℕ) (d : Device) :
    Progress e s (replace id d) ((replace id d).advance ord ports topology e s) := by
  unfold advance
  dsimp only
  generalize Devices.sight ord topology s.suppressedAPs (d.addEntity ports e) e e.lastSeenTimestamp =
    newDevice
  unfold Devices.replaceDevice
  cases hget : s.deviceIdToDeviceMap.get id with
  | none =>
    refine .same rfl rfl rfl ?_
    unfold cost
    simp [hget]
  | some d₀ =>
    dsimp only
    by_cases heq : d₀.equals d = true
    · rw [if_pos heq]
      exact .found Nat.zero_lt_one
    · rw [if_neg heq]
      refine .same rfl rfl rfl ?_
      unfold cost
      simp [hget, heq]

variable (ord) in
/-- A step of a call that does no damage, before its end. -/
theorem progress (hs : StoreOk ports e.indexed s) (hk : Knows ports s e c) (hc : c ≠ returned)
    (hdraw : c = draw →
      Device.allocateDevice ports topology s.suppressedAPs s.deviceKeyCounter e ≠ none)
    (hrepair : c = repair → ∀ id, s.primaryIndex.get e.indexed = some id →
      s.deviceIdToDeviceMap.get id = none) :
    Progress e s c (c.advance ord ports topology e s) := by
  cases c with
  | lookup =>
    unfold advance
    cases hi : s.primaryIndex.get e.indexed with
    | none => exact .same rfl rfl rfl (by unfold cost; simp [hi])
    | some id => exact .same rfl rfl rfl (by unfold cost; simp [hi])
  | draw =>
    unfold advance
    cases ha : Device.allocateDevice ports topology s.suppressedAPs s.deviceKeyCounter e with
    | none => exact absurd ha (hdraw rfl)
    | some d =>
      simp only [ha]
      refine .same rfl rfl rfl ?_
      unfold cost
      dsimp only
      split_ifs <;> omega
  | publish d =>
    unfold advance
    cases hi : s.primaryIndex.get e.indexed with
    | none => exact .found Nat.zero_lt_one
    | some id =>
      dsimp only
      by_cases hid : id ≠ d.deviceKey
      · rw [if_pos hid]
        exact .same rfl rfl rfl (by unfold cost; simp [hi])
      · rw [if_neg hid]
        exact .found Nat.zero_lt_one
  | put d =>
    unfold advance
    simp only [hk.1.free]
    refine .changed rfl ?_
    have := dangling_le e.indexed (s.putDevice d.deviceKey d)
    unfold cost
    dsimp only
    omega
  | load id => exact progress_load id
  | repair => exact progress_repair (hrepair rfl)
  | replace id d => exact progress_replace id d
  | update id es =>
    obtain ⟨⟨d, hd, hde⟩, hes⟩ := hk
    have hid := hs.indexed id d hd hde.hasKey
    unfold advance
    cases es with
    | nil => exact .same rfl rfl rfl (by unfold cost; simp)
    | cons o es =>
      have ho : s.primaryIndex.get o.indexed = some id := by
        rw [hes o List.mem_cons_self]
        exact hid
      simp only [ho, ne_eq, not_true_eq_false, if_false]
      exact .same rfl rfl rfl (by unfold cost; simp)
  | file id => exact .same rfl rfl rfl (by show 0 < 100; omega)
  | returned => exact absurd rfl hc
  | refused => exact hk.elim

end LearnCall

namespace Learners

open LearnCall

variable {ord : HashOrder} {ports : PortOrder} {topology : TopologyService}
variable {entities : Bool → Entity} {k : IndexedEntity} {l : Learners} {b : Bool}

/-! ## Clean runs -/

/-- What the steps that do no damage keep. -/
structure Safe (ports : PortOrder) (entities : Bool → Entity) (k : IndexedEntity) (l : Learners) :
    Prop where
  ok : StoreOk ports k l.store
  knows : ∀ b, Knows ports l.store (entities b) (l.calls b)
  distinct : ∀ b d d', newDevice? (l.calls b) = some d → newDevice? (l.calls !b) = some d' →
    d.deviceKey ≠ d'.deviceKey

/-- Two calls may start on the store of any run. -/
theorem safe_start {ops : List Devices.Op} {s : Devices} (hr : Devices.Run ord ports Devices.new ops s) :
    (start s).Safe ports entities k where
  ok := ⟨hr.inv.key, hr.inv.lt, hr.inv.wellFormed, fun id d hi hd => hr.inv.owner k id d (.inl hi) hd,
    fun id d hd hk => hr.inv.indexed id d k hd hk⟩
  knows _ := trivial
  distinct _ _ _ := nofun

theorem store_step : (step ord ports topology entities l b).store =
    ((l.calls b).advance ord ports topology (entities b) l.store).2 := rfl

@[simp] theorem calls_step_self : (step ord ports topology entities l b).calls b =
    ((l.calls b).advance ord ports topology (entities b) l.store).1 := Function.update_self ..

@[simp] theorem calls_step_other : (step ord ports topology entities l b).calls (!b) = l.calls (!b) :=
  Function.update_of_ne (Bool.not_ne_self b) ..

theorem step_of_returned (hc : l.calls b = returned) : step ord ports topology entities l b = l := by
  unfold step
  rw [hc]
  show Learners.mk l.store (Function.update l.calls b returned) = l
  rw [← hc, Function.update_eq_self]

theorem forall_bool_iff {P : Bool → Prop} (b : Bool) : (∀ a, P a) ↔ P b ∧ P (!b) := by
  cases b
  · exact Bool.forall_bool
  · exact Bool.forall_bool.trans and_comm

theorem draws (hb : ¬Bad ports topology entities l b) (hc : l.calls b = draw) :
    Device.allocateDevice ports topology l.store.suppressedAPs l.store.deviceKeyCounter (entities b) ≠
      none :=
  fun ha => hb (.inl ⟨hc, ha⟩)

section Steps

variable (ord) (hk : ∀ b, (entities b).indexed = k) (h : l.Safe ports entities k)
  (hb : ¬Bad ports topology entities l b)
include hk h hb

/-- A repair that does no damage removes an entry of no device. -/
theorem Safe.repairs (hc : l.calls b = repair) :
    (∀ id, l.store.primaryIndex.get (entities b).indexed = some id →
      l.store.deviceIdToDeviceMap.get id = none) ∧ ∀ d, l.calls (!b) ≠ put d := by
  refine ⟨fun id hid => ?_, fun d hd => ?_⟩
  · cases hget : l.store.deviceIdToDeviceMap.get id with
    | none => rfl
    | some d => exact absurd (.inr ⟨hc, id, hid, .inl ⟨d, hget⟩⟩) hb
  · have hput := h.knows !b
    rw [hd] at hput
    refine hb (.inr ⟨hc, d.deviceKey, ?_, .inr ⟨d, hd, rfl⟩⟩)
    rw [hk b, ← hk !b]
    exact hput.2

theorem Safe.advanced : Advanced ports (entities b) l.store (l.calls b)
    ((l.calls b).advance ord ports topology (entities b) l.store) :=
  LearnCall.advanced (hk b ▸ h.ok) (h.knows b) (draws hb) fun hc => (h.repairs hk hb hc).1

theorem Safe.advance : (step ord ports topology entities l b).Safe ports entities k := by
  have ha := h.advanced ord hk hb
  have hnew : ∀ d d', newDevice? ((step ord ports topology entities l b).calls b) = some d →
      newDevice? (l.calls !b) = some d' → d.deviceKey ≠ d'.deviceKey := by
    intro d d' hd hd'
    rw [calls_step_self] at hd
    obtain hold | hnew := ha.newDevice d hd
    · exact h.distinct b d d' hold hd'
    · exact (((h.knows !b).fresh hd').lt.trans_le hnew).ne'
  refine ⟨h.ok.step (hk b ▸ ha.store), (forall_bool_iff b).2 ⟨?_, ?_⟩,
    (forall_bool_iff b).2 ⟨?_, ?_⟩⟩
  · rw [calls_step_self]
    exact ha.knows
  · rw [calls_step_other]
    refine (h.knows !b).step (by rw [hk !b, ← hk b]; exact ha.store) (fun d hd => ?_) fun d hd => ?_
    · obtain hfree | ⟨d', hd', heq⟩ := ha.mapped d.deviceKey ((h.knows !b).fresh hd).free
      · exact hfree
      · exact absurd heq (h.distinct b d' d (by rw [hd']; rfl) hd)
    · have hput := h.knows !b
      rw [hd] at hput
      have hentry := hput.2
      rw [hk !b, ← hk b] at hentry ⊢
      obtain hkeep | hc := ha.entry d.deviceKey hentry
      · exact hkeep
      · exact absurd hd ((h.repairs hk hb hc).2 d)
  · intro d d' hd hd'
    rw [calls_step_other] at hd'
    exact hnew d d' hd hd'
  · intro d d' hd hd'
    rw [calls_step_other] at hd
    rw [Bool.not_not] at hd'
    exact (hnew d' d hd' hd).symm

end Steps

theorem Safe.learned (hk : ∀ b, (entities b).indexed = k) (h : l.Safe ports entities k)
    (hdone : l.Done) : l.Learned entities := by
  have hfound : ∀ b, ∃ id d, l.store.deviceIdToDeviceMap.get id = some d ∧ d.Holds (entities b) := by
    intro b
    have hb := h.knows b
    obtain hc | hc := hdone b
    · rw [hc] at hb
      exact hb
    · rw [hc] at hb
      exact hb.elim
  have hindex : ∀ id d, l.store.deviceIdToDeviceMap.get id = some d → d.HasKey k →
      l.store.primaryIndex.get k = some id := h.ok.indexed
  obtain ⟨id, d, hd, he⟩ := hfound false
  have hid := hindex id d hd (hk false ▸ he.hasKey)
  refine ⟨id, d, hd, fun b => by rw [hk b]; exact hid, fun b => ?_, fun b id' d' hd' hk' => ?_⟩
  · obtain ⟨id', d', hd', he'⟩ := hfound b
    cases hid.symm.trans (hindex id' d' hd' (hk b ▸ he'.hasKey))
    cases hd.symm.trans hd'
    exact he'
  · exact Option.some.inj ((hindex id' d' hd' (hk b ▸ hk')).symm.trans hid)

/-! ## The end of a run -/

/-- What is left to do: the calls that are searching, then what each of them has to go. -/
def potential (entities : Bool → Entity) (k : IndexedEntity) (l : Learners) : ℕ ×ₗ ℕ :=
  toLex (searching (l.calls false) + searching (l.calls true), 50 * dangling k l.store +
    (cost l.store (entities false) (l.calls false) + cost l.store (entities true) (l.calls true)))

theorem add_bool (f : Bool → ℕ) (b : Bool) : f false + f true = f b + f (!b) := by
  cases b
  · rfl
  · exact Nat.add_comm ..

variable (ord) in
theorem potential_step (hk : ∀ b, (entities b).indexed = k) (h : l.Safe ports entities k)
    (hb : ¬Bad ports topology entities l b) (hc : l.calls b ≠ returned) :
    potential entities k (step ord ports topology entities l b) < potential entities k l := by
  have hp := LearnCall.progress ord (hk b ▸ h.ok) (h.knows b) hc (draws hb)
    fun hr => (h.repairs hk hb hr).1
  have hsearch := fun l : Learners => add_bool (fun b => searching (l.calls b)) b
  have hcost := fun l : Learners => add_bool (fun b => cost l.store (entities b) (l.calls b)) b
  unfold potential
  rw [Prod.Lex.toLex_lt_toLex, hsearch, hsearch, hcost, hcost]
  simp only [calls_step_self, calls_step_other, store_step]
  cases hp with
  | found hlt => exact .inl (Nat.add_lt_add_right hlt _)
  | same hs hmap hindex hlt =>
    rw [hk b, ← hk !b] at hindex
    refine .inr ⟨by rw [hs], ?_⟩
    have hother := cost_congr (e := entities !b) hmap hindex (l.calls !b)
    have hdangling := dangling_congr hmap hindex
    rw [hk !b] at hdangling
    rw [hdangling, hother]
    exact Nat.add_lt_add_left (Nat.add_lt_add_right hlt _) _
  | changed hs hle =>
    refine .inr ⟨by rw [hs], ?_⟩
    have hother := cost_le l.store
      ((l.calls b).advance ord ports topology (entities b) l.store).2 (entities !b) (l.calls !b)
    rw [hk b] at hle
    omega

/-! ## Runs -/

/-- In every run of two calls for entities with the same key fields, on the store of any run, whose
steps do no damage: if both calls have come to their end, then there is exactly one device with the
key fields, the index points to it and it has both entities; and if each call takes its steps again
and again, then both come to their end. -/
theorem learned_of_clean (ord : HashOrder) (ports : PortOrder) (topology : TopologyService)
    (entities : Bool → Entity) (hk : (entities false).indexed = (entities true).indexed)
    {ops : List Devices.Op} {s : Devices} (hr : Devices.Run ord ports Devices.new ops s) :
    (∀ schedule : List Bool, Machine.Clean (step ord ports topology entities)
        (Bad ports topology entities) (start s) schedule →
      (Machine.run (step ord ports topology entities) (start s) schedule).Done →
      (Machine.run (step ord ports topology entities) (start s) schedule).Learned entities) ∧
    ∀ schedule : ℕ → Bool, Machine.Fair schedule →
      (∀ n, Machine.Clean (step ord ports topology entities) (Bad ports topology entities) (start s)
        ((List.range n).map schedule)) →
      ∃ n, (Machine.run (step ord ports topology entities) (start s)
        ((List.range n).map schedule)).Done := by
  have hk' : ∀ b, (entities b).indexed = (entities true).indexed := Bool.forall_bool.2 ⟨hk, rfl⟩
  have hsafe : ∀ schedule, Machine.Clean (step ord ports topology entities)
      (Bad ports topology entities) (start s) schedule →
      (Machine.run (step ord ports topology entities) (start s) schedule).Safe ports entities
        (entities true).indexed := fun schedule hclean =>
    hclean.invariant (fun l b h hb => h.advance ord hk' hb) (safe_start hr)
  refine ⟨fun schedule hclean hdone => (hsafe schedule hclean).learned hk' hdone,
    fun schedule hfair hclean => ?_⟩
  -- the run comes to rest, and each call takes a step after that
  have hsafe' : ∀ n, (Machine.after (step ord ports topology entities) (start s) schedule n).Safe ports
      entities (entities true).indexed := fun n => by
    rw [Machine.after_eq_run]
    exact hsafe _ (hclean n)
  have hbad : ∀ n, ¬Bad ports topology entities
      (Machine.after (step ord ports topology entities) (start s) schedule n) (schedule n) := fun n => by
    have hlast := hclean (n + 1)
    rw [List.range_succ, List.map_append] at hlast
    rw [Machine.after_eq_run]
    exact Machine.clean_iff.1 hlast _ _ [] rfl
  have hrest : ∃ n, ∀ m ≥ n, Machine.after (step ord ports topology entities) (start s) schedule m =
      Machine.after (step ord ports topology entities) (start s) schedule n := by
    refine Machine.exists_rest (potential entities (entities true).indexed) fun n => ?_
    by_cases hc : (Machine.after (step ord ports topology entities) (start s) schedule n).calls
        (schedule n) = returned
    · exact .inr (step_of_returned hc)
    · exact .inl (potential_step ord hk' (hsafe' n) (hbad n) hc)
  obtain ⟨n, hn⟩ := hrest
  refine ⟨n, fun b => .inl ?_⟩
  rw [← Machine.after_eq_run]
  by_contra hc
  obtain ⟨m, hm, rfl⟩ := hfair b n
  rw [← hn m hm] at hc
  have hlt := potential_step ord hk' (hsafe' m) (hbad m) hc
  have hnext : step ord ports topology entities (Machine.after (step ord ports topology entities)
      (start s) schedule m) (schedule m) =
      Machine.after (step ord ports topology entities) (start s) schedule m :=
    (hn (m + 1) (Nat.le_succ_of_le hm)).trans (hn m hm).symm
  rw [hnext] at hlt
  exact lt_irrefl _ hlt

instance : Decidable (Bad ports topology entities l b) :=
  have : Decidable (∃ id, l.store.primaryIndex.get (entities b).indexed = some id ∧
      ((∃ d, l.store.deviceIdToDeviceMap.get id = some d) ∨
        ∃ d, l.calls (!b) = .put d ∧ d.deviceKey = id)) :=
    match hid : l.store.primaryIndex.get (entities b).indexed with
    | none => .isFalse (by rintro ⟨_, ⟨⟩, -⟩)
    | some id =>
      have : Decidable (∃ d, l.calls (!b) = .put d ∧ d.deviceKey = id) :=
        match hc : l.calls !b with
        | .put d => decidable_of_iff (d.deviceKey = id)
          ⟨fun h => ⟨d, rfl, h⟩, by rintro ⟨_, ⟨⟩, h⟩; exact h⟩
        | .lookup | .draw | .publish _ | .load _ | .repair | .replace _ _ | .update _ _ | .file _
        | .returned | .refused => .isFalse (by rintro ⟨_, ⟨⟩, -⟩)
      decidable_of_iff ((l.store.deviceIdToDeviceMap.get id).isSome ∨
        ∃ d, l.calls (!b) = .put d ∧ d.deviceKey = id)
        ⟨fun h => ⟨id, rfl, by rwa [Option.isSome_iff_exists] at h⟩,
          by rintro ⟨_, ⟨⟩, h⟩; rwa [Option.isSome_iff_exists]⟩
  inferInstanceAs (Decidable (_ ∧ _ ∨ _ ∧ _))

instance : Decidable l.Done := 
  inferInstanceAs (Decidable (∀ b, l.calls b = .returned ∨ l.calls b = .refused))

/-- One host, seen at two ports. -/
def sightings (b : Bool) : Entity := .new 7 none none (some 1) (some (if b then 2 else 1)) 0

/-- The second call starts when the first has come to its end. -/
theorem learned_of_clean_turns : (Machine.run (step .insertion .unsigned (islands []) sightings)
    (start Devices.new) (List.replicate 5 false ++ List.replicate 7 true)).Learned sightings :=
  (learned_of_clean .insertion .unsigned (islands []) sightings rfl (.nil Devices.new)).1
    (List.replicate 5 false ++ List.replicate 7 true) (by decide) (by decide)

/-- The first call publishes its entry, the second finds no device and removes the entry, and each
makes a device. -/
def raced : Learners := Machine.run (step .insertion .unsigned (islands []) sightings)
  (start Devices.new) (List.replicate 3 false ++ List.replicate 8 true ++ List.replicate 2 false)

theorem not_learned_raced :
    ¬∀ (ord : HashOrder) (ports : PortOrder) (topology : TopologyService) (entities : Bool → Entity),
      (entities false).indexed = (entities true).indexed →
      ∀ (ops : List Devices.Op) (s : Devices), Devices.Run ord ports Devices.new ops s →
      ∀ schedule : List Bool,
        (Machine.run (step ord ports topology entities) (start s) schedule).Done →
        (Machine.run (step ord ports topology entities) (start s) schedule).Learned entities := by
  intro h
  have hdone : raced.Done := by decide
  obtain ⟨id, d, -, -, -, hunique⟩ : raced.Learned sightings :=
    h .insertion .unsigned (islands []) sightings rfl [] Devices.new (.nil _) _ hdone
  have hfirst : ∃ d, raced.store.deviceIdToDeviceMap.get 0 = some d ∧
      d.HasKey (sightings false).indexed :=
    ⟨_, (Option.some_get (by decide)).symm, _, List.mem_cons_self, rfl⟩
  have hsecond : ∃ d, raced.store.deviceIdToDeviceMap.get 1 = some d ∧
      d.HasKey (sightings false).indexed :=
    ⟨_, (Option.some_get (by decide)).symm, _, List.mem_cons_self, rfl⟩
  obtain ⟨d₀, hd₀, hk₀⟩ := hfirst
  obtain ⟨d₁, hd₁, hk₁⟩ := hsecond
  exact absurd ((hunique false 0 d₀ hd₀ hk₀).trans (hunique false 1 d₁ hd₁ hk₁).symm) (by decide)

end Learners

end Torpedo
