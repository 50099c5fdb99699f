import Torpedo.DeviceManager.Devices
import Torpedo.DeviceManager.Registry

/-!
# The store as a registry

The maps of the store are a registry, and each operation, run alone, changes it only by the changes
of `Registry.Change`. The exception is `updateAttachmentPoints`, which drops the devices that are
left without a valid attachment point and does not clean the indices.
-/

namespace Torpedo

open Relation

/-! ## What operations on a device leave alone -/

section Hosts

variable {ports : PortOrder} {d d' : Device}

/-- The device keeps its key and its entities. -/
def Device.SameHost (d d' : Device) : Prop := d'.deviceKey = d.deviceKey ∧ d'.entities = d.entities

theorem Device.SameHost.wellFormed (h : d.SameHost d') (hd : d.WellFormed ports) :
    d'.WellFormed ports := by
  obtain ⟨hne, hsorted, hsame⟩ := hd
  rw [← h.2] at hne hsorted hsame
  exact ⟨hne, hsorted, hsame⟩

theorem Device.SameHost.hasKey (h : d.SameHost d') (k : IndexedEntity) :
    d'.HasKey k ↔ d.HasKey k := by
  unfold Device.HasKey
  rw [h.2]

variable (ord : HashOrder) (topology : TopologyService) (suppressedAPs : List SwitchPort)

theorem Device.sameHost_takeOldAP (d : Device) (sw : Dpid) (port : OFPort) (t : Int) :
    d.SameHost (d.takeOldAP sw port t).2.2 := by
  unfold takeOldAP
  dsimp only
  split <;> exact ⟨rfl, rfl⟩

theorem Device.sameHost_updateAttachmentPoint (d : Device) (sw : Dpid) (port : OFPort) (t : Int) :
    d.SameHost (d.updateAttachmentPoint ord topology suppressedAPs sw port t).2 := by
  have hold := d.sameHost_takeOldAP sw port t
  unfold updateAttachmentPoint
  split_ifs
  · exact ⟨rfl, rfl⟩
  · generalize d.takeOldAP sw port t = taken at hold ⊢
    obtain ⟨newAP, oldAPFlag, d'⟩ := taken
    dsimp only at hold ⊢
    by_cases hnil : (getAPMap topology suppressedAPs d'.attachmentPoints).keySet = []
    · rw [if_pos hnil]
      exact hold
    rw [if_neg hnil]
    cases (getAPMap topology suppressedAPs d'.attachmentPoints).get (topology.getL2DomainId sw) with
    | none => exact hold
    | some oldAP =>
      dsimp only
      split_ifs <;> exact hold

theorem Device.sameHost_updateAttachmentPoint₀ (d : Device) :
    d.SameHost (d.updateAttachmentPoint₀ ord topology suppressedAPs).2 := by
  unfold updateAttachmentPoint₀
  split_ifs
  · exact ⟨rfl, rfl⟩
  · dsimp only
    split_ifs <;> exact ⟨rfl, rfl⟩

theorem Device.sameHost_deleteAttachmentPoint (d : Device) (sw : Dpid) :
    d.SameHost (d.deleteAttachmentPoint sw) := ⟨rfl, rfl⟩

theorem sameHost_sight (d : Device) (e : Entity) (t : Int) :
    d.SameHost (Devices.sight ord topology suppressedAPs d e t) := by
  unfold Devices.sight
  split
  · exact d.sameHost_updateAttachmentPoint ord topology suppressedAPs _ _ t
  · exact ⟨rfl, rfl⟩

theorem Device.equals_self (d : Device) : d.equals d = true := by
  have hzip : (d.entities.zip d.entities).all (fun p => p.1.equals p.2) = true := by
    rw [List.all_eq_true]
    rintro ⟨e, o⟩ h
    rw [List.mem_iff_getElem] at h
    obtain ⟨i, hi, heq⟩ := h
    rw [List.getElem_zip] at heq
    cases heq
    exact Entity.equals_self _
  unfold equals
  simp [hzip]

end Hosts

/-! ## Well-formed devices -/

section WellFormed

variable {ports : PortOrder} {d : Device} {e : Entity} {k : IndexedEntity}

/-- The entities that are kept are sorted. -/
theorem Device.WellFormed.withEntities (h : d.WellFormed ports) {es : List Entity}
    (hes : es.Sublist d.entities) (hne : es ≠ []) : (d.withEntities ports es).WellFormed ports where
  nonempty := fun hnil => hne (List.Perm.nil_eq (hnil ▸ perm_sortEntities)).symm
  sorted := sorted_sortEntities (h.sorted.not_equals.sublist hes)
  same := by
    intro e he o ho
    exact h.same e (hes.subset (mem_sortEntities.1 he)) o (hes.subset (mem_sortEntities.1 ho))

/-- The entities that are kept are in order already. -/
theorem Device.WellFormed.withEntities_eq (h : d.WellFormed ports) {es : List Entity}
    (hes : es.Sublist d.entities) : d.withEntities ports es = { d with entities := es } := by
  unfold Device.withEntities sortEntities
  have hsorted : es.Pairwise fun e o => Entity.compareTo ports e o ≠ .gt :=
    (h.sorted.sublist hes).imp fun hlt hgt => nomatch hlt.symm.trans hgt
  rw [hsorted.insertionSort_eq]

theorem hasKey_addEntity : (d.addEntity ports e).HasKey k ↔ d.HasKey k ∨ e.indexed = k := by
  unfold Device.HasKey Device.addEntity
  simp only [mem_sortEntities, List.mem_append, List.mem_singleton, or_and_right, exists_or,
    exists_eq_left]

/-- An entity of the host that is not there yet may be added. -/
theorem Device.WellFormed.addEntity (h : d.WellFormed ports) (hk : d.HasKey e.indexed)
    (he : entityIndex ports d.entities e < 0) : (d.addEntity ports e).WellFormed ports where
  nonempty := fun hnil => by
    have hmem : e ∈ (d.addEntity ports e).entities := mem_sortEntities.2 (by simp)
    rw [hnil] at hmem
    cases hmem
  sorted := by
    refine sorted_sortEntities (List.pairwise_append.2 ⟨h.sorted.not_equals, by simp, ?_⟩)
    intro o ho o' ho'
    rw [List.mem_singleton.1 ho']
    cases heq : o.equals e with
    | false => rfl
    | true => exact absurd ((entityIndex_nonneg_iff h.sorted).2 ⟨o, ho, heq⟩) (not_le.2 he)
  same := by
    have hkey : ∀ o ∈ (d.addEntity ports e).entities, o.indexed = e.indexed := by
      intro o ho
      rcases List.mem_append.1 (mem_sortEntities.1 ho) with ho | ho
      · exact h.indexed hk ho
      · rw [List.mem_singleton.1 ho]
    intro o ho o' ho'
    rw [hkey o ho, hkey o' ho']

/-- The device with a new time of sighting of the entity at `i`. -/
def Device.touch (d : Device) (i : ℕ) (t : Int) : Device :=
  { d with entities := d.entities.modify i fun e => e.setLastSeenTimestamp t }

theorem getElem_touch {i j : ℕ} {t : Int} (hj : j < (d.touch i t).entities.length)
    (hj' : j < d.entities.length) :
    (d.touch i t).entities[j] = d.entities[j] ∨
      (d.touch i t).entities[j] = d.entities[j].setLastSeenTimestamp t := by
  have h : (d.touch i t).entities[j] =
      if i = j then d.entities[j].setLastSeenTimestamp t else d.entities[j] :=
    List.getElem_modify ..
  rw [h]
  split_ifs
  · exact .inr rfl
  · exact .inl rfl

theorem length_touch (i : ℕ) (t : Int) : (d.touch i t).entities.length = d.entities.length :=
  List.length_modify ..

theorem indexed_touch {i j : ℕ} {t : Int} (hj : j < (d.touch i t).entities.length)
    (hj' : j < d.entities.length) : (d.touch i t).entities[j].indexed = d.entities[j].indexed := by
  rcases getElem_touch hj hj' with h | h <;> rw [h]
  rfl

theorem hasKey_touch {i : ℕ} {t : Int} : (d.touch i t).HasKey k ↔ d.HasKey k := by
  unfold Device.HasKey
  constructor
  · rintro ⟨e, he, rfl⟩
    obtain ⟨j, hj, rfl⟩ := List.mem_iff_getElem.1 he
    have hj' := length_touch i t ▸ hj
    exact ⟨d.entities[j], List.getElem_mem hj', (indexed_touch hj hj').symm⟩
  · rintro ⟨e, he, rfl⟩
    obtain ⟨j, hj, rfl⟩ := List.mem_iff_getElem.1 he
    have hj' : j < (d.touch i t).entities.length := (length_touch i t).symm ▸ hj
    exact ⟨(d.touch i t).entities[j], List.getElem_mem hj', indexed_touch hj' hj⟩

/-- Times play no part in the order of the entities. -/
theorem Device.WellFormed.touch (h : d.WellFormed ports) (i : ℕ) (t : Int) :
    (d.touch i t).WellFormed ports where
  nonempty := by
    rw [← List.length_pos_iff, length_touch, List.length_pos_iff]
    exact h.nonempty
  sorted := by
    unfold SortedEntities
    rw [List.pairwise_iff_getElem]
    intro a b ha hb hab
    have ha' := length_touch i t ▸ ha
    have hb' := length_touch i t ▸ hb
    have hlt := List.pairwise_iff_getElem.1 h.sorted a b ha' hb' hab
    rcases getElem_touch ha ha' with h₁ | h₁ <;> rcases getElem_touch hb hb' with h₂ | h₂ <;>
      rw [h₁, h₂] <;> exact hlt
  same := by
    intro e he o ho
    obtain ⟨a, ha, rfl⟩ := List.mem_iff_getElem.1 he
    obtain ⟨b, hb, rfl⟩ := List.mem_iff_getElem.1 ho
    have ha' := length_touch i t ▸ ha
    have hb' := length_touch i t ▸ hb
    rw [indexed_touch ha ha', indexed_touch hb hb']
    exact h.same _ (List.getElem_mem ha') _ (List.getElem_mem hb')

end WellFormed

namespace Devices

/-! ## The registry of a store -/

/-- The ids that the secondary index files under `k`. -/
def filed (s : Devices) (k : IndexedEntity) : List ℕ :=
  ((s.multiIndices.get keyFields).bind (HashMap.get · k)).getD []

def registry (s : Devices) : Registry where
  device := s.deviceIdToDeviceMap.get
  primary := s.primaryIndex.get
  filed := s.filed
  kinds := s.multiIndices.containsKey
  counter := s.deviceKeyCounter

variable {ord : HashOrder} {ports : PortOrder} {topology : TopologyService} {s s' : Devices}

theorem registry_putDevice (id : ℕ) (d : Device) :
    (s.putDevice id d).registry =
      { s.registry with device := Function.update s.registry.device id (some d) } := by
  refine Registry.ext ?_ rfl rfl rfl rfl
  exact HashMap.get_put_eq ..

theorem registry_removeMapped (id : ℕ) :
    (registry { s with deviceIdToDeviceMap := s.deviceIdToDeviceMap.remove id }) =
      { s.registry with device := Function.update s.registry.device id none } := by
  refine Registry.ext ?_ rfl rfl rfl rfl
  exact HashMap.get_remove_eq ..

theorem containsKey_put {κ ν : Type} [DecidableEq κ] (m : HashMap κ ν) (k : κ) (v : ν) :
    (m.put k v).containsKey = Function.update m.containsKey k true := by
  funext k'
  unfold HashMap.containsKey
  rw [HashMap.get_put, Function.update_apply]
  split_ifs <;> rfl

theorem registry_updateSecondaryIndices (e : Entity) (id : ℕ) :
    (s.updateSecondaryIndices e id).registry =
      { s.registry with
        filed := Function.update s.registry.filed e.indexed
          (setAdd (s.registry.filed e.indexed) id)
        kinds := Function.update s.registry.kinds keyFields true } := by
  refine Registry.ext rfl rfl ?_ ?_ rfl
  swap
  · exact containsKey_put ..
  funext k
  show ((HashMap.get (HashMap.put s.multiIndices keyFields _) keyFields).bind _).getD [] =
    Function.update s.filed e.indexed (setAdd (s.filed e.indexed) id) k
  rw [HashMap.get_put_self, Function.update_apply]
  unfold filed SetMap.add
  by_cases hk : k = e.indexed
  · subst hk
    cases s.multiIndices.get keyFields <;> simp
  · cases s.multiIndices.get keyFields <;> simp [HashMap.get_put, hk]

/-! ## Removing entities -/

section Removal

variable {e : Entity} {id : ℕ} {others : List Entity}

theorem setRemove_of_not_mem {ids : List ℕ} (h : id ∉ ids) : setRemove ids id = ids := by
  unfold setRemove
  rw [List.filter_eq_self]
  intro i hi
  simpa using fun heq : i = id => h (heq ▸ hi)

theorem getD_removeFromMulti {index : SetMap IndexedEntity ℕ} (h : neededBy e others = false)
    (k : IndexedEntity) : ((removeFromMulti e id others index).get k).getD [] =
      Function.update (fun k => (index.get k).getD []) e.indexed
        (setRemove ((index.get e.indexed).getD []) id) k := by
  unfold removeFromMulti
  rw [if_neg (by simp [h]), Function.update_apply]
  cases hg : index.get e.indexed with
  | none =>
    dsimp only
    split_ifs with hk
    · rw [hk, hg]; rfl
    · rfl
  | some ids =>
    dsimp only
    split_ifs with hid hk hk
    · rw [hk, HashMap.get_put_self]; rfl
    · rw [HashMap.get_put, if_neg hk]
    · rw [hk, hg]; exact (setRemove_of_not_mem hid).symm
    · rfl

theorem containsKey_removeEntity (s : Devices) (e : Entity) (id : ℕ) (others : List Entity) :
    (s.removeEntity e id others).multiIndices.containsKey = s.multiIndices.containsKey := by
  unfold removeEntity
  dsimp only
  cases hg : s.multiIndices.get keyFields with
  | none => rfl
  | some index =>
    dsimp only
    rw [containsKey_put]
    refine Function.update_eq_self_iff.2 ?_
    unfold HashMap.containsKey
    rw [hg]
    rfl

theorem registry_removeEntity_needed (h : neededBy e others = true) :
    (s.removeEntity e id others).registry = s.registry := by
  have hp : removeFromSingle e id others s.primaryIndex = s.primaryIndex := if_pos h
  refine Registry.ext rfl (congrArg HashMap.get hp) ?_ (containsKey_removeEntity ..) rfl
  funext k
  show filed _ k = s.filed k
  unfold filed removeEntity removeFromMulti
  simp only [h, if_true]
  cases hg : s.multiIndices.get keyFields with
  | none => simp [hg]
  | some index => simp

theorem registry_removeEntity (h : neededBy e others = false) :
    (s.removeEntity e id others).registry =
      { s.registry with
        primary := fun k =>
          if k = e.indexed ∧ s.registry.primary k = some id then none else s.registry.primary k
        filed := Function.update s.registry.filed e.indexed
          (setRemove (s.registry.filed e.indexed) id) } := by
  refine Registry.ext rfl ?_ ?_ (containsKey_removeEntity ..) rfl
  · funext k
    show (removeFromSingle e id others s.primaryIndex).get k =
      if k = e.indexed ∧ s.primaryIndex.get k = some id then none else s.primaryIndex.get k
    unfold removeFromSingle
    rw [if_neg (by simp [h])]
    by_cases hk : k = e.indexed
    · subst hk
      split_ifs with h₁ h₂ h₂
      · exact HashMap.get_remove_self ..
      · exact absurd ⟨rfl, h₁⟩ h₂
      · exact absurd h₂.2 h₁
      · rfl
    · rw [if_neg fun h : k = e.indexed ∧ _ => hk h.1]
      split_ifs
      · rw [HashMap.get_remove, if_neg hk]
      · rfl
  · funext k
    show filed (s.removeEntity e id others) k =
      Function.update s.filed e.indexed (setRemove (s.filed e.indexed) id) k
    unfold filed removeEntity
    cases hg : s.multiIndices.get keyFields with
    | none =>
      rw [Function.update_apply]
      simp [hg, setRemove]
    | some index =>
      simp only [HashMap.get_put_self, Option.bind_some]
      exact getD_removeFromMulti h k

variable (id) in
/-- Removing entities of a host that keeps an entity does nothing. -/
theorem registry_removeEntities_needed (es : List Entity)
    (h : ∀ e ∈ es, neededBy e others = true) :
    (es.foldl (fun s e => s.removeEntity e id others) s).registry = s.registry := by
  induction es generalizing s with
  | nil => rfl
  | cons e es ih =>
    rw [List.foldl_cons, ih fun o ho => h o (List.mem_cons_of_mem _ ho),
      registry_removeEntity_needed (h e List.mem_cons_self)]

/-- Removing an entity of a host that is in no other index entry. -/
theorem registry_removeEntity_key {k : IndexedEntity} (he : e.indexed = k)
    (hp : s.registry.primary k = some id ∨ s.registry.primary k = none) :
    (s.removeEntity e id []).registry =
      { s.registry with
        primary := Function.update s.registry.primary k none
        filed := Function.update s.registry.filed k (setRemove (s.registry.filed k) id) } := by
  subst he
  rw [registry_removeEntity rfl]
  refine Registry.ext rfl ?_ rfl rfl rfl
  funext k'
  show (if k' = e.indexed ∧ s.registry.primary k' = some id then none
    else s.registry.primary k') = Function.update s.registry.primary e.indexed none k'
  rw [Function.update_apply]
  by_cases hk' : k' = e.indexed
  · subst hk'
    rcases hp with hp | hp <;> simp [hp]
  · simp [hk']

variable (id) in
/-- Once a host is out of the indices it stays out. -/
theorem registry_removeEntities_gone {k : IndexedEntity} (es : List Entity)
    (hk : ∀ e ∈ es, e.indexed = k) (hp : s.registry.primary k = none)
    (hf : id ∉ s.registry.filed k) :
    (es.foldl (fun s e => s.removeEntity e id []) s).registry = s.registry := by
  induction es generalizing s with
  | nil => rfl
  | cons e es ih =>
    have hsame : (s.removeEntity e id []).registry = s.registry := by
      rw [registry_removeEntity_key (hk e List.mem_cons_self) (.inr hp)]
      refine Registry.ext rfl ?_ ?_ rfl rfl
      · exact Function.update_eq_self_iff.2 hp.symm
      · exact Function.update_eq_self_iff.2 (setRemove_of_not_mem hf)
    rw [List.foldl_cons, ih (fun o ho => hk o (List.mem_cons_of_mem _ ho)), hsame]
    · rw [hsame]; exact hp
    · rw [hsame]; exact hf

/-- Removing all entities of a host takes it out of the indices. -/
theorem registry_removeEntities {k : IndexedEntity} (es : List Entity)
    (hk : ∀ e ∈ es, e.indexed = k) (hne : es ≠ []) (hp : s.registry.primary k = some id) :
    (es.foldl (fun s e => s.removeEntity e id []) s).registry =
      { s.registry with
        primary := Function.update s.registry.primary k none
        filed := Function.update s.registry.filed k (setRemove (s.registry.filed k) id) } := by
  cases es with
  | nil => exact absurd rfl hne
  | cons e es =>
    have he := registry_removeEntity_key (hk e List.mem_cons_self) (.inl hp)
    rw [List.foldl_cons, registry_removeEntities_gone id es (fun o ho => hk o (List.mem_cons_of_mem _ ho)),
      he]
    · rw [he]; exact Function.update_self ..
    · rw [he]; exact fun h => (Registry.mem_unfile.1 h).2 ⟨rfl, rfl⟩

end Removal

/-! ## Learning -/

/-- `updateIndices` finds all entities in the index already. -/
theorem updateIndex_eq_self {id : ℕ} {index : HashMap IndexedEntity ℕ} (es : List Entity)
    (h : ∀ e ∈ es, index.get e.indexed = some id) : updateIndex id es index = (true, index) := by
  induction es with
  | nil => rfl
  | cons e es ih =>
    have he := h e List.mem_cons_self
    unfold updateIndex
    rw [he]
    simp only [ne_eq, not_true_eq_false, if_false]
    exact ih fun o ho => h o (List.mem_cons_of_mem _ ho)

theorem replaceDevice_self {id : ℕ} {d : Device} (d' : Device)
    (h : s.deviceIdToDeviceMap.get id = some d) : s.replaceDevice id d d' = (true, s.putDevice id d') := by
  unfold replaceDevice
  rw [h]
  simp [d.equals_self]

theorem allocateDevice_some {suppressedAPs : List SwitchPort} {id : ℕ} {e : Entity} {d : Device}
    (h : Device.allocateDevice ports topology suppressedAPs id e = some d) :
    d.deviceKey = id ∧ d.entities = [e] := by
  unfold Device.allocateDevice at h
  split at h
  · split_ifs at h
    cases h
    exact ⟨rfl, rfl⟩
  · cases h

section Learn

variable {e : Entity}

variable (ports) in
/-- A device with one entity. -/
theorem wellFormed_singleton {d : Device} (h : d.entities = [e]) :
    d.WellFormed ports ∧ d.HasKey e.indexed := by
  refine ⟨⟨?_, ?_, ?_⟩, e, ?_, rfl⟩
  · rw [h]; exact List.cons_ne_nil _ _
  · rw [h]; exact List.pairwise_singleton ..
  · intro o ho o' ho'
    rw [h, List.mem_singleton] at ho ho'
    rw [ho, ho']
  · rw [h]; exact List.mem_singleton_self e

/-- An entity that is in no index draws an id, and becomes a device if it is seen at a valid
attachment point. -/
theorem learnNew_spec (h : s.registry.Inv ports) (hp : s.primaryIndex.get e.indexed = none) :
    ∃ device s', learnNew ports topology e s = .returned device s' ∧
      Registry.Change ports s.registry s'.registry := by
  have hfree : s.deviceIdToDeviceMap.get s.deviceKeyCounter = none := h.not_device_counter
  unfold learnNew
  dsimp only
  cases ha : Device.allocateDevice ports topology s.suppressedAPs s.deviceKeyCounter e with
  | none => exact ⟨none, _, rfl, Registry.Change.draw⟩
  | some d =>
    obtain ⟨hkey, hes⟩ := allocateDevice_some ha
    obtain ⟨hwf, hk⟩ := wellFormed_singleton ports hes
    have hup : updateIndex s.deviceKeyCounter d.entities s.primaryIndex =
        (true, s.primaryIndex.put e.indexed s.deviceKeyCounter) := by
      rw [hes]
      unfold updateIndex
      rw [hp]
      rfl
    have hadd := Registry.Change.add (r := s.registry) d e.indexed hp hkey hwf hk
    unfold updateIndices
    simp only [hup, hfree, Option.isSome_none, Bool.false_eq_true, if_false]
    refine ⟨some d, _, rfl, ?_⟩
    rw [registry_updateSecondaryIndices, registry_putDevice]
    convert hadd using 1
    exact Registry.ext rfl (HashMap.get_put_eq ..) rfl rfl rfl

/-- A device may be replaced by a device of the same host. -/
theorem change_putDevice (h : s.registry.Inv ports) {id : ℕ} {d d₁ d₂ : Device}
    (hd : s.deviceIdToDeviceMap.get id = some d) (hkey : d₁.deviceKey = d.deviceKey)
    (hwf : d₁.WellFormed ports) (hk : ∀ k, d₁.HasKey k ↔ d.HasKey k) (hsame : d₁.SameHost d₂) :
    Registry.Change ports s.registry (s.putDevice id d₂).registry := by
  rw [registry_putDevice]
  refine .replace id d d₂ hd ?_ (hsame.wellFormed hwf) fun k => (hsame.hasKey k).trans (hk k)
  rw [hsame.1, hkey]
  exact h.key id d hd

/-- A device takes a further sighting of one of its entities, or a further entity of its host. -/
theorem learnKnown_spec (h : s.registry.Inv ports) {id : ℕ} {d : Device}
    (hd : s.deviceIdToDeviceMap.get id = some d) (hp : s.primaryIndex.get e.indexed = some id) :
    ∃ device s', learnKnown ord ports topology e id d s = .returned device s' ∧
      Registry.Change ports s.registry s'.registry := by
  have hwf : d.WellFormed ports := h.wellFormed id d hd
  have hk : d.HasKey e.indexed := h.owner e.indexed id d (.inl hp) hd
  unfold learnKnown
  dsimp only
  by_cases hi : entityIndex ports d.entities e ≥ 0
  · rw [if_pos hi]
    have htouch : ∀ d₂, (d.touch (entityIndex ports d.entities e).toNat e.lastSeenTimestamp).SameHost
        d₂ → Registry.Change ports s.registry (s.putDevice id d₂).registry := fun _ =>
      change_putDevice h hd rfl (hwf.touch _ e.lastSeenTimestamp) fun _ => hasKey_touch
    split
    · exact ⟨_, _, rfl, htouch _ ⟨rfl, rfl⟩⟩
    · exact ⟨_, _, rfl, htouch _ (sameHost_sight ..)⟩
  · rw [if_neg hi]
    have hwf' := hwf.addEntity hk (not_le.1 hi)
    have hk' : ∀ k, (d.addEntity ports e).HasKey k ↔ d.HasKey k := by
      intro k
      rw [hasKey_addEntity, or_iff_left_of_imp]
      rintro rfl
      exact hk
    have hsame := sameHost_sight ord topology s.suppressedAPs (d.addEntity ports e) e
      e.lastSeenTimestamp
    generalize sight ord topology s.suppressedAPs (d.addEntity ports e) e e.lastSeenTimestamp =
      d₂ at hsame ⊢
    have hkey : (d.addEntity ports e).deviceKey = d.deviceKey := rfl
    have hput := change_putDevice h hd hkey hwf' hk' hsame
    rw [replaceDevice_self d₂ hd]
    dsimp only
    -- all entities are in the index already
    have hup : (s.putDevice id d₂).updateIndices d₂ id = (true, s.putDevice id d₂) := by
      unfold updateIndices
      have hes : ∀ o ∈ d₂.entities, s.primaryIndex.get o.indexed = some id := by
        intro o ho
        rw [(hsame.wellFormed hwf').indexed ((hsame.hasKey _).2 ((hk' _).2 hk)) ho]
        exact hp
      show ((updateIndex id d₂.entities s.primaryIndex).1, { s.putDevice id d₂ with
        primaryIndex := (updateIndex id d₂.entities s.primaryIndex).2 }) = _
      rw [updateIndex_eq_self _ hes]
      rfl
    rw [hup]
    refine ⟨_, _, rfl, ?_⟩
    -- and in the secondary index
    have hfiled : Function.update (s.putDevice id d₂).registry.filed e.indexed
        (setAdd ((s.putDevice id d₂).registry.filed e.indexed) id) =
        (s.putDevice id d₂).registry.filed := by
      refine Function.update_eq_self_iff.2 (if_pos ?_)
      exact h.filed id d e.indexed hd hk
    have hkinds : Function.update (s.putDevice id d₂).registry.kinds keyFields true =
        (s.putDevice id d₂).registry.kinds :=
      Function.update_eq_self_iff.2 (h.kindsFiled _ id (h.filed id d e.indexed hd hk)).symm
    rw [registry_updateSecondaryIndices, hfiled, hkinds]
    exact hput

variable (ord topology) in
/-- A round returns, unless the index refers to a device that is not there. -/
theorem learnRound_returned (h : s.registry.Inv ports)
    (hp : ∀ id, s.primaryIndex.get e.indexed = some id → ∃ d, s.deviceIdToDeviceMap.get id = some d) :
    ∃ device s', learnRound ord ports topology e s = .returned device s' ∧
      Registry.Change ports s.registry s'.registry := by
  unfold learnRound
  cases hg : s.primaryIndex.get e.indexed with
  | none => exact learnNew_spec h hg
  | some id =>
    obtain ⟨d, hd⟩ := hp id hg
    dsimp only
    rw [hd]
    exact learnKnown_spec h hd hg

variable (ord topology e) in
/-- `learnDeviceByEntity` returns after at most two rounds. -/
theorem learnDeviceByEntity_spec (h : s.registry.Inv ports) :
    ∃ device s', s.learnDeviceByEntity ord ports topology 2 e = some (device, s') ∧
      ReflTransGen (Registry.Change ports) s.registry s'.registry := by
  by_cases hp : ∀ id, s.primaryIndex.get e.indexed = some id →
      ∃ d, s.deviceIdToDeviceMap.get id = some d
  · obtain ⟨device, s', hr, hc⟩ := learnRound_returned ord topology h hp
    refine ⟨device, s', ?_, .single hc⟩
    unfold learnDeviceByEntity
    rw [hr]
  · -- the first round repairs the index
    push Not at hp
    obtain ⟨id, hp, hd⟩ := hp
    have hd : s.deviceIdToDeviceMap.get id = none := Option.eq_none_iff_forall_ne_some.2 hd
    have hr : learnRound ord ports topology e s =
        .again { s with primaryIndex := s.primaryIndex.remove e.indexed } := by
      unfold learnRound
      rw [hp]
      dsimp only
      rw [hd]
    have hrepair : Registry.Change ports s.registry
        (registry { s with primaryIndex := s.primaryIndex.remove e.indexed }) := by
      convert Registry.Change.repair (r := s.registry) e.indexed id hp hd using 1
      exact Registry.ext rfl (HashMap.get_remove_eq ..) rfl rfl rfl
    obtain ⟨device, s', hr', hc⟩ := learnRound_returned ord topology (e := e)
      (h.change hrepair) (fun id hid => by simp at hid)
    refine ⟨device, s', ?_, .tail (.single hrepair) hc⟩
    unfold learnDeviceByEntity
    rw [hr]
    dsimp only
    unfold learnDeviceByEntity
    rw [hr']

/-- More rounds change nothing. -/
theorem learnDeviceByEntity_mono {fuel fuel' : ℕ} {r : Option Device × Devices} (hle : fuel ≤ fuel')
    (h : s.learnDeviceByEntity ord ports topology fuel e = some r) :
    s.learnDeviceByEntity ord ports topology fuel' e = some r := by
  induction fuel generalizing s fuel' with
  | zero => cases h
  | succ fuel ih =>
    obtain ⟨fuel', rfl⟩ := Nat.exists_eq_add_of_le' (Nat.lt_of_lt_of_le (Nat.succ_pos fuel) hle)
    unfold learnDeviceByEntity at h ⊢
    cases hr : learnRound ord ports topology e s with
    | again s₁ =>
      rw [hr] at h
      exact ih (Nat.le_of_succ_le_succ hle) h
    | returned device s₁ =>
      rw [hr] at h
      exact h

/-- Whenever `learnDeviceByEntity` returns, it has changed the store as in `learnDeviceByEntity_spec`. -/
theorem changes_of_learnDeviceByEntity (h : s.registry.Inv ports) {fuel : ℕ} {device : Option Device}
    (hs : s.learnDeviceByEntity ord ports topology fuel e = some (device, s')) :
    ReflTransGen (Registry.Change ports) s.registry s'.registry := by
  obtain ⟨device', s₁, h₁, hc⟩ := learnDeviceByEntity_spec ord topology e h
  have h₂ := learnDeviceByEntity_mono (Nat.le_max_left fuel 2) hs
  rw [learnDeviceByEntity_mono (Nat.le_max_right fuel 2) h₁] at h₂
  cases h₂
  exact hc

end Learn

/-! ## Cleaning up -/

section Cleanup

variable (ord) in
/-- The devices of a store, each under its own key. -/
theorem deviceValues_spec (h : s.registry.Inv ports) :
    (∀ d ∈ s.deviceValues ord, s.registry.device d.deviceKey = some d) ∧
      ((s.deviceValues ord).map Device.deviceKey).Nodup := by
  unfold deviceValues
  have hget : ∀ {id d}, s.deviceIdToDeviceMap.get id = some d → d.deviceKey = id := fun {id d} hd =>
    h.key id d hd
  constructor
  · intro d hd
    obtain ⟨id, -, hd⟩ := List.mem_filterMap.1 hd
    rw [hget hd]
    exact hd
  · have hnodup : (ord.iter s.deviceIdToDeviceMap.keySet).Nodup :=
      ord.nodup_iter.2 (HashMap.nodup_keySet _)
    generalize ord.iter s.deviceIdToDeviceMap.keySet = ids at hnodup
    induction ids with
    | nil => exact List.nodup_nil
    | cons id ids ih =>
      rw [List.nodup_cons] at hnodup
      rw [List.filterMap_cons]
      cases hd : s.deviceIdToDeviceMap.get id with
      | none => exact ih hnodup.2
      | some d =>
        rw [List.map_cons, List.nodup_cons]
        refine ⟨fun hmem => ?_, ih hnodup.2⟩
        obtain ⟨d', hd', hkey⟩ := List.mem_map.1 hmem
        obtain ⟨id', hid', hd'⟩ := List.mem_filterMap.1 hd'
        rw [hget hd', hget hd] at hkey
        exact hnodup.1 (hkey ▸ hid')

theorem mem_deviceValues {d : Device} :
    d ∈ s.deviceValues ord ↔ ∃ id, s.deviceIdToDeviceMap.get id = some d := by
  unfold deviceValues
  rw [List.mem_filterMap]
  simp only [HashOrder.mem_iter, HashMap.mem_keySet_iff]
  constructor
  · rintro ⟨id, -, hd⟩
    exact ⟨id, hd⟩
  · rintro ⟨id, hd⟩
    exact ⟨id, ⟨d, hd⟩, hd⟩

/-- A loop over devices whose body moves the registry, and touches no other device. -/
theorem foldlM_devices {R : Registry → Registry → Prop} {f : Devices → Device → Option Devices}
    (hR : ∀ {r r'}, R r r' → r.Inv ports → r'.Inv ports)
    (hf : ∀ s d, s.registry.Inv ports → s.registry.device d.deviceKey = some d →
      ∃ s', f s d = some s' ∧ ReflTransGen R s.registry s'.registry ∧
        ∀ id ≠ d.deviceKey, s'.registry.device id = s.registry.device id) :
    ∀ (ds : List Device) (s : Devices), s.registry.Inv ports → (ds.map Device.deviceKey).Nodup →
      (∀ d ∈ ds, s.registry.device d.deviceKey = some d) →
      ∃ s', ds.foldlM f s = some s' ∧ ReflTransGen R s.registry s'.registry := by
  have hinv : ∀ {r r'}, ReflTransGen R r r' → r.Inv ports → r'.Inv ports := by
    intro r r' hr
    induction hr with
    | refl => exact fun h => h
    | tail _ hm ih => exact fun h => hR hm (ih h)
  intro ds
  induction ds with
  | nil => exact fun s _ _ _ => ⟨s, rfl, .refl⟩
  | cons d ds ih =>
    intro s h hnodup hds
    rw [List.map_cons, List.nodup_cons] at hnodup
    obtain ⟨s₁, hs₁, hm, hframe⟩ := hf s d h (hds d List.mem_cons_self)
    obtain ⟨s', hs', hm'⟩ := ih s₁ (hinv hm h) hnodup.2 (by
      intro d' hd'
      rw [hframe _ fun heq => hnodup.1 (heq ▸ List.mem_map_of_mem hd')]
      exact hds d' (List.mem_cons_of_mem _ hd'))
    refine ⟨s', ?_, hm.trans hm'⟩
    rw [List.foldlM_cons, hs₁]
    exact hs'

/-- Taking a device with all its entities out of the indices and out of the map. -/
theorem removeMapped_spec (h : s.registry.Inv ports) {d : Device} {k : IndexedEntity}
    (hd : s.registry.device d.deviceKey = some d) (hk : d.HasKey k) :
    ∃ s', (d.entities.foldl (fun s e => s.removeEntity e d.deviceKey []) s).removeDevice d.deviceKey d =
        (true, s') ∧ s'.registry = {
          device := Function.update s.registry.device d.deviceKey none
          primary := Function.update s.registry.primary k none
          filed := Function.update s.registry.filed k (setRemove (s.registry.filed k) d.deviceKey)
          kinds := s.registry.kinds
          counter := s.registry.counter } := by
  have hwf := h.wellFormed _ d hd
  have hrem := registry_removeEntities (s := s) d.entities (fun e he => hwf.indexed hk he) hwf.nonempty
    (h.indexed _ d k hd hk)
  generalize d.entities.foldl (fun s e => s.removeEntity e d.deviceKey []) s = s₁ at hrem ⊢
  have hd₁ : s₁.deviceIdToDeviceMap.get d.deviceKey = some d := by
    show s₁.registry.device d.deviceKey = some d
    rw [hrem]
    exact hd
  refine ⟨{ s₁ with deviceIdToDeviceMap := s₁.deviceIdToDeviceMap.remove d.deviceKey }, ?_, ?_⟩
  · unfold removeDevice
    rw [hd₁]
    simp [d.equals_self]
  · rw [registry_removeMapped, hrem]

/-- What the loop of `cleanupEntities` does for a device with key fields `k`: its entities that have not been
seen since the cutoff go, and if none is left the device goes too. -/
def cleanUp (cutoff : Int) (d : Device) (k : IndexedEntity) (r : Registry) : Registry :=
  let toKeep := d.entities.filter fun e => ¬e.lastSeenTimestamp < cutoff
  if toKeep = [] then {
    device := Function.update r.device d.deviceKey none
    primary := Function.update r.primary k none
    filed := Function.update r.filed k (setRemove (r.filed k) d.deviceKey)
    kinds := r.kinds
    counter := r.counter }
  else { r with device := Function.update r.device d.deviceKey (some { d with entities := toKeep }) }

/-- The loop of `cleanupEntities` for a device ends after at most two rounds. -/
theorem cleanupDevice_eq (h : s.registry.Inv ports) (cutoff : Int) {d : Device} {k : IndexedEntity}
    (hd : s.registry.device d.deviceKey = some d) (hk : d.HasKey k) :
    ∃ s', cleanupDevice ports cutoff 2 d s = some s' ∧ s'.registry = cleanUp cutoff d k s.registry := by
  have hwf := h.wellFormed _ d hd
  unfold cleanupDevice cleanUp
  dsimp only
  by_cases hrem : d.entities.filter (fun e => e.lastSeenTimestamp < cutoff) = []
  · -- all entities are kept
    have hall : d.entities.filter (fun e => ¬e.lastSeenTimestamp < cutoff) = d.entities := by
      rw [List.filter_eq_self]
      rw [List.filter_eq_nil_iff] at hrem
      intro e he
      simpa using hrem e he
    rw [if_pos hrem, hall, if_neg hwf.nonempty]
    exact ⟨s, rfl, Registry.ext (Function.update_eq_self_iff.2 hd.symm).symm rfl rfl rfl rfl⟩
  rw [if_neg hrem]
  by_cases hkeep : d.entities.filter (fun e => ¬e.lastSeenTimestamp < cutoff) = []
  · -- the device goes, and the second round finds no device
    have hall : d.entities.filter (fun e => e.lastSeenTimestamp < cutoff) = d.entities := by
      rw [List.filter_eq_self]
      rw [List.filter_eq_nil_iff] at hkeep
      intro e he
      simpa using hkeep e he
    rw [if_neg (not_not.2 hkeep), hkeep, hall, if_pos rfl]
    obtain ⟨s₁, hs₁, hreg⟩ := removeMapped_spec h hd hk
    have hgone := registry_removeEntities_gone (s := s₁) d.deviceKey d.entities
      (fun e he => hwf.indexed hk he) (by rw [hreg]; exact Function.update_self ..)
      (by rw [hreg]; exact fun h => (Registry.mem_unfile.1 h).2 ⟨rfl, rfl⟩)
    rw [hs₁]
    dsimp only
    unfold cleanupDevice
    dsimp only
    rw [if_neg hrem, if_neg (not_not.2 hkeep), hkeep, hall]
    generalize d.entities.foldl (fun s e => s.removeEntity e d.deviceKey []) s₁ = s₂ at hgone ⊢
    have hnone : s₂.deviceIdToDeviceMap.get d.deviceKey = none := by
      show s₂.registry.device d.deviceKey = none
      rw [hgone, hreg]
      exact Function.update_self ..
    have hremove : s₂.removeDevice d.deviceKey d = (false, s₂) := by
      unfold removeDevice
      rw [hnone]
    rw [hremove]
    dsimp only
    rw [hnone]
    exact ⟨s₂, rfl, hgone.trans hreg⟩
  · -- the device keeps some entities
    rw [if_pos hkeep, if_neg hkeep]
    have hsub : (d.entities.filter fun e => ¬e.lastSeenTimestamp < cutoff).Sublist d.entities :=
      List.filter_sublist
    have hneeded : ∀ e ∈ d.entities.filter (fun e => e.lastSeenTimestamp < cutoff),
        neededBy e (d.entities.filter fun e => ¬e.lastSeenTimestamp < cutoff) = true := by
      intro e he
      obtain ⟨o, ho⟩ := List.exists_mem_of_ne_nil _ hkeep
      unfold neededBy
      rw [List.any_eq_true]
      exact ⟨o, ho, decide_eq_true (hwf.same o (hsub.subset ho) e (List.mem_of_mem_filter he))⟩
    have hreg := registry_removeEntities_needed (s := s) d.deviceKey _ hneeded
    generalize (d.entities.filter fun e => e.lastSeenTimestamp < cutoff).foldl _ s = s₁ at hreg ⊢
    have hd₁ : s₁.deviceIdToDeviceMap.get d.deviceKey = some d := by
      show s₁.registry.device d.deviceKey = some d
      rw [hreg]
      exact hd
    rw [replaceDevice_self _ hd₁]
    refine ⟨_, rfl, ?_⟩
    rw [registry_putDevice, hreg, hwf.withEntities_eq hsub]

/-- The loop of `cleanupEntities` for a device keeps the indices in step, and touches no other device. -/
theorem cleanupDevice_spec (h : s.registry.Inv ports) (cutoff : Int) {d : Device}
    (hd : s.registry.device d.deviceKey = some d) :
    ∃ s', cleanupDevice ports cutoff 2 d s = some s' ∧
      ReflTransGen (Registry.Change ports) s.registry s'.registry ∧
      ∀ id ≠ d.deviceKey, s'.registry.device id = s.registry.device id := by
  have hwf := h.wellFormed _ d hd
  obtain ⟨k, hk⟩ := hwf.exists_hasKey
  obtain ⟨s', hs', hreg⟩ := cleanupDevice_eq h cutoff hd hk
  refine ⟨s', hs', ?_⟩
  unfold cleanUp at hreg
  dsimp only at hreg
  rw [hreg]
  split_ifs with hkeep
  · exact ⟨.single (.remove d.deviceKey d k hd hk), fun id hid => Function.update_of_ne hid ..⟩
  · have hsub : (d.entities.filter fun e => ¬e.lastSeenTimestamp < cutoff).Sublist d.entities :=
      List.filter_sublist
    have hkept := hwf.withEntities hsub hkeep
    rw [hwf.withEntities_eq hsub] at hkept
    refine ⟨.single (.replace d.deviceKey d _ hd rfl hkept fun k' => ⟨?_, fun hk' => ?_⟩),
      fun id hid => Function.update_of_ne hid ..⟩
    · rintro ⟨e, he, rfl⟩
      exact ⟨e, hsub.subset he, rfl⟩
    · obtain ⟨o, ho⟩ := List.exists_mem_of_ne_nil _ hkeep
      exact ⟨o, ho, hwf.indexed hk' (hsub.subset ho)⟩

theorem cleanupDevice_mono {cutoff : Int} {fuel fuel' : ℕ} {d : Device} (hle : fuel ≤ fuel')
    (h : cleanupDevice ports cutoff fuel d s = some s') :
    cleanupDevice ports cutoff fuel' d s = some s' := by
  induction fuel generalizing s d fuel' with
  | zero => cases h
  | succ fuel ih =>
    obtain ⟨fuel', rfl⟩ := Nat.exists_eq_add_of_le' (Nat.lt_of_lt_of_le (Nat.succ_pos fuel) hle)
    have hle := Nat.le_of_succ_le_succ hle
    unfold cleanupDevice at h ⊢
    dsimp only at h ⊢
    split_ifs at h ⊢
    · exact h
    · cases hr : replaceDevice _ d.deviceKey d _ with
      | mk ok s₁ =>
        rw [hr] at h
        cases ok with
        | true => exact h
        | false =>
          dsimp only at h ⊢
          cases hg : s₁.deviceIdToDeviceMap.get d.deviceKey with
          | none => rw [hg] at h; exact h
          | some d' => rw [hg] at h; exact ih hle h
    · cases hr : removeDevice _ d.deviceKey d with
      | mk ok s₁ =>
        rw [hr] at h
        cases ok with
        | true => exact ih hle h
        | false =>
          dsimp only at h ⊢
          cases hg : s₁.deviceIdToDeviceMap.get d.deviceKey with
          | none => rw [hg] at h; exact h
          | some d' => rw [hg] at h; exact ih hle h

theorem foldlM_mono {f g : Devices → Device → Option Devices}
    (hfg : ∀ s d s', f s d = some s' → g s d = some s') (ds : List Device)
    (h : ds.foldlM f s = some s') : ds.foldlM g s = some s' := by
  induction ds generalizing s with
  | nil => exact h
  | cons d ds ih =>
    rw [List.foldlM_cons] at h ⊢
    obtain ⟨s₁, hs₁, h⟩ := Option.bind_eq_some_iff.1 h
    exact Option.bind_eq_some_iff.2 ⟨s₁, hfg s d s₁ hs₁, ih h⟩

variable (ord) in
theorem cleanupEntities_spec (h : s.registry.Inv ports) (cutoff : Int) :
    ∃ s', s.cleanupEntities ord ports 2 cutoff = some s' ∧
      ReflTransGen (Registry.Change ports) s.registry s'.registry := by
  obtain ⟨hmem, hnodup⟩ := deviceValues_spec ord h
  exact foldlM_devices (fun hc hi => hi.change hc) (fun s d hi hd => cleanupDevice_spec hi cutoff hd)
    _ s h hnodup hmem

/-- Whenever `cleanupEntities` returns, it has changed the store as in `cleanupEntities_spec`. -/
theorem changes_of_cleanupEntities (h : s.registry.Inv ports) {fuel : ℕ} {cutoff : Int}
    (hs : s.cleanupEntities ord ports fuel cutoff = some s') :
    ReflTransGen (Registry.Change ports) s.registry s'.registry := by
  have hmono : ∀ {fuel fuel' : ℕ} {s₁}, fuel ≤ fuel' → s.cleanupEntities ord ports fuel cutoff =
      some s₁ → s.cleanupEntities ord ports fuel' cutoff = some s₁ := fun hle =>
    foldlM_mono (fun _ _ _ => cleanupDevice_mono hle) _
  obtain ⟨s₁, h₁, hc⟩ := cleanupEntities_spec ord h cutoff
  have h₂ := hmono (Nat.le_max_left fuel 2) hs
  rw [hmono (Nat.le_max_right fuel 2) h₁] at h₂
  cases h₂
  exact hc

/-! ## Attachment points -/

/-- The body of the loop of `deleteDevice` cleans the indices when the device goes. -/
theorem deleteFromSwitch_spec (h : s.registry.Inv ports) (datapathid : Dpid) {d : Device}
    (hd : s.registry.device d.deviceKey = some d) :
    ReflTransGen (Registry.Change ports) s.registry (deleteFromSwitch datapathid s d).registry ∧
      ∀ id ≠ d.deviceKey,
        (deleteFromSwitch datapathid s d).registry.device id = s.registry.device id := by
  have hwf := h.wellFormed _ d hd
  obtain ⟨k, hk⟩ := hwf.exists_hasKey
  have hsame := d.sameHost_deleteAttachmentPoint datapathid
  have hput := change_putDevice h hd rfl hwf (fun _ => Iff.rfl) hsame
  have hframe : ∀ id ≠ d.deviceKey,
      (s.putDevice d.deviceKey (d.deleteAttachmentPoint datapathid)).registry.device id =
        s.registry.device id := by
    intro id hid
    rw [registry_putDevice]
    exact Function.update_of_ne hid ..
  unfold deleteFromSwitch
  dsimp only
  split_ifs
  · have hd' : (s.putDevice d.deviceKey (d.deleteAttachmentPoint datapathid)).registry.device
        d.deviceKey = some (d.deleteAttachmentPoint datapathid) := by
      rw [registry_putDevice]
      exact Function.update_self ..
    have hk' := (hsame.hasKey k).2 hk
    obtain ⟨s', hs', hreg⟩ := removeMapped_spec (h.change hput) hd' hk'
    unfold deleteMapped
    dsimp only
    rw [hs']
    refine ⟨.tail (.single hput) ?_, fun id hid => ?_⟩
    · rw [hreg]
      exact .remove d.deviceKey _ k hd' hk'
    · rw [hreg]
      exact (Function.update_of_ne hid ..).trans (hframe id hid)
  · exact ⟨.single hput, hframe⟩

theorem deleteDevice_spec (h : s.registry.Inv ports) (datapathid : Dpid) :
    ReflTransGen (Registry.Change ports) s.registry
      (s.deleteDevice ord topology datapathid).registry := by
  obtain ⟨hmem, hnodup⟩ := deviceValues_spec ord h
  unfold deleteDevice
  dsimp only
  generalize hds : (s.deviceValues ord).filter _ = ds
  have hsub : ds.Sublist (s.deviceValues ord) := hds ▸ List.filter_sublist
  obtain ⟨s', hs', hc⟩ := foldlM_devices
    (f := fun s d => some (deleteFromSwitch datapathid s d)) (fun hc hi => hi.change hc)
    (fun s d hi hd => ⟨_, rfl, deleteFromSwitch_spec hi datapathid hd⟩) ds s h
    (hnodup.sublist (hsub.map _)) fun d hd => hmem d (hsub.subset hd)
  have hfold : ds.foldlM (fun s d => some (deleteFromSwitch datapathid s d)) s =
      some (ds.foldl (deleteFromSwitch datapathid) s) := List.foldlM_pure ..
  rw [hfold] at hs'
  cases hs'
  exact hc

end Cleanup

end Devices

end Torpedo
