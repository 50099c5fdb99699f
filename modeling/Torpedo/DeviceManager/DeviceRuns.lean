import Torpedo.DeviceManager.AttachmentPoints
import Torpedo.DeviceManager.DevicesInvariant

/-!
# Runs of the device store

Every operation returns and keeps the invariant of the registry. Over a run from the empty store
there is at most one device for a host, its entities are strictly sorted, and ids are not reused.
-/

namespace Torpedo

open Relation

namespace Devices

variable {ord : HashOrder} {ports : PortOrder} {topology : TopologyService} {s s' s'' : Devices}

/-! ## Updates of the attachment points -/

/-- All devices have a valid attachment point. -/
def AllAttached (s : Devices) (topology : TopologyService) : Prop :=
  ∀ id d, s.deviceIdToDeviceMap.get id = some d → d.Attached topology s.suppressedAPs

@[simp] theorem suppressedAPs_putDevice (s : Devices) (id : ℕ) (d : Device) :
    (s.putDevice id d).suppressedAPs = s.suppressedAPs := rfl

variable (ord topology) in
/-- The registry after the update of a device. -/
theorem registry_updateDevice (s : Devices) (d : Device) :
    (d.Attached topology s.suppressedAPs → (updateDevice ord topology s d).registry =
      { s.registry with
        device := Function.update s.registry.device d.deviceKey
          (some (d.updateAttachmentPoint₀ ord topology s.suppressedAPs).2) }) ∧
      (¬d.Attached topology s.suppressedAPs → (updateDevice ord topology s d).registry =
        { s.registry with device := Function.update s.registry.device d.deviceKey none }) := by
  have hlen : ((d.updateAttachmentPoint₀ ord topology s.suppressedAPs).2.getAttachmentPoints ord
      topology s.suppressedAPs).length = 0 ↔ ¬d.Attached topology s.suppressedAPs := by
    rw [List.length_eq_zero_iff, Device.getAttachmentPoints_eq_nil,
      Device.attached_updateAttachmentPoint₀]
  unfold updateDevice
  dsimp only
  rw [suppressedAPs_putDevice]
  constructor
  · intro ha
    rw [if_neg fun h => hlen.1 h ha, registry_putDevice]
  · intro ha
    rw [if_pos (hlen.2 ha)]
    refine (registry_removeMapped (s := s.putDevice ..) d.deviceKey).trans ?_
    rw [registry_putDevice]
    refine Registry.ext ?_ rfl rfl rfl rfl
    exact Function.update_idem ..

theorem suppressedAPs_updateDevice (s : Devices) (d : Device) :
    (updateDevice ord topology s d).suppressedAPs = s.suppressedAPs := by
  unfold updateDevice
  dsimp only
  split_ifs <;> rfl

variable (ord topology) in
theorem updateDevice_spec (h : s.registry.Inv ports) {d : Device}
    (hd : s.registry.device d.deviceKey = some d) :
    (d.Attached topology s.suppressedAPs →
      Registry.Change ports s.registry (updateDevice ord topology s d).registry) ∧
    Registry.Move ports s.registry (updateDevice ord topology s d).registry ∧
      ∀ id ≠ d.deviceKey,
        (updateDevice ord topology s d).registry.device id = s.registry.device id := by
  obtain ⟨hin, hout⟩ := registry_updateDevice ord topology s d
  have hsame := d.sameHost_updateAttachmentPoint₀ ord topology s.suppressedAPs
  have hchange : d.Attached topology s.suppressedAPs →
      Registry.Change ports s.registry (updateDevice ord topology s d).registry := by
    intro ha
    rw [hin ha]
    exact .replace d.deviceKey d _ hd hsame.1 (hsame.wellFormed (h.wellFormed _ d hd)) hsame.hasKey
  refine ⟨hchange, ?_, ?_⟩
  · by_cases ha : d.Attached topology s.suppressedAPs
    · exact .inl (hchange ha)
    · rw [hout ha]
      exact .inr (.drop d.deviceKey d hd)
  · intro id hid
    by_cases ha : d.Attached topology s.suppressedAPs
    · rw [hin ha]
      exact Function.update_of_ne hid ..
    · rw [hout ha]
      exact Function.update_of_ne hid ..

/-- `updateAttachmentPoints` changes the registry, and drops nothing if all devices are attached. -/
theorem updateAttachmentPoints_spec (h : s.registry.Inv ports) :
    ReflTransGen (Registry.Move ports) s.registry (s.updateAttachmentPoints ord topology).registry ∧
      (s.AllAttached topology → ReflTransGen (Registry.Change ports) s.registry
        (s.updateAttachmentPoints ord topology).registry) := by
  obtain ⟨hmem, hnodup⟩ := deviceValues_spec ord h
  have hall : s.AllAttached topology → ∀ d ∈ s.deviceValues ord,
      d.Attached topology s.suppressedAPs := fun hall d hd => hall _ d (hmem d hd)
  unfold updateAttachmentPoints
  generalize s.deviceValues ord = ds at hmem hnodup hall
  revert hall
  generalize s.AllAttached topology = attached
  intro hall
  induction ds generalizing s with
  | nil => exact ⟨.refl, fun _ => .refl⟩
  | cons d ds ih =>
    rw [List.map_cons, List.nodup_cons] at hnodup
    obtain ⟨hchange, hmove, hframe⟩ := updateDevice_spec ord topology h
      (hmem d List.mem_cons_self)
    have hmem' : ∀ d' ∈ ds, (updateDevice ord topology s d).registry.device d'.deviceKey =
        some d' := by
      intro d' hd'
      rw [hframe _ fun heq => hnodup.1 (heq ▸ List.mem_map_of_mem hd')]
      exact hmem d' (List.mem_cons_of_mem _ hd')
    obtain ⟨hmoves, hchanges⟩ := ih (h.move hmove) hmem' hnodup.2 (by
      intro ha d' hd'
      rw [suppressedAPs_updateDevice]
      exact hall ha d' (List.mem_cons_of_mem _ hd'))
    refine ⟨.head hmove hmoves, fun ha => .head (hchange (hall ha d List.mem_cons_self)) (hchanges ha)⟩

variable (ord topology) in
/-- The loop of `updateAttachmentPoints` leaves the primary index alone, and the devices that have no
valid attachment point are gone after it. -/
theorem foldl_updateDevice (ds : List Device) (hnodup : (ds.map Device.deviceKey).Nodup) :
    (ds.foldl (updateDevice ord topology) s).registry.primary = s.registry.primary ∧
      (∀ id ∉ ds.map Device.deviceKey,
        (ds.foldl (updateDevice ord topology) s).registry.device id = s.registry.device id) ∧
      ∀ d ∈ ds, ¬d.Attached topology s.suppressedAPs →
        (ds.foldl (updateDevice ord topology) s).registry.device d.deviceKey = none := by
  induction ds generalizing s with
  | nil => exact ⟨rfl, fun _ _ => rfl, fun _ h => nomatch h⟩
  | cons d ds ih =>
    rw [List.map_cons, List.nodup_cons] at hnodup
    obtain ⟨hp, hrest, hgone⟩ := ih (s := updateDevice ord topology s d) hnodup.2
    obtain ⟨hin, hout⟩ := registry_updateDevice ord topology s d
    have hp' : (updateDevice ord topology s d).registry.primary = s.registry.primary := by
      by_cases ha : d.Attached topology s.suppressedAPs
      · rw [hin ha]
      · rw [hout ha]
    refine ⟨hp.trans hp', ?_, ?_⟩
    · intro id hid
      rw [List.map_cons, List.mem_cons, not_or] at hid
      refine (hrest id hid.2).trans ?_
      by_cases ha : d.Attached topology s.suppressedAPs
      · rw [hin ha]
        exact Function.update_of_ne hid.1 ..
      · rw [hout ha]
        exact Function.update_of_ne hid.1 ..
    · intro d' hd' ha
      rcases List.mem_cons.1 hd' with rfl | hd'
      · refine (hrest _ hnodup.1).trans ?_
        rw [hout ha]
        exact Function.update_self ..
      · refine hgone d' hd' ?_
        rwa [suppressedAPs_updateDevice]

/-- A device without a valid attachment point leaves dangling references behind. -/
theorem allAttached_of_noDangling (h : s.registry.Inv ports)
    (hn : (s.updateAttachmentPoints ord topology).registry.NoDangling) : s.AllAttached topology := by
  obtain ⟨hmem, hnodup⟩ := deviceValues_spec ord h
  intro id d hd
  by_contra ha
  have hkey : d.deviceKey = id := h.key id d hd
  obtain ⟨hp, -, hgone⟩ := foldl_updateDevice ord topology (s := s) _ hnodup
  obtain ⟨k, hk⟩ := (h.wellFormed id d hd).exists_hasKey
  have hindex : (s.updateAttachmentPoints ord topology).registry.primary k = some id := by
    unfold updateAttachmentPoints
    rw [hp]
    exact h.indexed id d k hd hk
  obtain ⟨d', hd'⟩ := hn k id (.inl hindex)
  have hnone := hgone d (mem_deviceValues.2 ⟨id, hd⟩) ha
  rw [hkey] at hnone
  exact nomatch hd'.symm.trans hnone

/-! ## Steps -/

theorem Step.moves (h : s.registry.Inv ports) {op : Op} (hs : Step ord ports s op s') :
    ReflTransGen (Registry.Move ports) s.registry s'.registry := by
  cases hs with
  | learnDeviceByEntity topology entity fuel device _ hs =>
    exact Registry.Change.moves (changes_of_learnDeviceByEntity h hs)
  | cleanupEntities cutoff fuel _ hs => exact Registry.Change.moves (changes_of_cleanupEntities h hs)
  | updateAttachmentPoints topology => exact (updateAttachmentPoints_spec h).1
  | deleteDevice topology datapathid => exact Registry.Change.moves (deleteDevice_spec h datapathid)
  | addSuppressAPs => exact .refl
  | removeSuppressAPs => exact .refl

variable (ord) in
/-- Every operation returns. -/
theorem exists_step (h : s.registry.Inv ports) (op : Op) : ∃ s', Step ord ports s op s' := by
  cases op with
  | learnDeviceByEntity topology entity =>
    obtain ⟨device, s', hs, -⟩ := learnDeviceByEntity_spec ord topology entity h
    exact ⟨s', .learnDeviceByEntity topology entity 2 device s' hs⟩
  | cleanupEntities cutoff =>
    obtain ⟨s', hs, -⟩ := cleanupEntities_spec ord h cutoff
    exact ⟨s', .cleanupEntities cutoff 2 s' hs⟩
  | updateAttachmentPoints topology => exact ⟨_, .updateAttachmentPoints topology⟩
  | deleteDevice topology datapathid => exact ⟨_, .deleteDevice topology datapathid⟩
  | addSuppressAPs swId port => exact ⟨_, .addSuppressAPs swId port⟩
  | removeSuppressAPs swId port => exact ⟨_, .removeSuppressAPs swId port⟩

/-! ## Runs -/

theorem Run.moves {ops : List Op} (hr : Run ord ports s ops s') (h : s.registry.Inv ports) :
    ReflTransGen (Registry.Move ports) s.registry s'.registry := by
  induction hr with
  | nil => exact .refl
  | cons hs _ ih => exact (hs.moves h).trans (ih (h.moves (hs.moves h)))

theorem Run.inv {ops : List Op} (hr : Run ord ports new ops s) : s.registry.Inv ports :=
  Registry.inv_empty.moves (hr.moves Registry.inv_empty)

theorem exists_run (h : s.registry.Inv ports) (ops : List Op) : ∃ s', Run ord ports s ops s' := by
  induction ops generalizing s with
  | nil => exact ⟨s, .nil s⟩
  | cons op ops ih =>
    obtain ⟨s₁, hs⟩ := exists_step ord h op
    obtain ⟨s', hr⟩ := ih (h.moves (hs.moves h))
    exact ⟨s', .cons hs hr⟩

theorem Run.append {ops ops' : List Op} (h : Run ord ports s ops s') (h' : Run ord ports s' ops' s'') :
    Run ord ports s (ops ++ ops') s'' := by
  induction h with
  | nil => exact h'
  | cons hs _ ih => exact .cons hs (ih h')

/-- An operation, run: two rounds are enough for each loop. -/
def exec (ord : HashOrder) (ports : PortOrder) (s : Devices) (op : Op) : Option Devices :=
  match op with
  | .learnDeviceByEntity topology entity =>
    (s.learnDeviceByEntity ord ports topology 2 entity).map Prod.snd
  | .cleanupEntities cutoff => s.cleanupEntities ord ports 2 cutoff
  | .updateAttachmentPoints topology => some (s.updateAttachmentPoints ord topology)
  | .deleteDevice topology datapathid => some (s.deleteDevice ord topology datapathid)
  | .addSuppressAPs swId port => some { s with suppressedAPs := setAdd s.suppressedAPs ⟨swId, port⟩ }
  | .removeSuppressAPs swId port =>
    some { s with suppressedAPs := setRemove s.suppressedAPs ⟨swId, port⟩ }

theorem step_of_exec {op : Op} (h : s.exec ord ports op = some s') : Step ord ports s op s' := by
  cases op with
  | learnDeviceByEntity topology entity =>
    obtain ⟨⟨device, s₁⟩, hs, rfl⟩ := Option.map_eq_some_iff.1 h
    exact .learnDeviceByEntity topology entity 2 device s₁ hs
  | cleanupEntities cutoff => exact .cleanupEntities cutoff 2 s' h
  | updateAttachmentPoints topology => cases h; exact .updateAttachmentPoints topology
  | deleteDevice topology datapathid => cases h; exact .deleteDevice topology datapathid
  | addSuppressAPs swId port => cases h; exact .addSuppressAPs swId port
  | removeSuppressAPs swId port => cases h; exact .removeSuppressAPs swId port

theorem run_of_exec {ops : List Op} (h : ops.foldlM (exec ord ports) s = some s') :
    Run ord ports s ops s' := by
  induction ops generalizing s with
  | nil => cases h; exact .nil _
  | cons op ops ih =>
    rw [List.foldlM_cons] at h
    obtain ⟨s₁, hs, h⟩ := Option.bind_eq_some_iff.1 h
    exact .cons (step_of_exec hs) (ih h)

/-- What the store keeps of its hosts: one device for each MAC address and VLAN, with its entities in
the order that `entityIndex` searches, under an id that was drawn from the counter. -/
structure HostsKept (ports : PortOrder) (s : Devices) : Prop where
  unique : ∀ id d id' d', s.deviceIdToDeviceMap.get id = some d →
    s.deviceIdToDeviceMap.get id' = some d' → ∀ e ∈ d.entities, ∀ e' ∈ d'.entities,
    e.macAddress = e'.macAddress → e.vlan = e'.vlan → id = id'
  same : ∀ id d, s.deviceIdToDeviceMap.get id = some d → ∀ e ∈ d.entities, ∀ e' ∈ d.entities,
    e.macAddress = e'.macAddress ∧ e.vlan = e'.vlan
  sorted : ∀ id d, s.deviceIdToDeviceMap.get id = some d →
    d.entities.Pairwise fun e e' => Entity.compareTo ports e e' = .lt
  entityIndex : ∀ id d, s.deviceIdToDeviceMap.get id = some d → ∀ e,
    0 ≤ entityIndex ports d.entities e ↔ ∃ e' ∈ d.entities, e'.equals e = true
  ids : ∀ id d, s.deviceIdToDeviceMap.get id = some d → d.deviceKey = id ∧ id < s.deviceKeyCounter

/-- No id is given to a second device: an id that was drawn stays with the device of its host, and is
free forever when that device is gone. -/
def IdsNotReused (s s' : Devices) : Prop :=
  s.deviceKeyCounter ≤ s'.deviceKeyCounter ∧
    ∀ id < s.deviceKeyCounter, ∀ d', s'.deviceIdToDeviceMap.get id = some d' →
      ∃ d, s.deviceIdToDeviceMap.get id = some d ∧ ∀ e ∈ d.entities, ∀ e' ∈ d'.entities,
        e.macAddress = e'.macAddress ∧ e.vlan = e'.vlan

theorem hostsKept_of_inv (h : s.registry.Inv ports) : s.HostsKept ports where
  unique id d id' d' hd hd' e he e' he' hmac hvlan := by
    refine h.unique (k := e.indexed) hd hd' ⟨e, he, rfl⟩ ⟨e', he', ?_⟩
    unfold Entity.indexed
    rw [hmac, hvlan]
  same id d hd e he e' he' := by
    have heq := (h.wellFormed id d hd).same e he e' he'
    unfold Entity.indexed at heq
    exact ⟨congrArg IndexedEntity.macAddress heq, congrArg IndexedEntity.vlan heq⟩
  sorted id d hd := (h.wellFormed id d hd).sorted
  entityIndex id d hd e := entityIndex_nonneg_iff (h.wellFormed id d hd).sorted
  ids id d hd := ⟨h.key id d hd, h.lt id d hd⟩

theorem idsNotReused_of_follows (h : s.registry.Inv ports)
    (hf : Registry.Follows s.registry s'.registry) : IdsNotReused s s' := by
  refine ⟨hf.counter, fun id hid d' hd' => ?_⟩
  obtain ⟨d, hd, hk⟩ := hf.device id d' hd' hid
  refine ⟨d, hd, fun e he e' he' => ?_⟩
  have heq := (h.wellFormed id d hd).hasKey_unique ⟨e, he, rfl⟩ ((hk e'.indexed).1 ⟨e', he', rfl⟩)
  unfold Entity.indexed at heq
  exact ⟨congrArg IndexedEntity.macAddress heq, congrArg IndexedEntity.vlan heq⟩

/-- Every sequence of operations can be run from the empty store, and in every run the store keeps
its hosts and reuses no id. -/
theorem run_hostsKept (ord : HashOrder) (ports : PortOrder) (ops : List Op) :
    (∃ s, Run ord ports new ops s) ∧
      ∀ s, Run ord ports new ops s → s.HostsKept ports ∧
        ∀ ops' s', Run ord ports s ops' s' → IdsNotReused s s' := by
  refine ⟨exists_run Registry.inv_empty ops, fun s hr => ⟨hostsKept_of_inv hr.inv, ?_⟩⟩
  exact fun ops' s' hr' => idsNotReused_of_follows hr.inv
    (Registry.follows_of_moves (hr'.moves hr.inv))

end Devices

end Torpedo
