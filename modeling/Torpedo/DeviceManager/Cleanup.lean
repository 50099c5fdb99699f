import Torpedo.DeviceManager.DeviceRuns

/-!
# Cleaning up

`cleanupEntities` removes the entities that have not been seen since a cutoff, and the devices that have no
other. It takes the id of a device out of the indices when the device goes. Where the indices refer to an id
without a device under the same key fields, which only `updateAttachmentPoints` leaves there, that reference
stays.
-/

namespace Torpedo

/-- What is left of a device when the entities go that have not been seen since the cutoff. -/
def Device.cleaned (cutoff : Int) (d : Device) : Option Device :=
  if ∀ e ∈ d.entities, e.lastSeenTimestamp < cutoff then none
  else some { d with entities := d.entities.filter fun e => ¬e.lastSeenTimestamp < cutoff }

namespace Devices

section

variable {ord : HashOrder} {ports : PortOrder} {s s' : Devices} {cutoff : Int} {d : Device} {k : IndexedEntity}

theorem cleaned_eq_none : d.cleaned cutoff = none ↔ ∀ e ∈ d.entities, e.lastSeenTimestamp < cutoff := by
  unfold Device.cleaned
  split_ifs with h
  · exact iff_of_true rfl h
  · exact iff_of_false nofun h

theorem filter_eq_nil_iff : d.entities.filter (fun e => ¬e.lastSeenTimestamp < cutoff) = [] ↔
    ∀ e ∈ d.entities, e.lastSeenTimestamp < cutoff := by
  rw [List.filter_eq_nil_iff]
  simp

/-- The devices of the list are cleaned, and the indices refer no longer to those that go. -/
structure CleansUp (cutoff : Int) (ds : List Device) (r r' : Registry) : Prop where
  device : ∀ id, r'.device id =
    if id ∈ ds.map Device.deviceKey then (r.device id).bind (Device.cleaned cutoff) else r.device id
  primary : ∀ k id, r'.primary k = some id ↔
    r.primary k = some id ∧ ∀ d ∈ ds, d.HasKey k → d.cleaned cutoff ≠ none
  filed : ∀ k id, id ∈ r'.filed k ↔
    id ∈ r.filed k ∧ ∀ d ∈ ds, d.HasKey k → d.deviceKey = id → d.cleaned cutoff ≠ none

theorem cleansUp_cleanUp {r : Registry} (h : r.Inv ports) (hd : r.device d.deviceKey = some d)
    (hk : d.HasKey k) : CleansUp cutoff [d] r (cleanUp cutoff d k r) := by
  have hwf := h.wellFormed _ d hd
  unfold cleanUp
  dsimp only
  split_ifs with hnil
  · have hgone : d.cleaned cutoff = none := cleaned_eq_none.2 (filter_eq_nil_iff.1 hnil)
    constructor
    · intro id
      simp only [List.map_singleton, List.mem_singleton]
      split_ifs with hid
      · rw [hid, hd, Function.update_self]
        exact hgone.symm
      · exact Function.update_of_ne hid ..
    · intro k' id
      simp only [List.forall_mem_singleton, hgone, ne_eq, not_true, imp_false]
      rw [Function.update_apply]
      split_ifs with hk'
      · exact iff_of_false nofun fun h => h.2 (hk' ▸ hk)
      · exact (and_iff_left fun hk'' => hk' (hwf.hasKey_unique hk'' hk)).symm
    · intro k' id
      simp only [List.forall_mem_singleton, hgone, ne_eq, not_true, imp_false]
      rw [Registry.mem_unfile]
      refine and_congr_right fun _ => ?_
      constructor
      · intro hne hk' hid
        exact hne ⟨hwf.hasKey_unique hk' hk, hid.symm⟩
      · rintro hne ⟨rfl, rfl⟩
        exact hne hk rfl
  · have hcleaned : d.cleaned cutoff =
        some { d with entities := d.entities.filter fun e => ¬e.lastSeenTimestamp < cutoff } := by
      unfold Device.cleaned
      rw [if_neg fun hall => hnil (filter_eq_nil_iff.2 hall)]
    constructor
    · intro id
      simp only [List.map_singleton, List.mem_singleton]
      split_ifs with hid
      · rw [hid, hd, Function.update_self]
        exact hcleaned.symm
      · exact Function.update_of_ne hid ..
    · intro k' id
      simp [hcleaned]
    · intro k' id
      simp [hcleaned]

/-- The loop over the devices cleans one after the other. -/
theorem cleansUp_loop (cutoff : Int) : ∀ (ds : List Device) (s : Devices), s.registry.Inv ports →
    (ds.map Device.deviceKey).Nodup → (∀ d ∈ ds, s.registry.device d.deviceKey = some d) →
    ∃ s', ds.foldlM (fun s d => cleanupDevice ports cutoff 2 d s) s = some s' ∧
      CleansUp cutoff ds s.registry s'.registry := by
  intro ds
  induction ds with
  | nil => exact fun s _ _ _ => ⟨s, rfl, by simp, by simp, by simp⟩
  | cons d ds ih =>
    intro s h hnodup hds
    obtain ⟨hnot, hnodup⟩ := List.nodup_cons.1 hnodup
    have hd := hds d List.mem_cons_self
    obtain ⟨k, hk⟩ := (h.wellFormed _ d hd).exists_hasKey
    obtain ⟨s₁, hs₁, hchange, hframe⟩ := cleanupDevice_spec h cutoff hd
    obtain ⟨s₁', hs₁', hreg⟩ := cleanupDevice_eq h cutoff hd hk
    obtain rfl : s₁ = s₁' := Option.some.inj (hs₁.symm.trans hs₁')
    have hstep : CleansUp cutoff [d] s.registry s₁.registry := hreg ▸ cleansUp_cleanUp h hd hk
    obtain ⟨s', hs', hrest⟩ := ih s₁ (h.moves (Registry.Change.moves hchange)) hnodup fun d' hd' => by
      rw [hframe _ fun heq => hnot (heq ▸ List.mem_map_of_mem hd')]
      exact hds d' (List.mem_cons_of_mem _ hd')
    refine ⟨s', ?_, fun id => ?_, fun k id => ?_, fun k id => ?_⟩
    · rw [List.foldlM_cons, hs₁]
      exact hs'
    · rw [hrest.device, hstep.device]
      by_cases hid : id = d.deviceKey
      · simp [hid, hnot]
      · simp [hid]
    · rw [hrest.primary, hstep.primary]
      simp only [List.forall_mem_singleton, List.forall_mem_cons, and_assoc]
    · rw [hrest.filed, hstep.filed]
      simp only [List.forall_mem_singleton, List.forall_mem_cons, and_assoc]

/-- `cleanupEntities` returns, and cleans all devices. -/
theorem cleansUp_cleanupEntities (ord : HashOrder) (h : s.registry.Inv ports) (cutoff : Int) :
    ∃ s', (∀ fuel, 2 ≤ fuel → s.cleanupEntities ord ports fuel cutoff = some s') ∧
      CleansUp cutoff (s.deviceValues ord) s.registry s'.registry := by
  obtain ⟨hmem, hnodup⟩ := deviceValues_spec ord h
  obtain ⟨s', hs', hclean⟩ := cleansUp_loop cutoff _ s h hnodup hmem
  refine ⟨s', fun fuel hfuel => ?_, hclean⟩
  exact foldlM_mono (fun _ _ _ => cleanupDevice_mono hfuel) _ hs'

end

/-! ## What is removed -/

/-- The stale entities are gone, with the devices that had no other, and all else is as it was. -/
def EntitiesCleaned (cutoff : Int) (s s' : Devices) : Prop :=
  ∀ id, s'.deviceIdToDeviceMap.get id = (s.deviceIdToDeviceMap.get id).bind (Device.cleaned cutoff)

/-- No index refers to a device from the key fields of an entity that is removed, unless an entity is left that
has them. -/
def IndicesCleaned (cutoff : Int) (s s' : Devices) : Prop :=
  ∀ id d, s.deviceIdToDeviceMap.get id = some d → ∀ e ∈ d.entities, e.lastSeenTimestamp < cutoff →
    (∃ id' d', s'.deviceIdToDeviceMap.get id' = some d' ∧ d'.HasKey e.indexed) ∨
      ∀ i, ¬s'.registry.Refers e.indexed i

/-- From the key fields of a device that goes, no index refers to an id without a device. -/
def NoneDangles (cutoff : Int) (s : Devices) : Prop :=
  ∀ id d, s.deviceIdToDeviceMap.get id = some d → (∀ e ∈ d.entities, e.lastSeenTimestamp < cutoff) →
    ∀ e ∈ d.entities, ∀ i, s.registry.Refers e.indexed i → (s.deviceIdToDeviceMap.get i).isSome

section

variable {ord : HashOrder} {ports : PortOrder} {s s' : Devices} {cutoff : Int}

theorem entitiesCleaned (h : CleansUp cutoff (s.deviceValues ord) s.registry s'.registry)
    (hinv : s.registry.Inv ports) : EntitiesCleaned cutoff s s' := by
  intro id
  refine (h.device id).trans ?_
  split_ifs with hid
  · rfl
  · have hnone : s.deviceIdToDeviceMap.get id = none := by
      by_contra hne
      obtain ⟨d, hd⟩ := Option.ne_none_iff_exists'.1 hne
      exact hid (List.mem_map.2 ⟨d, mem_deviceValues.2 ⟨id, hd⟩, hinv.key id d hd⟩)
    show s.deviceIdToDeviceMap.get id = (s.deviceIdToDeviceMap.get id).bind _
    rw [hnone]
    rfl

/-- An id that the indices still refer to from the key fields of a device that went is without a device. -/
theorem refers_iff (h : CleansUp cutoff (s.deviceValues ord) s.registry s'.registry)
    (hinv : s.registry.Inv ports) {id : ℕ} {d : Device} {k : IndexedEntity} (hd : s.registry.device id = some d)
    (hgone : d.cleaned cutoff = none) (hk : d.HasKey k) (i : ℕ) :
    s'.registry.Refers k i ↔ s.registry.Refers k i ∧ s.registry.device i = none := by
  have hmem : d ∈ s.deviceValues ord := mem_deviceValues.2 ⟨id, hd⟩
  have hkey : d.deviceKey = id := hinv.key id d hd
  have hprimary : s'.registry.primary k ≠ some i := fun hp => ((h.primary k i).1 hp).2 d hmem hk hgone
  have hindexed : s.registry.primary k = some id := hinv.indexed id d k hd hk
  unfold Registry.Refers
  rw [or_iff_right hprimary, h.filed]
  constructor
  · rintro ⟨hfiled, hall⟩
    refine ⟨.inr hfiled, ?_⟩
    by_contra hne
    obtain ⟨d', hd'⟩ := Option.ne_none_iff_exists'.1 hne
    have hi : i = id := hinv.unique hd' hd (hinv.owner k i d' (.inr hfiled) hd') hk
    exact hall d hmem hk (hkey.trans hi.symm) hgone
  · rintro ⟨hp | hfiled, hnone⟩
    · obtain rfl := Option.some.inj (hp.symm.trans hindexed)
      exact nomatch hnone.symm.trans hd
    · refine ⟨hfiled, fun d' hd' _ hi => ?_⟩
      obtain ⟨i', hi'⟩ := mem_deviceValues.1 hd'
      obtain rfl : i' = i := (hinv.key i' d' hi').symm.trans hi
      exact nomatch hnone.symm.trans hi'

theorem indicesCleaned_iff (h : CleansUp cutoff (s.deviceValues ord) s.registry s'.registry)
    (hinv : s.registry.Inv ports) : IndicesCleaned cutoff s s' ↔ NoneDangles cutoff s := by
  have hcleaned := entitiesCleaned h hinv
  constructor
  · intro hindices id d hd hall e he i hrefers
    rw [Option.isSome_iff_ne_none]
    intro hnone
    have hk : d.HasKey e.indexed := ⟨e, he, rfl⟩
    have hgone : d.cleaned cutoff = none := cleaned_eq_none.2 hall
    obtain ⟨id', d', hd', hk'⟩ | hnot := hindices id d hd e he (hall e he)
    · -- an entity that is left would belong to the device that is gone
      rw [hcleaned] at hd'
      obtain ⟨d₀, hd₀, hclean⟩ := Option.bind_eq_some_iff.1 hd'
      have hk₀ : d₀.HasKey e.indexed := by
        unfold Device.cleaned at hclean
        split_ifs at hclean
        obtain rfl := Option.some.inj hclean
        obtain ⟨o, ho, hindexed⟩ := hk'
        exact ⟨o, List.mem_of_mem_filter ho, hindexed⟩
      obtain rfl := hinv.unique hd₀ hd hk₀ hk
      obtain rfl := Option.some.inj (hd₀.symm.trans hd)
      exact nomatch hgone.symm.trans hclean
    · exact hnot i ((refers_iff h hinv hd hgone hk i).2 ⟨hrefers, hnone⟩)
  · intro hnone id d hd e he _
    have hk : d.HasKey e.indexed := ⟨e, he, rfl⟩
    cases hclean : d.cleaned cutoff with
    | none =>
      right
      intro i hrefers
      obtain ⟨hrefers, hi⟩ := (refers_iff h hinv hd hclean hk i).1 hrefers
      have hsome := hnone id d hd (cleaned_eq_none.1 hclean) e he i hrefers
      rw [show s.deviceIdToDeviceMap.get i = none from hi] at hsome
      cases hsome
    | some d' =>
      left
      refine ⟨id, d', ?_, ?_⟩
      · rw [hcleaned, hd]
        exact hclean
      · unfold Device.cleaned at hclean
        split_ifs at hclean with hall
        obtain rfl := Option.some.inj hclean
        push Not at hall
        obtain ⟨o, ho, hfresh⟩ := hall
        refine ⟨o, List.mem_filter.2 ⟨ho, by simpa using hfresh⟩, ?_⟩
        exact (hinv.wellFormed id d hd).indexed hk ho

end

/-- In every store that a run reaches `cleanupEntities` returns, removes exactly the stale entities and the
devices that had no other, and leaves all else. It leaves no index entry for the key fields of an entity that
it removed, unless another entity has them, if and only if the indices refer to no id without a device from the
key fields of a device that goes. -/
theorem cleanupEntities_iff (ord : HashOrder) (ports : PortOrder) (ops : List Op) (s : Devices)
    (hr : Run ord ports new ops s) (cutoff : Int) :
    ∃ s', (∀ fuel, 2 ≤ fuel → s.cleanupEntities ord ports fuel cutoff = some s') ∧
      EntitiesCleaned cutoff s s' ∧ (IndicesCleaned cutoff s s' ↔ NoneDangles cutoff s) := by
  obtain ⟨s', hs', hclean⟩ := cleansUp_cleanupEntities ord hr.inv cutoff
  exact ⟨s', hs', entitiesCleaned hclean hr.inv, indicesCleaned_iff hclean hr.inv⟩

/-- A host whose port turned out to lead to a switch, and that is seen again at another port. -/
def seenAgain : Devices :=
  (List.foldlM (exec .insertion .unsigned) new
    [.learnDeviceByEntity (islands []) (.new 7 none none (some 1) (some 1) 0),
      .updateAttachmentPoints (islands [⟨1, 1⟩]),
      .learnDeviceByEntity (islands [⟨1, 1⟩]) (.new 7 none none (some 2) (some 1) 0)]).get (by decide)

theorem cleanupEntities_iff_seenAgain :
    ∃ s', (∀ fuel, 2 ≤ fuel → seenAgain.cleanupEntities .insertion .unsigned fuel 10 = some s') ∧
      EntitiesCleaned 10 seenAgain s' ∧ (IndicesCleaned 10 seenAgain s' ↔ NoneDangles 10 seenAgain) :=
  cleanupEntities_iff .insertion .unsigned _ seenAgain (run_of_exec (Option.some_get _).symm) 10

/-- The id that the host had first is still filed under its key fields when the host is gone. -/
theorem not_indicesCleaned : ¬∀ (ord : HashOrder) (ports : PortOrder) (ops : List Op) (s : Devices),
    Run ord ports new ops s → ∀ cutoff fuel s', s.cleanupEntities ord ports fuel cutoff = some s' →
      IndicesCleaned cutoff s s' := by
  intro h
  have hrun : Run .insertion .unsigned new _ seenAgain := run_of_exec (Option.some_get _).symm
  obtain ⟨s', hs', hclean⟩ := cleansUp_cleanupEntities .insertion hrun.inv 10
  have hnone := (indicesCleaned_iff hclean hrun.inv).1 (h _ _ _ _ hrun 10 2 s' (hs' 2 le_rfl))
  obtain ⟨d, hd, hall, e, he, hindexed⟩ : ∃ d, seenAgain.deviceIdToDeviceMap.get 1 = some d ∧
      (∀ e ∈ d.entities, e.lastSeenTimestamp < 10) ∧ ∃ e ∈ d.entities, e.indexed = ⟨7, none⟩ :=
    ⟨_, (Option.some_get (by decide)).symm, by decide, by decide⟩
  have hfiled : 0 ∈ seenAgain.registry.filed ⟨7, none⟩ := by decide
  have hsome := hnone 1 d hd hall e he 0 (hindexed ▸ .inr hfiled)
  exact absurd hsome (by decide)

end Devices

end Torpedo
