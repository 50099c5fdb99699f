import Torpedo.DeviceManager.DeviceRuns

/-!
# Traces of hosts

All that the store holds of a host was seen of it: its entities are entities that were learned, and its attachment
points, the old ones too, are switch ports where one of its entities was learned. A host that was learned stays as
long as nothing but further sightings comes in.
-/

namespace Torpedo

/-! ## Places of a device -/

namespace Device

/-- The attachment points of the device, also the old ones, are at switch ports of this kind. -/
structure Places (Q : Dpid → OFPort → Prop) (d : Device) : Prop where
  current : ∀ ap ∈ d.attachmentPoints, Q ap.sw ap.port
  old : ∀ ap ∈ d.oldAPs, Q ap.sw ap.port

section Places

variable {Q : Dpid → OFPort → Prop} {d : Device} {ord : HashOrder} {topology : TopologyService}
  {suppressedAPs : List SwitchPort} {sw : Dpid} {port : OFPort}

theorem Places.setLastSeen (h : d.Places Q) (ref : ℕ) (t : Int) : (d.setLastSeen ref t).Places Q := by
  have hset : ∀ aps : List AttachmentPoint, (∀ ap ∈ aps, Q ap.sw ap.port) →
      ∀ ap ∈ aps.map (fun ap => if ap.ref = ref then ap.setLastSeen t else ap), Q ap.sw ap.port := by
    intro aps haps ap hap
    obtain ⟨ap', hap', rfl⟩ := List.mem_map.1 hap
    split_ifs
    · exact haps ap' hap'
    · exact haps ap' hap'
  exact ⟨hset _ h.current, hset _ h.old⟩

theorem Places.takeOldAP (h : d.Places Q) (hQ : Q sw port) (t : Int) :
    Q (d.takeOldAP sw port t).1.sw (d.takeOldAP sw port t).1.port ∧ (d.takeOldAP sw port t).2.2.Places Q := by
  unfold Device.takeOldAP
  dsimp only
  cases hfind : d.oldAPs.find? (·.equals ⟨d.nextRef, sw, port, t, t⟩) with
  | none => exact ⟨hQ, h.current, h.old⟩
  | some tmp =>
    have herased : ({ d with oldAPs := d.oldAPs.eraseP (·.equals ⟨d.nextRef, sw, port, t, t⟩) } : Device).Places Q :=
      ⟨h.current, fun ap hap => h.old ap (List.mem_of_mem_eraseP hap)⟩
    exact ⟨h.old tmp (List.mem_of_find?_eq_some hfind), herased.setLastSeen _ _⟩

theorem mem_of_mem_apValues {aps : List AttachmentPoint} {ap : AttachmentPoint}
    (h : ap ∈ apValues ord (getAPMap topology suppressedAPs aps)) : ap ∈ aps := by
  obtain ⟨dom, hdom⟩ := mem_apValues.1 h
  exact (mem_of_get_getAPMap hdom).1

/-- A sighting adds the place where it was at most. -/
theorem Places.updateAttachmentPoint (h : d.Places Q) (hQ : Q sw port) (t : Int) :
    (d.updateAttachmentPoint ord topology suppressedAPs sw port t).2.Places Q := by
  have htaken := h.takeOldAP hQ t
  unfold Device.updateAttachmentPoint
  split_ifs
  · exact h
  · generalize d.takeOldAP sw port t = taken at htaken ⊢
    obtain ⟨newAP, oldAPFlag, d'⟩ := taken
    obtain ⟨hnew, h'⟩ := htaken
    have hvalues : ∀ ap ∈ apValues ord (getAPMap topology suppressedAPs d'.attachmentPoints), Q ap.sw ap.port :=
      fun ap hap => h'.current ap (mem_of_mem_apValues hap)
    have hretained : ∀ aps : List AttachmentPoint, (∀ ap ∈ aps, Q ap.sw ap.port) →
        ∀ c, ∀ ap ∈ retainAll aps c, Q ap.sw ap.port := fun aps haps c ap hap => haps ap (mem_retainAll.1 hap).1
    have hadded : ∀ aps : List AttachmentPoint, (∀ ap ∈ aps, Q ap.sw ap.port) →
        ∀ ap ∈ addIfAbsent aps newAP, Q ap.sw ap.port := by
      intro aps haps ap hap
      rcases mem_addIfAbsent hap with hap | rfl
      · exact haps ap hap
      · exact hnew
    have happended : ∀ aps : List AttachmentPoint, (∀ ap ∈ aps, Q ap.sw ap.port) → ∀ last : AttachmentPoint,
        Q last.sw last.port → ∀ ap ∈ aps ++ [last], Q ap.sw ap.port := by
      intro aps haps last hlast ap hap
      rcases List.mem_append.1 hap with hap | hap
      · exact haps ap hap
      · rw [List.mem_singleton.1 hap]
        exact hlast
    dsimp only
    by_cases hnil : (getAPMap topology suppressedAPs d'.attachmentPoints).keySet = []
    · rw [if_pos hnil]
      exact ⟨happended _ h'.current newAP hnew, h'.old⟩
    rw [if_neg hnil]
    cases hold : (getAPMap topology suppressedAPs d'.attachmentPoints).get (topology.getL2DomainId sw) with
    | none =>
      refine ⟨hadded _ fun ap hap => ?_, h'.old⟩
      exact (mem_addAllAbsent _ hap).elim (fun hnone => absurd hnone List.not_mem_nil) (hvalues ap)
    | some oldAP =>
      have hplace := h'.current oldAP (mem_of_get_getAPMap hold).1
      dsimp only
      split_ifs
      · have hseen := h'.setLastSeen oldAP.ref newAP.lastSeen
        exact ⟨hretained _ hseen.current _, hseen.old⟩
      · exact ⟨hretained _ h'.current _, h'.old⟩
      · exact ⟨hadded _ (hretained _ h'.current _), happended _ h'.old oldAP hplace⟩
      · exact ⟨h'.current, happended _ h'.old newAP hnew⟩
      · exact h'

theorem Places.updateAttachmentPoint₀ (h : d.Places Q) :
    (d.updateAttachmentPoint₀ ord topology suppressedAPs).2.Places Q := by
  unfold Device.updateAttachmentPoint₀
  split_ifs
  · exact h
  · dsimp only
    split_ifs
    · refine ⟨fun ap hap => ?_, fun ap hap => absurd hap List.not_mem_nil⟩
      rcases mem_addAllAbsent _ hap with hap | hap
      · exact h.current ap (mem_retainAll.1 hap).1
      · exact h.current ap (mem_of_mem_apValues hap)
    · exact ⟨h.current, fun ap hap => absurd hap List.not_mem_nil⟩

theorem Places.deleteAttachmentPoint (h : d.Places Q) (sw : Dpid) : (d.deleteAttachmentPoint sw).Places Q :=
  ⟨fun ap hap => h.current ap (List.mem_of_mem_filter hap), fun ap hap => h.old ap (List.mem_of_mem_filter hap)⟩

/-- The attachment points that are reported are places of the device. -/
theorem Places.getAttachmentPoints (h : d.Places Q) {sp : SwitchPort}
    (hsp : sp ∈ d.getAttachmentPoints ord topology suppressedAPs) : Q sp.switchDPID sp.port := by
  obtain ⟨ap, hap, rfl⟩ := List.mem_map.1 hsp
  exact h.current ap (mem_of_mem_apValues hap)

end Places

/-! ## What was seen of a host -/

/-- The entity was seen of the host `k` at this switch port. -/
def SeenAt (seen : Entity → Prop) (k : IndexedEntity) (sw : Dpid) (port : OFPort) : Prop :=
  ∃ o, seen o ∧ o.indexed = k ∧ o.switchDPID = some sw ∧ o.switchPort = some port

/-- The device is the host `k`, with what was seen of it. -/
structure Traced (seen : Entity → Prop) (k : IndexedEntity) (d : Device) : Prop where
  entity : ∀ e ∈ d.entities, e.indexed = k ∧ ∃ o, seen o ∧ o.equals e = true
  places : d.Places (SeenAt seen k)

section Traced

variable {seen seen' : Entity → Prop} {k : IndexedEntity} {d : Device} {e : Entity} {ord : HashOrder}
  {ports : PortOrder} {topology : TopologyService} {suppressedAPs : List SwitchPort}

theorem indexed_of_equals {o : Entity} (h : o.equals e = true) : o.indexed = e.indexed := by
  unfold Entity.equals at h
  simp only [Bool.and_eq_true, decide_eq_true_eq] at h
  unfold Entity.indexed
  rw [h.1.1.1.2, h.2]

theorem place_of_equals {o : Entity} (h : o.equals e = true) :
    o.switchDPID = e.switchDPID ∧ o.switchPort = e.switchPort := by
  unfold Entity.equals at h
  simp only [Bool.and_eq_true, decide_eq_true_eq] at h
  exact ⟨h.1.1.2, h.1.2⟩

theorem Traced.imp (h : d.Traced seen k) (himp : ∀ o, seen o → seen' o) : d.Traced seen' k where
  entity e he := by
    obtain ⟨hk, o, ho, heq⟩ := h.entity e he
    exact ⟨hk, o, himp o ho, heq⟩
  places :=
    have hat : ∀ sw port, SeenAt seen k sw port → SeenAt seen' k sw port :=
      fun sw port ⟨o, ho, hrest⟩ => ⟨o, himp o ho, hrest⟩
    ⟨fun ap hap => hat _ _ (h.places.current ap hap), fun ap hap => hat _ _ (h.places.old ap hap)⟩

/-- Fewer entities. -/
theorem Traced.withEntities (h : d.Traced seen k) {es : List Entity} (hes : ∀ e ∈ es, e ∈ d.entities) :
    (d.withEntities ports es).Traced seen k :=
  ⟨fun e he => h.entity e (hes e (mem_sortEntities.1 he)), h.places.current, h.places.old⟩

theorem Traced.addEntity (h : d.Traced seen k) (he : seen e) (hk : e.indexed = k) :
    (d.addEntity ports e).Traced seen k := by
  refine ⟨fun o ho => ?_, h.places.current, h.places.old⟩
  rcases List.mem_append.1 (mem_sortEntities.1 ho) with ho | ho
  · exact h.entity o ho
  · rw [List.mem_singleton.1 ho]
    exact ⟨hk, e, he, Entity.equals_self e⟩

theorem equals_setLastSeenTimestamp (e o : Entity) (t : Int) :
    o.equals (e.setLastSeenTimestamp t) = o.equals e := rfl

theorem Traced.touch (h : d.Traced seen k) (i : ℕ) (t : Int) : (d.touch i t).Traced seen k := by
  refine ⟨fun e he => ?_, h.places.current, h.places.old⟩
  obtain ⟨j, hj, rfl⟩ := List.getElem_of_mem he
  have hlt : j < d.entities.length := by rwa [length_touch] at hj
  obtain ⟨hk, o, ho, heq⟩ := h.entity d.entities[j] (List.getElem_mem hlt)
  refine ⟨(indexed_touch hj hlt).trans hk, o, ho, ?_⟩
  rcases getElem_touch hj hlt with hsame | htouched
  · rwa [hsame]
  · rwa [htouched, equals_setLastSeenTimestamp]

/-- A sighting of an entity of the host. -/
theorem Traced.sight (h : d.Traced seen k) {o : Entity} (ho : seen o) (hk : o.indexed = k) (heq : o.equals e = true)
    (t : Int) : (Devices.sight ord topology suppressedAPs d e t).Traced seen k := by
  have hsame := sameHost_sight ord topology suppressedAPs d e t
  refine ⟨fun e' he' => h.entity e' (hsame.2 ▸ he'), ?_⟩
  have hsamePlace := place_of_equals heq
  unfold Devices.sight
  split
  · rename_i sw port hsw hport
    refine h.places.updateAttachmentPoint ⟨o, ho, hk, ?_, ?_⟩ t
    · rw [hsamePlace.1, hsw]
    · rw [hsamePlace.2, hport]
  · exact h.places

end Traced

end Device

/-! ## Hosts of a store -/

namespace Devices

/-- All devices of the store are hosts, with what was seen of them. -/
def AllTraced (seen : Entity → Prop) (s : Devices) : Prop :=
  ∀ id d, s.deviceIdToDeviceMap.get id = some d → ∃ k, d.Traced seen k

variable {seen : Entity → Prop} {ord : HashOrder} {ports : PortOrder} {topology : TopologyService} {s s' : Devices}
  {d d' : Device} {e : Entity} {id : ℕ}

theorem AllTraced.congr (h : s.AllTraced seen) (hmap : s'.deviceIdToDeviceMap = s.deviceIdToDeviceMap) :
    s'.AllTraced seen := fun id d hd => h id d (hmap ▸ hd)

theorem AllTraced.putDevice (h : s.AllTraced seen) {k : IndexedEntity} (hd : d.Traced seen k) (id : ℕ) :
    (s.putDevice id d).AllTraced seen := by
  intro id' d' hd'
  unfold Devices.putDevice at hd'
  rw [HashMap.get_put] at hd'
  split_ifs at hd' with hid
  · cases hd'
    exact ⟨k, hd⟩
  · exact h id' d' hd'

theorem AllTraced.remove (h : s.AllTraced seen) (id : ℕ) :
    ({ s with deviceIdToDeviceMap := s.deviceIdToDeviceMap.remove id } : Devices).AllTraced seen := by
  intro id' d' hd'
  dsimp only at hd'
  rw [HashMap.get_remove] at hd'
  split_ifs at hd'
  exact h id' d' hd'

/-! ### Learning -/

/-- What learning an entity does to the hosts: those that are there stay under their ids, all is still a trace of
what was seen, and the device that is returned is the host of the entity. -/
structure Learned (e : Entity) (s s' : Devices) (device : Option Device) : Prop where
  stays : ∀ id d k, s.deviceIdToDeviceMap.get id = some d → d.HasKey k →
    ∃ d', s'.deviceIdToDeviceMap.get id = some d' ∧ d'.HasKey k
  traced : ∀ seen, seen e → s.AllTraced seen → s'.AllTraced seen
  found : ∀ d, device = some d → ∃ id, s'.deviceIdToDeviceMap.get id = some d ∧ d.HasKey e.indexed

/-- A device is put in the place of one of the same host. -/
theorem Learned.of_putDevice (hd : s.deviceIdToDeviceMap.get id = some d) (hkey : ∀ k, d.HasKey k → d'.HasKey k)
    (htraced : ∀ seen k, seen e → d.Traced seen k → d'.Traced seen k) (he : d.HasKey e.indexed)
    (hmap : s'.deviceIdToDeviceMap = s.deviceIdToDeviceMap.put id d') : Learned e s s' (some d') where
  stays id' d₁ k hd₁ hk := by
    rw [hmap, HashMap.get_put]
    split_ifs with hid
    · subst hid
      obtain rfl := Option.some.inj (hd.symm.trans hd₁)
      exact ⟨d', rfl, hkey k hk⟩
    · exact ⟨d₁, hd₁, hk⟩
  traced seen hseen hs := by
    obtain ⟨k, hk⟩ := hs id d hd
    exact (hs.putDevice (htraced seen k hseen hk) id).congr hmap
  found d₁ h₁ := by
    obtain rfl := Option.some.inj h₁
    exact ⟨id, by rw [hmap, HashMap.get_put_self], hkey _ he⟩

theorem traced_allocateDevice {suppressedAPs : List SwitchPort} {deviceKey : ℕ}
    (h : Device.allocateDevice ports topology suppressedAPs deviceKey e = some d) (he : seen e) :
    d.Traced seen e.indexed := by
  obtain ⟨-, hentities⟩ := allocateDevice_some h
  refine ⟨fun o ho => ?_, ?_⟩
  · rw [hentities] at ho
    rw [List.mem_singleton.1 ho]
    exact ⟨rfl, e, he, Entity.equals_self e⟩
  · unfold Device.allocateDevice at h
    split at h
    · rename_i sw port hsw hport
      split_ifs at h
      cases h
      refine ⟨fun ap hap => ?_, fun ap hap => absurd hap List.not_mem_nil⟩
      rw [List.mem_singleton.1 hap]
      exact ⟨e, he, rfl, hsw, hport⟩
    · cases h

theorem learned_learnNew (h : s.registry.Inv ports) {device : Option Device}
    (hl : learnNew ports topology e s = .returned device s') : Learned e s s' device := by
  have hfree : s.deviceIdToDeviceMap.get s.deviceKeyCounter = none := h.not_device_counter
  unfold learnNew at hl
  dsimp only at hl
  cases ha : Device.allocateDevice ports topology s.suppressedAPs s.deviceKeyCounter e with
  | none =>
    rw [ha] at hl
    cases hl
    exact ⟨fun id d k hd hk => ⟨d, hd, hk⟩, fun seen _ hs => hs.congr rfl, fun d hd => nomatch hd⟩
  | some d =>
    rw [ha] at hl
    dsimp only at hl
    cases hup : updateIndices { s with deviceKeyCounter := s.deviceKeyCounter + 1 } d s.deviceKeyCounter with
    | mk ok s₁ =>
      have hmap : s₁.deviceIdToDeviceMap = s.deviceIdToDeviceMap := congrArg (fun r => r.2.deviceIdToDeviceMap) hup.symm
      rw [hup] at hl
      cases ok with
      | false => cases hl
      | true =>
        dsimp only at hl
        rw [hmap, hfree, Option.isSome_none, if_neg Bool.false_ne_true] at hl
        cases hl
        obtain ⟨-, hentities⟩ := allocateDevice_some ha
        have hkey := (wellFormed_singleton ports hentities).2
        have hput : ((s₁.putDevice s.deviceKeyCounter d).updateSecondaryIndices e
            s.deviceKeyCounter).deviceIdToDeviceMap = s.deviceIdToDeviceMap.put s.deviceKeyCounter d := by
          show s₁.deviceIdToDeviceMap.put s.deviceKeyCounter d = _
          rw [hmap]
        refine ⟨fun id d₁ k hd₁ hk => ⟨d₁, ?_, hk⟩, fun seen he hs => ?_, fun d₁ h₁ => ?_⟩
        · have hne : id ≠ s.deviceKeyCounter := by
            rintro rfl
            exact nomatch hfree.symm.trans hd₁
          rw [hput, HashMap.get_put, if_neg hne]
          exact hd₁
        · exact (hs.putDevice (traced_allocateDevice ha he) s.deviceKeyCounter).congr hput
        · obtain rfl := Option.some.inj h₁
          exact ⟨s.deviceKeyCounter, by rw [hput, HashMap.get_put_self], hkey⟩

theorem learned_learnKnown (h : s.registry.Inv ports) (hd : s.deviceIdToDeviceMap.get id = some d)
    (hp : s.primaryIndex.get e.indexed = some id) {device : Option Device}
    (hl : learnKnown ord ports topology e id d s = .returned device s') : Learned e s s' device := by
  have hk : d.HasKey e.indexed := h.owner e.indexed id d (.inl hp) hd
  unfold learnKnown at hl
  dsimp only at hl
  have hkeyOf : ∀ seen k, d.Traced seen k → e.indexed = k := by
    intro seen k ht
    obtain ⟨o, ho, hindexed⟩ := hk
    exact hindexed.symm.trans (ht.entity o ho).1
  by_cases hi : entityIndex ports d.entities e ≥ 0
  · rw [if_pos hi] at hl
    obtain ⟨i, o, hindex, ho, heq⟩ := entityIndex_sound hi
    have htoNat : (entityIndex ports d.entities e).toNat = i := by rw [hindex, Int.toNat_natCast]
    rw [htoNat] at hl
    split at hl
    · cases hl
      exact .of_putDevice hd (fun k => hasKey_touch.2) (fun seen k _ ht => ht.touch i _) hk rfl
    · rename_i o' ho'
      cases hl
      have hsame := sameHost_sight ord topology s.suppressedAPs (d.touch i e.lastSeenTimestamp) o' e.lastSeenTimestamp
      refine .of_putDevice hd (fun k hkey => (hsame.hasKey k).2 (hasKey_touch.2 hkey)) (fun seen k he ht => ?_) hk rfl
      refine (ht.touch i e.lastSeenTimestamp).sight he (hkeyOf seen k ht) ?_ _
      -- the entity that is found is the one that is learned, but for its times
      have ho' : (d.touch i e.lastSeenTimestamp).entities[i]? = some o' := ho'
      obtain ⟨hlt, rfl⟩ := List.getElem?_eq_some_iff.1 ho'
      obtain ⟨hlt', rfl⟩ := List.getElem?_eq_some_iff.1 ho
      rw [Entity.equals_comm]
      rcases getElem_touch hlt hlt' with hsame' | htouched
      · rwa [hsame']
      · rw [htouched]
        exact heq
  · rw [if_neg hi] at hl
    have hsame := sameHost_sight ord topology s.suppressedAPs (d.addEntity ports e) e e.lastSeenTimestamp
    have htraced : ∀ seen k, seen e → d.Traced seen k →
        (sight ord topology s.suppressedAPs (d.addEntity ports e) e e.lastSeenTimestamp).Traced seen k :=
      fun seen k he ht => (ht.addEntity he (hkeyOf seen k ht)).sight he (hkeyOf seen k ht) (Entity.equals_self e) _
    generalize sight ord topology s.suppressedAPs (d.addEntity ports e) e e.lastSeenTimestamp = d₂
      at hsame htraced hl
    rw [replaceDevice_self d₂ hd] at hl
    dsimp only at hl
    cases hup : updateIndices (s.putDevice id d₂) d₂ id with
    | mk ok s₁ =>
      have hmap : s₁.deviceIdToDeviceMap = s.deviceIdToDeviceMap.put id d₂ :=
        congrArg (fun r => r.2.deviceIdToDeviceMap) hup.symm
      rw [hup] at hl
      cases ok with
      | false => cases hl
      | true =>
        cases hl
        exact .of_putDevice hd (fun k hkey => (hsame.hasKey k).2 (hasKey_addEntity.2 (.inl hkey))) htraced hk hmap

theorem Learned.of_repaired {s₁ : Devices} {device : Option Device}
    (hmap : s₁.deviceIdToDeviceMap = s.deviceIdToDeviceMap) (h : Learned e s₁ s' device) : Learned e s s' device where
  stays id d k hd hk := h.stays id d k (hmap ▸ hd) hk
  traced seen he hs := h.traced seen he (hs.congr hmap)
  found := h.found

/-- A round that does not return has repaired the index, and nothing else. -/
theorem learnRound_again (h : s.registry.Inv ports) (hr : learnRound ord ports topology e s = .again s') :
    s'.registry.Inv ports ∧ s'.deviceIdToDeviceMap = s.deviceIdToDeviceMap := by
  unfold learnRound at hr
  cases hg : s.primaryIndex.get e.indexed with
  | none =>
    obtain ⟨device, s₁, hreturned, -⟩ : ∃ device s₁, learnNew ports topology e s = .returned device s₁ ∧ _ :=
      learnNew_spec h hg
    rw [hg] at hr
    exact nomatch hreturned.symm.trans hr
  | some id =>
    rw [hg] at hr
    dsimp only at hr
    cases hd : s.deviceIdToDeviceMap.get id with
    | none =>
      rw [hd] at hr
      cases hr
      refine ⟨?_, rfl⟩
      convert h.change (Registry.Change.repair (r := s.registry) e.indexed id hg hd) using 1
      exact Registry.ext rfl (HashMap.get_remove_eq ..) rfl rfl rfl
    | some d =>
      obtain ⟨device, s₁, hreturned, -⟩ :
          ∃ device s₁, learnKnown ord ports topology e id d s = .returned device s₁ ∧ _ := learnKnown_spec h hd hg
      rw [hd] at hr
      exact nomatch hreturned.symm.trans hr

theorem learned_learnDeviceByEntity (h : s.registry.Inv ports) {fuel : ℕ} {device : Option Device}
    (hl : s.learnDeviceByEntity ord ports topology fuel e = some (device, s')) : Learned e s s' device := by
  induction fuel generalizing s with
  | zero => cases hl
  | succ fuel ih =>
    unfold learnDeviceByEntity at hl
    cases hr : learnRound ord ports topology e s with
    | again s₁ =>
      rw [hr] at hl
      obtain ⟨h₁, hmap⟩ := learnRound_again h hr
      exact (ih h₁ hl).of_repaired hmap
    | returned device' s₁ =>
      rw [hr] at hl
      cases hl
      unfold learnRound at hr
      cases hg : s.primaryIndex.get e.indexed with
      | none =>
        rw [hg] at hr
        exact learned_learnNew h hr
      | some id =>
        rw [hg] at hr
        dsimp only at hr
        cases hd : s.deviceIdToDeviceMap.get id with
        | none =>
          rw [hd] at hr
          cases hr
        | some d =>
          rw [hd] at hr
          exact learned_learnKnown h hd hg hr

/-! ### Other operations -/

theorem AllTraced.foldl {f : Devices → Device → Devices}
    (hf : ∀ s d, s.AllTraced seen → (∃ k, d.Traced seen k) → (f s d).AllTraced seen) {ds : List Device}
    (hds : ∀ d ∈ ds, ∃ k, d.Traced seen k) (h : s.AllTraced seen) : (ds.foldl f s).AllTraced seen := by
  induction ds generalizing s with
  | nil => exact h
  | cons d ds ih =>
    rw [List.forall_mem_cons] at hds
    exact ih hds.2 (hf s d h hds.1)

theorem AllTraced.deviceValues (h : s.AllTraced seen) : ∀ d ∈ s.deviceValues ord, ∃ k, d.Traced seen k := by
  intro d hd
  obtain ⟨id, hid⟩ := mem_deviceValues.1 hd
  exact h id d hid

theorem deviceIdToDeviceMap_removeEntities (es : List Entity) (deviceKey : ℕ) (others : List Entity) (s : Devices) :
    (es.foldl (fun s e => s.removeEntity e deviceKey others) s).deviceIdToDeviceMap = s.deviceIdToDeviceMap := by
  induction es generalizing s with
  | nil => rfl
  | cons e es ih => exact ih (s.removeEntity e deviceKey others)

theorem AllTraced.replaceDevice (h : s.AllTraced seen) {k : IndexedEntity} (hd' : d'.Traced seen k) (id : ℕ) :
    (s.replaceDevice id d d').2.AllTraced seen := by
  unfold Devices.replaceDevice
  cases s.deviceIdToDeviceMap.get id with
  | none => exact h
  | some d₁ =>
    dsimp only
    split_ifs
    · exact h.putDevice hd' id
    · exact h

theorem AllTraced.removeDevice (h : s.AllTraced seen) (id : ℕ) : (s.removeDevice id d).2.AllTraced seen := by
  unfold Devices.removeDevice
  cases s.deviceIdToDeviceMap.get id with
  | none => exact h
  | some d₁ =>
    dsimp only
    split_ifs
    · exact h.remove id
    · exact h

theorem AllTraced.cleanupDevice {cutoff : Int} {fuel : ℕ} (h : s.AllTraced seen) (hd : ∃ k, d.Traced seen k)
    (hc : cleanupDevice ports cutoff fuel d s = some s') : s'.AllTraced seen := by
  induction fuel generalizing s d with
  | zero => cases hc
  | succ fuel ih =>
    obtain ⟨k, hk⟩ := hd
    unfold Devices.cleanupDevice at hc
    dsimp only at hc
    split_ifs at hc with hnone hkeep
    · cases hc
      exact h
    · generalize hkept : List.filter (fun e : Entity => ¬e.lastSeenTimestamp < cutoff) d.entities = toKeep at hc
      have hkeeps : (d.withEntities ports toKeep).Traced seen k :=
        hk.withEntities fun e he => List.mem_of_mem_filter (hkept ▸ he)
      have hreplaced := (h.congr (deviceIdToDeviceMap_removeEntities
        (List.filter (fun e : Entity => e.lastSeenTimestamp < cutoff) d.entities) d.deviceKey toKeep s)).replaceDevice
        (d := d) hkeeps d.deviceKey
      cases hr : Devices.replaceDevice _ d.deviceKey d (d.withEntities ports toKeep) with
      | mk ok s₁ =>
        rw [hr] at hc hreplaced
        cases ok with
        | true =>
          cases hc
          exact hreplaced
        | false =>
          dsimp only at hc
          cases hg : s₁.deviceIdToDeviceMap.get d.deviceKey with
          | none =>
            rw [hg] at hc
            cases hc
            exact hreplaced
          | some d' =>
            rw [hg] at hc
            exact ih hreplaced (hreplaced d.deviceKey d' hg) hc
    · generalize List.filter (fun e : Entity => ¬e.lastSeenTimestamp < cutoff) d.entities = toKeep at hc
      have hremoved := (h.congr (deviceIdToDeviceMap_removeEntities
        (List.filter (fun e : Entity => e.lastSeenTimestamp < cutoff) d.entities) d.deviceKey toKeep s)).removeDevice
        (d := d) d.deviceKey
      cases hr : Devices.removeDevice _ d.deviceKey d with
      | mk ok s₁ =>
        rw [hr] at hc hremoved
        cases ok with
        | true => exact ih hremoved ⟨k, hk⟩ hc
        | false =>
          dsimp only at hc
          cases hg : s₁.deviceIdToDeviceMap.get d.deviceKey with
          | none =>
            rw [hg] at hc
            cases hc
            exact hremoved
          | some d' =>
            rw [hg] at hc
            exact ih hremoved (hremoved d.deviceKey d' hg) hc

theorem AllTraced.updateAttachmentPoints (h : s.AllTraced seen) :
    (s.updateAttachmentPoints ord topology).AllTraced seen := by
  refine AllTraced.foldl (fun s d hs hd => ?_) h.deviceValues h
  obtain ⟨k, hk⟩ := hd
  have hsame := d.sameHost_updateAttachmentPoint₀ ord topology s.suppressedAPs
  have hput := hs.putDevice (d := (d.updateAttachmentPoint₀ ord topology s.suppressedAPs).2)
    ⟨fun e he => hk.entity e (hsame.2 ▸ he), hk.places.updateAttachmentPoint₀⟩ d.deviceKey
  unfold updateDevice
  dsimp only
  split_ifs
  · exact hput.remove d.deviceKey
  · exact hput

theorem AllTraced.deleteDevice (h : s.AllTraced seen) (datapathid : Dpid) :
    (s.deleteDevice ord topology datapathid).AllTraced seen := by
  refine AllTraced.foldl (fun s d hs hd => ?_) (fun d hd => h.deviceValues d (List.mem_of_mem_filter hd)) h
  obtain ⟨k, hk⟩ := hd
  have hput := hs.putDevice (d := d.deleteAttachmentPoint datapathid)
    ⟨hk.entity, hk.places.deleteAttachmentPoint datapathid⟩ d.deviceKey
  unfold deleteFromSwitch
  dsimp only
  split_ifs
  · exact (hput.congr (deviceIdToDeviceMap_removeEntities _ _ _ _)).removeDevice _
  · exact hput

end Devices

end Torpedo
