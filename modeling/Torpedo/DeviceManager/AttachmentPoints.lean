import Torpedo.DeviceManager.Device

/-!
# The attachment points of a device

`getAPMap` keeps the last valid attachment point of each L2 domain. A device is attached if it has a
valid attachment point at all, and this is what `getAttachmentPoints` shows.
-/

namespace Torpedo

/-- Switches without links to each other, each an L2 domain of its own; hosts are not learned on the
`internal` ports. -/
def islands (internal : List SwitchPort) : TopologyService where
  isAttachmentPointPort sw port := ⟨sw, port⟩ ∉ internal
  getL2DomainId sw := sw
  isBroadcastDomainPort _ _ := false
  isConsistent srcSw srcPort dstSw dstPort := srcSw = dstSw && srcPort = dstPort
  isInSameBroadcastDomain _ _ _ _ := false

namespace Device

section Map

variable {ord : HashOrder} {topology : TopologyService} {suppressedAPs : List SwitchPort}
variable {aps : List AttachmentPoint} {ap : AttachmentPoint} {dom : Dpid}

/-- The attachment point is valid and in the domain. -/
def ValidIn (topology : TopologyService) (suppressedAPs : List SwitchPort) (dom : Dpid)
    (ap : AttachmentPoint) : Bool :=
  isValidAttachmentPoint topology suppressedAPs ap.sw ap.port && topology.getL2DomainId ap.sw = dom

/-- The map holds the last valid attachment point of a domain. -/
theorem get_getAPMap : (getAPMap topology suppressedAPs aps).get dom =
    (aps.filter (ValidIn topology suppressedAPs dom)).getLast? := by
  unfold getAPMap
  induction aps using List.reverseRecOn with
  | nil => rfl
  | append_singleton aps ap ih =>
    rw [List.foldl_append, List.foldl_cons, List.foldl_nil, List.filter_append]
    cases hv : isValidAttachmentPoint topology suppressedAPs ap.sw ap.port with
    | false => simp [ValidIn, hv, ih]
    | true =>
      rw [if_pos rfl, HashMap.get_put]
      by_cases hd : topology.getL2DomainId ap.sw = dom
      · simp [ValidIn, hv, hd]
      · simp [ValidIn, hv, hd, Ne.symm hd, ih]

theorem mem_of_get_getAPMap (h : (getAPMap topology suppressedAPs aps).get dom = some ap) :
    ap ∈ aps ∧ isValidAttachmentPoint topology suppressedAPs ap.sw ap.port = true ∧
      topology.getL2DomainId ap.sw = dom := by
  rw [get_getAPMap] at h
  obtain ⟨hmem, hv⟩ := List.mem_filter.1 (List.mem_of_getLast? h)
  unfold ValidIn at hv
  simp only [Bool.and_eq_true, decide_eq_true_eq] at hv
  exact ⟨hmem, hv⟩

theorem get_getAPMap_eq_none : (getAPMap topology suppressedAPs aps).get dom = none ↔
    ∀ ap ∈ aps, ValidIn topology suppressedAPs dom ap = false := by
  rw [get_getAPMap, List.getLast?_eq_none_iff, List.filter_eq_nil_iff]
  simp only [Bool.not_eq_true]

theorem mem_apValues {m : HashMap Dpid AttachmentPoint} :
    ap ∈ apValues ord m ↔ ∃ dom, m.get dom = some ap := by
  unfold apValues
  rw [List.mem_filterMap]
  simp only [HashOrder.mem_iter, HashMap.mem_keySet_iff]
  constructor
  · rintro ⟨dom, -, h⟩
    exact ⟨dom, h⟩
  · rintro ⟨dom, h⟩
    exact ⟨dom, ⟨ap, h⟩, h⟩

theorem apValues_eq_nil {m : HashMap Dpid AttachmentPoint} :
    apValues ord m = [] ↔ m.keySet = [] := by
  constructor
  · intro h
    rw [List.eq_nil_iff_forall_not_mem]
    intro dom hdom
    obtain ⟨ap, hap⟩ := (HashMap.mem_keySet_iff _).1 hdom
    have hmem : ap ∈ apValues ord m := mem_apValues.2 ⟨dom, hap⟩
    rw [h] at hmem
    cases hmem
  · intro h
    rw [List.eq_nil_iff_forall_not_mem]
    intro ap hap
    obtain ⟨dom, hdom⟩ := mem_apValues.1 hap
    have hmem := (HashMap.mem_keySet_iff _).2 ⟨ap, hdom⟩
    rw [h] at hmem
    cases hmem

end Map

/-! ## Attached devices -/

section Attached

variable (topology : TopologyService) (suppressedAPs : List SwitchPort)

/-- The device has a valid attachment point. -/
def Attached (d : Device) : Prop :=
  ∃ ap ∈ d.attachmentPoints, isValidAttachmentPoint topology suppressedAPs ap.sw ap.port = true

instance (d : Device) : Decidable (d.Attached topology suppressedAPs) :=
  inferInstanceAs (Decidable (∃ ap ∈ d.attachmentPoints, _))

variable {topology suppressedAPs} {ord : HashOrder} {d : Device}

theorem keySet_getAPMap_ne_nil {aps : List AttachmentPoint} :
    (getAPMap topology suppressedAPs aps).keySet ≠ [] ↔
      ∃ ap ∈ aps, isValidAttachmentPoint topology suppressedAPs ap.sw ap.port = true := by
  constructor
  · intro h
    obtain ⟨dom, hdom⟩ := List.exists_mem_of_ne_nil _ h
    obtain ⟨ap, hap⟩ := (HashMap.mem_keySet_iff _).1 hdom
    obtain ⟨hmem, hv, -⟩ := mem_of_get_getAPMap hap
    exact ⟨ap, hmem, hv⟩
  · rintro ⟨ap, hmem, hv⟩ hnil
    have hnone : (getAPMap topology suppressedAPs aps).get (topology.getL2DomainId ap.sw) = none := by
      by_contra hne
      have hmem := (HashMap.mem_keySet _).2 (Option.isSome_iff_ne_none.2 hne)
      rw [hnil] at hmem
      cases hmem
    have hfalse := get_getAPMap_eq_none.1 hnone ap hmem
    simp [ValidIn, hv] at hfalse

theorem getAttachmentPoints_eq_nil :
    d.getAttachmentPoints ord topology suppressedAPs = [] ↔ ¬d.Attached topology suppressedAPs := by
  unfold getAttachmentPoints Attached
  rw [List.map_eq_nil_iff, apValues_eq_nil, ← keySet_getAPMap_ne_nil, not_not]

theorem equals_refl (ap : AttachmentPoint) : ap.equals ap = true := by simp [AttachmentPoint.equals]

/-- What `addIfAbsent` and `addAllAbsent` add. -/
theorem mem_addIfAbsent {aps : List AttachmentPoint} {ap ap' : AttachmentPoint}
    (h : ap' ∈ addIfAbsent aps ap) : ap' ∈ aps ∨ ap' = ap := by
  unfold addIfAbsent at h
  split_ifs at h
  · exact .inl h
  · rcases List.mem_append.1 h with h | h
    · exact .inl h
    · exact .inr (List.mem_singleton.1 h)

theorem mem_addAllAbsent (c : List AttachmentPoint) {aps : List AttachmentPoint}
    {ap : AttachmentPoint} (h : ap ∈ addAllAbsent aps c) : ap ∈ aps ∨ ap ∈ c := by
  unfold addAllAbsent at h
  induction c generalizing aps with
  | nil => exact .inl h
  | cons a c ih =>
    rcases ih h with h | h
    · rcases mem_addIfAbsent h with h | rfl
      · exact .inl h
      · exact .inr List.mem_cons_self
    · exact .inr (List.mem_cons_of_mem _ h)

theorem subset_addAllAbsent (c aps : List AttachmentPoint) : aps ⊆ addAllAbsent aps c := by
  unfold addAllAbsent
  induction c generalizing aps with
  | nil => exact fun _ h => h
  | cons a c ih =>
    refine List.Subset.trans ?_ (ih (addIfAbsent aps a))
    unfold addIfAbsent
    split_ifs
    · exact fun _ h => h
    · exact List.subset_append_left ..

theorem mem_retainAll {aps c : List AttachmentPoint} {ap : AttachmentPoint} :
    ap ∈ retainAll aps c ↔ ap ∈ aps ∧ ∃ ap' ∈ c, ap'.equals ap = true := by
  unfold retainAll
  rw [List.mem_filter, List.any_eq_true]

/-- A topology update leaves a device attached if it was. -/
theorem attached_updateAttachmentPoint₀ :
    (d.updateAttachmentPoint₀ ord topology suppressedAPs).2.Attached topology suppressedAPs ↔
      d.Attached topology suppressedAPs := by
  unfold updateAttachmentPoint₀
  split_ifs with hnil
  · rfl
  dsimp only
  split_ifs with hlen
  · unfold Attached
    dsimp only
    have hvalues : ∀ {ap}, ap ∈ apValues ord (getAPMap topology suppressedAPs d.attachmentPoints) →
        ap ∈ d.attachmentPoints := by
      intro ap hap
      obtain ⟨dom, hdom⟩ := mem_apValues.1 hap
      exact (mem_of_get_getAPMap hdom).1
    constructor
    · rintro ⟨ap, hap, hv⟩
      rcases mem_addAllAbsent _ hap with hap | hap
      · exact ⟨ap, (mem_retainAll.1 hap).1, hv⟩
      · exact ⟨ap, hvalues hap, hv⟩
    · intro h
      obtain ⟨dom, hdom⟩ := List.exists_mem_of_ne_nil _ (keySet_getAPMap_ne_nil.2 h)
      obtain ⟨ap, hap⟩ := (HashMap.mem_keySet_iff _).1 hdom
      obtain ⟨hmem, hv, -⟩ := mem_of_get_getAPMap hap
      refine ⟨ap, subset_addAllAbsent _ _ (mem_retainAll.2 ⟨hmem, ap, ?_, equals_refl ap⟩), hv⟩
      exact mem_apValues.2 ⟨dom, hap⟩
  · rfl

end Attached

end Device

end Torpedo
