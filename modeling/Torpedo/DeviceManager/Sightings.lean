import Torpedo.DeviceManager.AttachmentPoints

/-!
# Sightings of a device

What the attachment points of a device are for: in each L2 domain the device is where the
comparator prefers it to be, among the switch ports where it was seen. `Preferences` plays this
out, sighting by sighting, with one attachment point for a domain. `updateAttachmentPoint` agrees
with it until the first time that a new attachment point wins against an old one in its domain:
then the old one stays in the list.
-/

namespace Torpedo

/-- A packet of the device from a switch port at a time. -/
structure Sighting where
  sw : Dpid
  port : OFPort
  lastSeen : Int
deriving DecidableEq, Repr

/-- The attachment point without the identity of its object. -/
def AttachmentPoint.anonymous (ap : AttachmentPoint) : AttachmentPoint := { ap with ref := 0 }

/-! ## The preferred attachment points -/

/-- The preferred attachment point of each domain, and those that have lost their place, which keep
their times until they are seen again. -/
structure Preferences where
  preferred : Dpid → Option AttachmentPoint
  displaced : List AttachmentPoint

namespace Preferences

section See

variable (topology : TopologyService) (suppressedAPs : List SwitchPort) (p : Preferences)
variable (c : Sighting)

def candidate : AttachmentPoint :=
  let newAP : AttachmentPoint := ⟨0, c.sw, c.port, c.lastSeen, c.lastSeen⟩
  match p.displaced.find? (·.equals newAP) with
  | none => newAP
  | some ap => ap.setLastSeen c.lastSeen

/-- A sighting at a valid attachment point renews the preferred one of the domain, or takes its place
if the comparator prefers it. -/
def see : Preferences :=
  if isValidAttachmentPoint topology suppressedAPs c.sw c.port = false then p
  else
    let ap := p.candidate c
    let dom := topology.getL2DomainId c.sw
    let displaced := p.displaced.eraseP (·.equals ap)
    match p.preferred dom with
    | none => ⟨Function.update p.preferred dom (some ap), displaced⟩
    | some old =>
      if old.equals ap then
        ⟨Function.update p.preferred dom
          (some (if ap.lastSeen > old.lastSeen then old.setLastSeen ap.lastSeen else old)), displaced⟩
      else if AttachmentPoint.compare topology old ap < 0 then
        ⟨Function.update p.preferred dom (some ap), displaced ++ [old]⟩
      else ⟨p.preferred, if p.displaced.any (·.equals ap) then displaced ++ [ap] else displaced⟩

end See

/-- What is known of a device that was not seen yet. -/
def start (topology : TopologyService) (d : Device) : Preferences where
  preferred dom := (d.attachmentPoints.find? (topology.getL2DomainId ·.sw = dom)).map (·.anonymous)
  displaced := []

def seeAll (topology : TopologyService) (suppressedAPs : List SwitchPort) (p : Preferences)
    (cs : List Sighting) : Preferences := cs.foldl (see topology suppressedAPs) p

end Preferences

namespace Device

section Calls

variable (ord : HashOrder) (topology : TopologyService) (suppressedAPs : List SwitchPort)

/-- `updateAttachmentPoint` for each of the sightings. -/
def updateAttachmentPoints (d : Device) (cs : List Sighting) : Device :=
  cs.foldl (fun d c =>
    (d.updateAttachmentPoint ord topology suppressedAPs c.sw c.port c.lastSeen).2) d

/-- The device has just the preferred attachment point in each domain. -/
def Prefers (d : Device) (p : Preferences) : Prop :=
  ∀ dom, (d.attachmentPoints.filter (topology.getL2DomainId ·.sw = dom)).map (·.anonymous) =
    (p.preferred dom).toList

/-- The sighting is at another valid attachment point of a domain where the device is attached, and
the comparator prefers the new one. -/
def Displaces (d : Device) (c : Sighting) : Prop :=
  isValidAttachmentPoint topology suppressedAPs c.sw c.port = true ∧
    ∃ old, (getAPMap topology suppressedAPs d.attachmentPoints).get (topology.getL2DomainId c.sw) =
        some old ∧
      old.equals (d.takeOldAP c.sw c.port c.lastSeen).1 = false ∧
      AttachmentPoint.compare topology old (d.takeOldAP c.sw c.port c.lastSeen).1 < 0

/-- All attachment points are valid, with one for a domain, and none was displaced. -/
structure Settled (d : Device) : Prop where
  oldAPs : d.oldAPs = []
  valid : ∀ ap ∈ d.attachmentPoints, isValidAttachmentPoint topology suppressedAPs ap.sw ap.port = true
  nodup : d.attachmentPoints.Nodup
  domains : ∀ ap ∈ d.attachmentPoints, ∀ ap' ∈ d.attachmentPoints,
    topology.getL2DomainId ap.sw = topology.getL2DomainId ap'.sw → ap = ap'
  refs : ∀ ap ∈ d.attachmentPoints, ∀ ap' ∈ d.attachmentPoints, ap.ref = ap'.ref → ap = ap'
  refsLt : ∀ ap ∈ d.attachmentPoints, ap.ref < d.nextRef

end Calls

section Lists

/-- Adding attachment points at different switch ports. -/
theorem addAllAbsent_spec (c : List AttachmentPoint) : ∀ aps : List AttachmentPoint, aps.Nodup →
    (∀ a ∈ aps ++ c, ∀ b ∈ aps ++ c, a.equals b = true → a = b) →
    (addAllAbsent aps c).Nodup ∧ ∀ a, a ∈ addAllAbsent aps c ↔ a ∈ aps ∨ a ∈ c := by
  unfold addAllAbsent
  induction c with
  | nil => exact fun aps hn _ => ⟨hn, fun a => by simp⟩
  | cons x c ih =>
    intro aps hn heq
    have hx : ∀ a, a ∈ addIfAbsent aps x ↔ a ∈ aps ∨ a = x := by
      intro a
      refine ⟨mem_addIfAbsent, ?_⟩
      unfold addIfAbsent
      split_ifs with hany
      · rintro (ha | rfl)
        · exact ha
        · obtain ⟨b, hb, hba⟩ := List.any_eq_true.1 hany
          rw [← heq b (List.mem_append_left _ hb) a (List.mem_append_right _ List.mem_cons_self) hba]
          exact hb
      · simp
    have hn' : (addIfAbsent aps x).Nodup := by
      unfold addIfAbsent
      split_ifs with hany
      · exact hn
      · refine List.nodup_append.2 ⟨hn, List.nodup_singleton x, ?_⟩
        rintro a ha b hb rfl
        rw [List.mem_singleton] at hb
        exact hany (List.any_eq_true.2 ⟨a, ha, hb ▸ equals_refl a⟩)
    have hmem : ∀ a, a ∈ addIfAbsent aps x ++ c → a ∈ aps ++ x :: c := by
      intro a ha
      simp only [List.mem_append, hx] at ha
      simp only [List.mem_append, List.mem_cons]
      tauto
    obtain ⟨hn'', hmem'⟩ := ih _ hn' fun a ha b hb => heq a (hmem a ha) b (hmem b hb)
    refine ⟨hn'', fun a => ?_⟩
    rw [List.foldl_cons, hmem', hx, List.mem_cons, or_assoc]

end Lists

section Settled

variable {ord : HashOrder} {topology : TopologyService} {suppressedAPs : List SwitchPort}
variable {d : Device} {dom : Dpid} {ap : AttachmentPoint} {p : Preferences}

theorem Settled.get_iff (h : d.Settled topology suppressedAPs) :
    (getAPMap topology suppressedAPs d.attachmentPoints).get dom = some ap ↔
      ap ∈ d.attachmentPoints ∧ topology.getL2DomainId ap.sw = dom := by
  constructor
  · intro hget
    obtain ⟨hmem, -, hdom⟩ := mem_of_get_getAPMap hget
    exact ⟨hmem, hdom⟩
  · rintro ⟨hmem, rfl⟩
    cases hget : (getAPMap topology suppressedAPs d.attachmentPoints).get
        (topology.getL2DomainId ap.sw) with
    | none =>
      have hfalse := get_getAPMap_eq_none.1 hget ap hmem
      simp [ValidIn, h.valid ap hmem] at hfalse
    | some ap' =>
      obtain ⟨hmem', -, hdom⟩ := mem_of_get_getAPMap hget
      rw [h.domains ap' hmem' ap hmem hdom]

/-- The attachment points of a domain are those of the map. -/
theorem Settled.filter_eq (h : d.Settled topology suppressedAPs) (dom : Dpid) :
    d.attachmentPoints.filter (topology.getL2DomainId ·.sw = dom) =
      ((getAPMap topology suppressedAPs d.attachmentPoints).get dom).toList := by
  have hmem : ∀ ap, ap ∈ d.attachmentPoints.filter (topology.getL2DomainId ·.sw = dom) ↔
      (getAPMap topology suppressedAPs d.attachmentPoints).get dom = some ap := by
    intro ap
    rw [List.mem_filter, decide_eq_true_iff, h.get_iff]
  cases hget : (getAPMap topology suppressedAPs d.attachmentPoints).get dom with
  | none =>
    rw [Option.toList_none, List.eq_nil_iff_forall_not_mem]
    intro ap hap
    exact nomatch hget.symm.trans ((hmem ap).1 hap)
  | some ap =>
    rw [Option.toList_some, ← List.perm_singleton,
      List.perm_ext_iff_of_nodup (h.nodup.filter _) (List.nodup_singleton ap)]
    intro ap'
    rw [hmem, hget, List.mem_singleton, Option.some.injEq, eq_comm]

theorem Settled.prefers_iff_get (h : d.Settled topology suppressedAPs) :
    d.Prefers topology p ↔ ∀ dom,
      ((getAPMap topology suppressedAPs d.attachmentPoints).get dom).map (·.anonymous) =
        p.preferred dom := by
  unfold Prefers
  refine forall_congr' fun dom => ?_
  rw [h.filter_eq]
  cases (getAPMap topology suppressedAPs d.attachmentPoints).get dom <;>
    cases p.preferred dom <;> simp

variable (ord) in
/-- The attachment points of the map, all of them and each once. -/
theorem Settled.apValues_spec (h : d.Settled topology suppressedAPs) :
    (apValues ord (getAPMap topology suppressedAPs d.attachmentPoints)).Nodup ∧
      ∀ ap, ap ∈ apValues ord (getAPMap topology suppressedAPs d.attachmentPoints) ↔
        ap ∈ d.attachmentPoints := by
  constructor
  · refine List.Nodup.filterMap ?_ (ord.nodup_iter.2 (HashMap.nodup_keySet _))
    intro dom dom' ap hap hap'
    rw [Option.mem_def, h.get_iff] at hap hap'
    exact hap.2.symm.trans hap'.2
  · intro ap
    rw [mem_apValues]
    simp only [h.get_iff, exists_and_left, exists_eq', and_true]

/-- A settled device stays settled with an attachment point in a new domain. -/
theorem Settled.extend (h : d.Settled topology suppressedAPs) (sw : Dpid) (port : OFPort) (t : Int)
    (hv : isValidAttachmentPoint topology suppressedAPs sw port = true)
    (hdom : (getAPMap topology suppressedAPs d.attachmentPoints).get (topology.getL2DomainId sw) = none)
    {aps : List AttachmentPoint} (hn : aps.Nodup)
    (hmem : ∀ ap, ap ∈ aps ↔ ap ∈ d.attachmentPoints ∨ ap = ⟨d.nextRef, sw, port, t, t⟩) :
    Settled topology suppressedAPs { d with nextRef := d.nextRef + 1, attachmentPoints := aps } where
  oldAPs := h.oldAPs
  valid ap hap := by
    obtain hap | rfl := (hmem ap).1 hap
    · exact h.valid ap hap
    · exact hv
  nodup := hn
  domains ap hap ap' hap' heq := by
    have hnone : ∀ a ∈ d.attachmentPoints, topology.getL2DomainId a.sw ≠ topology.getL2DomainId sw := by
      intro a ha heq
      exact nomatch hdom.symm.trans (h.get_iff.2 ⟨ha, heq⟩)
    obtain hap | rfl := (hmem ap).1 hap <;> obtain hap' | rfl := (hmem ap').1 hap'
    · exact h.domains ap hap ap' hap' heq
    · exact absurd heq (hnone ap hap)
    · exact absurd heq.symm (hnone ap' hap')
    · rfl
  refs ap hap ap' hap' heq := by
    obtain hap | rfl := (hmem ap).1 hap <;> obtain hap' | rfl := (hmem ap').1 hap'
    · exact h.refs ap hap ap' hap' heq
    · exact absurd heq (h.refsLt ap hap).ne
    · exact absurd heq.symm (h.refsLt ap' hap').ne
    · rfl
  refsLt ap hap := by
    obtain hap | rfl := (hmem ap).1 hap
    · exact Nat.lt_succ_of_lt (h.refsLt ap hap)
    · exact Nat.lt_succ_self _

/-- A settled device stays settled when an attachment point is seen again. -/
theorem Settled.renew (h : d.Settled topology suppressedAPs) {f : AttachmentPoint → AttachmentPoint}
    (hf : ∀ ap, (f ap).ref = ap.ref ∧ (f ap).sw = ap.sw ∧ (f ap).port = ap.port) :
    Settled topology suppressedAPs
      { d with nextRef := d.nextRef + 1, attachmentPoints := d.attachmentPoints.map f } where
  oldAPs := h.oldAPs
  valid ap hap := by
    obtain ⟨a, ha, rfl⟩ := List.mem_map.1 hap
    rw [(hf a).2.1, (hf a).2.2]
    exact h.valid a ha
  nodup := by
    refine List.Nodup.map_on ?_ h.nodup
    intro a ha b hb heq
    refine h.refs a ha b hb ?_
    rw [← (hf a).1, ← (hf b).1, heq]
  domains ap hap ap' hap' heq := by
    obtain ⟨a, ha, rfl⟩ := List.mem_map.1 hap
    obtain ⟨b, hb, rfl⟩ := List.mem_map.1 hap'
    rw [(hf a).2.1, (hf b).2.1] at heq
    rw [h.domains a ha b hb heq]
  refs ap hap ap' hap' heq := by
    obtain ⟨a, ha, rfl⟩ := List.mem_map.1 hap
    obtain ⟨b, hb, rfl⟩ := List.mem_map.1 hap'
    rw [(hf a).1, (hf b).1] at heq
    rw [h.refs a ha b hb heq]
  refsLt ap hap := by
    obtain ⟨a, ha, rfl⟩ := List.mem_map.1 hap
    rw [(hf a).1]
    exact Nat.lt_succ_of_lt (h.refsLt a ha)

theorem Settled.takeOldAP (h : d.Settled topology suppressedAPs) (sw : Dpid) (port : OFPort)
    (t : Int) : d.takeOldAP sw port t =
      (⟨d.nextRef, sw, port, t, t⟩, false, { d with nextRef := d.nextRef + 1 }) := by
  unfold Device.takeOldAP
  rw [h.oldAPs]
  rfl

/-- What `updateAttachmentPoint` does to a settled device, if the sighting displaces nothing. -/
inductive Update (topology : TopologyService) (suppressedAPs : List SwitchPort) (d : Device)
    (c : Sighting) : Device → Prop
  | skip : isValidAttachmentPoint topology suppressedAPs c.sw c.port = false →
    Update topology suppressedAPs d c d
  | extend (aps : List AttachmentPoint) :
    isValidAttachmentPoint topology suppressedAPs c.sw c.port = true →
    (getAPMap topology suppressedAPs d.attachmentPoints).get (topology.getL2DomainId c.sw) = none →
    aps.Nodup → (∀ ap, ap ∈ aps ↔
      ap ∈ d.attachmentPoints ∨ ap = ⟨d.nextRef, c.sw, c.port, c.lastSeen, c.lastSeen⟩) →
    Update topology suppressedAPs d c { d with nextRef := d.nextRef + 1, attachmentPoints := aps }
  | renew (old : AttachmentPoint) :
    isValidAttachmentPoint topology suppressedAPs c.sw c.port = true →
    (getAPMap topology suppressedAPs d.attachmentPoints).get (topology.getL2DomainId c.sw) = some old →
    old.port = c.port → old.sw = c.sw →
    Update topology suppressedAPs d c
      { d with
        nextRef := d.nextRef + 1
        attachmentPoints := d.attachmentPoints.map fun ap =>
          if ap.ref = old.ref ∧ c.lastSeen > old.lastSeen then ap.setLastSeen c.lastSeen else ap }
  | keep (old : AttachmentPoint) :
    isValidAttachmentPoint topology suppressedAPs c.sw c.port = true →
    (getAPMap topology suppressedAPs d.attachmentPoints).get (topology.getL2DomainId c.sw) = some old →
    ¬(old.port = c.port ∧ old.sw = c.sw) →
    ¬AttachmentPoint.compare topology old ⟨0, c.sw, c.port, c.lastSeen, c.lastSeen⟩ < 0 →
    Update topology suppressedAPs d c { d with nextRef := d.nextRef + 1 }

theorem retainAll_eq_self {aps c : List AttachmentPoint}
    (h : ∀ ap ∈ aps, ∃ ap' ∈ c, ap'.equals ap = true) : retainAll aps c = aps := by
  unfold retainAll
  rw [List.filter_eq_self]
  exact fun ap hap => List.any_eq_true.2 (h ap hap)

theorem equals_iff {ap ap' : AttachmentPoint} :
    ap.equals ap' = true ↔ ap.port = ap'.port ∧ ap.sw = ap'.sw := by
  simp [AttachmentPoint.equals]

variable (ord) in
/-- The list after a sighting in a new domain. -/
theorem Settled.addAbsent (h : d.Settled topology suppressedAPs) (newAP : AttachmentPoint)
    (hdom : (getAPMap topology suppressedAPs d.attachmentPoints).get
      (topology.getL2DomainId newAP.sw) = none) :
    (addIfAbsent (addAllAbsent []
        (apValues ord (getAPMap topology suppressedAPs d.attachmentPoints))) newAP).Nodup ∧
      ∀ ap, ap ∈ addIfAbsent (addAllAbsent []
        (apValues ord (getAPMap topology suppressedAPs d.attachmentPoints))) newAP ↔
        ap ∈ d.attachmentPoints ∨ ap = newAP := by
  obtain ⟨-, hmv⟩ := h.apValues_spec ord
  generalize apValues ord (getAPMap topology suppressedAPs d.attachmentPoints) = values at hmv
  have heq : addIfAbsent (addAllAbsent [] values) newAP = addAllAbsent [] (values ++ [newAP]) := by
    unfold addAllAbsent
    rw [List.foldl_append]
    rfl
  have hnone : ∀ a ∈ d.attachmentPoints,
      topology.getL2DomainId a.sw ≠ topology.getL2DomainId newAP.sw := by
    intro a ha heq
    exact nomatch hdom.symm.trans (h.get_iff.2 ⟨ha, heq⟩)
  obtain ⟨hn, hmem⟩ := addAllAbsent_spec (values ++ [newAP]) [] List.nodup_nil (by
    intro a ha b hb hab
    have hsw : topology.getL2DomainId a.sw = topology.getL2DomainId b.sw := by
      rw [(equals_iff.1 hab).2]
    simp only [List.nil_append, List.mem_append, List.mem_singleton, hmv] at ha hb
    obtain ha | rfl := ha <;> obtain hb | rfl := hb
    · exact h.domains a ha b hb hsw
    · exact absurd hsw (hnone a ha)
    · exact absurd hsw.symm (hnone b hb)
    · rfl)
  rw [heq]
  refine ⟨hn, fun ap => ?_⟩
  rw [hmem]
  simp [hmv]

variable (ord) in
theorem Settled.update (h : d.Settled topology suppressedAPs) {c : Sighting}
    (hc : ¬d.Displaces topology suppressedAPs c) : Update topology suppressedAPs d c
      (d.updateAttachmentPoint ord topology suppressedAPs c.sw c.port c.lastSeen).2 := by
  obtain ⟨-, hmv⟩ := h.apValues_spec ord
  unfold Displaces at hc
  rw [h.takeOldAP] at hc
  unfold updateAttachmentPoint
  rw [h.takeOldAP]
  cases hv : isValidAttachmentPoint topology suppressedAPs c.sw c.port with
  | false => exact .skip hv
  | true =>
    simp only [Bool.true_eq_false, if_false]
    by_cases hnil : (getAPMap topology suppressedAPs d.attachmentPoints).keySet = []
    · -- the first sighting
      rw [if_pos hnil]
      have hempty : d.attachmentPoints = [] := by
        rw [List.eq_nil_iff_forall_not_mem]
        exact fun ap hap => keySet_getAPMap_ne_nil.2 ⟨ap, hap, h.valid ap hap⟩ hnil
      refine .extend _ hv ?_ ?_ ?_
      · rw [hempty]; rfl
      · rw [hempty]; exact List.nodup_singleton _
      · rw [hempty]; simp
    rw [if_neg hnil]
    cases hget : (getAPMap topology suppressedAPs d.attachmentPoints).get
        (topology.getL2DomainId c.sw) with
    | none =>
      obtain ⟨hn, hmem⟩ := h.addAbsent ord
        ⟨d.nextRef, c.sw, c.port, c.lastSeen, c.lastSeen⟩ hget
      exact .extend _ hv hget hn hmem
    | some old =>
      dsimp only
      cases heq : old.equals ⟨d.nextRef, c.sw, c.port, c.lastSeen, c.lastSeen⟩ with
      | true =>
        obtain ⟨hport, hsw⟩ := equals_iff.1 heq
        have hrenew := Update.renew old hv hget hport hsw
        -- the mutated attachment points are those of the map, at the same switch ports
        have hretain : ∀ f : AttachmentPoint → AttachmentPoint,
            (∀ ap : AttachmentPoint, ap.equals (f ap) = true) →
            retainAll (d.attachmentPoints.map f)
              (apValues ord (getAPMap topology suppressedAPs d.attachmentPoints)) =
              d.attachmentPoints.map f := by
          intro f hf
          refine retainAll_eq_self fun ap hap => ?_
          obtain ⟨a, ha, rfl⟩ := List.mem_map.1 hap
          exact ⟨a, (hmv a).2 ha, hf a⟩
        simp only [if_true]
        by_cases ht : c.lastSeen > old.lastSeen
        · rw [if_pos ht]
          simp only [ht, and_true] at hrenew
          convert hrenew using 1
          unfold setLastSeen
          dsimp only
          rw [hretain, h.oldAPs]
          · simp
          · intro ap
            split_ifs
            · exact equals_iff.2 ⟨rfl, rfl⟩
            · exact equals_refl ap
        · rw [if_neg ht]
          simp only [ht, and_false, if_false, List.map_id'] at hrenew
          convert hrenew using 1
          dsimp only
          have hid := hretain id fun ap => equals_refl ap
          rw [List.map_id] at hid
          rw [hid]
      | false =>
        have hcmp : ¬AttachmentPoint.compare topology old
            ⟨d.nextRef, c.sw, c.port, c.lastSeen, c.lastSeen⟩ < 0 := by
          intro hlt
          exact hc ⟨hv, old, hget, heq, hlt⟩
        rw [if_neg hcmp]
        refine .keep old hv hget ?_ hcmp
        intro hsame
        rw [equals_iff.2 hsame] at heq
        cases heq

theorem Settled.of_update (h : d.Settled topology suppressedAPs) {c : Sighting} {d' : Device}
    (hu : Update topology suppressedAPs d c d') : d'.Settled topology suppressedAPs := by
  cases hu with
  | skip => exact h
  | extend aps hv hget hn hmem => exact h.extend c.sw c.port c.lastSeen hv hget hn hmem
  | renew old hv hget hport hsw =>
    refine h.renew fun ap => ?_
    split_ifs
    · exact ⟨rfl, rfl, rfl⟩
    · exact ⟨rfl, rfl, rfl⟩
  | keep =>
    obtain ⟨hold, hvalid, hn, hdom, hrefs, hlt⟩ := h
    exact ⟨hold, hvalid, hn, hdom, hrefs, fun ap hap => Nat.lt_succ_of_lt (hlt ap hap)⟩

/-- A sighting that displaces nothing leaves the device where it is preferred. -/
theorem Settled.prefers_update (h : d.Settled topology suppressedAPs) {c : Sighting} {d' : Device}
    (hu : Update topology suppressedAPs d c d') (hp : d.Prefers topology p) (hd : p.displaced = []) :
    d'.Prefers topology (p.see topology suppressedAPs c) ∧
      (p.see topology suppressedAPs c).displaced = [] := by
  have h' := h.of_update hu
  rw [h.prefers_iff_get] at hp
  rw [h'.prefers_iff_get]
  have hcand : p.candidate c = ⟨0, c.sw, c.port, c.lastSeen, c.lastSeen⟩ := by
    unfold Preferences.candidate
    rw [hd]
    rfl
  unfold Preferences.see
  rw [hcand, hd]
  cases hu with
  | skip hv =>
    rw [if_pos hv]
    exact ⟨hp, hd⟩
  | extend aps hv hget hn hmem =>
    rw [if_neg (by rw [hv]; decide)]
    have hnone : p.preferred (topology.getL2DomainId c.sw) = none := by
      rw [← hp, hget]
      rfl
    simp only [hnone]
    refine ⟨fun dom => ?_, rfl⟩
    rw [Function.update_apply]
    split_ifs with hdom
    · rw [h'.get_iff.2 ⟨(hmem _).2 (.inr rfl), hdom.symm⟩]
      rfl
    · rw [← hp]
      refine congrArg _ (Option.ext fun ap => ?_)
      rw [h'.get_iff, h.get_iff]
      refine and_congr_left fun hap => (hmem ap).trans (or_iff_left ?_)
      rintro rfl
      exact hdom hap.symm
  | renew old hv hget hport hsw =>
    rw [if_neg (by rw [hv]; decide)]
    have hsome : p.preferred (topology.getL2DomainId c.sw) = some old.anonymous := by
      rw [← hp, hget]
      rfl
    simp only [hsome]
    rw [if_pos (equals_iff.2 ⟨hport, hsw⟩)]
    refine ⟨fun dom => ?_, rfl⟩
    show _ = Function.update p.preferred (topology.getL2DomainId c.sw)
      (some (if c.lastSeen > old.lastSeen then old.anonymous.setLastSeen c.lastSeen
        else old.anonymous)) dom
    rw [Function.update_apply]
    obtain ⟨hold, -⟩ := h.get_iff.1 hget
    split_ifs with hdom ht
    · rw [h'.get_iff.2 ⟨List.mem_map_of_mem hold, ?_⟩]
      · rw [if_pos ⟨rfl, ht⟩]
        rfl
      · rw [if_pos ⟨rfl, ht⟩, hdom, ← hsw]
        rfl
    · rw [h'.get_iff.2 ⟨List.mem_map_of_mem hold, ?_⟩]
      · rw [if_neg fun hr => ht hr.2]
        rfl
      · rw [if_neg fun hr => ht hr.2, hdom, ← hsw]
    · rw [← hp]
      -- the attachment points of other domains are not touched
      have hsame : ∀ ap ∈ d.attachmentPoints, topology.getL2DomainId ap.sw = dom →
          ¬(ap.ref = old.ref ∧ c.lastSeen > old.lastSeen) := by
        rintro ap hap rfl ⟨href, -⟩
        rw [h.refs ap hap old hold href, hsw] at hdom
        exact hdom rfl
      refine congrArg _ (Option.ext fun ap => ?_)
      rw [h'.get_iff, h.get_iff, List.mem_map]
      constructor
      · rintro ⟨⟨a, ha, rfl⟩, hap⟩
        have hsw' : topology.getL2DomainId a.sw = dom := by
          rw [← hap]
          split_ifs <;> rfl
        rw [if_neg (hsame a ha hsw')]
        exact ⟨ha, hsw'⟩
      · rintro ⟨ha, hap⟩
        exact ⟨⟨ap, ha, if_neg (hsame ap ha hap)⟩, hap⟩
  | keep old hv hget hne hcmp =>
    rw [if_neg (by rw [hv]; decide)]
    have hsome : p.preferred (topology.getL2DomainId c.sw) = some old.anonymous := by
      rw [← hp, hget]
      rfl
    simp only [hsome]
    have hcmp' : ¬AttachmentPoint.compare topology old.anonymous
        ⟨0, c.sw, c.port, c.lastSeen, c.lastSeen⟩ < 0 := hcmp
    rw [if_neg fun heq => hne (equals_iff.1 heq), if_neg hcmp']
    exact ⟨hp, rfl⟩

theorem eq_of_length_le_one {α : Type} {l : List α} (h : l.length ≤ 1) {a b : α} (ha : a ∈ l)
    (hb : b ∈ l) : a = b := by
  match l, h with
  | [x], _ => rw [List.mem_singleton.1 ha, List.mem_singleton.1 hb]

variable (ord) in
/-- After a sighting that displaces an attachment point the device has two in one domain. -/
theorem Settled.not_prefers (h : d.Settled topology suppressedAPs) {c : Sighting}
    (hc : d.Displaces topology suppressedAPs c) (p : Preferences) :
    ¬(d.updateAttachmentPoint ord topology suppressedAPs c.sw c.port c.lastSeen).2.Prefers topology
      p := by
  obtain ⟨-, hmv⟩ := h.apValues_spec ord
  obtain ⟨hv, old, hget, hne, hcmp⟩ := hc
  rw [h.takeOldAP] at hne hcmp
  obtain ⟨hold, hdom⟩ := h.get_iff.1 hget
  have hnil : (getAPMap topology suppressedAPs d.attachmentPoints).keySet ≠ [] :=
    keySet_getAPMap_ne_nil.2 ⟨old, hold, h.valid old hold⟩
  have hret : retainAll d.attachmentPoints
      (apValues ord (getAPMap topology suppressedAPs d.attachmentPoints)) = d.attachmentPoints :=
    retainAll_eq_self fun ap hap => ⟨ap, (hmv ap).2 hap, equals_refl ap⟩
  have hlist : (d.updateAttachmentPoint ord topology suppressedAPs c.sw c.port
      c.lastSeen).2.attachmentPoints =
      addIfAbsent d.attachmentPoints ⟨d.nextRef, c.sw, c.port, c.lastSeen, c.lastSeen⟩ := by
    unfold updateAttachmentPoint
    rw [h.takeOldAP, if_neg (by rw [hv]; decide)]
    dsimp only
    rw [if_neg hnil, hget]
    dsimp only
    rw [if_neg (by rw [hne]; decide), if_pos hcmp, hret]
  have hboth : ∀ ap, ap = old ∨ ap = ⟨d.nextRef, c.sw, c.port, c.lastSeen, c.lastSeen⟩ →
      ap ∈ addIfAbsent d.attachmentPoints ⟨d.nextRef, c.sw, c.port, c.lastSeen, c.lastSeen⟩ := by
    unfold addIfAbsent
    split_ifs with hany
    · -- no attachment point of the domain is at the new switch port
      obtain ⟨a, ha, heq⟩ := List.any_eq_true.1 hany
      have hsw := (equals_iff.1 heq).2
      rw [h.domains a ha old hold (by rw [hsw, hdom]), hne] at heq
      cases heq
    · rintro ap (rfl | rfl)
      · exact List.mem_append_left _ hold
      · exact List.mem_append_right _ (List.mem_singleton_self _)
  intro hp
  have hlen := congrArg List.length (hp (topology.getL2DomainId c.sw))
  rw [List.length_map, hlist] at hlen
  have hle : (p.preferred (topology.getL2DomainId c.sw)).toList.length ≤ 1 := by
    cases p.preferred (topology.getL2DomainId c.sw) <;> simp
  have heq := eq_of_length_le_one (hlen.le.trans hle)
    (List.mem_filter.2 ⟨hboth _ (.inl rfl), decide_eq_true hdom⟩)
    (List.mem_filter.2 ⟨hboth _ (.inr rfl), decide_eq_true rfl⟩)
  rw [heq, equals_refl] at hne
  cases hne

/-- A new device is settled. -/
theorem settled_allocateDevice {ports : PortOrder} {deviceKey : ℕ} {entity : Entity}
    (h : allocateDevice ports topology suppressedAPs deviceKey entity = some d) :
    d.Settled topology suppressedAPs ∧ d.Prefers topology (.start topology d) := by
  unfold allocateDevice at h
  split at h
  · rename_i sw port hsw hport
    split_ifs at h with hv
    cases h
    have hmem : ∀ {ap : AttachmentPoint}, ap ∈ [(⟨0, sw, port, entity.lastSeenTimestamp,
        entity.lastSeenTimestamp⟩ : AttachmentPoint)] → ap = ⟨0, sw, port, entity.lastSeenTimestamp,
        entity.lastSeenTimestamp⟩ := List.mem_singleton.1
    refine ⟨⟨rfl, ?_, List.nodup_singleton _, ?_, ?_, ?_⟩, ?_⟩
    · intro ap hap
      rw [hmem hap]
      exact hv
    · intro ap hap ap' hap' _
      rw [hmem hap, hmem hap']
    · intro ap hap ap' hap' _
      rw [hmem hap, hmem hap']
    · intro ap hap
      rw [hmem hap]
      exact Nat.one_pos
    · intro dom
      unfold Preferences.start
      by_cases hdom : topology.getL2DomainId sw = dom <;> simp [hdom]
  · cases h

end Settled

/-! ## Runs -/

section Runs

variable (ord : HashOrder) {topology : TopologyService} {suppressedAPs : List SwitchPort} {d : Device}
variable {p : Preferences}

/-- A run of sightings none of which displaces an attachment point. -/
theorem Settled.run (cs : List Sighting) (h : d.Settled topology suppressedAPs)
    (hp : d.Prefers topology p) (hd : p.displaced = [])
    (hcs : ∀ pre c post, cs = pre ++ c :: post →
      ¬(d.updateAttachmentPoints ord topology suppressedAPs pre).Displaces topology suppressedAPs c) :
    (d.updateAttachmentPoints ord topology suppressedAPs cs).Settled topology suppressedAPs ∧
      (d.updateAttachmentPoints ord topology suppressedAPs cs).Prefers topology
        (p.seeAll topology suppressedAPs cs) := by
  induction cs generalizing d p with
  | nil => exact ⟨h, hp⟩
  | cons c cs ih =>
    have hu := h.update ord (hcs [] c cs rfl)
    obtain ⟨hp', hd'⟩ := h.prefers_update hu hp hd
    refine ih (h.of_update hu) hp' hd' fun pre c' post heq => ?_
    rw [heq] at hcs
    exact hcs (c :: pre) c' post rfl

/-- **Where a device is attached.** At all times of a run of sightings from a new device, the device
has just the preferred attachment point in each domain, if and only if no sighting displaces an
attachment point. -/
theorem prefers_iff (ports : PortOrder) (topology : TopologyService) (suppressedAPs : List SwitchPort)
    (deviceKey : ℕ) (entity : Entity) (d : Device)
    (h : allocateDevice ports topology suppressedAPs deviceKey entity = some d) (cs : List Sighting) :
    (∀ pre post, cs = pre ++ post → (d.updateAttachmentPoints ord topology suppressedAPs pre).Prefers
      topology ((Preferences.start topology d).seeAll topology suppressedAPs pre)) ↔
      ∀ pre c post, cs = pre ++ c :: post →
        ¬(d.updateAttachmentPoints ord topology suppressedAPs pre).Displaces topology suppressedAPs
          c := by
  obtain ⟨hs, hp⟩ := settled_allocateDevice h
  constructor
  · intro hall
    -- along the run, as long as nothing was displaced the device is settled
    have hnone : ∀ pre post, cs = pre ++ post → ∀ pre' c post', pre = pre' ++ c :: post' →
        ¬(d.updateAttachmentPoints ord topology suppressedAPs pre').Displaces topology suppressedAPs
          c := by
      intro pre
      induction pre using List.reverseRecOn with
      | nil => exact fun _ _ _ _ _ heq => absurd heq.symm (by simp)
      | append_singleton pre c₀ ih =>
        intro post hcs pre' c post' heq
        have ih := ih (c₀ :: post) (by rw [hcs]; simp)
        obtain rfl | ⟨post'', c₁, rfl⟩ := List.eq_nil_or_concat post'
        · obtain ⟨rfl, hc⟩ := List.append_inj' heq rfl
          cases hc
          intro hdisp
          have hpref := hall (pre ++ [c₀]) post hcs
          unfold updateAttachmentPoints at hpref
          rw [List.foldl_append] at hpref
          exact (hs.run ord pre hp rfl ih).1.not_prefers ord hdisp _ hpref
        · have heq' : pre ++ [c₀] = (pre' ++ c :: post'') ++ [c₁] := by rw [heq]; simp
          obtain ⟨rfl, -⟩ := List.append_inj' heq' rfl
          exact ih pre' c post'' rfl
    rintro pre c post rfl
    exact hnone (pre ++ [c]) post (by simp) pre c [] rfl
  · rintro hcs pre post rfl
    refine (hs.run ord pre hp rfl fun pre' c post' heq => ?_).2
    rw [heq] at hcs
    exact hcs pre' c (post' ++ post) (by simp)

/-- A new host at port 1 of switch 1. -/
def newHost : Device :=
  (allocateDevice .unsigned (islands []) [] 0 (.new 7 none none (some 1) (some 1) 0)).get (by decide)

theorem prefers_iff_newHost :
    (∀ pre post, [⟨1, 1, 5⟩, ⟨2, 1, 6⟩] = pre ++ post →
      (newHost.updateAttachmentPoints .insertion (islands []) [] pre).Prefers (islands [])
        ((Preferences.start (islands []) newHost).seeAll (islands []) [] pre)) ↔
      ∀ pre c post, [⟨1, 1, 5⟩, ⟨2, 1, 6⟩] = pre ++ c :: post →
        ¬(newHost.updateAttachmentPoints .insertion (islands []) [] pre).Displaces (islands []) [] c :=
  prefers_iff .insertion .unsigned (islands []) [] 0 (.new 7 none none (some 1) (some 1) 0) newHost
    (Option.some_get _).symm _

/-- The host moves to port 2 and is still attached to port 1. -/
theorem not_prefers_newHost :
    ¬∀ (ord : HashOrder) (ports : PortOrder) (topology : TopologyService)
      (suppressedAPs : List SwitchPort) (deviceKey : ℕ) (entity : Entity) (d : Device),
      allocateDevice ports topology suppressedAPs deviceKey entity = some d →
      ∀ cs : List Sighting, (d.updateAttachmentPoints ord topology suppressedAPs cs).Prefers topology
        ((Preferences.start topology d).seeAll topology suppressedAPs cs) := by
  intro h
  have hp := h .insertion .unsigned (islands []) [] 0 (.new 7 none none (some 1) (some 1) 0) newHost
    (Option.some_get _).symm [⟨1, 2, 1⟩] 1
  revert hp
  decide

end Runs

end Device

end Torpedo
