import Torpedo.LinkDiscovery.Links

/-!
# The indices of the link store agree

A run of `Links` is a sequence of discoveries, timeouts, port-status changes, port deletions and
switch deletions. The indices agree in every state of a run exactly when no deletion meets a link
that only multicast discovery knows: `deleteLinks` clears `switchLinks` and `portLinks` and leaves
`portBroadcastDomainLinks` alone.
-/

namespace Torpedo

namespace Links

/-- The link is in the map of links. -/
def Stored (s : Links) (lt : Link) : Prop := ∃ info, s.links.get lt = some info

/-- The link has no unicast valid time and a multicast valid time. -/
def MulticastOnly (s : Links) (lt : Link) : Prop :=
  ∃ info, s.links.get lt = some info ∧
    info.lastLldpReceivedTime = none ∧ info.lastBddpReceivedTime ≠ none

/-- Every stored link, and no other, is filed under its two end switches and its two end ports; the
links under the broadcast domain ports are the stored ones without a unicast valid time and with a
multicast one; no index keeps an empty set. -/
structure IndicesAgree (s : Links) : Prop where
  switchLinks : s.switchLinks.Indexes Link.endSwitches s.Stored
  portLinks : s.portLinks.Indexes Link.ends s.Stored
  broadcast : s.portBroadcastDomainLinks.Indexes Link.ends s.MulticastOnly

/-- Every stored link has a discovery time. -/
def Timed (s : Links) : Prop :=
  ∀ lt info, s.links.get lt = some info →
    info.lastLldpReceivedTime ≠ none ∨ info.lastBddpReceivedTime ≠ none

/-! ## Operations and runs -/

inductive Op
  | addOrUpdateLink (d : Discovery)
  | timeoutLinks (ord : HashOrder) (curTime : Int)
  | updatePortStatus (ord : HashOrder) (switchId : Dpid) (portnum : OFPort) (ps : OFPortStatus)
  | deleteLinksOnPort (ord : HashOrder) (npt : NodePortTuple)
  | deleteSwitch (ord : HashOrder) (id : Dpid) (ports : List OFPort)

def step (s : Links) : Op → Links
  | .addOrUpdateLink d => s.addOrUpdateLink d
  | .timeoutLinks ord curTime => s.timeoutLinks ord curTime
  | .updatePortStatus ord switchId portnum ps => (s.updatePortStatus ord switchId portnum ps).1
  | .deleteLinksOnPort ord npt => s.deleteLinksOnPort ord npt
  | .deleteSwitch ord id ports => s.deleteSwitch ord id ports

def run (s : Links) (ops : List Op) : Links := ops.foldl step s

/-- No link on the port is known from multicast discovery only. -/
def NoMulticastOnlyOn (s : Links) (npt : NodePortTuple) : Prop :=
  ∀ lt, npt ∈ lt.ends → ¬ s.MulticastOnly lt

/-- A deletion meets no link that only multicast discovery knows. -/
def DeletionSafe (s : Links) : Op → Prop
  | .deleteLinksOnPort _ npt => s.NoMulticastOnlyOn npt
  | .deleteSwitch _ id ports => ∀ port ∈ ports, s.NoMulticastOnlyOn ⟨id, port⟩
  | _ => True

/-- Every step of the run is a safe one. -/
def SafeRun (s : Links) : List Op → Prop
  | [] => True
  | op :: ops => s.DeletionSafe op ∧ SafeRun (s.step op) ops

/-! ## The fields after a notification -/

section Fields

variable (s : Links) (lt l : Link)

@[simp] theorem stored_iff {s : Links} {lt : Link} :
    s.Stored lt ↔ (s.links.get lt).isSome := by
  unfold Stored; rw [Option.isSome_iff_exists]

theorem stored_put {m : HashMap Link LinkInfo} {info : LinkInfo} :
    ((m.put lt info).get l).isSome ↔ (m.get l).isSome ∨ l = lt := by
  rw [HashMap.get_put]; split_ifs with h <;> simp [h]

theorem stored_remove {m : HashMap Link LinkInfo} :
    ((m.remove lt).get l).isSome ↔ (m.get l).isSome ∧ l ≠ lt := by
  rw [HashMap.get_remove]; split_ifs with h <;> simp [h]

end Fields

/-- The indices only look at the four maps. -/
theorem IndicesAgree.of_eq {s s' : Links} (h : s.IndicesAgree) (hl : s'.links = s.links)
    (hs : s'.switchLinks = s.switchLinks) (hp : s'.portLinks = s.portLinks)
    (hb : s'.portBroadcastDomainLinks = s.portBroadcastDomainLinks) : s'.IndicesAgree where
  switchLinks := by rw [hs]; exact h.switchLinks.congr fun l => by simp [hl]
  portLinks := by rw [hp]; exact h.portLinks.congr fun l => by simp [hl]
  broadcast := by rw [hb]; exact h.broadcast.congr fun l => by simp [MulticastOnly, hl]

/-! ## One update of a stored information -/

/-- The multicast-only links after the information of `lt` is replaced. -/
theorem multicastOnly_put {s s' : Links} {lt : Link} {info : LinkInfo}
    (hl : s'.links = s.links.put lt info) (l : Link) :
    s'.MulticastOnly l ↔
      if l = lt then info.lastLldpReceivedTime = none ∧ info.lastBddpReceivedTime ≠ none
      else s.MulticastOnly l := by
  unfold MulticastOnly
  rw [hl]
  simp only [HashMap.get_put]
  split_ifs with h <;> simp

/-- The indices after the information of a stored link is replaced and the broadcast index is
brought in line with it. -/
theorem IndicesAgree.put {s s' : Links} (h : s.IndicesAgree) {lt : Link} {info : LinkInfo}
    (hst : s.Stored lt) (hl : s'.links = s.links.put lt info) (hs : s'.switchLinks = s.switchLinks)
    (hp : s'.portLinks = s.portLinks)
    (hb : s'.portBroadcastDomainLinks.Indexes Link.ends s'.MulticastOnly) : s'.IndicesAgree where
  switchLinks := by
    rw [hs]
    refine h.switchLinks.congr fun l => ?_
    rw [stored_iff, stored_iff, hl, stored_put]
    exact ⟨Or.inl, fun h => h.elim id fun e => e ▸ stored_iff.1 hst⟩
  portLinks := by
    rw [hp]
    refine h.portLinks.congr fun l => ?_
    rw [stored_iff, stored_iff, hl, stored_put]
    exact ⟨Or.inl, fun h => h.elim id fun e => e ▸ stored_iff.1 hst⟩
  broadcast := hb

section Broadcast

variable {s s' : Links} {lt : Link} {info : LinkInfo} (h : s.IndicesAgree)
  (hl : s'.links = s.links.put lt info)

include h hl

theorem IndicesAgree.broadcast_add
    (hb : s'.portBroadcastDomainLinks = (s.portBroadcastDomainLinks.add lt.srcNpt lt).add lt.dstNpt lt)
    (hi : info.lastLldpReceivedTime = none ∧ info.lastBddpReceivedTime ≠ none) :
    s'.portBroadcastDomainLinks.Indexes Link.ends s'.MulticastOnly := by
  rw [hb]
  refine (h.broadcast.add_add rfl).congr fun l => ?_
  rw [multicastOnly_put hl]
  by_cases hlt : l = lt <;> simp [hlt, hi]

theorem IndicesAgree.broadcast_remove
    (hb : s'.portBroadcastDomainLinks =
      (s.portBroadcastDomainLinks.erase lt.srcNpt lt).erase lt.dstNpt lt)
    (hi : ¬(info.lastLldpReceivedTime = none ∧ info.lastBddpReceivedTime ≠ none)) :
    s'.portBroadcastDomainLinks.Indexes Link.ends s'.MulticastOnly := by
  rw [hb]
  refine (h.broadcast.erase_erase rfl).congr fun l => ?_
  rw [multicastOnly_put hl]
  by_cases hlt : l = lt
  · simp only [hlt, ne_eq, not_true_eq_false, and_false, if_true, false_iff]; exact hi
  · simp [hlt]

theorem IndicesAgree.broadcast_same
    (hb : s'.portBroadcastDomainLinks = s.portBroadcastDomainLinks)
    (hi : (info.lastLldpReceivedTime = none ∧ info.lastBddpReceivedTime ≠ none) ↔
      s.MulticastOnly lt) :
    s'.portBroadcastDomainLinks.Indexes Link.ends s'.MulticastOnly := by
  rw [hb]
  refine h.broadcast.congr fun l => ?_
  rw [multicastOnly_put hl]
  by_cases hlt : l = lt
  · rw [if_pos hlt, hi, hlt]
  · rw [if_neg hlt]

end Broadcast

theorem multicastOnly_iff {s : Links} {lt : Link} {info : LinkInfo}
    (hg : s.links.get lt = some info) :
    s.MulticastOnly lt ↔ info.lastLldpReceivedTime = none ∧ info.lastBddpReceivedTime ≠ none := by
  unfold MulticastOnly
  rw [hg]
  exact ⟨fun ⟨i, hi, h⟩ => Option.some.inj hi ▸ h, fun h => ⟨info, rfl, h⟩⟩

/-! ## Discoveries -/

theorem agree_addNewLink {s : Links} (h : s.IndicesAgree) {lt : Link} {newInfo : LinkInfo}
    (hg : s.links.get lt = none)
    (hi : newInfo.lastLldpReceivedTime ≠ none ∨ newInfo.lastBddpReceivedTime ≠ none) :
    (s.addNewLink lt newInfo).IndicesAgree := by
  have hst : ∀ l, s.Stored l ∨ l = lt ↔ ((s.links.put lt newInfo).get l).isSome := fun l => by
    rw [stored_put, stored_iff]
  have hm : ¬ s.MulticastOnly lt := by rintro ⟨i, hi', _⟩; rw [hg] at hi'; cases hi'
  unfold addNewLink
  by_cases hu : newInfo.lastLldpReceivedTime = none
  · simp only [hu, if_true]
    exact ⟨(h.switchLinks.add_add rfl).congr fun l => by rw [hst, stored_iff]; rfl,
      (h.portLinks.add_add rfl).congr fun l => by rw [hst, stored_iff]; rfl,
      h.broadcast_add rfl rfl ⟨hu, hi.resolve_left (not_not.2 hu)⟩⟩
  · simp only [hu, if_false]
    exact ⟨(h.switchLinks.add_add rfl).congr fun l => by rw [hst, stored_iff]; rfl,
      (h.portLinks.add_add rfl).congr fun l => by rw [hst, stored_iff]; rfl,
      h.broadcast_same rfl rfl (by simp [hu, hm])⟩

/-- A copied unicast time is the old one or the new one. -/
theorem copyValidTime_lldp (oldInfo newInfo : LinkInfo) :
    (copyValidTime oldInfo newInfo).lastLldpReceivedTime =
      newInfo.lastLldpReceivedTime.or oldInfo.lastLldpReceivedTime := by
  unfold copyValidTime
  cases h : newInfo.lastLldpReceivedTime <;> cases ho : oldInfo.lastLldpReceivedTime <;>
    simp [h] <;> split_ifs <;> simp [h]

theorem copyValidTime_bddp {oldInfo newInfo : LinkInfo} (h : newInfo.lastBddpReceivedTime ≠ none) :
    (copyValidTime oldInfo newInfo).lastBddpReceivedTime ≠ none := by
  unfold copyValidTime
  split_ifs <;> simp_all

theorem copyValidTime_timed (oldInfo : LinkInfo) {newInfo : LinkInfo}
    (hn : newInfo.lastLldpReceivedTime ≠ none ∨ newInfo.lastBddpReceivedTime ≠ none) :
    (copyValidTime oldInfo newInfo).lastLldpReceivedTime ≠ none ∨
      (copyValidTime oldInfo newInfo).lastBddpReceivedTime ≠ none := by
  rw [copyValidTime_lldp, ne_eq, Option.or_eq_none_iff]
  by_cases hu : newInfo.lastLldpReceivedTime = none
  · exact .inr (copyValidTime_bddp (hn.resolve_left (not_not.2 hu)))
  · exact .inl fun hc => hu hc.1

theorem IndicesAgree.addLinkUpdate {s : Links} (h : s.IndicesAgree) (lt : Link) (info : LinkInfo) :
    (s.addLinkUpdate lt info).IndicesAgree := h.of_eq rfl rfl rfl rfl

/-- The copied times file a link under the same broadcast domain ports as the old ones, unless a
first unicast time arrives. -/
theorem copyValidTime_multicastOnly {oldInfo newInfo : LinkInfo}
    (ho : oldInfo.lastLldpReceivedTime ≠ none ∨ oldInfo.lastBddpReceivedTime ≠ none)
    (hn : newInfo.lastLldpReceivedTime ≠ none ∨ newInfo.lastBddpReceivedTime ≠ none)
    (hB : ¬(oldInfo.lastLldpReceivedTime = none ∧
      (copyValidTime oldInfo newInfo).lastLldpReceivedTime ≠ none)) :
    ((copyValidTime oldInfo newInfo).lastLldpReceivedTime = none ∧
        (copyValidTime oldInfo newInfo).lastBddpReceivedTime ≠ none) ↔
      oldInfo.lastLldpReceivedTime = none ∧ oldInfo.lastBddpReceivedTime ≠ none := by
  rw [copyValidTime_lldp, Option.or_eq_none_iff] at *
  constructor
  · rintro ⟨⟨_, hu⟩, _⟩
    exact ⟨hu, ho.resolve_left (not_not.2 hu)⟩
  · rintro ⟨hu, _⟩
    have hnu : newInfo.lastLldpReceivedTime = none := by
      by_contra hne
      exact hB ⟨hu, fun h => hne ((Option.or_eq_none_iff.1 h).1)⟩
    exact ⟨⟨hnu, hu⟩, copyValidTime_bddp (hn.resolve_left (not_not.2 hnu))⟩

theorem agree_updateLink {s : Links} (h : s.IndicesAgree) {lt : Link} {oldInfo newInfo : LinkInfo}
    (hg : s.links.get lt = some oldInfo)
    (ho : oldInfo.lastLldpReceivedTime ≠ none ∨ oldInfo.lastBddpReceivedTime ≠ none)
    (hn : newInfo.lastLldpReceivedTime ≠ none ∨ newInfo.lastBddpReceivedTime ≠ none) :
    (s.updateLink lt oldInfo newInfo).1.IndicesAgree := by
  unfold updateLink
  dsimp only
  generalize hN : (if oldInfo.firstSeenTime < newInfo.firstSeenTime then
      { newInfo with firstSeenTime := oldInfo.firstSeenTime } else newInfo) = N
  have hN' : N.lastLldpReceivedTime ≠ none ∨ N.lastBddpReceivedTime ≠ none := by
    rw [← hN]; split_ifs <;> exact hn
  have hst : s.Stored lt := ⟨oldInfo, hg⟩
  have hA : ¬(oldInfo.lastLldpReceivedTime ≠ none ∧
      (copyValidTime oldInfo N).lastLldpReceivedTime = none) := by
    rintro ⟨hu, hm⟩
    rw [copyValidTime_lldp] at hm
    exact hu (Option.or_eq_none_iff.1 hm).2
  rw [if_neg hA]
  by_cases hB : oldInfo.lastLldpReceivedTime = none ∧
      (copyValidTime oldInfo N).lastLldpReceivedTime ≠ none
  · rw [if_pos hB]
    refine IndicesAgree.addLinkUpdate ?_ lt _
    exact h.put hst rfl rfl rfl (h.broadcast_remove rfl rfl fun hc => hB.2 hc.1)
  · rw [if_neg hB]
    have hs : ({ s with links := s.links.put lt (copyValidTime oldInfo N) } : Links).IndicesAgree :=
      h.put hst rfl rfl rfl (h.broadcast_same rfl rfl
        ((copyValidTime_multicastOnly ho hN' hB).trans (multicastOnly_iff hg).symm))
    dsimp only
    split_ifs
    · exact hs.addLinkUpdate lt _
    · exact hs

theorem agree_addOrUpdateLinkInfo {s : Links} (h : s.IndicesAgree) (hT : s.Timed) {lt : Link}
    {newInfo : LinkInfo}
    (hn : newInfo.lastLldpReceivedTime ≠ none ∨ newInfo.lastBddpReceivedTime ≠ none) :
    (s.addOrUpdateLinkInfo lt newInfo).1.IndicesAgree := by
  unfold addOrUpdateLinkInfo
  cases hg : s.links.get lt with
  | none => exact agree_addNewLink h hg hn
  | some oldInfo => exact agree_updateLink h hg (hT lt oldInfo hg) hn

/-- The information that `addOrUpdateLinkInfo` leaves under the link. -/
theorem get_addOrUpdateLinkInfo (s : Links) (lt : Link) (newInfo : LinkInfo) (l : Link) :
    (s.addOrUpdateLinkInfo lt newInfo).1.links.get l =
      if l = lt then
        match s.links.get lt with
        | none => some newInfo
        | some oldInfo => some (copyValidTime oldInfo
            (if oldInfo.firstSeenTime < newInfo.firstSeenTime then
              { newInfo with firstSeenTime := oldInfo.firstSeenTime } else newInfo))
      else s.links.get l := by
  unfold addOrUpdateLinkInfo
  cases hg : s.links.get lt with
  | none =>
    unfold addNewLink addLinkUpdateAs addLinkToBroadcastDomain
    dsimp only
    split_ifs <;> simp_all [HashMap.get_put]
  | some oldInfo =>
    unfold updateLink addLinkUpdate addLinkToBroadcastDomain removeLinkFromBroadcastDomain
    dsimp only
    split_ifs <;> simp_all [HashMap.get_put]

theorem timed_addOrUpdateLinkInfo {s : Links} (hT : s.Timed) {lt : Link} {newInfo : LinkInfo}
    (hn : newInfo.lastLldpReceivedTime ≠ none ∨ newInfo.lastBddpReceivedTime ≠ none) :
    (s.addOrUpdateLinkInfo lt newInfo).1.Timed := by
  intro l info hl
  rw [get_addOrUpdateLinkInfo] at hl
  split_ifs at hl
  · cases hg : s.links.get lt with
    | none => rw [hg] at hl; exact Option.some.inj hl ▸ hn
    | some oldInfo =>
      rw [hg] at hl
      obtain rfl := Option.some.inj hl
      refine copyValidTime_timed oldInfo ?_
      split_ifs <;> exact hn
  · exact hT l info hl

/-- A discovery brings one of the two discovery times. -/
theorem Discovery.info_timed (d : Discovery) :
    d.info.lastLldpReceivedTime ≠ none ∨ d.info.lastBddpReceivedTime ≠ none := by
  unfold Discovery.info Discovery.lastLldpTime Discovery.lastBddpTime
  cases d.isStandard <;> simp

theorem Discovery.reverseInfo_timed (d : Discovery) :
    d.reverseInfo.lastLldpReceivedTime ≠ none ∨ d.reverseInfo.lastBddpReceivedTime ≠ none :=
  d.info_timed

theorem links_probeReverse (s : Links) (d : Discovery) : (s.probeReverse d).links = s.links := by
  unfold probeReverse
  split
  · rfl
  · split_ifs <;> rfl

theorem agree_probeReverse {s : Links} (h : s.IndicesAgree) (d : Discovery) :
    (s.probeReverse d).IndicesAgree := by
  unfold probeReverse
  split
  · exact h
  · split_ifs
    · exact h.of_eq rfl rfl rfl rfl
    · exact h

theorem timed_probeReverse {s : Links} (hT : s.Timed) (d : Discovery) :
    (s.probeReverse d).Timed := by
  unfold Timed
  rw [links_probeReverse]
  exact hT

theorem timed_addOrUpdateLink {s : Links} (hT : s.Timed) (d : Discovery) :
    (s.addOrUpdateLink d).Timed := by
  have hT₁ : ((s.addOrUpdateLinkInfo d.link d.info).1.probeReverse d).Timed :=
    timed_probeReverse (timed_addOrUpdateLinkInfo hT d.info_timed) d
  unfold addOrUpdateLink
  dsimp only
  split_ifs
  · exact hT₁
  · exact timed_addOrUpdateLinkInfo hT₁ d.reverseInfo_timed

theorem agree_addOrUpdateLink {s : Links} (h : s.IndicesAgree) (hT : s.Timed) (d : Discovery) :
    (s.addOrUpdateLink d).IndicesAgree := by
  have h₀ : (s.addOrUpdateLinkInfo d.link d.info).1.IndicesAgree :=
    agree_addOrUpdateLinkInfo h hT d.info_timed
  have h₁ := agree_probeReverse h₀ d
  have hT₁ : ((s.addOrUpdateLinkInfo d.link d.info).1.probeReverse d).Timed :=
    timed_probeReverse (timed_addOrUpdateLinkInfo hT d.info_timed) d
  unfold addOrUpdateLink
  dsimp only
  split_ifs
  · exact h₁
  · exact agree_addOrUpdateLinkInfo h₁ hT₁ d.reverseInfo_timed

/-! ## Port status -/

/-- Replacing the port states of a stored link keeps the indices and the discovery times. -/
theorem agree_updateLinkStatus {st : Links × Bool} (h : st.1.IndicesAgree)
    (npt : NodePortTuple) (state : Finset OFPortState) (lt : Link) :
    (updateLinkStatus npt state st lt).1.IndicesAgree := by
  unfold updateLinkStatus
  cases hg : st.1.links.get lt with
  | none => exact h
  | some info =>
    dsimp only
    split_ifs
    · refine IndicesAgree.addLinkUpdate ?_ lt _
      exact h.put ⟨info, hg⟩ rfl rfl rfl
        (h.broadcast_same rfl rfl (multicastOnly_iff hg).symm)
    · exact h

theorem timed_updateLinkStatus {st : Links × Bool} (hT : st.1.Timed)
    (npt : NodePortTuple) (state : Finset OFPortState) (lt : Link) :
    (updateLinkStatus npt state st lt).1.Timed := by
  unfold updateLinkStatus
  cases hg : st.1.links.get lt with
  | none => exact hT
  | some info =>
    dsimp only
    split_ifs
    · intro l i hl
      replace hl : (st.1.links.put lt (updatePortState npt state lt info)).get l = some i := hl
      rw [HashMap.get_put] at hl
      split_ifs at hl
      · exact Option.some.inj hl ▸ hT lt info hg
      · exact hT l i hl
    · exact hT

/-- What every round of the loop of `updatePortStatus` keeps holds after it. -/
theorem foldl_updateLinkStatus {P : Links → Prop} (npt : NodePortTuple)
    (state : Finset OFPortState)
    (hP : ∀ (st : Links × Bool) (lt : Link), P st.1 → P (updateLinkStatus npt state st lt).1)
    (ls : List Link) : ∀ st : Links × Bool, P st.1 →
      P (ls.foldl (updateLinkStatus npt state) st).1 := by
  induction ls with
  | nil => exact fun st h => h
  | cons lt ls ih => exact fun st h => ih _ (hP st lt h)

theorem agree_updatePortStatus {s : Links} (h : s.IndicesAgree) (ord : HashOrder)
    (switchId : Dpid) (portnum : OFPort) (ps : OFPortStatus) :
    (s.updatePortStatus ord switchId portnum ps).1.IndicesAgree := by
  unfold updatePortStatus
  dsimp only
  split
  · exact h.of_eq rfl rfl rfl rfl
  · rename_i links _
    have h' := foldl_updateLinkStatus ⟨switchId, portnum⟩ ps.desc.state
      (fun st lt h => agree_updateLinkStatus h _ _ lt) (ord.iter links) (s, false) h
    exact h'.of_eq rfl rfl rfl rfl

theorem timed_updatePortStatus {s : Links} (hT : s.Timed) (ord : HashOrder)
    (switchId : Dpid) (portnum : OFPort) (ps : OFPortStatus) :
    (s.updatePortStatus ord switchId portnum ps).1.Timed := by
  unfold updatePortStatus
  dsimp only
  split
  · exact hT
  · rename_i links _
    exact foldl_updateLinkStatus ⟨switchId, portnum⟩ ps.desc.state
      (fun st lt h => timed_updateLinkStatus h _ _ lt) (ord.iter links) (s, false) hT

/-! ## Deletion -/

theorem multicastOnly_deleteLink (s : Links) (lt l : Link) :
    (s.deleteLink lt).MulticastOnly l ↔ s.MulticastOnly l ∧ l ≠ lt := by
  unfold MulticastOnly deleteLink addLinkUpdateAs
  simp only [HashMap.get_remove]
  split_ifs with h <;> simp [h]

theorem agree_deleteLink {s : Links} (h : s.IndicesAgree) {lt : Link}
    (hm : ¬ s.MulticastOnly lt) : (s.deleteLink lt).IndicesAgree where
  switchLinks := (h.switchLinks.erase_erase rfl).congr fun l => by
    rw [stored_iff, stored_iff]; exact (stored_remove lt l).symm
  portLinks := (h.portLinks.erase_erase rfl).congr fun l => by
    rw [stored_iff, stored_iff]; exact (stored_remove lt l).symm
  broadcast := h.broadcast.congr fun l => by
    rw [multicastOnly_deleteLink]
    exact ⟨fun hl => ⟨hl, fun e => hm (e ▸ hl)⟩, And.left⟩

theorem get_deleteLinks (ls : List Link) (l : Link) :
    ∀ s : Links, (s.deleteLinks ls).links.get l = if l ∈ ls then none else s.links.get l := by
  unfold deleteLinks
  induction ls with
  | nil => intro s; simp
  | cons lt ls ih =>
    intro s
    rw [List.foldl_cons, ih]
    unfold deleteLink addLinkUpdateAs
    rw [HashMap.get_remove]
    by_cases h : l ∈ ls <;> by_cases h' : l = lt <;> simp [h, h']

theorem agree_deleteLinks (ls : List Link) :
    ∀ s : Links, s.IndicesAgree → (∀ lt ∈ ls, ¬ s.MulticastOnly lt) →
      (s.deleteLinks ls).IndicesAgree := by
  unfold deleteLinks
  induction ls with
  | nil => intro s h _; exact h
  | cons lt ls ih =>
    intro s h hm
    refine ih _ (agree_deleteLink h (hm lt List.mem_cons_self)) fun l hl => ?_
    rw [multicastOnly_deleteLink]
    exact fun hc => hm l (List.mem_cons_of_mem _ hl) hc.1

theorem timed_deleteLinks {s : Links} (hT : s.Timed) (ls : List Link) :
    (s.deleteLinks ls).Timed := by
  intro l info hl
  rw [get_deleteLinks] at hl
  split_ifs at hl
  exact hT l info hl

/-- The links found under a port are the stored ones that end there. -/
theorem IndicesAgree.mem_portLinks {s : Links} (h : s.IndicesAgree) {npt : NodePortTuple}
    {ls : List Link} (hls : s.portLinks.get npt = some ls) {lt : Link} :
    lt ∈ ls ↔ s.Stored lt ∧ npt ∈ lt.ends := h.portLinks.mem_get_iff hls lt

theorem agree_deleteLinksOnPort {s : Links} (h : s.IndicesAgree) (ord : HashOrder)
    {npt : NodePortTuple} (hsafe : s.NoMulticastOnlyOn npt) :
    (s.deleteLinksOnPort ord npt).IndicesAgree := by
  unfold deleteLinksOnPort
  split
  · exact h.of_eq rfl rfl rfl rfl
  · rename_i ls hls
    refine (agree_deleteLinks (ord.iter ls) s h fun lt hlt => ?_).of_eq rfl rfl rfl rfl
    rw [HashOrder.mem_iter] at hlt
    exact hsafe lt ((h.mem_portLinks hls).1 hlt).2

theorem timed_deleteLinksOnPort {s : Links} (hT : s.Timed) (ord : HashOrder) (npt : NodePortTuple) :
    (s.deleteLinksOnPort ord npt).Timed := by
  unfold deleteLinksOnPort
  split
  · exact hT
  · exact timed_deleteLinks hT _

/-- A deletion makes no link multicast-only. -/
theorem multicastOnly_of_deleteLinksOnPort {s : Links} {ord : HashOrder} {npt : NodePortTuple}
    {lt : Link} (h : (s.deleteLinksOnPort ord npt).MulticastOnly lt) : s.MulticastOnly lt := by
  obtain ⟨info, hg, hi⟩ := h
  refine ⟨info, ?_, hi⟩
  unfold deleteLinksOnPort at hg
  split at hg
  · exact hg
  · replace hg : (s.deleteLinks _).links.get lt = some info := hg
    rw [get_deleteLinks] at hg
    split_ifs at hg
    exact hg

theorem timed_deleteSwitch (ord : HashOrder) (id : Dpid) (ports : List OFPort) :
    ∀ s : Links, s.Timed → (s.deleteSwitch ord id ports).Timed := by
  unfold deleteSwitch
  induction ports with
  | nil => exact fun s hT => hT
  | cons port ports ih => exact fun s hT => ih _ (timed_deleteLinksOnPort hT ord _)

theorem agree_deleteSwitch (ord : HashOrder) (id : Dpid) (ports : List OFPort) :
    ∀ s : Links, s.IndicesAgree → (∀ port ∈ ports, s.NoMulticastOnlyOn ⟨id, port⟩) →
      (s.deleteSwitch ord id ports).IndicesAgree := by
  unfold deleteSwitch
  induction ports with
  | nil => exact fun s h _ => h
  | cons port ports ih =>
    intro s h hsafe
    refine ih _ (agree_deleteLinksOnPort h ord (hsafe port List.mem_cons_self))
      fun p hp lt hlt hm => ?_
    exact hsafe p (List.mem_cons_of_mem _ hp) lt hlt (multicastOnly_of_deleteLinksOnPort hm)

/-! ## Timeouts -/

theorem agree_expireUnicast {s : Links} (h : s.IndicesAgree) {lt : Link} {info : LinkInfo}
    (hg : s.links.get lt = some info) (curTime : Int) :
    (s.expireUnicast curTime lt info).1.IndicesAgree := by
  unfold expireUnicast
  split_ifs with hx
  · dsimp only
    have hu : info.lastLldpReceivedTime ≠ none := by
      obtain ⟨t, ht, _⟩ := hx; rw [ht]; exact Option.some_ne_none t
    split_ifs with hm
    · exact h.put ⟨info, hg⟩ rfl rfl rfl
        (h.broadcast_add rfl rfl ⟨rfl, Option.isSome_iff_ne_none.1 hm⟩)
    · refine h.put ⟨info, hg⟩ rfl rfl rfl (h.broadcast_same rfl rfl ?_)
      rw [multicastOnly_iff hg]
      exact ⟨fun hc => absurd hc.2 (by simpa using hm), fun hc => absurd hc.1 hu⟩
  · exact h

theorem get_expireUnicast {s : Links} {lt : Link} {info : LinkInfo}
    (hg : s.links.get lt = some info) (curTime : Int) (l : Link) :
    (s.expireUnicast curTime lt info).1.links.get l =
      if l = lt then some (s.expireUnicast curTime lt info).2.1 else s.links.get l := by
  unfold expireUnicast addLinkToBroadcastDomain
  dsimp only
  split_ifs <;> simp_all [HashMap.get_put]

theorem agree_expireMulticast {s : Links} (h : s.IndicesAgree) {lt : Link} {info : LinkInfo}
    (hg : s.links.get lt = some info) (curTime : Int) :
    (s.expireMulticast curTime lt info).1.IndicesAgree := by
  unfold expireMulticast
  split_ifs with hx
  · exact h.put ⟨info, hg⟩ rfl rfl rfl (h.broadcast_remove rfl rfl fun hc => hc.2 rfl)
  · exact h

theorem get_expireMulticast {s : Links} {lt : Link} {info : LinkInfo}
    (hg : s.links.get lt = some info) (curTime : Int) (l : Link) :
    (s.expireMulticast curTime lt info).1.links.get l =
      if l = lt then some (s.expireMulticast curTime lt info).2.1 else s.links.get l := by
  unfold expireMulticast removeLinkFromBroadcastDomain
  dsimp only
  split_ifs <;> simp_all [HashMap.get_put]

/-- The information of a link after both timeouts. -/
def expired (s : Links) (curTime : Int) (lt : Link) (info : LinkInfo) : Links × LinkInfo × Bool :=
  (s.expireUnicast curTime lt info).1.expireMulticast curTime lt
    (s.expireUnicast curTime lt info).2.1

theorem agree_expired {s : Links} (h : s.IndicesAgree) {lt : Link} {info : LinkInfo}
    (hg : s.links.get lt = some info) (curTime : Int) :
    (s.expired curTime lt info).1.IndicesAgree :=
  agree_expireMulticast (agree_expireUnicast h hg curTime)
    (by rw [get_expireUnicast hg, if_pos rfl]) curTime

theorem get_expired {s : Links} {lt : Link} {info : LinkInfo} (hg : s.links.get lt = some info)
    (curTime : Int) (l : Link) :
    (s.expired curTime lt info).1.links.get l =
      if l = lt then some (s.expired curTime lt info).2.1 else s.links.get l := by
  unfold expired
  rw [get_expireMulticast (by rw [get_expireUnicast hg, if_pos rfl])]
  split_ifs with h
  · rfl
  · rw [get_expireUnicast hg, if_neg h]

/-- What the loop of `timeoutLinks` keeps: the links without a discovery time are those on the
erase list. -/
structure TimeoutInv (st : TimeoutState) : Prop where
  erased : ∀ lt ∈ st.eraseList, ∀ info, st.store.links.get lt = some info →
    info.lastLldpReceivedTime = none ∧ info.lastBddpReceivedTime = none
  timed : ∀ lt info, st.store.links.get lt = some info → lt ∉ st.eraseList →
    info.lastLldpReceivedTime ≠ none ∨ info.lastBddpReceivedTime ≠ none

theorem TimeoutInv.timeoutLink {st : TimeoutState} (h : TimeoutInv st) (curTime : Int) (lt : Link) :
    TimeoutInv (timeoutLink curTime st lt) := by
  unfold Links.timeoutLink
  cases hg : st.store.links.get lt with
  | none => exact h
  | some info =>
    have hget := get_expired hg curTime
    unfold expired at hget
    dsimp only
    -- the links other than `lt` keep their information
    have hold : ∀ l i, l ≠ lt →
        ((st.store.expireUnicast curTime lt info).1.expireMulticast curTime lt
          (st.store.expireUnicast curTime lt info).2.1).1.links.get l = some i →
        st.store.links.get l = some i := fun l i hl hi => by rwa [hget, if_neg hl] at hi
    split_ifs with hn hc
    · refine ⟨fun l hl i hi => ?_, fun l i hi hl => ?_⟩
      · by_cases e : l = lt
        · rw [hget, if_pos e] at hi; exact Option.some.inj hi ▸ hn
        · exact h.erased l ((List.mem_append.1 hl).resolve_right (by simpa using e)) i (hold l i e hi)
      · rw [List.mem_append, not_or, List.mem_singleton] at hl
        exact h.timed l i (hold l i hl.2 hi) hl.1
    all_goals
      refine ⟨fun l hl i hi => ?_, fun l i hi hl => ?_⟩
      · have e : l ≠ lt := fun e => hn (by
          have h₀ := h.erased lt (e ▸ hl) info hg
          have : ¬ Expired info.lastLldpReceivedTime curTime := by
            rintro ⟨t, ht, _⟩; rw [h₀.1] at ht; cases ht
          have h₁ : (st.store.expireUnicast curTime lt info) = (st.store, info, false) := if_neg this
          have : ¬ Expired info.lastBddpReceivedTime curTime := by
            rintro ⟨t, ht, _⟩; rw [h₀.2] at ht; cases ht
          rw [h₁]
          unfold expireMulticast
          rw [if_neg this]; exact h₀)
        exact h.erased l hl i (hold l i e hi)
      · by_cases e : l = lt
        · have hi' := (hget l).symm.trans hi
          rw [if_pos e] at hi'
          rw [← Option.some.inj hi']
          exact not_and_or.1 hn
        · exact h.timed l i (hold l i e hi) hl

theorem agree_timeoutLink {st : TimeoutState} (h : st.store.IndicesAgree) (curTime : Int)
    (lt : Link) : (timeoutLink curTime st lt).store.IndicesAgree := by
  unfold timeoutLink
  cases hg : st.store.links.get lt with
  | none => exact h
  | some info =>
    have hagree := agree_expired h hg curTime
    unfold expired at hagree
    dsimp only
    split_ifs
    · exact hagree
    · exact hagree.addLinkUpdate lt _
    · exact hagree

/-- What every round of the loop of `timeoutLinks` keeps holds after it. -/
theorem foldl_timeoutLink {P : TimeoutState → Prop} {curTime : Int}
    (hP : ∀ st lt, P st → P (timeoutLink curTime st lt)) (ls : List Link) :
    ∀ st, P st → P (ls.foldl (timeoutLink curTime) st) := by
  induction ls with
  | nil => exact fun st h => h
  | cons lt ls ih => exact fun st h => ih _ (hP st lt h)

theorem timeoutInv_init {s : Links} (hT : s.Timed) : TimeoutInv ⟨s, [], false⟩ :=
  ⟨by simp, fun lt info hg _ => hT lt info hg⟩

/-- The state of the store after the loop of `timeoutLinks` and after its deletions. -/
theorem timeoutLinks_eq (ord : HashOrder) (s : Links) (curTime : Int) :
    ∃ st, st = (ord.iter s.links.keySet).foldl (timeoutLink curTime) ⟨s, [], false⟩ ∧
      s.timeoutLinks ord curTime = st.store.deleteLinks st.eraseList := by
  refine ⟨_, rfl, ?_⟩
  unfold timeoutLinks
  dsimp only
  split_ifs with hc
  · rfl
  · rw [not_or, Nat.not_lt, Nat.le_zero, List.length_eq_zero_iff] at hc
    rw [hc.1]
    rfl

theorem timed_timeoutLinks {s : Links} (hT : s.Timed) (ord : HashOrder) (curTime : Int) :
    (s.timeoutLinks ord curTime).Timed := by
  obtain ⟨st, hst, he⟩ := timeoutLinks_eq ord s curTime
  have hL : TimeoutInv st :=
    hst ▸ foldl_timeoutLink (fun st lt h => h.timeoutLink curTime lt) _ _ (timeoutInv_init hT)
  rw [he]
  intro lt info hg
  rw [get_deleteLinks] at hg
  split_ifs at hg with hlt
  exact hL.timed lt info hg hlt

theorem agree_timeoutLinks {s : Links} (h : s.IndicesAgree) (hT : s.Timed) (ord : HashOrder)
    (curTime : Int) : (s.timeoutLinks ord curTime).IndicesAgree := by
  obtain ⟨st, hst, he⟩ := timeoutLinks_eq ord s curTime
  have hL : TimeoutInv st :=
    hst ▸ foldl_timeoutLink (fun st lt h => h.timeoutLink curTime lt) _ _ (timeoutInv_init hT)
  have hA : st.store.IndicesAgree :=
    hst ▸ foldl_timeoutLink (P := fun st => st.store.IndicesAgree)
      (fun st lt h => agree_timeoutLink h curTime lt) _ ⟨s, [], false⟩ h
  rw [he]
  refine agree_deleteLinks _ _ hA fun lt hlt => ?_
  rintro ⟨info, hg, _, hm⟩
  exact hm (hL.erased lt hlt info hg).2

/-! ## Runs -/

theorem agree_empty : empty.IndicesAgree where
  switchLinks := SetMap.indexes_empty.congr fun l => by simp [Links.empty]
  portLinks := SetMap.indexes_empty.congr fun l => by simp [Links.empty]
  broadcast := SetMap.indexes_empty.congr fun l => by simp [MulticastOnly, Links.empty]

theorem agree_step {s : Links} (h : s.IndicesAgree) (hT : s.Timed) {op : Op}
    (hsafe : s.DeletionSafe op) : (s.step op).IndicesAgree ∧ (s.step op).Timed := by
  cases op with
  | addOrUpdateLink d => exact ⟨agree_addOrUpdateLink h hT d, timed_addOrUpdateLink hT d⟩
  | timeoutLinks ord curTime =>
    exact ⟨agree_timeoutLinks h hT ord curTime, timed_timeoutLinks hT ord curTime⟩
  | updatePortStatus ord switchId portnum ps =>
    exact ⟨agree_updatePortStatus h ord switchId portnum ps,
      timed_updatePortStatus hT ord switchId portnum ps⟩
  | deleteLinksOnPort ord npt =>
    exact ⟨agree_deleteLinksOnPort h ord hsafe, timed_deleteLinksOnPort hT ord npt⟩
  | deleteSwitch ord id ports =>
    exact ⟨agree_deleteSwitch ord id ports s h hsafe, timed_deleteSwitch ord id ports s hT⟩

/-! ### Unsafe deletions -/

theorem broadcast_deleteLinks (ls : List Link) :
    ∀ s : Links, (s.deleteLinks ls).portBroadcastDomainLinks = s.portBroadcastDomainLinks := by
  unfold deleteLinks
  induction ls with
  | nil => intro s; rfl
  | cons lt ls ih => intro s; rw [List.foldl_cons, ih]; rfl

theorem broadcast_deleteLinksOnPort (ord : HashOrder) (s : Links) (npt : NodePortTuple) :
    (s.deleteLinksOnPort ord npt).portBroadcastDomainLinks = s.portBroadcastDomainLinks := by
  unfold deleteLinksOnPort
  split
  · rfl
  · exact broadcast_deleteLinks _ s

theorem broadcast_deleteSwitch (ord : HashOrder) (id : Dpid) (ports : List OFPort) :
    ∀ s : Links, (s.deleteSwitch ord id ports).portBroadcastDomainLinks =
      s.portBroadcastDomainLinks := by
  unfold deleteSwitch
  induction ports with
  | nil => intro s; rfl
  | cons port ports ih => intro s; rw [List.foldl_cons, ih, broadcast_deleteLinksOnPort]

theorem portLinks_deleteLinks (ls : List Link) :
    ∀ s : Links, s.portLinks.Indexes Link.ends s.Stored →
      (s.deleteLinks ls).portLinks.Indexes Link.ends (s.deleteLinks ls).Stored := by
  unfold deleteLinks
  induction ls with
  | nil => intro s h; exact h
  | cons lt ls ih =>
    intro s h
    refine ih _ ((h.erase_erase rfl).congr fun l => ?_)
    rw [stored_iff, stored_iff]; exact (stored_remove lt l).symm

theorem portLinks_deleteLinksOnPort {s : Links} (h : s.portLinks.Indexes Link.ends s.Stored)
    (ord : HashOrder) (npt : NodePortTuple) :
    (s.deleteLinksOnPort ord npt).portLinks.Indexes Link.ends (s.deleteLinksOnPort ord npt).Stored := by
  unfold deleteLinksOnPort
  split
  · exact h
  · exact portLinks_deleteLinks _ s h

/-- A deletion leaves the links that do not end on the port and removes the others. -/
theorem stored_deleteLinksOnPort {s : Links} (h : s.portLinks.Indexes Link.ends s.Stored)
    (ord : HashOrder) (npt : NodePortTuple) (lt : Link) :
    (s.deleteLinksOnPort ord npt).Stored lt ↔ s.Stored lt ∧ npt ∉ lt.ends := by
  unfold deleteLinksOnPort
  split
  · rename_i hn
    refine ⟨fun hs => ⟨hs, fun he => ?_⟩, And.left⟩
    have := (h.get_isSome_iff npt).2 ⟨lt, hs, he⟩
    rw [hn] at this; cases this
  · rename_i ls hls
    have hm := h.mem_get_iff hls lt
    rw [stored_iff] at hm ⊢
    change ((s.deleteLinks (ord.iter ls)).links.get lt).isSome ↔ _
    rw [get_deleteLinks]
    simp only [HashOrder.mem_iter, stored_iff]
    split_ifs with hlt
    · simp [(hm.1 hlt).2]
    · exact ⟨fun hs => ⟨hs, fun he => hlt (hm.2 ⟨hs, he⟩)⟩, And.left⟩

theorem stored_deleteSwitch (ord : HashOrder) (id : Dpid) (ports : List OFPort) (lt : Link) :
    ∀ s : Links, s.portLinks.Indexes Link.ends s.Stored →
      ((s.deleteSwitch ord id ports).Stored lt ↔
        s.Stored lt ∧ ∀ port ∈ ports, ⟨id, port⟩ ∉ lt.ends) := by
  unfold deleteSwitch
  induction ports with
  | nil => intro s _; simp
  | cons port ports ih =>
    intro s h
    rw [List.foldl_cons, ih _ (portLinks_deleteLinksOnPort h ord _), stored_deleteLinksOnPort h,
      List.forall_mem_cons, and_assoc]

/-- A deletion that meets a multicast-only link leaves it under its broadcast domain ports. -/
theorem not_agree_of_dangling {s s' : Links} (h : s.IndicesAgree) {lt : Link}
    (hm : s.MulticastOnly lt)
    (hb : s'.portBroadcastDomainLinks = s.portBroadcastDomainLinks) (hs : ¬ s'.Stored lt) :
    ¬ s'.IndicesAgree := by
  intro h'
  have hhas := (h.broadcast.has_iff lt.srcNpt lt).2 ⟨hm, by simp⟩
  rw [← hb] at hhas
  obtain ⟨info, hg, _⟩ := ((h'.broadcast.has_iff _ _).1 hhas).1
  exact hs ⟨info, hg⟩

theorem not_agree_step {s : Links} (h : s.IndicesAgree) {op : Op} (hsafe : ¬ s.DeletionSafe op) :
    ¬ (s.step op).IndicesAgree := by
  cases op with
  | addOrUpdateLink | timeoutLinks | updatePortStatus => exact absurd trivial hsafe
  | deleteLinksOnPort ord npt =>
    simp only [DeletionSafe, NoMulticastOnlyOn, not_forall, not_not] at hsafe
    obtain ⟨lt, he, hm⟩ := hsafe
    refine not_agree_of_dangling h hm (broadcast_deleteLinksOnPort ord s npt) ?_
    exact fun hs => ((stored_deleteLinksOnPort h.portLinks ord npt lt).1 hs).2 he
  | deleteSwitch ord id ports =>
    simp only [DeletionSafe, NoMulticastOnlyOn, not_forall, not_not] at hsafe
    obtain ⟨port, hp, lt, he, hm⟩ := hsafe
    refine not_agree_of_dangling h hm (broadcast_deleteSwitch ord id ports s) ?_
    exact fun hs => ((stored_deleteSwitch ord id ports lt s h.portLinks).1 hs).2 port hp he

theorem agree_prefixes_iff (ops : List Op) :
    ∀ s : Links, s.IndicesAgree → s.Timed →
      ((∀ k, (s.run (ops.take k)).IndicesAgree) ↔ s.SafeRun ops) := by
  induction ops with
  | nil => intro s h _; simpa [SafeRun, run] using h
  | cons op ops ih =>
    intro s h hT
    by_cases hsafe : s.DeletionSafe op
    · obtain ⟨h', hT'⟩ := agree_step h hT hsafe
      rw [SafeRun, ← ih _ h' hT']
      refine ⟨fun hk => ⟨hsafe, fun k => hk (k + 1)⟩, fun hk k => ?_⟩
      cases k with
      | zero => exact h
      | succ k => exact hk.2 k
    · exact iff_of_false (fun hk => not_agree_step h hsafe (hk 1)) fun hs => hsafe hs.1

/-- **The indices agree in every state of a run exactly when no deletion meets a link that only
multicast discovery knows.** -/
theorem indicesAgree_iff_safeRun (ops : List Op) :
    (∀ k, (empty.run (ops.take k)).IndicesAgree) ↔ empty.SafeRun ops :=
  agree_prefixes_iff ops empty agree_empty fun lt info hg => by simp [Links.empty] at hg

/-! ### A port deletion after a multicast discovery -/

/-- A BDDP packet of port 1 of switch 1 received on port 1 of switch 2. -/
def bddpDiscovery : Discovery where
  remoteSwitchId := 1
  remotePort := 1
  remotePhyPort := some ⟨1, ∅, ∅⟩
  localSwitchId := 2
  localInPort := 1
  localInPhyPort := some ⟨1, ∅, ∅⟩
  isStandard := false
  isReverse := false
  firstSeenTime := 0
  lastTime := 0
  probeTime := 0

/-- The broadcast domain index still files the link after the port is deleted. -/
theorem not_indicesAgree_after_port_deletion :
    ¬ (empty.run [.addOrUpdateLink bddpDiscovery, .deleteLinksOnPort .insertion ⟨1, 1⟩]).IndicesAgree := by
  intro h
  have hhas : (empty.run [.addOrUpdateLink bddpDiscovery,
      .deleteLinksOnPort .insertion ⟨1, 1⟩]).portBroadcastDomainLinks.Has ⟨1, 1⟩
        bddpDiscovery.link := by decide
  obtain ⟨info, hg, _⟩ := ((h.broadcast.has_iff _ _).1 hhas).1
  have hn : (empty.run [.addOrUpdateLink bddpDiscovery,
      .deleteLinksOnPort .insertion ⟨1, 1⟩]).links.get bddpDiscovery.link = none := by decide
  rw [hn] at hg; cases hg

end Links

end Torpedo
