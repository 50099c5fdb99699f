import Torpedo.LinkDiscovery.Discovery
import Torpedo.LinkDiscovery.LinksInvariant

/-!
# The index of the ports

`portLinks` files just the stored links, each under its two ends. Unlike the other indices it does so
after any deletion, so it tells which links a deletion takes.
-/

namespace Torpedo

namespace Links

variable {s : Links} {lt : Link}

/-- The index of the ports knows just the stored links. -/
def PortIndexed (s : Links) : Prop := s.portLinks.Indexes Link.ends s.Stored

theorem PortIndexed.of_stored {s' : Links} (h : s.PortIndexed) (hp : s'.portLinks = s.portLinks)
    (hs : ∀ l, s'.Stored l ↔ s.Stored l) : s'.PortIndexed := by
  unfold PortIndexed
  rw [hp]
  exact h.congr fun l => (hs l).symm

/-- Another information for a link that is stored. -/
theorem stored_of_put {s' : Links} {info : LinkInfo} (hst : s.Stored lt)
    (hl : s'.links = s.links.put lt info) (l : Link) : s'.Stored l ↔ s.Stored l := by
  rw [stored_iff, hl, stored_put, ← stored_iff]
  exact ⟨fun h => h.elim id fun e => e ▸ hst, .inl⟩

theorem stored_addOrUpdateLinkInfo (s : Links) (lt : Link) (newInfo : LinkInfo) (l : Link) :
    (s.addOrUpdateLinkInfo lt newInfo).1.Stored l ↔ s.Stored l ∨ l = lt := by
  rw [stored_iff, stored_iff, get_addOrUpdateLinkInfo]
  by_cases hl : l = lt
  · rw [if_pos hl]
    cases s.links.get lt <;> simp [hl]
  · rw [if_neg hl]
    simp [hl]

theorem portLinks_addNewLink (s : Links) (lt : Link) (newInfo : LinkInfo) :
    (s.addNewLink lt newInfo).portLinks = (s.portLinks.add lt.srcNpt lt).add lt.dstNpt lt := by
  unfold addNewLink
  dsimp only
  split_ifs <;> rfl

theorem portLinks_updateLink (s : Links) (lt : Link) (oldInfo newInfo : LinkInfo) :
    (s.updateLink lt oldInfo newInfo).1.portLinks = s.portLinks := by
  unfold updateLink
  dsimp only
  split_ifs <;> rfl

theorem PortIndexed.addOrUpdateLinkInfo (h : s.PortIndexed) (lt : Link) (newInfo : LinkInfo) :
    (s.addOrUpdateLinkInfo lt newInfo).1.PortIndexed := by
  have hstored := stored_addOrUpdateLinkInfo s lt newInfo
  unfold Links.addOrUpdateLinkInfo at hstored ⊢
  cases hg : s.links.get lt with
  | none =>
    simp only [hg] at hstored
    unfold PortIndexed
    dsimp only
    rw [portLinks_addNewLink]
    exact (SetMap.Indexes.add_add h rfl).congr fun l => (hstored l).symm
  | some oldInfo =>
    simp only [hg] at hstored
    refine h.of_stored (portLinks_updateLink s lt oldInfo newInfo) fun l => (hstored l).trans ?_
    exact ⟨fun hl => hl.elim id fun e => e ▸ ⟨oldInfo, hg⟩, .inl⟩

theorem PortIndexed.handleLldp (h : s.PortIndexed) (p : LldpPacket) : (s.handleLldp p).PortIndexed := by
  unfold Links.handleLldp
  cases p.discovery with
  | none => exact h
  | some d =>
    have hprobe : ((s.addOrUpdateLinkInfo d.link d.info).1.probeReverse d).PortIndexed := by
      refine (h.addOrUpdateLinkInfo d.link d.info).of_stored ?_ fun l => ?_
      · unfold probeReverse
        split
        · rfl
        · split_ifs <;> rfl
      · rw [stored_iff, stored_iff, links_probeReverse]
    show (s.addOrUpdateLink d).PortIndexed
    unfold addOrUpdateLink
    dsimp only
    split_ifs
    · exact hprobe
    · exact hprobe.addOrUpdateLinkInfo d.link.reverse d.reverseInfo

theorem PortIndexed.updateLinkStatus {st : Links × Bool} (h : st.1.PortIndexed) (npt : NodePortTuple)
    (state : Finset OFPortState) (lt : Link) : (updateLinkStatus npt state st lt).1.PortIndexed := by
  unfold Links.updateLinkStatus
  cases hg : st.1.links.get lt with
  | none => exact h
  | some info =>
    dsimp only
    split_ifs
    · exact h.of_stored rfl (stored_of_put ⟨info, hg⟩ rfl)
    · exact h

theorem PortIndexed.handlePortStatus (h : s.PortIndexed) (ord : HashOrder) (sw : Dpid)
    (ps : OFPortStatus) : (s.handlePortStatus ord sw ps).PortIndexed := by
  unfold Links.handlePortStatus
  dsimp only
  split_ifs
  · exact portLinks_deleteLinksOnPort h ord _
  · have hupdate : (s.updatePortStatus ord sw ps.desc.portNo ps).1.PortIndexed := by
      unfold updatePortStatus
      dsimp only
      split
      · exact h
      · exact foldl_updateLinkStatus (P := PortIndexed) _ ps.desc.state
          (fun st lt h => h.updateLinkStatus _ _ lt) _ (s, false) h
    exact hupdate
  · exact h

theorem PortIndexed.timeoutLink {st : TimeoutState} (h : st.store.PortIndexed) (curTime : Int)
    (lt : Link) : (timeoutLink curTime st lt).store.PortIndexed := by
  have hexpired : ∀ info, st.store.links.get lt = some info →
      (st.store.expired curTime lt info).1.PortIndexed := by
    intro info hg
    refine h.of_stored ?_ fun l => ?_
    · unfold expired expireUnicast expireMulticast
      dsimp only
      split_ifs <;> rfl
    · rw [stored_iff, stored_iff, get_expired hg]
      split_ifs with hl
      · rw [hl, hg]
        rfl
      · rfl
  unfold Links.timeoutLink
  cases hg : st.store.links.get lt with
  | none => exact h
  | some info =>
    have hnext := hexpired info hg
    unfold expired at hnext
    dsimp only
    split_ifs <;> exact hnext

theorem PortIndexed.timeoutLinks (h : s.PortIndexed) (ord : HashOrder) (curTime : Int) :
    (s.timeoutLinks ord curTime).PortIndexed := by
  obtain ⟨st, hst, heq⟩ := timeoutLinks_eq ord s curTime
  rw [heq]
  refine portLinks_deleteLinks _ _ ?_
  rw [hst]
  exact foldl_timeoutLink (P := fun st => st.store.PortIndexed) (fun st lt h => h.timeoutLink curTime lt)
    _ ⟨s, [], false⟩ h

theorem PortIndexed.deleteSwitch (h : s.PortIndexed) (ord : HashOrder) (id : Dpid) (ports : List OFPort) :
    (s.deleteSwitch ord id ports).PortIndexed := by
  unfold Links.deleteSwitch
  induction ports generalizing s with
  | nil => exact h
  | cons port ports ih => exact ih (portLinks_deleteLinksOnPort h ord _)

end Links

end Torpedo
