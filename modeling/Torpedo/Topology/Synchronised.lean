import Torpedo.LinkDiscovery.Discovery
import Torpedo.LinkDiscovery.LinksInvariant
import Torpedo.Topology.Manager

/-!
# The topology manager follows the link store

`OFMLinkDiscovery` tells `OFMTopologyManager` about its links only through updates. Once all updates
of a run have been applied, the manager holds the stored links whose port states are both
forwarding, with their types. That is so in every state of a run exactly when no packet stores a
new link with a port state that is not forwarding: `addNewLink` announces every new link.
-/

namespace Torpedo

/-! ## The maps determine the types -/

theorem TopologyManager.Consistent.unique {m : TopologyManager} {type type' : Link → Option LinkType}
    (h : m.Consistent type) (h' : m.Consistent type') : type = type' := by
  have hkey : ∀ {s : SetMap NodePortTuple Link} {P Q : Link → Prop}, s.Indexes Link.ends P →
      s.Indexes Link.ends Q → ∀ l, P l ↔ Q l := by
    intro s P Q hP hQ l
    have hend : l.srcNpt ∈ l.ends := Link.mem_ends.2 (.inl rfl)
    rw [← and_iff_left hend (a := P l), ← hP.has_iff, hQ.has_iff, and_iff_left hend]
  funext l
  have h₁ := hkey h.switchPortLinks h'.switchPortLinks l
  have h₂ := hkey h.directLinks h'.directLinks l
  have h₃ := hkey h.portBroadcastDomainLinks h'.portBroadcastDomainLinks l
  have h₄ := hkey h.tunnelLinks h'.tunnelLinks l
  cases e : type l with
  | none =>
    symm
    simpa [e] using h₁
  | some k =>
    cases k with
    | directLink => exact (h₂.1 e).symm
    | multihopLink => exact (h₃.1 e).symm
    | tunnel => exact (h₄.1 e).symm
    | invalidLink =>
      cases e' : type' l with
      | none => simp [e, e'] at h₁
      | some k' => cases k' <;> simp_all

/-! ## What the manager has been told -/

theorem latestType_append (us : List LDUpdate) (u : LDUpdate) (l : Link) :
    latestType (us ++ [u]) l = u.latestType l (latestType us l) := by
  unfold latestType
  rw [List.foldl_append]
  rfl

namespace Links

/-- The type of a link that is stored with both port states forwarding. -/
def forwardingType (s : Links) (l : Link) : Option LinkType :=
  match s.links.get l with
  | none => none
  | some info => if info.Forwarding then some (getLinkType (some info)) else none

/-- After all updates have been applied, the manager holds the stored links whose port states are
both forwarding, with their types. -/
def InSync (s : Links) : Prop :=
  ({ TopologyManager.empty with ldUpdates := s.updates }).applyUpdates.Consistent s.forwardingType

/-- What the updates say about the link is what is stored. -/
def Announced (s : Links) (l : Link) : Prop := latestType s.updates l = s.forwardingType l

/-- Every update that adds a link gives it a type. -/
def UpdatesTyped (s : Links) : Prop := ∀ u ∈ s.updates, u.Typed

theorem inSync_iff {s : Links} (hty : s.UpdatesTyped) : s.InSync ↔ ∀ l, s.Announced l := by
  have hempty : ({ TopologyManager.empty with ldUpdates := s.updates } :
      TopologyManager).Consistent fun _ => none := by
    obtain ⟨h₁, h₂, h₃, h₄, h₅, h₆⟩ := TopologyManager.consistent_empty
    exact ⟨h₁, h₂, h₃, h₄, h₅, h₆⟩
  have hfold := TopologyManager.consistent_foldl_applyUpdate s.updates hty hempty
  have hall : ({ TopologyManager.empty with ldUpdates := s.updates } :
      TopologyManager).applyUpdates.Consistent (latestType s.updates) := by
    obtain ⟨h₁, h₂, h₃, h₄, h₅, h₆⟩ := hfold
    exact ⟨h₁, h₂, h₃, h₄, h₅, h₆⟩
  constructor
  · intro h l
    exact congrFun (hall.unique h) l
  · intro h
    have he : latestType s.updates = s.forwardingType := funext h
    rw [he] at hall
    exact hall

/-! ### One notification -/

theorem latestType_addLinkUpdate (s : Links) (lt l : Link) (info : LinkInfo) :
    latestType (s.addLinkUpdate lt info).updates l = if l = lt then
      if info.Forwarding then some (getLinkType (some info)) else none
    else latestType s.updates l := by
  unfold addLinkUpdate
  dsimp only
  rw [latestType_append, getUpdateOperation_eq]
  unfold LDUpdate.latestType
  dsimp only
  by_cases hl : l = lt
  · subst hl
    split_ifs <;> simp_all
  · rw [if_neg hl, if_neg (Ne.symm hl)]

theorem latestType_addLinkUpdateAs (s : Links) (lt l : Link) (info : Option LinkInfo)
    (operation : UpdateOperation) :
    latestType (s.addLinkUpdateAs lt info operation).updates l = if l = lt then
      if operation = .linkUpdated then some (getLinkType info)
      else if operation = .linkRemoved then none
      else latestType s.updates l
    else latestType s.updates l := by
  unfold addLinkUpdateAs
  dsimp only
  rw [latestType_append]
  unfold LDUpdate.latestType
  dsimp only
  by_cases hl : l = lt
  · subst hl
    rfl
  · rw [if_neg hl, if_neg (Ne.symm hl)]

theorem latestType_addPortUpdate (s : Links) (sw : Dpid) (port : OFPort) (op : UpdateOperation)
    (l : Link) : latestType (s.addPortUpdate sw port op).updates l = latestType s.updates l := by
  unfold addPortUpdate
  dsimp only
  rw [latestType_append]
  rfl

/-- The type of a link with a discovery time depends on the unicast time only. -/
theorem getLinkType_eq {info : LinkInfo}
    (h : info.lastLldpReceivedTime ≠ none ∨ info.lastBddpReceivedTime ≠ none) :
    getLinkType (some info) =
      if info.lastLldpReceivedTime = none then .multihopLink else .directLink := by
  unfold getLinkType
  dsimp only
  cases h₁ : info.lastLldpReceivedTime <;> cases h₂ : info.lastBddpReceivedTime <;> simp_all

theorem getLinkType_ne_invalid {info : LinkInfo}
    (h : info.lastLldpReceivedTime ≠ none ∨ info.lastBddpReceivedTime ≠ none) :
    getLinkType (some info) ≠ .invalidLink := by
  rw [getLinkType_eq h]
  split_ifs <;> simp

theorem UpdatesTyped.append {s s' : Links} (h : s.UpdatesTyped) {u : LDUpdate} (hu : u.Typed)
    (he : s'.updates = s.updates ++ [u]) : s'.UpdatesTyped := by
  intro v hv
  rw [he, List.mem_append, List.mem_singleton] at hv
  rcases hv with hv | rfl
  · exact h v hv
  · exact hu

theorem typed_addLinkUpdate {s : Links} (h : s.UpdatesTyped) (lt : Link) {info : LinkInfo}
    (hinfo : info.lastLldpReceivedTime ≠ none ∨ info.lastBddpReceivedTime ≠ none) :
    (s.addLinkUpdate lt info).UpdatesTyped := by
  refine h.append ?_ rfl
  intro src srcPort dst dstPort e
  exact getLinkType_ne_invalid hinfo (LDUpdate.link.inj e).2.2.2.2.1

theorem typed_addLinkUpdateAs {s : Links} (h : s.UpdatesTyped) (lt : Link) {info : Option LinkInfo}
    {operation : UpdateOperation}
    (hinfo : operation = .linkUpdated → getLinkType info ≠ .invalidLink) :
    (s.addLinkUpdateAs lt info operation).UpdatesTyped := by
  refine h.append ?_ rfl
  intro src srcPort dst dstPort e
  obtain ⟨-, -, -, -, ht, ho⟩ := LDUpdate.link.inj e
  exact hinfo ho ht

theorem typed_addPortUpdate {s : Links} (h : s.UpdatesTyped) (sw : Dpid) (port : OFPort)
    (op : UpdateOperation) : (s.addPortUpdate sw port op).UpdatesTyped := by
  refine h.append ?_ rfl
  intro src srcPort dst dstPort e
  cases e

theorem forwardingType_congr {s s' : Links} {l : Link} (h : s'.links.get l = s.links.get l) :
    s'.forwardingType l = s.forwardingType l := by
  unfold forwardingType
  rw [h]

theorem forwardingType_of_get {s : Links} {l : Link} {info : LinkInfo}
    (h : s.links.get l = some info) :
    s.forwardingType l = if info.Forwarding then some (getLinkType (some info)) else none := by
  unfold forwardingType
  rw [h]

/-- Between two events: the stored links have discovery times and every link is announced. -/
structure Settled (s : Links) : Prop where
  timed : s.Timed
  typed : s.UpdatesTyped
  announced : ∀ l, s.Announced l

/-- Storing a link and computing its update from the port states announces the link. -/
theorem announced_put {s s' : Links} {lt : Link} {info : LinkInfo}
    (hl : s'.links = s.links.put lt info) (hu : s'.updates = s.updates) (l : Link)
    (h : l ≠ lt → s.Announced l) : (s'.addLinkUpdate lt info).Announced l := by
  unfold Announced
  rw [latestType_addLinkUpdate, hu]
  have hget : (s'.addLinkUpdate lt info).links.get l = (s.links.put lt info).get l := hl ▸ rfl
  by_cases he : l = lt
  · subst he
    rw [if_pos rfl, forwardingType_of_get (hget.trans (HashMap.get_put_self _ _ _))]
  · rw [if_neg he, forwardingType_congr (hget.trans ((HashMap.get_put _ _ _ _).trans (if_neg he)))]
    exact h he

/-! ### Deletions -/

theorem latestType_deleteLinks (ls : List Link) (l : Link) :
    ∀ s : Links, latestType (s.deleteLinks ls).updates l =
      if l ∈ ls then none else latestType s.updates l := by
  unfold deleteLinks
  induction ls with
  | nil => intro s; simp
  | cons lt ls ih =>
    intro s
    rw [List.foldl_cons, ih]
    unfold deleteLink
    dsimp only
    rw [latestType_addLinkUpdateAs]
    by_cases h : l ∈ ls <;> by_cases h' : l = lt <;> simp [h, h']

theorem typed_deleteLinks (ls : List Link) :
    ∀ s : Links, s.UpdatesTyped → (s.deleteLinks ls).UpdatesTyped := by
  unfold deleteLinks
  induction ls with
  | nil => exact fun s h => h
  | cons lt ls ih => exact fun s h => ih _ (typed_addLinkUpdateAs h lt (by simp))

/-- Deleting links announces them; the others have to be announced already. -/
theorem announced_deleteLinks {s : Links} (ls : List Link) (h : ∀ l, l ∉ ls → s.Announced l)
    (l : Link) : (s.deleteLinks ls).Announced l := by
  have hg := get_deleteLinks ls l s
  unfold Announced
  rw [latestType_deleteLinks]
  split_ifs at hg ⊢ with hl
  · unfold forwardingType
    rw [hg]
  · rw [forwardingType_congr hg]
    exact h l hl

theorem Settled.addPortUpdate {s : Links} (h : s.Settled) (sw : Dpid) (port : OFPort)
    (op : UpdateOperation) : (s.addPortUpdate sw port op).Settled where
  timed := h.timed
  typed := typed_addPortUpdate h.typed sw port op
  announced l := by
    unfold Announced
    rw [latestType_addPortUpdate]
    exact h.announced l

theorem Settled.deleteLinksOnPort {s : Links} (h : s.Settled) (ord : HashOrder)
    (npt : NodePortTuple) : (s.deleteLinksOnPort ord npt).Settled := by
  unfold Links.deleteLinksOnPort
  split
  · exact h.addPortUpdate _ _ _
  · rename_i ls _
    exact Settled.addPortUpdate ⟨timed_deleteLinks h.timed (ord.iter ls),
      typed_deleteLinks (ord.iter ls) s h.typed,
      announced_deleteLinks (ord.iter ls) fun l _ => h.announced l⟩ _ _ _

theorem Settled.deleteSwitch (ord : HashOrder) (id : Dpid) (ports : List OFPort) :
    ∀ {s : Links}, s.Settled → (s.deleteSwitch ord id ports).Settled := by
  unfold Links.deleteSwitch
  induction ports with
  | nil => exact fun {s} h => h
  | cons port ports ih => exact fun {s} h => ih (h.deleteLinksOnPort ord _)

/-! ### Timeouts -/

/-- In the loop of `timeoutLinks` the links that are about to be deleted need no announcement. -/
structure TimeoutSettled (st : TimeoutState) : Prop where
  typed : st.store.UpdatesTyped
  announced : ∀ l, l ∉ st.eraseList → st.store.Announced l

theorem updates_expireUnicast (s : Links) (curTime : Int) (lt : Link) (info : LinkInfo) :
    (s.expireUnicast curTime lt info).1.updates = s.updates := by
  unfold expireUnicast
  dsimp only
  split_ifs <;> rfl

theorem updates_expireMulticast (s : Links) (curTime : Int) (lt : Link) (info : LinkInfo) :
    (s.expireMulticast curTime lt info).1.updates = s.updates := by
  unfold expireMulticast
  split_ifs <;> rfl

theorem updates_expired (s : Links) (curTime : Int) (lt : Link) (info : LinkInfo) :
    (s.expired curTime lt info).1.updates = s.updates := by
  unfold expired
  rw [updates_expireMulticast, updates_expireUnicast]

/-- Without a change the information stays as it was. -/
theorem expired_of_unchanged {s : Links} {curTime : Int} {lt : Link} {info : LinkInfo}
    (hu : (s.expireUnicast curTime lt info).2.2 = false)
    (hm : (s.expired curTime lt info).2.2 = false) : s.expired curTime lt info = (s, info, false) := by
  have he : s.expireUnicast curTime lt info = (s, info, false) := by
    unfold expireUnicast at hu ⊢
    split_ifs at hu ⊢ with hx
    rfl
  unfold expired at hm ⊢
  rw [he] at hm ⊢
  unfold expireMulticast at hm ⊢
  dsimp only at hm ⊢
  split_ifs at hm ⊢ with hx
  rfl

theorem TimeoutSettled.timeoutLink {st : TimeoutState} (h : TimeoutSettled st) (curTime : Int)
    (lt : Link) : TimeoutSettled (timeoutLink curTime st lt) := by
  unfold Links.timeoutLink
  cases hg : st.store.links.get lt with
  | none => exact h
  | some info =>
    have hget := get_expired hg curTime
    have hupd := updates_expired st.store curTime lt info
    have hsame : (st.store.expireUnicast curTime lt info).2.2 = false →
        (st.store.expired curTime lt info).2.2 = false →
        st.store.expired curTime lt info = (st.store, info, false) := expired_of_unchanged
    -- links other than `lt` keep their information and their updates
    have hother : ∀ l, l ≠ lt → st.store.Announced l →
        (st.store.expired curTime lt info).1.Announced l := by
      intro l hl ha
      have hgl := hget l
      rw [if_neg hl] at hgl
      unfold Announced
      rw [hupd, forwardingType_congr hgl]
      exact ha
    have htyped : (st.store.expired curTime lt info).1.UpdatesTyped := by
      unfold UpdatesTyped
      rw [hupd]
      exact h.typed
    have hself := hget lt
    rw [if_pos rfl] at hself
    have hdef : st.store.expired curTime lt info =
        (st.store.expireUnicast curTime lt info).1.expireMulticast curTime lt
          (st.store.expireUnicast curTime lt info).2.1 := rfl
    dsimp only
    rw [← hdef]
    split_ifs with hn hc
    · refine ⟨htyped, fun l hl => ?_⟩
      rw [List.mem_append, not_or, List.mem_singleton] at hl
      exact hother l hl.2 (h.announced l hl.1)
    · refine ⟨typed_addLinkUpdate htyped lt (not_and_or.1 hn), fun l hl => ?_⟩
      unfold Announced
      rw [latestType_addLinkUpdate]
      have hgl : ((st.store.expired curTime lt info).1.addLinkUpdate lt
          (st.store.expired curTime lt info).2.1).forwardingType l =
            (st.store.expired curTime lt info).1.forwardingType l := rfl
      rw [hgl]
      by_cases he : l = lt
      · subst he
        rw [if_pos rfl, forwardingType_of_get hself]
      · rw [if_neg he]
        exact hother l he (h.announced l hl)
    · rw [Bool.or_eq_true, Bool.or_eq_true, not_or, not_or] at hc
      rw [hsame (by simpa using hc.1.2) (by simpa using hc.2)]
      exact ⟨h.typed, h.announced⟩

theorem Settled.timeoutLinks {s : Links} (h : s.Settled) (ord : HashOrder) (curTime : Int) :
    (s.timeoutLinks ord curTime).Settled := by
  have hT := timed_timeoutLinks h.timed ord curTime
  obtain ⟨st, hst, he⟩ := timeoutLinks_eq ord s curTime
  have hL : TimeoutSettled st :=
    hst ▸ foldl_timeoutLink (fun st lt h => h.timeoutLink curTime lt) _ ⟨s, [], false⟩
      ⟨h.typed, fun l _ => h.announced l⟩
  rw [he] at hT ⊢
  exact ⟨hT, typed_deleteLinks _ _ hL.typed, announced_deleteLinks _ hL.announced⟩

/-! ### Port status -/

theorem Settled.updateLinkStatus {st : Links × Bool} (h : st.1.Settled) (npt : NodePortTuple)
    (state : Finset OFPortState) (lt : Link) : (updateLinkStatus npt state st lt).1.Settled := by
  have hT := timed_updateLinkStatus h.timed npt state lt
  unfold Links.updateLinkStatus at hT ⊢
  cases hg : st.1.links.get lt with
  | none => exact h
  | some info =>
    rw [hg] at hT
    dsimp only at hT ⊢
    split_ifs at hT ⊢ with hc
    · have hinfo : (updatePortState npt state lt info).lastLldpReceivedTime ≠ none ∨
          (updatePortState npt state lt info).lastBddpReceivedTime ≠ none := h.timed lt info hg
      refine ⟨hT, typed_addLinkUpdate h.typed lt hinfo, fun l => ?_⟩
      refine announced_put (s := st.1) ?_ ?_ l fun _ => h.announced l
      all_goals rfl
    · exact h

theorem Settled.updatePortStatus {s : Links} (h : s.Settled) (ord : HashOrder) (switchId : Dpid)
    (portnum : OFPort) (ps : OFPortStatus) :
    (s.updatePortStatus ord switchId portnum ps).1.Settled := by
  unfold Links.updatePortStatus
  dsimp only
  split
  · exact h.addPortUpdate _ _ _
  · rename_i links _
    exact Settled.addPortUpdate (foldl_updateLinkStatus ⟨switchId, portnum⟩ ps.desc.state
      (fun st lt h => Settled.updateLinkStatus h _ _ lt) (ord.iter links) (s, false) h) _ _ _

theorem Settled.handlePortStatus {s : Links} (h : s.Settled) (ord : HashOrder) (sw : Dpid)
    (ps : OFPortStatus) : (handlePortStatus ord s sw ps).Settled := by
  have hnew : ∀ {s : Links}, s.Settled → (s.processNewPort sw ps.desc.portNo).Settled :=
    fun {s} h => ⟨h.timed, h.typed, h.announced⟩
  unfold Links.handlePortStatus
  dsimp only
  split_ifs
  · exact h.deleteLinksOnPort ord _
  · exact hnew (h.updatePortStatus ord sw _ ps)
  · exact hnew h

/-! ### Additions -/

/-- What is stored and announced about other links than `lt` does not change. -/
theorem announced_addOrUpdateLinkInfo_of_ne {s : Links} {lt l : Link} (hl : l ≠ lt)
    (newInfo : LinkInfo) :
    (s.addOrUpdateLinkInfo lt newInfo).1.Announced l ↔ s.Announced l := by
  have hg := get_addOrUpdateLinkInfo s lt newInfo l
  rw [if_neg hl] at hg
  have hu : latestType (s.addOrUpdateLinkInfo lt newInfo).1.updates l = latestType s.updates l := by
    unfold addOrUpdateLinkInfo
    split
    · unfold addNewLink
      dsimp only
      rw [latestType_addLinkUpdateAs, if_neg hl]
      split_ifs <;> rfl
    · unfold updateLink
      dsimp only
      split_ifs <;> first | rfl | rw [latestType_addLinkUpdate, if_neg hl] <;> rfl
  unfold Announced
  rw [hu, forwardingType_congr hg]

/-- A new link is announced as it should be only if its port states are both forwarding. -/
theorem announced_addNewLink_iff (s : Links) (lt : Link) (newInfo : LinkInfo) :
    (s.addNewLink lt newInfo).Announced lt ↔ newInfo.Forwarding := by
  have hget : (s.addNewLink lt newInfo).links.get lt = some newInfo := by
    unfold addNewLink addLinkUpdateAs addLinkToBroadcastDomain
    dsimp only
    split_ifs <;> exact HashMap.get_put_self _ _ _
  have htold : latestType (s.addNewLink lt newInfo).updates lt =
      some (getLinkType (some newInfo)) := by
    unfold addNewLink
    dsimp only
    rw [latestType_addLinkUpdateAs, if_pos rfl, if_pos rfl]
  unfold Announced
  rw [htold, forwardingType_of_get hget]
  split_ifs with hf <;> simp [hf]

/-- An update of a stored link that changes nothing the manager was told needs no announcement. -/
theorem announced_updateLink {s : Links} {lt : Link} {oldInfo newInfo : LinkInfo}
    (h : s.Announced lt) (hg : s.links.get lt = some oldInfo)
    (hold : oldInfo.lastLldpReceivedTime ≠ none ∨ oldInfo.lastBddpReceivedTime ≠ none)
    (hnew : newInfo.lastLldpReceivedTime ≠ none ∨ newInfo.lastBddpReceivedTime ≠ none) :
    (s.updateLink lt oldInfo newInfo).1.Announced lt := by
  unfold updateLink
  dsimp only
  set info := copyValidTime oldInfo (if oldInfo.firstSeenTime < newInfo.firstSeenTime then
    { newInfo with firstSeenTime := oldInfo.firstSeenTime } else newInfo) with hinfo
  have hself : lt ≠ lt → s.Announced lt := fun hne => absurd rfl hne
  by_cases h₁ : oldInfo.lastLldpReceivedTime ≠ none ∧ info.lastLldpReceivedTime = none
  · rw [if_pos h₁]
    refine announced_put (s := s) ?_ ?_ lt hself
    all_goals rfl
  · rw [if_neg h₁]
    by_cases h₂ : oldInfo.lastLldpReceivedTime = none ∧ info.lastLldpReceivedTime ≠ none
    · rw [if_pos h₂]
      refine announced_put (s := s) ?_ ?_ lt hself
      all_goals rfl
    · rw [if_neg h₂]
      dsimp only
      split_ifs with hc
      · refine announced_put (s := s) ?_ ?_ lt hself
        all_goals rfl
      · -- neither the port states nor the kind of discovery has changed
        have hports : info.srcPortState = oldInfo.srcPortState ∧
            info.dstPortState = oldInfo.dstPortState := by
          simpa [not_or] using hc
        have hforw : info.Forwarding ↔ oldInfo.Forwarding := by
          unfold LinkInfo.Forwarding
          rw [hports.1, hports.2]
        have hnone : info.lastLldpReceivedTime = none ↔ oldInfo.lastLldpReceivedTime = none := by
          constructor
          · intro hn
            by_contra ho
            exact h₁ ⟨ho, hn⟩
          · intro ho
            by_contra hn
            exact h₂ ⟨ho, hn⟩
        have htimed : info.lastLldpReceivedTime ≠ none ∨ info.lastBddpReceivedTime ≠ none := by
          refine copyValidTime_timed oldInfo ?_
          split_ifs <;> exact hnew
        have htype : getLinkType (some info) = getLinkType (some oldInfo) := by
          rw [getLinkType_eq htimed, getLinkType_eq hold]
          simp only [hnone]
        have hput : (⟨s.links.put lt info, s.switchLinks, s.portLinks, s.portBroadcastDomainLinks,
            s.updates, s.discoveryMessages⟩ : Links).links.get lt = some info :=
          HashMap.get_put_self _ _ _
        unfold Announced at h ⊢
        rw [forwardingType_of_get hput]
        rw [forwardingType_of_get hg] at h
        simp only [hforw, htype]
        exact h

/-- The discovery of a link leaves it announced exactly if it was stored before or its port states
are both forwarding. -/
theorem announced_addOrUpdateLinkInfo_iff {s : Links} (h : s.Settled) {lt : Link}
    {newInfo : LinkInfo}
    (hnew : newInfo.lastLldpReceivedTime ≠ none ∨ newInfo.lastBddpReceivedTime ≠ none) :
    (s.addOrUpdateLinkInfo lt newInfo).1.Announced lt ↔
      (s.links.get lt = none → newInfo.Forwarding) := by
  unfold addOrUpdateLinkInfo
  cases hg : s.links.get lt with
  | none =>
    dsimp only
    rw [announced_addNewLink_iff]
    exact ⟨fun hf _ => hf, fun hf => hf rfl⟩
  | some oldInfo =>
    refine iff_of_true ?_ (by simp)
    exact announced_updateLink (h.announced lt) hg (h.timed lt oldInfo hg) hnew

theorem typed_addOrUpdateLinkInfo {s : Links} (h : s.UpdatesTyped) (lt : Link)
    {newInfo : LinkInfo}
    (hnew : newInfo.lastLldpReceivedTime ≠ none ∨ newInfo.lastBddpReceivedTime ≠ none) :
    (s.addOrUpdateLinkInfo lt newInfo).1.UpdatesTyped := by
  unfold addOrUpdateLinkInfo
  split
  · unfold addNewLink
    dsimp only
    refine typed_addLinkUpdateAs ?_ lt fun _ => getLinkType_ne_invalid hnew
    split_ifs <;> exact h
  · rename_i oldInfo _
    unfold updateLink
    dsimp only
    split_ifs <;>
      first | exact h | exact typed_addLinkUpdate h lt (copyValidTime_timed oldInfo hnew)

theorem Settled.probeReverse {s : Links} (h : s.Settled) (d : Discovery) :
    (s.probeReverse d).Settled := by
  unfold Links.probeReverse
  split
  · exact h
  · split_ifs
    · exact ⟨h.timed, h.typed, h.announced⟩
    · exact h

theorem announced_probeReverse {s : Links} {d : Discovery} {l : Link} :
    (s.probeReverse d).Announced l ↔ s.Announced l := by
  unfold Links.probeReverse
  split
  · rfl
  · split_ifs <;> rfl

theorem typed_probeReverse {s : Links} (h : s.UpdatesTyped) (d : Discovery) :
    (s.probeReverse d).UpdatesTyped := by
  unfold Links.probeReverse
  split
  · exact h
  · split_ifs <;> exact h

/-- Discovering a link settles it if it was stored or its port states are both forwarding. -/
theorem Settled.addOrUpdateLinkInfo {s : Links} (h : s.Settled) {lt : Link} {newInfo : LinkInfo}
    (hnew : newInfo.lastLldpReceivedTime ≠ none ∨ newInfo.lastBddpReceivedTime ≠ none)
    (hf : s.links.get lt = none → newInfo.Forwarding) :
    (s.addOrUpdateLinkInfo lt newInfo).1.Settled where
  timed := timed_addOrUpdateLinkInfo h.timed hnew
  typed := typed_addOrUpdateLinkInfo h.typed lt hnew
  announced l := by
    by_cases hl : l = lt
    · subst hl
      exact (announced_addOrUpdateLinkInfo_iff h hnew).2 hf
    · exact (announced_addOrUpdateLinkInfo_of_ne hl newInfo).2 (h.announced l)

theorem forwarding_reverseInfo (d : Discovery) : d.reverseInfo.Forwarding ↔ d.info.Forwarding := by
  unfold LinkInfo.Forwarding getUpdateOperation Discovery.reverseInfo Discovery.info
  dsimp only
  split_ifs <;> tauto

/-- The discovery stores no new link with a port state that is not forwarding. -/
def NewLinksForward (s : Links) (d : Discovery) : Prop :=
  s.links.get d.link = none ∨ d.isStandard = false ∧ s.links.get d.link.reverse = none →
    d.info.Forwarding

theorem reverse_ne {d : Discovery} (hd : d.remoteSwitchId ≠ d.localSwitchId) :
    d.link.reverse ≠ d.link := fun e => hd (congrArg Link.src e).symm

/-- Looking the reverse link up after the link itself has been discovered. -/
theorem get_reverse {s : Links} {d : Discovery} (hd : d.remoteSwitchId ≠ d.localSwitchId) :
    ((s.addOrUpdateLinkInfo d.link d.info).1.probeReverse d).links.get d.link.reverse =
      s.links.get d.link.reverse := by
  rw [links_probeReverse, get_addOrUpdateLinkInfo, if_neg (reverse_ne hd)]

theorem Settled.addOrUpdateLink {s : Links} (h : s.Settled) {d : Discovery}
    (hd : d.remoteSwitchId ≠ d.localSwitchId) (hf : s.NewLinksForward d) :
    (s.addOrUpdateLink d).Settled := by
  have h₁ := (h.addOrUpdateLinkInfo d.info_timed fun hn => hf (.inl hn)).probeReverse d
  unfold Links.addOrUpdateLink
  dsimp only
  split_ifs with hs
  · exact h₁
  · refine h₁.addOrUpdateLinkInfo d.reverseInfo_timed fun hn => ?_
    rw [get_reverse hd] at hn
    exact (forwarding_reverseInfo d).2 (hf (.inr ⟨by simpa using hs, hn⟩))

/-- Otherwise a link is stored that the manager should not have been told about. -/
theorem not_announced_addOrUpdateLink {s : Links} (h : s.Settled) {d : Discovery}
    (hd : d.remoteSwitchId ≠ d.localSwitchId) (hf : ¬s.NewLinksForward d) :
    (s.addOrUpdateLink d).UpdatesTyped ∧ ∃ l, ¬(s.addOrUpdateLink d).Announced l := by
  unfold NewLinksForward at hf
  rw [Classical.not_imp] at hf
  obtain ⟨hnew, hf⟩ := hf
  have hty : ((s.addOrUpdateLinkInfo d.link d.info).1.probeReverse d).UpdatesTyped :=
    typed_probeReverse (typed_addOrUpdateLinkInfo h.typed d.link d.info_timed) d
  unfold Links.addOrUpdateLink
  dsimp only
  refine ⟨?_, ?_⟩
  · split_ifs
    · exact hty
    · exact typed_addOrUpdateLinkInfo hty _ d.reverseInfo_timed
  · by_cases hl : s.links.get d.link = none
    · -- the link itself stays unannounced
      have hun : ¬((s.addOrUpdateLinkInfo d.link d.info).1.probeReverse d).Announced d.link := by
        rw [announced_probeReverse, announced_addOrUpdateLinkInfo_iff h d.info_timed]
        exact fun hall => hf (hall hl)
      refine ⟨d.link, ?_⟩
      split_ifs
      · exact hun
      · rw [announced_addOrUpdateLinkInfo_of_ne (reverse_ne hd).symm]
        exact hun
    · -- the link was known, its reverse is new
      obtain ⟨hs, hr⟩ := hnew.resolve_left hl
      have h₁ := (h.addOrUpdateLinkInfo d.info_timed fun hn => absurd hn hl).probeReverse d
      refine ⟨d.link.reverse, ?_⟩
      rw [hs, if_neg (by simp), announced_addOrUpdateLinkInfo_iff h₁ d.reverseInfo_timed,
        get_reverse hd, forwarding_reverseInfo]
      exact fun hall => hf (hall hr)

/-! ## Runs -/

/-- No packet of the event stores a new link with a port state that is not forwarding. -/
def AnnouncesRightly (s : Links) : Event → Prop
  | .lldp p => ∀ d, p.discovery = some d → s.NewLinksForward d
  | _ => True

/-- Every event of the run is such an event. -/
def RightlyAnnounced (s : Links) : List Event → Prop
  | [] => True
  | ev :: evs => s.AnnouncesRightly ev ∧ RightlyAnnounced (s.handle ev) evs

theorem Settled.inSync {s : Links} (h : s.Settled) : s.InSync :=
  (inSync_iff h.typed).2 h.announced

theorem settled_empty : empty.Settled where
  timed lt info hg := by cases hg
  typed u hu := by cases hu
  announced l := rfl

theorem Settled.handle {s : Links} (h : s.Settled) {ev : Event} (hev : s.AnnouncesRightly ev) :
    (s.handle ev).Settled := by
  cases ev with
  | lldp p =>
    show (s.handleLldp p).Settled
    unfold handleLldp
    cases hp : p.discovery with
    | none => exact h
    | some d => exact h.addOrUpdateLink (p.ne_of_discovery hp) (hev d hp)
  | portStatus ord sw ps => exact h.handlePortStatus ord sw ps
  | timeout ord curTime => exact h.timeoutLinks ord curTime
  | disconnected ord id ports => exact Settled.deleteSwitch ord id ports h
  | quarantined sw port state => exact h.addPortUpdate sw port _

theorem not_inSync_handle {s : Links} (h : s.Settled) {ev : Event} (hev : ¬s.AnnouncesRightly ev) :
    ¬(s.handle ev).InSync := by
  cases ev with
  | lldp p =>
    simp only [AnnouncesRightly, not_forall] at hev
    obtain ⟨d, hp, hf⟩ := hev
    obtain ⟨hty, l, hl⟩ := not_announced_addOrUpdateLink h (p.ne_of_discovery hp) hf
    show ¬(s.handleLldp p).InSync
    unfold handleLldp
    rw [hp]
    intro hsync
    exact hl ((inSync_iff hty).1 hsync l)
  | portStatus | timeout | disconnected | quarantined => exact absurd trivial hev

theorem inSync_prefixes_iff (evs : List Event) :
    ∀ s : Links, s.Settled →
      ((∀ k, ((evs.take k).foldl handle s).InSync) ↔ s.RightlyAnnounced evs) := by
  induction evs with
  | nil =>
    intro s h
    simpa [RightlyAnnounced] using h.inSync
  | cons ev evs ih =>
    intro s h
    by_cases hev : s.AnnouncesRightly ev
    · rw [RightlyAnnounced, ← ih _ (h.handle hev)]
      refine ⟨fun hk => ⟨hev, fun k => hk (k + 1)⟩, fun hk k => ?_⟩
      cases k with
      | zero => exact h.inSync
      | succ k => exact hk.2 k
    · exact iff_of_false (fun hk => not_inSync_handle h hev (hk 1)) fun hs => hev hs.1

/-- **The topology manager holds the forwarding links of the store after every prefix of a run
exactly when no packet stores a new link with a port state that is not forwarding.** -/
theorem inSync_iff_rightlyAnnounced (evs : List Event) :
    (∀ k, ((evs.take k).foldl handle empty).InSync) ↔ empty.RightlyAnnounced evs :=
  inSync_prefixes_iff evs empty settled_empty

/-- An LLDP packet of port 1 of switch 1, received on port 1 of switch 2, which the spanning tree
protocol has blocked. -/
def lldpOnBlockedPort : LldpPacket where
  sw := 2
  inputPort := 1
  inputPhyPort := some ⟨1, ∅, {.stpBlock}⟩
  remoteSwitch := some 1
  remotePort := 1
  remotePhyPort := some ⟨1, ∅, ∅⟩
  isStandard := true
  isReverse := some false
  myId := 7
  otherId := some 7
  firstSeenTime := 0
  lastTime := 0
  probeTime := 0

/-- The manager is told about the link although it does not forward. -/
theorem not_inSync_after_lldpOnBlockedPort :
    ¬([Event.lldp lldpOnBlockedPort].foldl handle empty).InSync := by
  show ¬(empty.handle (.lldp lldpOnBlockedPort)).InSync
  refine not_inSync_handle settled_empty fun hev => ?_
  have hf := hev ⟨1, 1, some ⟨1, ∅, ∅⟩, 2, 1, some ⟨1, ∅, {.stpBlock}⟩, true, false, 0, 0, 0⟩
    rfl (.inl rfl)
  exact absurd hf (by decide)

end Links

end Torpedo
