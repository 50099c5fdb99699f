import Torpedo.Topology.Computed

/-!
# The topology manager

`OFMTopologyManager`: the links it is told about, filed by port and by type, the ports of every
switch that has links, and the topology instances computed from them. Whatever the updates, a link
is filed at its two end ports under its latest type, and computing an instance returns.
-/

namespace Torpedo

/-! ## The manager -/

structure TopologyManager where
  switchPorts : SetMap Dpid OFPort
  switchPortLinks : SetMap NodePortTuple Link
  directLinks : SetMap NodePortTuple Link
  portBroadcastDomainLinks : SetMap NodePortTuple Link
  tunnelLinks : SetMap NodePortTuple Link
  linksUpdated : Bool
  dtLinksUpdated : Bool
  ldUpdates : List LDUpdate
  appliedUpdates : List LDUpdate
  currentInstance : Option TopologyInstance

def addLinkToStructure (s : SetMap NodePortTuple Link) (l : Link) : SetMap NodePortTuple Link :=
  (s.add l.srcNpt l).add l.dstNpt l

/-- The structure without the link, and whether the link was there. -/
def removeLinkFromStructure (s : SetMap NodePortTuple Link) (l : Link) :
    SetMap NodePortTuple Link × Bool :=
  let s₁ := s.erase l.srcNpt l
  (s₁.erase l.dstNpt l, decide (s.Has l.srcNpt l) || decide (s₁.Has l.dstNpt l))

namespace TopologyManager

def empty : TopologyManager where
  switchPorts := ∅
  switchPortLinks := ∅
  directLinks := ∅
  portBroadcastDomainLinks := ∅
  tunnelLinks := ∅
  linksUpdated := false
  dtLinksUpdated := false
  ldUpdates := []
  appliedUpdates := []
  currentInstance := none

def addPortToSwitch (switchPorts : SetMap Dpid OFPort) (s : Dpid) (p : OFPort) :
    SetMap Dpid OFPort := switchPorts.add s p

/-- Remove a port without links from the ports of its switch. -/
def removePortOfSwitch (switchPortLinks : SetMap NodePortTuple Link) (npt : NodePortTuple)
    (switchPorts : SetMap Dpid OFPort) : SetMap Dpid OFPort :=
  if switchPortLinks.get npt = none then
    match switchPorts.get npt.nodeId with
    | none => switchPorts
    | some ports => switchPorts.put npt.nodeId (setRemove ports npt.portId)
  else switchPorts

/-- Remove a switch without ports. -/
def removeSwitchWithoutPorts (s : Dpid) (switchPorts : SetMap Dpid OFPort) : SetMap Dpid OFPort :=
  if switchPorts.get s = some [] then HashMap.remove switchPorts s else switchPorts

variable (m : TopologyManager)

def addOrUpdateLink (srcId : Dpid) (srcPort : OFPort) (dstId : Dpid) (dstPort : OFPort)
    (type : LinkType) : TopologyManager :=
  let link : Link := ⟨srcId, srcPort, dstId, dstPort⟩
  let m := { m with
    switchPorts := addPortToSwitch (addPortToSwitch m.switchPorts srcId srcPort) dstId dstPort
    switchPortLinks := addLinkToStructure m.switchPortLinks link
    linksUpdated := true }
  match type with
  | .multihopLink =>
    let r₁ := removeLinkFromStructure m.tunnelLinks link
    let r₂ := removeLinkFromStructure m.directLinks link
    { m with
      portBroadcastDomainLinks := addLinkToStructure m.portBroadcastDomainLinks link
      tunnelLinks := r₁.1
      directLinks := r₂.1
      dtLinksUpdated := r₁.2 || r₂.2 }
  | .tunnel =>
    { m with
      tunnelLinks := addLinkToStructure m.tunnelLinks link
      portBroadcastDomainLinks := (removeLinkFromStructure m.portBroadcastDomainLinks link).1
      directLinks := (removeLinkFromStructure m.directLinks link).1
      dtLinksUpdated := true }
  | .directLink =>
    { m with
      directLinks := addLinkToStructure m.directLinks link
      tunnelLinks := (removeLinkFromStructure m.tunnelLinks link).1
      portBroadcastDomainLinks := (removeLinkFromStructure m.portBroadcastDomainLinks link).1
      dtLinksUpdated := true }
  | .invalidLink => m

def removeLink (link : Link) : TopologyManager :=
  let r₁ := removeLinkFromStructure m.directLinks link
  let r₂ := removeLinkFromStructure m.tunnelLinks link
  let switchPortLinks := (removeLinkFromStructure m.switchPortLinks link).1
  let switchPorts := removePortOfSwitch switchPortLinks link.dstNpt
    (removePortOfSwitch switchPortLinks link.srcNpt m.switchPorts)
  { m with
    directLinks := r₁.1
    tunnelLinks := r₂.1
    linksUpdated := true
    dtLinksUpdated := r₁.2 || r₂.2
    portBroadcastDomainLinks := (removeLinkFromStructure m.portBroadcastDomainLinks link).1
    switchPortLinks := switchPortLinks
    switchPorts := removeSwitchWithoutPorts link.dst (removeSwitchWithoutPorts link.src switchPorts) }

/-- The body of the loop of `applyUpdates`. Updates about ports and switches never have a link
operation. -/
def applyUpdate (update : LDUpdate) : TopologyManager :=
  match update with
  | .link src srcPort dst dstPort type operation =>
    if operation = .linkUpdated then m.addOrUpdateLink src srcPort dst dstPort type
    else if operation = .linkRemoved then m.removeLink ⟨src, srcPort, dst, dstPort⟩
    else m
  | .port _ _ _ => m
  | .switch _ _ => m

def applyUpdates : TopologyManager :=
  { m.ldUpdates.foldl applyUpdate m with ldUpdates := [], appliedUpdates := m.ldUpdates }

/-- The instance that `createNewInstance` computes. -/
def newInstance (ord : HashOrder) : TopologyInstance :=
  let openflowLinks := (ord.iter m.tunnelLinks.keySet).foldl HashMap.remove m.switchPortLinks
  let openflowLinks :=
    (ord.iter m.portBroadcastDomainLinks.keySet).foldl HashMap.remove openflowLinks
  .new m.switchPorts [] openflowLinks m.portBroadcastDomainLinks.keySet m.tunnelLinks.keySet

def createNewInstance (ord : HashOrder) (queue : NodeQueue) : Option (Bool × TopologyManager) :=
  if m.linksUpdated = false then some (false, m)
  else do
    let nt ← (m.newInstance ord).compute ord queue
    some (true, { m with currentInstance := some nt })

def updateTopology (ord : HashOrder) (queue : NodeQueue) : Option (Bool × TopologyManager) :=
  ({ m with linksUpdated := false, dtLinksUpdated := false }).applyUpdates.createNewInstance ord queue

end TopologyManager

/-! ## What the manager has been told -/

/-- What one update says about a link, of which `held` was known. -/
def LDUpdate.latestType (l : Link) (held : Option LinkType) (update : LDUpdate) : Option LinkType :=
  match update with
  | .link src srcPort dst dstPort type operation =>
    if (⟨src, srcPort, dst, dstPort⟩ : Link) = l then
      if operation = .linkUpdated then some type
      else if operation = .linkRemoved then none
      else held
    else held
  | .port _ _ _ => held
  | .switch _ _ => held

/-- The latest type of a link after the updates, if it was not removed since. -/
def latestType (updates : List LDUpdate) (l : Link) : Option LinkType :=
  updates.foldl (LDUpdate.latestType l) none

/-- An update that adds a link gives it a type. -/
def LDUpdate.Typed (update : LDUpdate) : Prop :=
  ∀ src srcPort dst dstPort, update ≠ .link src srcPort dst dstPort .invalidLink .linkUpdated

namespace TopologyManager

/-- The maps of the manager agree with the types of the links: every link is filed under exactly its
two end ports, among all links and among those of its type, no map keeps an empty set, and the ports
of a switch are those that have links. -/
structure Consistent (m : TopologyManager) (type : Link → Option LinkType) : Prop where
  switchPortLinks : m.switchPortLinks.Indexes Link.ends fun l => (type l).isSome
  directLinks : m.directLinks.Indexes Link.ends fun l => type l = some .directLink
  portBroadcastDomainLinks :
    m.portBroadcastDomainLinks.Indexes Link.ends fun l => type l = some .multihopLink
  tunnelLinks : m.tunnelLinks.Indexes Link.ends fun l => type l = some .tunnel
  switchPorts : ∀ s p, m.switchPorts.Has s p ↔ (m.switchPortLinks.get ⟨s, p⟩).isSome
  switchPorts_ne_nil : ∀ s, m.switchPorts.get s ≠ some []

variable {m : TopologyManager} {type type' : Link → Option LinkType}

theorem consistent_empty : empty.Consistent fun _ => none where
  switchPortLinks := SetMap.indexes_empty.congr fun l => by simp
  directLinks := SetMap.indexes_empty.congr fun l => by simp
  portBroadcastDomainLinks := SetMap.indexes_empty.congr fun l => by simp
  tunnelLinks := SetMap.indexes_empty.congr fun l => by simp
  switchPorts s p := by
    constructor
    · rintro ⟨_, h, -⟩
      cases h
    · intro h
      cases h
  switchPorts_ne_nil s := by
    show (∅ : SetMap Dpid OFPort).get s ≠ _
    simp

/-! ### Filing a link -/

theorem indexes_addLink {s : SetMap NodePortTuple Link} {P Q : Link → Prop} {l : Link}
    (h : s.Indexes Link.ends P) (hPQ : ∀ l', Q l' ↔ P l' ∨ l' = l) :
    (addLinkToStructure s l).Indexes Link.ends Q :=
  (h.add_add rfl).congr fun l' => (hPQ l').symm

theorem indexes_removeLink {s : SetMap NodePortTuple Link} {P Q : Link → Prop} {l : Link}
    (h : s.Indexes Link.ends P) (hPQ : ∀ l', Q l' ↔ P l' ∧ l' ≠ l) :
    (removeLinkFromStructure s l).1.Indexes Link.ends Q :=
  (h.erase_erase rfl).congr fun l' => (hPQ l').symm

/-- The types once `l` has the type `held`. -/
def retype (type : Link → Option LinkType) (l : Link) (held : Option LinkType) (l' : Link) :
    Option LinkType := if l' = l then held else type l'

theorem retype_eq_of_eq {l : Link} {k : LinkType} (l' : Link) :
    retype type l (some k) l' = some k ↔ type l' = some k ∨ l' = l := by
  unfold retype
  split_ifs with h <;> simp [h]

theorem retype_eq_of_ne {l : Link} {k : LinkType} {held : Option LinkType} (hk : held ≠ some k)
    (l' : Link) : retype type l held l' = some k ↔ type l' = some k ∧ l' ≠ l := by
  unfold retype
  split_ifs with h <;> simp [h, hk]

theorem isSome_retype {l : Link} {k : LinkType} (l' : Link) :
    (retype type l (some k) l').isSome ↔ (type l').isSome ∨ l' = l := by
  unfold retype
  split_ifs with h <;> simp [h]

theorem isSome_retype_none {l : Link} (l' : Link) :
    (retype type l none l').isSome ↔ (type l').isSome ∧ l' ≠ l := by
  unfold retype
  split_ifs with h <;> simp [h]

/-! ### Ports of switches -/

theorem has_addPorts (sp : SetMap Dpid OFPort) (l : Link) (s : Dpid) (p : OFPort) :
    (addPortToSwitch (addPortToSwitch sp l.src l.srcPort) l.dst l.dstPort).Has s p ↔
      sp.Has s p ∨ ⟨s, p⟩ ∈ l.ends := by
  unfold addPortToSwitch
  rw [SetMap.has_add, SetMap.has_add, Link.mem_ends, or_assoc]
  unfold Link.srcNpt Link.dstNpt
  rw [NodePortTuple.mk.injEq, NodePortTuple.mk.injEq]

theorem has_removePortOfSwitch (spl : SetMap NodePortTuple Link) (npt : NodePortTuple)
    (sp : SetMap Dpid OFPort) (s : Dpid) (p : OFPort) :
    (removePortOfSwitch spl npt sp).Has s p ↔ sp.Has s p ∧ ¬(⟨s, p⟩ = npt ∧ spl.get npt = none) := by
  unfold removePortOfSwitch
  by_cases hn : spl.get npt = none
  · rw [if_pos hn]
    cases hp : sp.get npt.nodeId with
    | none =>
      refine ⟨fun h => ⟨h, ?_⟩, And.left⟩
      rintro ⟨rfl, -⟩
      obtain ⟨ports, hs, -⟩ := h
      rw [hp] at hs
      cases hs
    | some ports =>
      unfold SetMap.Has
      simp only [HashMap.get_put]
      by_cases hs : s = npt.nodeId
      · subst hs
        have he : (⟨npt.nodeId, p⟩ : NodePortTuple) = npt ↔ p = npt.portId := by
          cases npt
          simp
        simp [hp, hn, he]
      · have he : (⟨s, p⟩ : NodePortTuple) ≠ npt := fun e => hs (e ▸ rfl)
        simp [hs, he]
  · rw [if_neg hn]
    simp [hn]

theorem has_removeSwitchWithoutPorts (s₀ : Dpid) (sp : SetMap Dpid OFPort) (s : Dpid) (p : OFPort) :
    (removeSwitchWithoutPorts s₀ sp).Has s p ↔ sp.Has s p := by
  unfold removeSwitchWithoutPorts
  split_ifs with h
  · unfold SetMap.Has
    simp only [HashMap.get_remove]
    split_ifs with hs
    · subst hs
      simp [h]
    · rfl
  · rfl

theorem eq_nil_removePortOfSwitch {spl : SetMap NodePortTuple Link} {npt : NodePortTuple}
    {sp : SetMap Dpid OFPort} {s : Dpid} (h : (removePortOfSwitch spl npt sp).get s = some []) :
    s = npt.nodeId ∨ sp.get s = some [] := by
  unfold removePortOfSwitch at h
  split_ifs at h
  · split at h
    · exact .inr h
    · rw [HashMap.get_put] at h
      split_ifs at h with hs
      · exact .inl hs
      · exact .inr h
  · exact .inr h

theorem eq_nil_removeSwitchWithoutPorts {s₀ s : Dpid} {sp : SetMap Dpid OFPort}
    (h : (removeSwitchWithoutPorts s₀ sp).get s = some []) : s ≠ s₀ ∧ sp.get s = some [] := by
  unfold removeSwitchWithoutPorts at h
  split_ifs at h with hn
  · rw [HashMap.get_remove] at h
    split_ifs at h with hs
    exact ⟨hs, h⟩
  · exact ⟨fun hs => hn (hs ▸ h), h⟩

/-! ### One update -/

theorem Consistent.addOrUpdateLink (h : m.Consistent type) (l : Link) {k : LinkType}
    (hk : k ≠ .invalidLink) :
    (m.addOrUpdateLink l.src l.srcPort l.dst l.dstPort k).Consistent (retype type l (some k)) := by
  have hspl : (addLinkToStructure m.switchPortLinks l).Indexes Link.ends
      fun l' => (retype type l (some k) l').isSome :=
    indexes_addLink h.switchPortLinks isSome_retype
  have hports : ∀ s p,
      (addPortToSwitch (addPortToSwitch m.switchPorts l.src l.srcPort) l.dst l.dstPort).Has s p ↔
        ((addLinkToStructure m.switchPortLinks l).get ⟨s, p⟩).isSome := by
    intro s p
    rw [has_addPorts, h.switchPorts, h.switchPortLinks.get_isSome_iff, hspl.get_isSome_iff]
    simp only [isSome_retype, or_and_right, exists_or, exists_eq_left]
  have hnil : ∀ s, (addPortToSwitch (addPortToSwitch m.switchPorts l.src l.srcPort) l.dst
      l.dstPort).get s ≠ some [] :=
    SetMap.get_add_ne_nil (SetMap.get_add_ne_nil h.switchPorts_ne_nil _ _) _ _
  cases k with
  | invalidLink => exact absurd rfl hk
  | directLink =>
    exact ⟨hspl, indexes_addLink h.directLinks retype_eq_of_eq,
      indexes_removeLink h.portBroadcastDomainLinks (retype_eq_of_ne (by simp)),
      indexes_removeLink h.tunnelLinks (retype_eq_of_ne (by simp)), hports, hnil⟩
  | multihopLink =>
    exact ⟨hspl, indexes_removeLink h.directLinks (retype_eq_of_ne (by simp)),
      indexes_addLink h.portBroadcastDomainLinks retype_eq_of_eq,
      indexes_removeLink h.tunnelLinks (retype_eq_of_ne (by simp)), hports, hnil⟩
  | tunnel =>
    exact ⟨hspl, indexes_removeLink h.directLinks (retype_eq_of_ne (by simp)),
      indexes_removeLink h.portBroadcastDomainLinks (retype_eq_of_ne (by simp)),
      indexes_addLink h.tunnelLinks retype_eq_of_eq, hports, hnil⟩

theorem Consistent.removeLink (h : m.Consistent type) (l : Link) :
    (m.removeLink l).Consistent (retype type l none) := by
  have hspl : (removeLinkFromStructure m.switchPortLinks l).1.Indexes Link.ends
      fun l' => (retype type l none l').isSome :=
    indexes_removeLink h.switchPortLinks isSome_retype_none
  refine ⟨hspl, indexes_removeLink h.directLinks (retype_eq_of_ne (by simp)),
    indexes_removeLink h.portBroadcastDomainLinks (retype_eq_of_ne (by simp)),
    indexes_removeLink h.tunnelLinks (retype_eq_of_ne (by simp)), ?_, ?_⟩
  · intro s p
    set spl := (removeLinkFromStructure m.switchPortLinks l).1 with hdef
    show (removeSwitchWithoutPorts l.dst (removeSwitchWithoutPorts l.src
      (removePortOfSwitch spl l.dstNpt (removePortOfSwitch spl l.srcNpt m.switchPorts)))).Has s p ↔
        (spl.get ⟨s, p⟩).isSome
    rw [has_removeSwitchWithoutPorts, has_removeSwitchWithoutPorts, has_removePortOfSwitch,
      has_removePortOfSwitch, h.switchPorts, h.switchPortLinks.get_isSome_iff]
    constructor
    · rintro ⟨⟨⟨l', hl', hend⟩, hs⟩, hd⟩
      by_cases he : (⟨s, p⟩ : NodePortTuple) ∈ l.ends
      · rcases Link.mem_ends.1 he with e | e
        · rw [e, Option.isSome_iff_ne_none]
          exact fun hn => hs ⟨e, hn⟩
        · rw [e, Option.isSome_iff_ne_none]
          exact fun hn => hd ⟨e, hn⟩
      · rw [hspl.get_isSome_iff]
        exact ⟨l', (isSome_retype_none l').2 ⟨hl', fun e => he (e ▸ hend)⟩, hend⟩
    · intro hsome
      have hne : ∀ npt, ¬((⟨s, p⟩ : NodePortTuple) = npt ∧ spl.get npt = none) := by
        rintro npt ⟨rfl, hn⟩
        rw [hn] at hsome
        cases hsome
      obtain ⟨l', hl', hend⟩ := (hspl.get_isSome_iff _).1 hsome
      exact ⟨⟨⟨l', ((isSome_retype_none l').1 hl').1, hend⟩, hne _⟩, hne _⟩
  · intro s hs
    obtain ⟨hd, hs⟩ := eq_nil_removeSwitchWithoutPorts hs
    obtain ⟨hsrc, hs⟩ := eq_nil_removeSwitchWithoutPorts hs
    have hs := (eq_nil_removePortOfSwitch hs).resolve_left hd
    exact h.switchPorts_ne_nil s ((eq_nil_removePortOfSwitch hs).resolve_left hsrc)

theorem Consistent.applyUpdate (h : m.Consistent type) {u : LDUpdate} (hu : u.Typed) :
    (m.applyUpdate u).Consistent fun l => u.latestType l (type l) := by
  cases u with
  | link src srcPort dst dstPort k operation =>
    have hretype : ∀ held, (fun l => if (⟨src, srcPort, dst, dstPort⟩ : Link) = l then held
        else type l) = retype type ⟨src, srcPort, dst, dstPort⟩ held := by
      intro held
      funext l
      unfold retype
      by_cases hl : l = ⟨src, srcPort, dst, dstPort⟩
      · rw [if_pos hl.symm, if_pos hl]
      · rw [if_neg (Ne.symm hl), if_neg hl]
    unfold TopologyManager.applyUpdate LDUpdate.latestType
    dsimp only
    split_ifs with hadd hremove
    · rw [hretype]
      refine h.addOrUpdateLink ⟨src, srcPort, dst, dstPort⟩ ?_
      rintro rfl
      exact hu src srcPort dst dstPort (by rw [hadd])
    · rw [hretype]
      exact h.removeLink _
    · simpa using h
  | port sw port operation => exact h
  | switch sw operation => exact h

/-- Updates leave the maps consistent with the latest types. -/
theorem consistent_foldl_applyUpdate (us : List LDUpdate) (hus : ∀ u ∈ us, u.Typed) :
    ∀ {m : TopologyManager} {type : Link → Option LinkType}, m.Consistent type →
      (us.foldl TopologyManager.applyUpdate m).Consistent
        fun l => us.foldl (LDUpdate.latestType l) (type l) := by
  induction us with
  | nil => exact fun {m type} h => h
  | cons u us ih =>
    intro m type h
    exact ih (fun u' hu' => hus u' (List.mem_cons_of_mem u hu'))
      (h.applyUpdate (hus u List.mem_cons_self))

/-! ### The new instance -/

theorem get_foldl_remove {κ ν : Type} [DecidableEq κ] (ks : List κ) (s : HashMap κ ν) (k : κ) :
    (ks.foldl HashMap.remove s).get k = if k ∈ ks then none else s.get k := by
  induction ks generalizing s with
  | nil => simp
  | cons k' ks ih =>
    rw [List.foldl_cons, ih, HashMap.get_remove]
    by_cases hk : k ∈ ks
    · simp [hk]
    · by_cases hk' : k = k' <;> simp [hk, hk']

theorem has_newInstance {ord : HashOrder} {npt : NodePortTuple} {l : Link}
    (h : (m.newInstance ord).switchPortLinks.Has npt l) : m.switchPortLinks.Has npt l := by
  obtain ⟨s, hs, hl⟩ := h
  refine ⟨s, ?_, hl⟩
  unfold newInstance TopologyInstance.new at hs
  dsimp only at hs
  rw [get_foldl_remove, get_foldl_remove] at hs
  split_ifs at hs
  exact hs

theorem Consistent.mem_switches (h : m.Consistent type) {l : Link} (hl : (type l).isSome)
    {npt : NodePortTuple} (hnpt : npt ∈ l.ends) : npt.nodeId ∈ m.switchPorts.keySet := by
  have hsome := (h.switchPortLinks.get_isSome_iff npt).2 ⟨l, hl, hnpt⟩
  obtain ⟨ports, hports, -⟩ := (h.switchPorts npt.nodeId npt.portId).2 hsome
  exact (HashMap.mem_keySet_iff _).2 ⟨ports, hports⟩

theorem Consistent.filed_newInstance (h : m.Consistent type) (ord : HashOrder) :
    (m.newInstance ord).Filed where
  ends npt l hl := ((h.switchPortLinks.has_iff npt l).1 (has_newInstance hl)).2
  src_mem npt l hl := by
    have hsome := ((h.switchPortLinks.has_iff npt l).1 (has_newInstance hl)).1
    exact h.mem_switches hsome (Link.mem_ends.2 (.inl rfl))
  dst_mem npt l hl := by
    have hsome := ((h.switchPortLinks.has_iff npt l).1 (has_newInstance hl)).1
    exact h.mem_switches hsome (Link.mem_ends.2 (.inr rfl))

theorem new_newInstance (m : TopologyManager) (ord : HashOrder) : (m.newInstance ord).New where
  switches _ := HashMap.mem_keySet _
  clusters := rfl
  switchClusterMap := rfl
  clusterBroadcastNodePorts := rfl
  pathcache := rfl

/-- After any updates the maps agree with the latest type of every link, none is filed both as
direct and as a broadcast domain link, and computing the new instance meets no `null`. -/
theorem consistent_and_computes (us : List LDUpdate) (hus : ∀ u ∈ us, u.Typed) :
    let m := us.foldl applyUpdate empty
    m.Consistent (latestType us) ∧
      (∀ l npt npt', ¬(m.directLinks.Has npt l ∧ m.portBroadcastDomainLinks.Has npt' l)) ∧
      ∀ ord queue, ∃ t, (m.newInstance ord).compute ord queue = some t := by
  have h := consistent_foldl_applyUpdate us hus consistent_empty
  refine ⟨h, ?_, ?_⟩
  · rintro l npt npt' ⟨hd, hb⟩
    have e := ((h.directLinks.has_iff npt l).1 hd).1
    have e' := ((h.portBroadcastDomainLinks.has_iff npt' l).1 hb).1
    rw [e] at e'
    cases e'
  · intro ord queue
    obtain ⟨t, ht, -⟩ := TopologyInstance.compute_spec ord queue (h.filed_newInstance ord)
      (new_newInstance _ ord)
    exact ⟨t, ht⟩

/-- Three links, of which one changes its type twice and one is removed. -/
def retypedLinks : List LDUpdate :=
  [.link 1 1 2 1 .directLink .linkUpdated, .link 2 2 3 1 .multihopLink .linkUpdated,
    .link 1 1 2 1 .tunnel .linkUpdated, .link 3 2 1 2 .directLink .linkUpdated,
    .link 2 2 3 1 .directLink .linkRemoved, .link 1 1 2 1 .multihopLink .linkUpdated]

theorem consistent_and_computes_retypedLinks :
    (retypedLinks.foldl applyUpdate empty).Consistent (latestType retypedLinks) ∧
      latestType retypedLinks ⟨1, 1, 2, 1⟩ = some .multihopLink ∧
      latestType retypedLinks ⟨2, 2, 3, 1⟩ = none :=
  ⟨(consistent_and_computes retypedLinks (by
    intro u hu src srcPort dst dstPort e
    subst e
    simp [retypedLinks] at hu)).1, by decide, by decide⟩

end TopologyManager

end Torpedo
