import Torpedo.Topology.Components
import Torpedo.Topology.Routes
import Torpedo.Util.Trees

/-!
# Broadcast trees

Where links are bidirectional and point-to-point, the ports kept for broadcasts in a cluster are the
ends of a spanning tree of the cluster, the next hops towards its lowest switch. A broadcast that is
forwarded over these ports reaches every switch of the cluster exactly once
(`broadcast_spanningTree`).
-/

namespace Torpedo

namespace TopologyInstance

/-! ## Kept links and floods -/

/-- Links have a link in the other direction, and a port carries one link and its reverse. -/
structure PointToPoint (t : TopologyInstance) : Prop where
  reverse : ∀ npt l, t.switchPortLinks.Has npt l → ∃ npt', t.switchPortLinks.Has npt' l.reverse
  port : ∀ npt l l', t.switchPortLinks.Has npt l → t.switchPortLinks.Has npt l' →
    l' = l ∨ l' = l.reverse

/-- A link of the cluster both of whose ports are kept. -/
structure Kept (c : Cluster) (ports : List NodePortTuple) (l : Link) : Prop where
  hasLink : c.HasLink l
  src : l.srcNpt ∈ ports
  dst : l.dstNpt ∈ ports

/-- The graph that the kept ports induce on the switches of the cluster. -/
def keptGraph (c : Cluster) (ports : List NodePortTuple) : SimpleGraph {v // v ∈ c.getNodes} :=
  SimpleGraph.fromRel fun u v => ∃ l, Kept c ports l ∧ l.src = u.1 ∧ l.dst = v.1

/-- The kept ports form a spanning tree: two switches are joined by one kept link at most, and the
graph of these links connects all switches and has no cycle. -/
structure SpanningTree (c : Cluster) (ports : List NodePortTuple) : Prop where
  isTree : (keptGraph c ports).IsTree
  single : ∀ l l', Kept c ports l → Kept c ports l' → l.src = l'.src → l.dst = l'.dst → l = l'
  proper : ∀ l, Kept c ports l → l.src ≠ l.dst

/-- The copies of a broadcast that enters at the port `q₀` of the switch `s₀`: a copy has come to a
switch and a port over a list of links, the last one first. A switch forwards a copy that it accepts
over its broadcast ports, but for the port where it came in. -/
inductive Flooded (t : TopologyInstance) (s₀ : Dpid) (q₀ : OFPort) : Dpid → OFPort → List Link → Prop
  | enter : t.isIncomingBroadcastAllowedOnSwitchPort s₀ q₀ = some true → Flooded t s₀ q₀ s₀ q₀ []
  | forward {s : Dpid} {q : OFPort} {es : List Link} {ports : List OFPort} {l : Link} :
    Flooded t s₀ q₀ s q es → t.getBroadcastPorts s = some ports → l.srcPort ∈ ports →
    l.srcPort ≠ q → l.src = s → (∃ npt, t.switchPortLinks.Has npt l) →
    t.isIncomingBroadcastAllowedOnSwitchPort l.dst l.dstPort = some true →
    Flooded t s₀ q₀ l.dst l.dstPort (l :: es)

variable {ord : HashOrder} {queue : NodeQueue} {t t' : TopologyInstance} {c : Cluster}
  {tree : BroadcastTree}

/-! ## The ports of a tree -/

theorem PointToPoint.isEdge_reverse (h : t.PointToPoint) {l : Link} (hl : t.domainGraph.IsEdge l) :
    t.domainGraph.IsEdge l.reverse := by
  obtain ⟨⟨npt, hnpt⟩, hb, hd⟩ := hl
  refine ⟨h.reverse npt l hnpt, ?_, ?_⟩
  · unfold isBlockedLink at hb ⊢
    rw [Bool.or_comm]
    exact hb
  · unfold isBroadcastDomainLink at hd ⊢
    rw [Bool.or_comm]
    exact hd

theorem mem_foldl_treePorts {npt : NodePortTuple} (ks : List Dpid) (acc : List NodePortTuple) :
    npt ∈ ks.foldl (fun nptSet nodeId =>
        match tree.getTreeLink nodeId with
        | none => nptSet
        | some l => setAdd (setAdd nptSet l.srcNpt) l.dstNpt) acc ↔
      npt ∈ acc ∨ ∃ v ∈ ks, ∃ l, tree.getTreeLink v = some l ∧ npt ∈ l.ends := by
  induction ks generalizing acc with
  | nil => simp
  | cons k ks ih =>
    rw [List.foldl_cons, ih]
    cases hk : tree.getTreeLink k with
    | none => simp [hk]
    | some l => simp [hk, or_assoc]

theorem mem_treePorts {npt : NodePortTuple} :
    npt ∈ treePorts ord tree ↔ ∃ v l, tree.getTreeLink v = some l ∧ npt ∈ l.ends := by
  unfold treePorts
  refine (mem_foldl_treePorts _ _).trans ?_
  constructor
  · rintro (h | ⟨v, -, l, hl⟩)
    · cases h
    · exact ⟨v, l, hl⟩
  · rintro ⟨v, l, hl, hnpt⟩
    refine .inr ⟨v, ?_, l, hl, hnpt⟩
    rw [HashOrder.mem_iter, HashMap.mem_keySet_iff]
    exact ⟨_, getTreeLink_eq_some.1 hl⟩


/-! ## The kept links -/

section Tree

variable (hC : Computed ord queue t t') (hI : t.Indexed) (hp : t.PointToPoint)
  (hc : c ∈ t'.clusters) (hops : NextHops c c.id tree)

include hC hI hp hc hops

/-- A port of a link of the cluster is kept if the tree uses the link in one of its directions. -/
theorem mem_treePorts_iff {l : Link} (hl : ∃ npt, t.switchPortLinks.Has npt l)
    {npt : NodePortTuple} (hnpt : npt ∈ l.ends) :
    npt ∈ treePorts ord tree ↔
      tree.getTreeLink l.src = some l ∨ tree.getTreeLink l.dst = some l.reverse := by
  obtain ⟨npt₀, hnpt₀⟩ := hl
  have hhas := (hI.both npt₀ l hnpt₀ npt hnpt).1
  rw [mem_treePorts]
  constructor
  · rintro ⟨v, l', hl', hmem⟩
    have hlink := (hC.hasLink_iff hI hc l').1 (hops.hasLink v l' hl')
    obtain ⟨npt', hnpt'⟩ := hlink.1.1
    obtain rfl := hops.src v l' hl'
    rcases hp.port npt l l' hhas (hI.both npt' l' hnpt' npt hmem).1 with rfl | rfl
    · exact .inl hl'
    · exact .inr hl'
  · rintro (h | h)
    · exact ⟨_, l, h, hnpt⟩
    · refine ⟨_, l.reverse, h, ?_⟩
      rw [Link.mem_ends] at hnpt ⊢
      exact hnpt.symm

theorem kept_iff {l : Link} :
    Kept c (treePorts ord tree) l ↔
      tree.getTreeLink l.src = some l ∨ tree.getTreeLink l.dst = some l.reverse := by
  constructor
  · rintro ⟨hl, hsrc, -⟩
    exact (mem_treePorts_iff hC hI hp hc hops ((hC.hasLink_iff hI hc l).1 hl).1.1 (by simp)).1 hsrc
  · intro h
    have hl : c.HasLink l := by
      rcases h with h | h
      · exact hops.hasLink _ l h
      · obtain ⟨hedge, hsrc, hdst⟩ := (hC.hasLink_iff hI hc _).1 (hops.hasLink _ _ h)
        exact (hC.hasLink_iff hI hc l).2 ⟨hp.isEdge_reverse hedge, hdst, hsrc⟩
    have hedge := ((hC.hasLink_iff hI hc l).1 hl).1.1
    exact ⟨hl, (mem_treePorts_iff hC hI hp hc hops hedge (by simp)).2 h,
      (mem_treePorts_iff hC hI hp hc hops hedge (by simp)).2 h⟩

theorem Kept.reverse {l : Link} (h : Kept c (treePorts ord tree) l) :
    Kept c (treePorts ord tree) l.reverse := by
  rw [kept_iff hC hI hp hc hops] at h ⊢
  exact h.symm

/-- Kept links lead up or down in cost. -/
theorem Kept.src_ne_dst {l : Link} (h : Kept c (treePorts ord tree) l) : l.src ≠ l.dst := by
  intro he
  rcases (kept_iff hC hI hp hc hops).1 h with h | h
  · have hlt := hops.descends _ l h
    rw [he] at hlt
    exact lt_irrefl _ hlt
  · have hlt := hops.descends _ _ h
    change tree.getCost l.src < _ at hlt
    rw [he] at hlt
    exact lt_irrefl _ hlt

/-- Neither of two next hops leads back along the other. -/
theorem Kept.eq_of_ends {l l' : Link} (h : Kept c (treePorts ord tree) l)
    (h' : Kept c (treePorts ord tree) l') (hsrc : l.src = l'.src) (hdst : l.dst = l'.dst) :
    l = l' := by
  have hback : ∀ {l l' : Link}, tree.getTreeLink l.src = some l →
      tree.getTreeLink l'.dst = some l'.reverse → l.src = l'.src → l.dst = l'.dst → False := by
    intro l l' hl hl' hsrc hdst
    have h₁ := hops.descends _ l hl
    have h₂ := hops.descends _ _ hl'
    change tree.getCost l'.src < _ at h₂
    rw [hdst, hsrc] at h₁
    omega
  rcases (kept_iff hC hI hp hc hops).1 h with hl | hl <;>
    rcases (kept_iff hC hI hp hc hops).1 h' with hl' | hl'
  · rw [hsrc, hl'] at hl
    exact (Option.some.inj hl).symm
  · exact (hback hl hl' hsrc hdst).elim
  · exact (hback hl' hl hsrc.symm hdst.symm).elim
  · rw [hdst, hl'] at hl
    have hr := congrArg Link.reverse (Option.some.inj hl)
    exact hr.symm

theorem adj_keptGraph {u v : {v // v ∈ c.getNodes}} :
    (keptGraph c (treePorts ord tree)).Adj u v ↔
      ∃ l, Kept c (treePorts ord tree) l ∧ l.src = u.1 ∧ l.dst = v.1 := by
  unfold keptGraph
  rw [SimpleGraph.fromRel_adj]
  constructor
  · rintro ⟨-, h | ⟨l, hl, hsrc, hdst⟩⟩
    · exact h
    · exact ⟨l.reverse, hl.reverse hC hI hp hc hops, hdst, hsrc⟩
  · rintro ⟨l, hl, hsrc, hdst⟩
    refine ⟨?_, .inl ⟨l, hl, hsrc, hdst⟩⟩
    rintro rfl
    exact hl.src_ne_dst hC hI hp hc hops (hsrc.trans hdst.symm)

/-! ## The spanning tree -/

theorem spanningTree_treePorts (hroot : c.id ∈ c.getNodes)
    (hsome : ∀ v ∈ c.getNodes, v ≠ c.id → (tree.getTreeLink v).isSome) :
    SpanningTree c (treePorts ord tree) where
  single _ _ h h' hsrc hdst := h.eq_of_ends hC hI hp hc hops h' hsrc hdst
  proper _ h := h.src_ne_dst hC hI hp hc hops
  isTree := by
    -- the parent of a switch is the other end of its next hop
    have hparent : ∀ v : {v // v ∈ c.getNodes}, ∃ u : {v // v ∈ c.getNodes}, v.1 ≠ c.id →
        ∃ l, tree.getTreeLink v.1 = some l ∧ l.dst = u.1 := by
      intro v
      by_cases hv : v.1 = c.id
      · exact ⟨v, fun h => absurd hv h⟩
      · obtain ⟨l, hl⟩ := Option.isSome_iff_exists.1 (hsome v.1 v.2 hv)
        exact ⟨⟨l.dst, Cluster.WellFormed.dst_mem (hops.hasLink _ l hl)⟩, fun _ => ⟨l, hl, rfl⟩⟩
    choose parent hparent using hparent
    have hfin : Finite {v // v ∈ c.getNodes} := List.finite_toSet c.getNodes
    suffices h : Tree.Parents (keptGraph c (treePorts ord tree)) ⟨c.id, hroot⟩ parent
        fun v => (tree.getCost v.1).toNat from h.isTree
    constructor
    · intro v hv
      obtain ⟨l, hl, hdst⟩ := hparent v fun h => hv (Subtype.ext h)
      have hnonneg := hops.nonneg _ l hl
      have hlt := hops.descends _ l hl
      rw [hdst] at hnonneg hlt
      omega
    · intro u v
      have hiff : ∀ u v : {v // v ∈ c.getNodes}, (u ≠ ⟨c.id, hroot⟩ ∧ parent u = v) ↔
          ∃ l, tree.getTreeLink u.1 = some l ∧ l.dst = v.1 := by
        intro u v
        constructor
        · rintro ⟨hu, rfl⟩
          exact hparent u fun h => hu (Subtype.ext h)
        · rintro ⟨l, hl, hdst⟩
          have hu : u.1 ≠ c.id := by
            intro h
            rw [h, hops.rootHop] at hl
            cases hl
          obtain ⟨l', hl', hdst'⟩ := hparent u hu
          obtain rfl := Option.some.inj (hl.symm.trans hl')
          exact ⟨fun h => hu (congrArg Subtype.val h), Subtype.ext (hdst'.symm.trans hdst)⟩
      rw [adj_keptGraph hC hI hp hc hops, hiff, hiff]
      constructor
      · rintro ⟨l, hl, hsrc, hdst⟩
        rcases (kept_iff hC hI hp hc hops).1 hl with h | h
        · exact .inl ⟨l, hsrc ▸ h, hdst⟩
        · exact .inr ⟨l.reverse, hdst ▸ h, hsrc⟩
      · rintro (⟨l, hl, hdst⟩ | ⟨l, hl, hdst⟩)
        · have hsrc := hops.src _ l hl
          exact ⟨l, (kept_iff hC hI hp hc hops).2 (.inl (hsrc.symm ▸ hl)), hsrc, hdst⟩
        · have hsrc := hops.src _ l hl
          refine ⟨l.reverse, (kept_iff hC hI hp hc hops).2 (.inr ?_), hdst, hsrc⟩
          show tree.getTreeLink l.src = some l
          rw [hsrc]
          exact hl

/-! ## Floods -/

variable (hports : t'.clusterBroadcastNodePorts.get c.id = some (treePorts ord tree))

include hports

omit hI hp hops in
theorem clusterPorts_eq {v : Dpid} (hv : v ∈ c.getNodes) :
    t'.clusterBroadcastNodePorts.get (t'.getOpenflowDomainId v) = some (treePorts ord tree) := by
  unfold getOpenflowDomainId
  rw [hC.filled.clusterOf_eq hc hv]
  exact hports

/-- The links that a switch of the cluster forwards a broadcast over are its kept links. -/
theorem forwards_iff {s : Dpid} (hs : s ∈ c.getNodes) {l : Link} (hl : l.src = s) :
    (∃ ports, t'.getBroadcastPorts s = some ports ∧ l.srcPort ∈ ports) ∧
      (∃ npt, t'.switchPortLinks.Has npt l) ∧
      t'.isIncomingBroadcastAllowedOnSwitchPort l.dst l.dstPort = some true ↔
    Kept c (treePorts ord tree) l := by
  subst hl
  have hget : t'.getBroadcastPorts l.src = some (((treePorts ord tree).filter
      fun npt => npt.nodeId = l.src).map NodePortTuple.portId) := by
    unfold getBroadcastPorts
    rw [clusterPorts_eq hC hc hports hs]
    rfl
  have hmem : (∃ ports, t'.getBroadcastPorts l.src = some ports ∧ l.srcPort ∈ ports) ↔
      l.srcNpt ∈ treePorts ord tree := by
    rw [hget]
    constructor
    · rintro ⟨ports, hp, hport⟩
      obtain rfl := Option.some.inj hp
      obtain ⟨npt, hnpt, he⟩ := List.mem_map.1 hport
      obtain ⟨hnpt, hsw⟩ := List.mem_filter.1 hnpt
      have hnode : npt = l.srcNpt := by
        cases npt
        rw [Link.srcNpt, NodePortTuple.mk.injEq]
        exact ⟨of_decide_eq_true hsw, he⟩
      exact hnode ▸ hnpt
    · intro h
      exact ⟨_, rfl, List.mem_map.2 ⟨l.srcNpt, List.mem_filter.2 ⟨h, decide_eq_true rfl⟩, rfl⟩⟩
  rw [hmem, hC.switchPortLinks]
  constructor
  · rintro ⟨hport, hhas, -⟩
    exact (kept_iff hC hI hp hc hops).2 ((mem_treePorts_iff hC hI hp hc hops hhas (by simp)).1 hport)
  · rintro ⟨hlink, hsrc, hdst⟩
    have hstored := ((hC.hasLink_iff hI hc l).1 hlink).1.1
    refine ⟨hsrc, hstored, ?_⟩
    unfold isIncomingBroadcastAllowedOnSwitchPort
    rw [clusterPorts_eq hC hc hports (Cluster.WellFormed.dst_mem hlink)]
    split_ifs
    · exact congrArg some (List.contains_iff_mem.2 hdst)
    · rfl

omit hC hI hp hc hops hports in
/-- A flood starts with no link, and after that has come in over the last link. -/
theorem Flooded.last {s₀ s : Dpid} {q₀ q : OFPort} {es : List Link} (h : t'.Flooded s₀ q₀ s q es) :
    (es = [] ∧ s = s₀ ∧ q = q₀) ∨ ∃ l es', es = l :: es' ∧ l.dst = s ∧ l.dstPort = q := by
  cases h with
  | enter _ => exact .inl ⟨rfl, rfl, rfl⟩
  | forward _ _ _ _ _ _ _ => exact .inr ⟨_, _, rfl, rfl, rfl⟩

/-- The links of a flood that enters in the cluster are kept links, and its way is the way of a
flood of their graph. -/
theorem Flooded.flood {s₀ : Dpid} (hs₀ : s₀ ∈ c.getNodes) {q₀ : OFPort} {s : Dpid} {q : OFPort}
    {es : List Link} (h : t'.Flooded s₀ q₀ s q es) :
    (∀ l ∈ es, Kept c (treePorts ord tree) l) ∧
      ∃ (hs : s ∈ c.getNodes) (vs : List {v // v ∈ c.getNodes}),
        vs.map Subtype.val = es.map Link.src ∧
          Tree.Flood (keptGraph c (treePorts ord tree)) ⟨s₀, hs₀⟩ ⟨s, hs⟩ vs := by
  induction h with
  | enter _ => exact ⟨by simp, hs₀, [], rfl, .start⟩
  | @forward s q es ports l h hports' hport hne hsrc hstored hallowed ih =>
    obtain ⟨hkept, hs, vs, hvs, hflood⟩ := ih
    have hl := (forwards_iff hC hI hp hc hops hports hs hsrc).1
      ⟨⟨ports, hports', hport⟩, hstored, hallowed⟩
    refine ⟨?_, Cluster.WellFormed.dst_mem hl.hasLink, ⟨s, hs⟩ :: vs, ?_, .forward hflood ?_ ?_⟩
    · intro l' hl'
      rcases List.mem_cons.1 hl' with rfl | hl'
      · exact hl
      · exact hkept l' hl'
    · rw [List.map_cons, List.map_cons, hvs, hsrc]
    · exact (adj_keptGraph hC hI hp hc hops).2 ⟨l, hl, hsrc, rfl⟩
    · -- going back would use the port that the copy came in by
      intro hback
      obtain ⟨vs', rfl⟩ := List.head?_eq_some_iff.1 hback
      rcases h.last with ⟨rfl, -⟩ | ⟨l', es', rfl, hdst, hq⟩
      · cases hvs
      · have hsrc' : l.dst = l'.src := (List.cons.inj hvs).1
        have hl' := (hkept l' List.mem_cons_self).reverse hC hI hp hc hops
        have he := hl.eq_of_ends hC hI hp hc hops hl' (hsrc.trans hdst.symm) hsrc'
        rw [he] at hne
        exact hne hq

/-- A flood of the graph of the kept links is a flood of the cluster. -/
theorem exists_flooded {s₀ : {v // v ∈ c.getNodes}} {q₀ : OFPort}
    (hq₀ : t'.isAttachmentPointPort s₀.1 q₀ = true) {s : {v // v ∈ c.getNodes}}
    {vs : List {v // v ∈ c.getNodes}}
    (h : Tree.Flood (keptGraph c (treePorts ord tree)) s₀ s vs) :
    ∃ es q, t'.Flooded s₀.1 q₀ s.1 q es ∧ es.map Link.src = vs.map Subtype.val := by
  induction h with
  | start =>
    refine ⟨[], q₀, .enter ?_, rfl⟩
    unfold isIncomingBroadcastAllowedOnSwitchPort isInternalToOpenflowDomain
    rw [hq₀]
    rfl
  | @forward s s' vs _ hadj hne ih =>
    obtain ⟨es, q, hes, hvs⟩ := ih
    obtain ⟨l, hl, hsrc, hdst⟩ := (adj_keptGraph hC hI hp hc hops).1 hadj
    obtain ⟨⟨ports, hports', hport⟩, hstored, hallowed⟩ :=
      (forwards_iff hC hI hp hc hops hports s.2 hsrc).2 hl
    have hfiled : t'.switchPortLinks.Has l.srcNpt l := by
      obtain ⟨npt, hnpt⟩ := hstored
      rw [hC.switchPortLinks] at hnpt ⊢
      exact (hI.both npt l hnpt _ (by simp)).1
    refine ⟨l :: es, l.dstPort, ?_, ?_⟩
    · rw [← hdst]
      refine .forward hes hports' hport ?_ hsrc hstored hallowed
      rintro rfl
      rcases hes.last with ⟨rfl, hs, hq⟩ | ⟨l', es', rfl, hdst', hq⟩
      · -- no link is filed at the port where the broadcast entered
        rw [← hs, ← hsrc, ← hq] at hq₀
        obtain ⟨links, hlinks, -⟩ := hfiled
        unfold isAttachmentPointPort HashMap.containsKey at hq₀
        change t'.switchPortLinks.get ⟨l.src, l.srcPort⟩ = _ at hlinks
        rw [hlinks] at hq₀
        cases hq₀
      · -- the port carries the last link and its reverse only
        have hl' := (hes.flood hC hI hp hc hops hports s₀.2).1 l' List.mem_cons_self
        obtain ⟨npt, hnpt⟩ := ((hC.hasLink_iff hI hc l').1 hl'.hasLink).1.1
        have hnode : l.srcNpt = l'.dstNpt := by
          unfold Link.srcNpt Link.dstNpt
          rw [hsrc, ← hdst', hq]
        rw [hC.switchPortLinks, hnode] at hfiled
        rcases hp.port _ l' l (hI.both npt l' hnpt _ (by simp)).1 hfiled with rfl | rfl
        · exact hl.src_ne_dst hC hI hp hc hops (hsrc.trans hdst'.symm)
        · apply hne
          cases vs with
          | nil => cases hvs
          | cons v vs =>
            exact congrArg some (Subtype.ext ((List.cons.inj hvs).1.symm.trans hdst))
    · rw [List.map_cons, List.map_cons, hvs, hsrc]

/-- Two switches are joined by one kept link, so a flood is told by the switches on its way. -/
theorem Flooded.eq_of_ways {s₀ : Dpid} (hs₀ : s₀ ∈ c.getNodes) {q₀ : OFPort} {s : Dpid} {q : OFPort}
    {es : List Link} (h : t'.Flooded s₀ q₀ s q es) :
    ∀ {s' : Dpid} {q' : OFPort} {es' : List Link}, t'.Flooded s₀ q₀ s' q' es' → s = s' →
      es.map Link.src = es'.map Link.src → es = es' := by
  induction h with
  | enter _ =>
    intro s' q' es' _ _ he
    exact (List.map_eq_nil_iff.1 he.symm).symm
  | @forward s q es ports l h hports' hport hne hsrc hstored hallowed ih =>
    have hkept := (h.forward hports' hport hne hsrc hstored hallowed).flood hC hI hp hc hops hports hs₀
    rintro s' q' es' h' hs he
    have hkept' := h'.flood hC hI hp hc hops hports hs₀
    cases h' with
    | enter _ => cases he
    | @forward s₁ q₁ es₁ ports₁ l₁ h₁ _ _ _ hsrc₁ _ _ =>
      obtain ⟨hl, hes⟩ := List.cons.inj he
      obtain rfl := (hkept.1 l List.mem_cons_self).eq_of_ends hC hI hp hc hops
        (hkept'.1 l₁ List.mem_cons_self) hl hs
      rw [ih h₁ (hsrc.symm.trans hsrc₁) hes]

/-- **A broadcast comes to every switch of the cluster exactly once.** -/
theorem existsUnique_flooded (htree : (keptGraph c (treePorts ord tree)).IsTree) {s₀ v : Dpid}
    (hs₀ : s₀ ∈ c.getNodes) (hv : v ∈ c.getNodes) {q₀ : OFPort}
    (hq₀ : t'.isAttachmentPointPort s₀ q₀ = true) :
    ∃! es, ∃ q, t'.Flooded s₀ q₀ v q es := by
  obtain ⟨vs, hvs, huniq⟩ := Tree.existsUnique_flood htree ⟨s₀, hs₀⟩ ⟨v, hv⟩
  obtain ⟨es, q, hes, hmap⟩ := exists_flooded hC hI hp hc hops hports hq₀ hvs
  refine ⟨es, ⟨q, hes⟩, ?_⟩
  rintro es' ⟨q', hes'⟩
  obtain ⟨-, _, vs', hmap', hvs'⟩ := hes'.flood hC hI hp hc hops hports hs₀
  refine hes'.eq_of_ways hC hI hp hc hops hports hs₀ hes rfl ?_
  rw [hmap, ← hmap', huniq vs' hvs']

end Tree

/-- **Where links are bidirectional and point-to-point, the ports kept for broadcasts in a cluster
form a spanning tree of it, and a broadcast that enters at any switch comes to every switch of the
cluster exactly once.** -/
theorem broadcast_spanningTree (ord : HashOrder) (queue : NodeQueue) (t t' : TopologyInstance)
    (hI : t.Indexed) (hN : t.New) (ht : t.compute ord queue = some t') (hp : t.PointToPoint)
    (hw : CostsBounded ord t')
    (hs : ∀ c ∈ t'.clusters, c.SumsBounded (some (t'.tunnelLinkCost ord)) c.id) :
    ∀ c ∈ t'.clusters, ∃ ports, t'.clusterBroadcastNodePorts.get c.id = some ports ∧
      SpanningTree c ports ∧
      ∀ s₀ ∈ c.getNodes, ∀ q₀, t'.isAttachmentPointPort s₀ q₀ = true →
        ∀ v ∈ c.getNodes, ∃! es, ∃ q, t'.Flooded s₀ q₀ v q es := by
  obtain ⟨t₁, ht₁, hC⟩ := compute_spec ord queue hI.filed hN
  obtain rfl := Option.some.inj (ht₁.symm.trans ht)
  intro c hc
  have hroot : c.id ∈ c.getNodes := hC.filled.domains.id_mem hc
  obtain ⟨tree, htree, hports⟩ := hC.nodePorts c hc
  obtain ⟨tree', hdij, htree'⟩ := hC.trees c hc c.id hroot
  obtain rfl := Option.some.inj (htree.symm.trans htree')
  obtain ⟨hops, hreached⟩ := dijkstra_nextHops (hC.filled.wellFormed hc) (hw c hc) hroot hdij
  have hrev : ∀ l, t.domainGraph.IsEdge l → ∃ l', t.domainGraph.IsEdge l' ∧ l'.src = l.dst ∧
      l'.dst = l.src := fun l hl => ⟨l.reverse, hp.isEdge_reverse hl, rfl, rfl⟩
  have hspan := spanningTree_treePorts hC hI hp hc hops hroot fun v hv hne =>
    hreached (hs c hc) v hne (hC.reaches hI hN hrev hc hv hroot)
  exact ⟨treePorts ord tree, hports, hspan, fun s₀ hs₀ q₀ hq₀ v hv =>
    existsUnique_flooded hC hI hp hc hops hports hspan.isTree hs₀ hv hq₀⟩

theorem pointToPoint_ofLinks {ls : List Link} {tunnelPorts : List NodePortTuple}
    (hrev : ∀ l ∈ ls, l.reverse ∈ ls)
    (hport : ∀ l ∈ ls, ∀ l' ∈ ls, ∀ npt ∈ l.ends, npt ∈ l'.ends → l' = l ∨ l' = l.reverse) :
    (ofLinks ls tunnelPorts).PointToPoint where
  reverse npt l h := by
    obtain ⟨hl, -⟩ := has_ofLinks.1 h
    exact ⟨l.dstNpt, has_ofLinks.2 ⟨hrev l hl, Link.mem_ends.2 (.inl rfl)⟩⟩
  port npt l l' h h' := by
    obtain ⟨hl, hnpt⟩ := has_ofLinks.1 h
    obtain ⟨hl', hnpt'⟩ := has_ofLinks.1 h'
    exact hport l hl l' hl' npt hnpt hnpt'

theorem broadcast_spanningTree_tunnelPair :
    ∃ t', tunnelPair.compute .insertion (.following []) = some t' ∧
      ∀ c ∈ t'.clusters, ∃ ports, t'.clusterBroadcastNodePorts.get c.id = some ports ∧
        SpanningTree c ports ∧
        ∀ s₀ ∈ c.getNodes, ∀ q₀, t'.isAttachmentPointPort s₀ q₀ = true →
          ∀ v ∈ c.getNodes, ∃! es, ∃ q, t'.Flooded s₀ q₀ v q es := by
  obtain ⟨t', h, hC⟩ := compute_spec .insertion (.following []) (t := tunnelPair)
    indexed_ofLinks.filed new_ofLinks
  have hlen : (t'.switchPorts.keySet.length : Int) < MAX_LINK_WEIGHT := by
    rw [hC.switchPorts]
    decide
  refine ⟨t', h, broadcast_spanningTree .insertion (.following []) tunnelPair t' indexed_ofLinks
    new_ofLinks h (pointToPoint_ofLinks (by decide) (by decide))
    (costsBounded_of_length .insertion hlen) fun c hc => ?_⟩
  have hnodes : c.getNodes.length ≤ 3 := by
    have hsub : c.getNodes ⊆ tunnelPair.switches := by
      intro v hv
      rw [← hC.switches]
      exact hC.filled.mem_switches hc hv
    exact (List.subperm_of_subset c.links.nodup_keySet hsub).length_le
  refine (Priced.of_length (hC.filled.wellFormed hc) (hC.filled.domains.id_mem hc)
    (costsBounded_of_length .insertion hlen c hc) ?_).sums
  unfold MAX_PATH_WEIGHT MAX_LINK_WEIGHT
  omega

/-! ## Broadcast trees with a gap -/

/-- Where the next hops lead round in a circle, no kept link joins the switches before the circle to
those after. -/
theorem not_connected_of_turnedBack {m : ℕ} {linkCost : Option (HashMap Link Int)} {w : Int}
    (hm : m + 3 < 2 ^ 63) (h : Chain c linkCost w chainNode chainLink (m + 3))
    (hT : TurnedBack chainNode chainLink m tree.links)
    (hnodes : ∀ v l, tree.getTreeLink v = some l → ∃ k ≤ m + 3, v = chainNode k) :
    ¬(keptGraph c (treePorts ord tree)).Connected := by
  have hgap : ∀ l, Kept c (treePorts ord tree) l → ∀ k ≤ m + 3, l = chainLink k ∨
      l = (chainLink k).reverse → k ≠ m := by
    rintro l hl k hk hlk rfl
    have hmem : (chainLink k).srcNpt ∈ treePorts ord tree := by
      rcases hlk with rfl | rfl
      · exact hl.src
      · exact hl.dst
    obtain ⟨v, l', hl', hend⟩ := mem_treePorts.1 hmem
    obtain ⟨i, hi, rfl⟩ := hnodes v l' hl'
    obtain ⟨j, hj, hjm, hlj⟩ := hT.link_ne hi hl'
    -- the port 2 of a switch belongs to one link of the chain
    have hnode : chainNode k = chainNode j := by
      have hports : (2 : OFPort) ≠ 1 := by decide
      rcases hlj with rfl | rfl
      · rcases Link.mem_ends.1 hend with he | he
        · exact (NodePortTuple.mk.inj he).1
        · exact absurd (NodePortTuple.mk.inj he).2 hports
      · rcases Link.mem_ends.1 hend with he | he
        · exact absurd (NodePortTuple.mk.inj he).2 hports
        · exact (NodePortTuple.mk.inj he).1
    exact hjm (chainNode_inj (by omega) (by omega) hnode).symm
  -- so the switches before the circle are not left
  have hside : ∀ l, Kept c (treePorts ord tree) l →
      ((∃ i ≤ m, l.src = chainNode i) ↔ ∃ i ≤ m, l.dst = chainNode i) := by
    intro l hl
    obtain ⟨k, hk, hlk⟩ := (h.hasLink l).1 hl.hasLink
    have hne := hgap l hl k hk.le hlk
    have hlow : (∃ i ≤ m, chainNode k = chainNode i) ↔ ∃ i ≤ m, chainNode (k + 1) = chainNode i := by
      constructor
      · rintro ⟨i, hi, he⟩
        have := chainNode_inj (by omega) (by omega) he
        exact ⟨k + 1, by omega, rfl⟩
      · rintro ⟨i, hi, he⟩
        have := chainNode_inj (by omega) (by omega) he
        exact ⟨k, by omega, rfl⟩
    rcases hlk with rfl | rfl
    · exact hlow
    · exact hlow.symm
  intro hconn
  have hreach := hconn.preconnected ⟨_, h.mem 0 (Nat.zero_le _)⟩ ⟨_, h.mem (m + 3) le_rfl⟩
  rw [SimpleGraph.reachable_iff_reflTransGen] at hreach
  have hclosed : ∃ i ≤ m, chainNode (m + 3) = chainNode i := by
    refine Relation.ReflTransGen.head_induction_on (motive := fun u _ =>
      (∃ i ≤ m, u.1 = chainNode i) → ∃ i ≤ m, chainNode (m + 3) = chainNode i) hreach id ?_
      ⟨0, Nat.zero_le m, rfl⟩
    intro u v hadj _ ih hu
    unfold keptGraph at hadj
    rw [SimpleGraph.fromRel_adj] at hadj
    apply ih
    rcases hadj.2 with ⟨l, hl, hsrc, hdst⟩ | ⟨l, hl, hsrc, hdst⟩
    · rw [← hsrc] at hu
      rw [← hdst]
      exact (hside l hl).1 hu
    · rw [← hdst] at hu
      rw [← hsrc]
      exact (hside l hl).2 hu
  obtain ⟨i, hi, he⟩ := hclosed
  have := chainNode_inj (by omega) (by omega) he
  omega

/-- In a chain of 46340 tunnels, each of weight 46342, the distance of the last switch overflows,
and the ports that are kept do not connect the switches. -/
theorem not_spanningTree_tunnelChain : (tunnelChain 46340).Indexed ∧ (tunnelChain 46340).New ∧
    (tunnelChain 46340).PointToPoint ∧
    ∃ t', (tunnelChain 46340).compute .insertion (.following []) = some t' ∧
      ∃ c ∈ t'.clusters, (∀ l, c.HasLink l → 0 < weight (some (t'.tunnelLinkCost .insertion)) l) ∧
        ∃ ports, t'.clusterBroadcastNodePorts.get c.id = some ports ∧ ¬SpanningTree c ports := by
  refine ⟨indexed_ofLinks, new_ofLinks, pointToPoint_ofLinks ?_ ?_, ?_⟩
  · intro l hl
    obtain ⟨k, hk, rfl | rfl⟩ := mem_chainLinks.1 hl
    · exact mem_chainLinks.2 ⟨k, hk, .inr rfl⟩
    · exact mem_chainLinks.2 ⟨k, hk, .inl rfl⟩
  · -- a port tells its link
    have hends : ∀ k, ∀ npt, npt ∈ (chainLink k).ends → ∀ j, npt ∈ (chainLink j).ends →
        k < 46340 → j < 46340 → j = k := by
      intro k npt hk j hj hkn hjn
      have hports : (2 : OFPort) ≠ 1 := by decide
      rcases Link.mem_ends.1 hk with rfl | rfl <;> rcases Link.mem_ends.1 hj with he | he
      · exact (chainNode_inj (by omega) (by omega) (NodePortTuple.mk.inj he).1).symm
      · exact absurd (NodePortTuple.mk.inj he).2 hports
      · exact absurd (NodePortTuple.mk.inj he).2 hports.symm
      · have := chainNode_inj (by omega) (by omega) (NodePortTuple.mk.inj he).1
        omega
    have hrev : ∀ k npt, npt ∈ (chainLink k).reverse.ends → npt ∈ (chainLink k).ends :=
      fun k npt h => Link.mem_ends.2 (Link.mem_ends.1 h).symm
    intro l hl l' hl' npt hnpt hnpt'
    obtain ⟨k, hk, hlk⟩ := mem_chainLinks.1 hl
    obtain ⟨j, hj, hlj⟩ := mem_chainLinks.1 hl'
    have hkend : npt ∈ (chainLink k).ends := by
      rcases hlk with rfl | rfl
      · exact hnpt
      · exact hrev k npt hnpt
    have hjend : npt ∈ (chainLink j).ends := by
      rcases hlj with rfl | rfl
      · exact hnpt'
      · exact hrev j npt hnpt'
    obtain rfl := hends k npt hkend j hjend hk hj
    rcases hlk with rfl | rfl <;> rcases hlj with rfl | rfl
    · exact .inl rfl
    · exact .inr rfl
    · exact .inr rfl
    · exact .inl rfl
  obtain ⟨t', h, hC⟩ := compute_spec .insertion (.following []) (t := tunnelChain 46340)
    indexed_ofLinks.filed new_ofLinks
  obtain ⟨c, hc, hchain, hid⟩ := hC.exists_chain (by norm_num) (by norm_num)
  refine ⟨t', h, c, hc, fun l hl => ?_, ?_⟩
  · rw [hchain.weight l hl]
    norm_num
  obtain ⟨tree, htree, hports⟩ := hC.nodePorts c hc
  obtain ⟨tree', hdij, htree'⟩ := hC.trees c hc _ (hchain.mem 0 (Nat.zero_le _))
  rw [hid] at htree
  obtain rfl := Option.some.inj (htree.symm.trans htree')
  refine ⟨_, hports, fun hspan => ?_⟩
  have hT := Chain.turnedBack (m := 46337) hchain (by norm_num)
    (by norm_num [MAX_PATH_WEIGHT, MAX_LINK_WEIGHT]) (by norm_num) hdij
  refine not_connected_of_turnedBack (by norm_num) hchain hT (fun v l hl => ?_)
    hspan.isTree.connected
  have hv := hC.filled.mem_switches hc (dijkstra_hops hchain.wellFormed hdij hl)
  rw [hC.switches] at hv
  exact (mem_switches_tunnelChain (by norm_num)).1 hv

end TopologyInstance

end Torpedo
