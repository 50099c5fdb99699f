import Mathlib.Algebra.Ring.Parity
import Torpedo.Topology.Chains
import Torpedo.Topology.Routing

/-!
# Routes of a computed instance

`buildroute` ends after at most as many rounds as there are switches, and what it returns is a walk
in the cluster of the destination that meets no switch twice (`getPortRoute_spec`). Routes that come
out of the cache are those that `buildroute` would make again.
-/

namespace Torpedo

/-- The ports along the links of a walk. -/
def portsOf (es : List Link) : List NodePortTuple := es.flatMap fun l => [l.srcNpt, l.dstNpt]

/-- The ports along a walk, with a port to come in by and a port to go out by. -/
def throughPorts (a : NodePortTuple) (es : List Link) (b : NodePortTuple) : List NodePortTuple :=
  a :: portsOf es ++ [b]

theorem throughPorts_cons (a b : NodePortTuple) (l : Link) (es : List Link) :
    throughPorts a (l :: es) b = a :: l.srcNpt :: throughPorts l.dstNpt es b := rfl

theorem length_portsOf (es : List Link) : (portsOf es).length = 2 * es.length := by
  unfold portsOf
  rw [List.length_flatMap]
  simp [mul_comm]

/-! ## Lists of ports along a walk -/

section Ports

variable {c : Cluster} {v w : Dpid} {es : List Link} {a b : NodePortTuple}

/-- At the even places stand ports of the switches on the way. -/
theorem nodeId_throughPorts (hes : c.graph.Walk v w es) (hb : b.nodeId = w) :
    ∀ {a : NodePortTuple}, a.nodeId = v → ∀ k,
      ((throughPorts a es b)[2 * k]?).map NodePortTuple.nodeId = (es.map Link.src ++ [w])[k]? := by
  induction hes with
  | nil v =>
    intro a ha k
    cases k with
    | zero => exact congrArg some ha
    | succ k => simp [throughPorts, portsOf, mul_add]
  | @cons l es w hl hes ih =>
    intro a ha k
    cases k with
    | zero => exact congrArg some ha
    | succ k =>
      rw [throughPorts_cons, mul_add, List.map_cons, List.cons_append]
      show ((throughPorts l.dstNpt es b)[2 * k]?).map NodePortTuple.nodeId =
        (es.map Link.src ++ [w])[k]?
      exact ih hb rfl k

/-- The way out of a switch is taken at the switch of the way in. -/
theorem sameSwitch_throughPorts (hes : c.graph.Walk v w es) (hb : b.nodeId = w) :
    ∀ {a : NodePortTuple}, a.nodeId = v → ∀ k x y, (throughPorts a es b)[2 * k]? = some x →
      (throughPorts a es b)[2 * k + 1]? = some y → x.nodeId = y.nodeId := by
  induction hes with
  | nil v =>
    intro a ha k x y hx hy
    cases k with
    | zero =>
      obtain rfl : a = x := Option.some.inj hx
      obtain rfl : b = y := Option.some.inj hy
      exact ha.trans hb.symm
    | succ k => simp [throughPorts, portsOf, mul_add] at hx
  | @cons l es w hl hes ih =>
    intro a ha k x y hx hy
    cases k with
    | zero =>
      obtain rfl : a = x := Option.some.inj hx
      obtain rfl : l.srcNpt = y := Option.some.inj hy
      exact ha
    | succ k => exact ih hb rfl k x y hx hy

/-- A way out and the next way in are the ends of a link of the walk. -/
theorem linked_throughPorts (b : NodePortTuple) (es : List Link) :
    ∀ a k x y, (throughPorts a es b)[2 * k + 1]? = some x →
      (throughPorts a es b)[2 * k + 2]? = some y → ∃ l ∈ es, l.srcNpt = x ∧ l.dstNpt = y := by
  induction es with
  | nil =>
    intro a k x y hx hy
    simp [throughPorts, portsOf] at hy
  | cons l es ih =>
    intro a k x y hx hy
    cases k with
    | zero => exact ⟨l, List.mem_cons_self, Option.some.inj hx, Option.some.inj hy⟩
    | succ k =>
      obtain ⟨l', hl', h⟩ := ih l.dstNpt k x y hx hy
      exact ⟨l', List.mem_cons_of_mem l hl', h⟩

theorem head_portsOf {l : Link} (hes : c.graph.Walk v w (l :: es)) :
    (portsOf (l :: es)).head?.map NodePortTuple.nodeId = some v := by
  obtain ⟨-, hsrc, -⟩ := hes.of_cons
  exact congrArg some hsrc

theorem getLast_portsOf {l : Link} (hes : c.graph.Walk v w (l :: es)) :
    (portsOf (l :: es)).getLast?.map NodePortTuple.nodeId = some w := by
  induction es generalizing v l with
  | nil => exact congrArg some hes.of_cons.2.2.eq_of_nil
  | cons l' es ih =>
    have hlast := ih hes.of_cons.2.2
    show (l.srcNpt :: l.dstNpt :: portsOf (l' :: es)).getLast?.map NodePortTuple.nodeId = some w
    rw [List.getLast?_cons, List.getLast?_cons]
    cases hp : (portsOf (l' :: es)).getLast? with
    | none =>
      rw [hp] at hlast
      cases hlast
    | some npt =>
      rw [hp] at hlast
      exact hlast

end Ports

namespace TopologyInstance

/-- A list of ports that leads from `src` to `dst` over links of the cluster of `src`, through each
switch at most once. -/
structure LoopFree (t : TopologyInstance) (src dst : NodePortTuple) (npts : List NodePortTuple) :
    Prop where
  even : Even npts.length
  first : npts.head? = some src
  last : npts.getLast? = some dst
  sameSwitch : ∀ k x y, npts[2 * k]? = some x → npts[2 * k + 1]? = some y → x.nodeId = y.nodeId
  linked : ∀ k x y, npts[2 * k + 1]? = some x → npts[2 * k + 2]? = some y →
    ∃ c l, t.clusterOf src.nodeId = some c ∧ c.HasLink l ∧ l.srcNpt = x ∧ l.dstNpt = y
  once : ∀ j k x y, npts[2 * j]? = some x → npts[2 * k]? = some y → x.nodeId = y.nodeId → j = k

theorem loopFree_throughPorts {t : TopologyInstance} {c : Cluster} {es : List Link}
    {a b : NodePortTuple} (hes : c.graph.Walk a.nodeId b.nodeId es)
    (hs : c.graph.Simple es b.nodeId) (hc : es ≠ [] → t.clusterOf a.nodeId = some c) :
    t.LoopFree a b (throughPorts a es b) where
  even := by
    refine ⟨es.length + 1, ?_⟩
    unfold throughPorts
    rw [List.length_append, List.length_cons, length_portsOf, List.length_singleton]
    omega
  first := rfl
  last := by
    unfold throughPorts
    rw [List.getLast?_append, List.getLast?_singleton]
    rfl
  sameSwitch := sameSwitch_throughPorts hes rfl rfl
  linked k x y hx hy := by
    obtain ⟨l, hl, hxy⟩ := linked_throughPorts b es a k x y hx hy
    exact ⟨c, l, hc (List.ne_nil_of_mem hl), hes.isEdge l hl, hxy⟩
  once j k x y hx hy hxy := by
    have hj := nodeId_throughPorts hes rfl (a := a) rfl j
    have hk := nodeId_throughPorts hes rfl (a := a) rfl k
    rw [hx, Option.map_some] at hj
    rw [hy, Option.map_some, ← hxy, hj] at hk
    have hlt : j < (es.map Link.src ++ [b.nodeId]).length := by
      by_contra hge
      rw [List.getElem?_eq_none (not_lt.1 hge)] at hj
      cases hj
    exact (List.getElem?_inj hlt hs).1 hk

/-! ## buildroute -/

section Follow

variable {tree : BroadcastTree} {c : Cluster} {v dst : Dpid} {es : List Link}

/-- Following the next hops of a walk gives the ports along it. -/
theorem followLinks_walk (hes : c.graph.Walk v dst es)
    (hhops : ∀ e ∈ es, tree.getTreeLink e.src = some e) (hs : c.graph.Simple es dst) :
    ∀ fuel npts, es.length ≤ fuel →
      followLinks tree dst fuel v npts = .returned (npts ++ portsOf es) := by
  induction hes with
  | nil v =>
    intro fuel npts _
    unfold followLinks
    rw [if_pos rfl]
    exact congrArg Outcome.returned (List.append_nil npts).symm
  | @cons l es w hl hes ih =>
    intro fuel npts hfuel
    have hs' := List.nodup_cons.1 hs
    have hne : l.src ≠ w := by
      rintro e
      exact hs'.1 (List.mem_append_right _ (List.mem_singleton.2 e))
    obtain ⟨fuel, rfl⟩ : ∃ k, fuel = k + 1 := ⟨fuel - 1, by rw [List.length_cons] at hfuel; omega⟩
    unfold followLinks
    rw [Cluster.graph_src, if_neg hne, hhops l List.mem_cons_self]
    dsimp only
    rw [List.length_cons] at hfuel
    have hrest := ih (fun e he => hhops e (List.mem_cons_of_mem l he)) hs'.2 fuel
      (npts ++ [l.srcNpt, l.dstNpt]) (by omega)
    rw [Cluster.graph_dst] at hrest
    rw [hrest, List.append_assoc]
    rfl

/-- More rounds do not change what is returned. -/
theorem followLinks_mono {tree : BroadcastTree} {dst : Dpid} {fuel : ℕ} :
    ∀ {v : Dpid} {npts r : List NodePortTuple}, followLinks tree dst fuel v npts = .returned r →
      ∀ fuel', fuel ≤ fuel' → followLinks tree dst fuel' v npts = .returned r := by
  induction fuel with
  | zero =>
    intro v npts r h fuel' _
    unfold followLinks at h ⊢
    split_ifs at h ⊢
    exact h
  | succ fuel ih =>
    intro v npts r h fuel' hle
    obtain ⟨fuel', rfl⟩ : ∃ k, fuel' = k + 1 := ⟨fuel' - 1, by omega⟩
    unfold followLinks at h ⊢
    split_ifs at h ⊢
    · exact h
    · cases hl : tree.getTreeLink v with
      | none =>
        rw [hl] at h
        cases h
      | some l =>
        rw [hl] at h
        exact ih h fuel' (by omega)

end Follow

/-- The link costs that the trees of the instance are computed with are positive and at most
`MAX_LINK_WEIGHT`. -/
def CostsBounded (ord : HashOrder) (t : TopologyInstance) : Prop :=
  ∀ c ∈ t.clusters, c.CostsBounded (some (t.tunnelLinkCost ord))

/-- `es` is the way from `src` to `dst` in the cluster of `src`, empty if there is none. -/
structure Way (t : TopologyInstance) (src dst : Dpid) (es : List Link) : Prop where
  walk : es ≠ [] → ∃ c, t.clusterOf src = some c ∧ c.graph.Walk src dst es ∧ c.graph.Simple es dst
  ends : src = dst → es = []

theorem Way.loopFree {t : TopologyInstance} {src dst : NodePortTuple} {es : List Link}
    (h : t.Way src.nodeId dst.nodeId es) (hno : ¬(src.nodeId ≠ dst.nodeId ∧ es = [])) :
    t.LoopFree src dst (throughPorts src es dst) := by
  by_cases hes : es = []
  · subst hes
    have he : src.nodeId = dst.nodeId := by
      by_contra hne
      exact hno ⟨hne, rfl⟩
    refine loopFree_throughPorts (c := .empty) ?_ (List.nodup_singleton _) fun h => absurd rfl h
    rw [he]
    exact .nil _
  · obtain ⟨c, hc, hwalk, hs⟩ := h.walk hes
    exact loopFree_throughPorts hwalk hs fun _ => hc

variable {ord : HashOrder} {queue : NodeQueue} {t₀ t : TopologyInstance}

theorem Filled.clusterOf_eq (h : t.Filled t.clusters t.Usable) {c : Cluster} (hc : c ∈ t.clusters)
    {v : Dpid} (hv : v ∈ c.getNodes) : t.clusterOf v = some c := by
  obtain ⟨k, hk⟩ := List.mem_iff_getElem?.1 hc
  have hmap : t.switchClusterMap.get v = some k := (h.domains.mem_iff k c hk v).1 hv
  unfold clusterOf
  rw [hmap]
  exact hk

theorem Filled.exists_cluster (h : t.Filled t.clusters t.Usable) {v : Dpid} (hv : v ∈ t.switches) :
    ∃ c ∈ t.clusters, v ∈ c.getNodes := by
  obtain ⟨k, c, -, hk, hmem⟩ := h.domains.exists_cluster hv
  exact ⟨c, List.mem_of_getElem? hk, hmem⟩

/-- The walk along the next hops ends within as many rounds as there are switches. -/
theorem routePorts_spec (hC : Computed ord queue t₀ t) (hw : CostsBounded ord t) (src dst : Dpid) :
    ∃ es, t.Way src dst es ∧
      (∀ fuel, t.switches.length ≤ fuel → t.routePorts fuel src dst = .returned (portsOf es)) ∧
      ∀ c ∈ t.clusters, src ≠ dst → c.graph.Reaches src dst →
        c.SumsBounded (some (t.tunnelLinkCost ord)) dst → es ≠ [] := by
  by_cases hdst : dst ∈ t.switches
  case neg =>
    refine ⟨[], ⟨fun h => absurd rfl h, fun _ => rfl⟩, fun fuel _ => ?_, ?_⟩
    · unfold routePorts
      cases htree : t.destinationRootedTrees.get dst with
      | none => rfl
      | some tree => exact absurd (hC.treeRoots dst tree htree) hdst
    · intro c hc hne hreach
      obtain ⟨es, hes⟩ := hreach.exists_walk
      -- the last link of a walk ends in the cluster
      refine absurd (hC.filled.mem_switches hc ?_) hdst
      obtain ⟨l, hl, hl'⟩ := hreach.exists_last hne
      exact hl' ▸ Cluster.WellFormed.dst_mem hl
  case pos =>
    obtain ⟨c, hc, hmem⟩ := hC.filled.exists_cluster hdst
    have hwf : c.WellFormed := hC.filled.wellFormed hc
    obtain ⟨tree, hdij, htree⟩ := hC.trees c hc dst hmem
    obtain ⟨hhops, hreached⟩ := dijkstra_nextHops hwf (hw c hc) hmem hdij
    cases hl : (tree.getTreeLink src).isSome with
    | false =>
      refine ⟨[], ⟨fun h => absurd rfl h, fun _ => rfl⟩, fun fuel _ => ?_, ?_⟩
      · unfold routePorts
        rw [htree]
        dsimp only
        rw [hl, if_neg Bool.false_ne_true]
        split_ifs <;> rfl
      · intro c' hc' hne hreach hs
        obtain ⟨l, hl', hdst'⟩ := hreach.exists_last hne
        obtain rfl : c' = c := hC.filled.domains.cluster_unique hc hc' hmem
          (hdst' ▸ Cluster.WellFormed.dst_mem hl')
        rw [hreached hs src hne hreach] at hl
        cases hl
    | true =>
      obtain ⟨es, hes, hlinks, hs⟩ := hhops.exists_route hl
      have hne : src ≠ dst := by
        rintro rfl
        rw [hhops.rootHop] at hl
        cases hl
      obtain ⟨e, es', he, hsrc, -, rfl⟩ := hes.exists_edge hne
      have hsrcmem : src ∈ c.getNodes := hsrc ▸ hwf.src_mem he
      refine ⟨e :: es', ⟨fun _ => ⟨c, hC.filled.clusterOf_eq hc hsrcmem, hes, hs⟩,
        fun h => absurd h hne⟩, fun fuel hfuel => ?_, fun _ _ _ _ _ => List.cons_ne_nil _ _⟩
      have hlen := hes.length_lt hs
        (fun l hl => hC.filled.mem_switches hc (hwf.src_mem hl)) hdst
      unfold routePorts
      rw [htree]
      dsimp only
      rw [if_neg, if_pos hl, followLinks_walk hes hlinks hs fuel [] (by omega)]
      · rfl
      · rw [not_or, not_not, not_not]
        exact ⟨hC.filled.mem_switches hc hsrcmem, hdst⟩

/-! ## Requests -/

/-- The route that `buildroute` makes of a way. -/
def routeAlong (id : RouteId) : List Link → Option Route
  | [] => none
  | l :: es => some ⟨id, portsOf (l :: es)⟩

theorem buildroute_eq {fuel : ℕ} {src dst : Dpid} {es : List Link}
    (h : t.routePorts fuel src dst = .returned (portsOf es)) (id : RouteId) :
    t.buildroute fuel id src dst = .returned (routeAlong id es) := by
  unfold buildroute
  rw [h]
  cases es <;> rfl

theorem routePorts_mono {fuel fuel' : ℕ} {src dst : Dpid} {npts : List NodePortTuple}
    (h : t.routePorts fuel src dst = .returned npts) (hle : fuel ≤ fuel') :
    t.routePorts fuel' src dst = .returned npts := by
  unfold routePorts at h ⊢
  cases htree : t.destinationRootedTrees.get dst with
  | none =>
    rw [htree] at h
    exact h
  | some tree =>
    rw [htree] at h
    dsimp only at h ⊢
    split_ifs at h ⊢
    · exact h
    · exact followLinks_mono h fuel' hle
    · exact h

theorem routePorts_of_buildroute {fuel : ℕ} {id : RouteId} {src dst : Dpid} {r : Option Route}
    (h : t.buildroute fuel id src dst = .returned r) :
    ∃ npts, t.routePorts fuel src dst = .returned npts := by
  unfold buildroute at h
  cases hp : t.routePorts fuel src dst with
  | returned npts => exact ⟨npts, rfl⟩
  | nullPointer =>
    rw [hp] at h
    cases h
  | running =>
    rw [hp] at h
    cases h

/-- A request for a route. -/
inductive Serves (t : TopologyInstance) : TopologyInstance → Prop
  | getRoute (fuel : ℕ) (src dst : Dpid) (r : Option Route) (t' : TopologyInstance) :
    t.getRoute fuel src dst = .returned (r, t') → Serves t t'
  | getPortRoute (fuel : ℕ) (src : Dpid) (srcPort : OFPort) (dst : Dpid) (dstPort : OFPort)
    (r : Option Route) (t' : TopologyInstance) :
    t.getPortRoute fuel src srcPort dst dstPort = .returned (r, t') → Serves t t'

/-- `t'` is `t` with a cache of routes that `buildroute` would make of the ways `way`. -/
structure Caches (t t' : TopologyInstance) (way : Dpid → Dpid → List Link) : Prop where
  eq : t' = { t with pathcache := t'.pathcache }
  cached : ∀ id r, (id, r) ∈ t'.pathcache → r = routeAlong id (way id.src id.dst)

section Serve

variable {t' : TopologyInstance} {way : Dpid → Dpid → List Link}

theorem Caches.routePorts (h : Caches t t' way) (fuel : ℕ) (src dst : Dpid) :
    t'.routePorts fuel src dst = t.routePorts fuel src dst := by
  rw [h.eq]
  rfl

theorem Caches.cachePut (h : Caches t t' way) (id : RouteId) :
    Caches t (t'.cachePut id (routeAlong id (way id.src id.dst))) way where
  eq := by
    unfold TopologyInstance.cachePut
    rw [h.eq]
  cached id' r hr := by
    unfold TopologyInstance.cachePut at hr
    dsimp only at hr
    -- dropping the eldest entry leaves entries of the list
    have hmem : (id', r) ∈ t'.pathcache.filter (·.1 ≠ id) ++ [(id, routeAlong id (way id.src id.dst))] := by
      split_ifs at hr
      · exact List.mem_of_mem_tail hr
      · exact hr
    rcases List.mem_append.1 hmem with hmem | hmem
    · exact h.cached id' r (List.mem_of_mem_filter hmem)
    · obtain ⟨rfl, rfl⟩ := Prod.mk.inj (List.mem_singleton.1 hmem)
      rfl

/-- What a request with four arguments answers. -/
def portRoute (way : Dpid → Dpid → List Link) (src dst : NodePortTuple) : Option Route :=
  if src.nodeId ≠ dst.nodeId ∧ way src.nodeId dst.nodeId = [] then none
  else some ⟨⟨src.nodeId, dst.nodeId⟩, throughPorts src (way src.nodeId dst.nodeId) dst⟩

variable (hway : ∀ src dst fuel, t.switches.length ≤ fuel →
  t.routePorts fuel src dst = .returned (portsOf (way src dst)))

include hway

/-- Whatever `buildroute` returns, after any number of rounds, is the route of the way. -/
theorem Caches.eq_routeAlong (h : Caches t t' way) {fuel : ℕ} {id : RouteId} {src dst : Dpid}
    {r : Option Route} (hr : t'.buildroute fuel id src dst = .returned r) :
    r = routeAlong id (way src dst) := by
  obtain ⟨npts, hnpts⟩ := routePorts_of_buildroute hr
  have hle : t.routePorts (max fuel t.switches.length) src dst = .returned npts :=
    routePorts_mono (h.routePorts fuel src dst ▸ hnpts) (le_max_left _ _)
  rw [hway src dst _ (le_max_right _ _)] at hle
  obtain rfl := Outcome.returned.inj hle
  exact (Outcome.returned.inj ((buildroute_eq hnpts id).symm.trans hr)).symm

/-- A request with two arguments answers with the route of the way, from the cache or not. -/
theorem Caches.getRoute (h : Caches t t' way) {fuel : ℕ} {src dst : Dpid} {r : Option Route}
    {t'' : TopologyInstance} (hr : t'.getRoute fuel src dst = .returned (r, t'')) :
    r = routeAlong ⟨src, dst⟩ (way src dst) ∧ t'' = t'.cachePut ⟨src, dst⟩ r := by
  unfold TopologyInstance.getRoute at hr
  dsimp only at hr
  cases hf : t'.pathcache.find? (·.1 = (⟨src, dst⟩ : RouteId)) with
  | some e =>
    obtain ⟨id, r'⟩ := e
    rw [hf] at hr
    obtain ⟨rfl, rfl⟩ := Prod.mk.inj (Outcome.returned.inj hr)
    have hid : id = ⟨src, dst⟩ := by simpa using List.find?_some hf
    subst hid
    exact ⟨h.cached _ _ (List.mem_of_find?_eq_some hf), rfl⟩
  | none =>
    rw [hf] at hr
    dsimp only at hr
    cases hb : t'.buildroute fuel ⟨src, dst⟩ src dst with
    | returned r' =>
      rw [hb] at hr
      obtain ⟨rfl, rfl⟩ := Prod.mk.inj (Outcome.returned.inj hr)
      exact ⟨h.eq_routeAlong hway hb, rfl⟩
    | nullPointer =>
      rw [hb] at hr
      cases hr
    | running =>
      rw [hb] at hr
      cases hr

theorem Caches.getRoute_returns (h : Caches t t' way) (src dst : Dpid) {fuel : ℕ}
    (hfuel : t.switches.length ≤ fuel) :
    t'.getRoute fuel src dst = .returned (routeAlong ⟨src, dst⟩ (way src dst),
      t'.cachePut ⟨src, dst⟩ (routeAlong ⟨src, dst⟩ (way src dst))) := by
  have hb : t'.buildroute fuel ⟨src, dst⟩ src dst = .returned (routeAlong ⟨src, dst⟩ (way src dst)) :=
    buildroute_eq ((h.routePorts fuel src dst).trans (hway src dst fuel hfuel)) _
  have hr : ∃ r t'', t'.getRoute fuel src dst = .returned (r, t'') := by
    unfold TopologyInstance.getRoute
    dsimp only
    rw [hb]
    cases t'.pathcache.find? (·.1 = (⟨src, dst⟩ : RouteId)) with
    | some e => exact ⟨_, _, rfl⟩
    | none => exact ⟨_, _, rfl⟩
  obtain ⟨r, t'', hr⟩ := hr
  obtain ⟨rfl, rfl⟩ := h.getRoute hway hr
  exact hr

omit hway in
/-- What a request with four arguments makes of the route. -/
theorem getPortRoute_eq {fuel : ℕ} {src dst : NodePortTuple} {t'' : TopologyInstance}
    (hr : t'.getRoute fuel src.nodeId dst.nodeId =
      .returned (routeAlong ⟨src.nodeId, dst.nodeId⟩ (way src.nodeId dst.nodeId), t'')) :
    t'.getPortRoute fuel src.nodeId src.portId dst.nodeId dst.portId =
      if src = dst then .returned (none, t')
      else .returned (portRoute way src dst, t'') := by
  unfold getPortRoute portRoute
  by_cases he : src = dst
  · subst he
    rw [if_pos ⟨rfl, rfl⟩, if_pos rfl]
  · have hports : ¬(src.nodeId = dst.nodeId ∧ src.portId = dst.portId) := by
      rintro ⟨hn, hp⟩
      apply he
      cases src
      cases dst
      rw [NodePortTuple.mk.injEq]
      exact ⟨hn, hp⟩
    rw [if_neg hports, if_neg he, hr]
    dsimp only
    cases hw : way src.nodeId dst.nodeId with
    | nil =>
      by_cases hn : src.nodeId = dst.nodeId
      · rw [if_neg (fun h => h.2 hn), if_neg (fun h => h.1 hn)]
        rfl
      · rw [if_pos ⟨rfl, hn⟩, if_pos ⟨hn, rfl⟩]
    | cons l es =>
      rw [if_neg (fun h => Option.some_ne_none _ h.1), if_neg (fun h => List.cons_ne_nil l es h.2)]
      rfl

theorem Caches.getPortRoute (h : Caches t t' way) {fuel : ℕ} (src dst : NodePortTuple)
    {r : Option Route} {t'' : TopologyInstance}
    (hr : t'.getPortRoute fuel src.nodeId src.portId dst.nodeId dst.portId = .returned (r, t'')) :
    Caches t t'' way := by
  by_cases he : src = dst
  · subst he
    unfold TopologyInstance.getPortRoute at hr
    rw [if_pos ⟨rfl, rfl⟩] at hr
    obtain ⟨-, rfl⟩ := Prod.mk.inj (Outcome.returned.inj hr)
    exact h
  · cases hg : t'.getRoute fuel src.nodeId dst.nodeId with
    | returned res =>
      obtain ⟨r', t₁⟩ := res
      obtain ⟨rfl, rfl⟩ := h.getRoute hway hg
      rw [getPortRoute_eq hg, if_neg he] at hr
      obtain ⟨-, rfl⟩ := Prod.mk.inj (Outcome.returned.inj hr)
      exact h.cachePut _
    | nullPointer =>
      unfold TopologyInstance.getPortRoute at hr
      rw [hg] at hr
      split_ifs at hr
      obtain ⟨-, rfl⟩ := Prod.mk.inj (Outcome.returned.inj hr)
      exact h
    | running =>
      unfold TopologyInstance.getPortRoute at hr
      rw [hg] at hr
      split_ifs at hr
      obtain ⟨-, rfl⟩ := Prod.mk.inj (Outcome.returned.inj hr)
      exact h

theorem Caches.serves (h : Caches t t' way) {t'' : TopologyInstance} (hs : Serves t' t'') :
    Caches t t'' way := by
  cases hs with
  | getRoute fuel src dst r t'' hr =>
    obtain ⟨rfl, rfl⟩ := h.getRoute hway hr
    exact h.cachePut _
  | getPortRoute fuel src srcPort dst dstPort r t'' hr =>
    exact h.getPortRoute hway ⟨src, srcPort⟩ ⟨dst, dstPort⟩ hr

end Serve

/-- **In a topology whose link costs are positive and at most `MAX_LINK_WEIGHT`, `buildroute` ends
after any requests, with an even list of ports from the source to the destination or with no route;
a request for a route between ports is answered by a loop-free path, and by no route only if there
is no way.** -/
theorem routes_loopFree (ord : HashOrder) (queue : NodeQueue) (t₀ t t' : TopologyInstance)
    (hF : t₀.Filed) (hN : t₀.New) (ht : t₀.compute ord queue = some t)
    (hw : CostsBounded ord t) (hs : Relation.ReflTransGen Serves t t') (src dst : NodePortTuple) :
    (∀ id, ∃ r, (∀ fuel, t.switches.length ≤ fuel →
        t'.buildroute fuel id src.nodeId dst.nodeId = .returned r) ∧
      ∀ route, r = some route → Even route.switchPorts.length ∧
        (route.switchPorts.head?.map NodePortTuple.nodeId = some src.nodeId) ∧
        route.switchPorts.getLast?.map NodePortTuple.nodeId = some dst.nodeId) ∧
    ∃ r t'', (∀ fuel, t.switches.length ≤ fuel →
        t'.getPortRoute fuel src.nodeId src.portId dst.nodeId dst.portId = .returned (r, t'')) ∧
      (∀ route, r = some route → t.LoopFree src dst route.switchPorts) ∧
      ∀ c ∈ t.clusters, src.nodeId ≠ dst.nodeId → c.graph.Mutual src.nodeId dst.nodeId →
        c.SumsBounded (some (t.tunnelLinkCost ord)) dst.nodeId → r.isSome := by
  obtain ⟨t₁, ht₁, hC⟩ := compute_spec ord queue hF hN
  obtain rfl := Option.some.inj (ht₁.symm.trans ht)
  choose way hW hports hfound using routePorts_spec hC hw
  have hway : ∀ src dst fuel, t₁.switches.length ≤ fuel →
      t₁.routePorts fuel src dst = .returned (portsOf (way src dst)) := hports
  have h : Caches t₁ t' way := by
    induction hs with
    | refl => exact ⟨rfl, fun id r hr => by rw [hC.pathcache] at hr; cases hr⟩
    | tail _ hserve ih => exact ih.serves hway hserve
  refine ⟨fun id => ⟨routeAlong id (way src.nodeId dst.nodeId), ?_, ?_⟩, ?_⟩
  · intro fuel hfuel
    exact buildroute_eq ((h.routePorts _ _ _).trans (hway _ _ fuel hfuel)) id
  · intro route hroute
    cases hes : way src.nodeId dst.nodeId with
    | nil =>
      rw [hes] at hroute
      cases hroute
    | cons l es =>
      rw [hes] at hroute
      obtain rfl := Option.some.inj hroute
      obtain ⟨c, -, hwalk, -⟩ := (hW src.nodeId dst.nodeId).walk (by rw [hes]; simp)
      rw [hes] at hwalk
      refine ⟨⟨(l :: es).length, by rw [length_portsOf]; omega⟩, ?_, ?_⟩
      · exact head_portsOf hwalk
      · exact getLast_portsOf hwalk
  · have hret : ∀ fuel, t₁.switches.length ≤ fuel →
        t'.getPortRoute fuel src.nodeId src.portId dst.nodeId dst.portId = if src = dst
          then .returned (none, t')
          else .returned (portRoute way src dst, t'.cachePut ⟨src.nodeId, dst.nodeId⟩
            (routeAlong ⟨src.nodeId, dst.nodeId⟩ (way src.nodeId dst.nodeId))) :=
      fun fuel hfuel => getPortRoute_eq (h.getRoute_returns hway _ _ hfuel)
    by_cases he : src = dst
    · subst he
      refine ⟨none, t', fun fuel hfuel => (hret fuel hfuel).trans (if_pos rfl), ?_, ?_⟩
      · intro route hroute
        cases hroute
      · intro c _ hne
        exact absurd rfl hne
    · refine ⟨_, _, fun fuel hfuel => (hret fuel hfuel).trans (if_neg he), ?_, ?_⟩
      · intro route hroute
        unfold portRoute at hroute
        split_ifs at hroute with hno
        obtain rfl := Option.some.inj hroute
        exact (hW src.nodeId dst.nodeId).loopFree hno
      · intro c hc hne hmutual hsums
        have hes := hfound src.nodeId dst.nodeId c hc hne hmutual.1 hsums
        unfold portRoute
        rw [if_neg fun hno => hes hno.2]
        rfl

/-- Link costs are in bounds where the switches are few. -/
theorem costsBounded_of_length (ord : HashOrder) {t : TopologyInstance}
    (hlen : (t.switchPorts.keySet.length : Int) < MAX_LINK_WEIGHT) : CostsBounded ord t :=
  fun _ _ l _ => weight_tunnelLinkCost_le ord hlen l

/-- Two switches that are joined by a tunnel, and a third one. -/
def tunnelPair : TopologyInstance :=
  ofLinks [⟨1, 1, 2, 1⟩, ⟨2, 1, 1, 1⟩, ⟨2, 2, 3, 1⟩, ⟨3, 1, 2, 2⟩] [⟨1, 1⟩, ⟨2, 1⟩]

theorem routes_loopFree_tunnelPair :
    ∃ t, tunnelPair.compute .insertion (.following []) = some t ∧
      ∃ r t'', (∀ fuel, t.switches.length ≤ fuel →
        t.getPortRoute fuel 1 7 3 8 = .returned (r, t'')) ∧
        ∀ route, r = some route → t.LoopFree ⟨1, 7⟩ ⟨3, 8⟩ route.switchPorts := by
  obtain ⟨t, h, hC⟩ := compute_spec .insertion (.following []) indexed_ofLinks.filed new_ofLinks
    (t := tunnelPair)
  have hlen : (t.switchPorts.keySet.length : Int) < MAX_LINK_WEIGHT := by
    rw [hC.switchPorts]
    decide
  obtain ⟨-, r, t'', hr, hfree, -⟩ := routes_loopFree .insertion (.following []) tunnelPair t t
    indexed_ofLinks.filed new_ofLinks h (costsBounded_of_length .insertion hlen) .refl ⟨1, 7⟩ ⟨3, 8⟩
  exact ⟨t, h, r, t'', hr, hfree⟩

/-! ## Routes that never end -/

/-- Where the next hops lead round in a circle, the walk along them goes on for ever. -/
theorem followLinks_turnedBack {c : Cluster} {linkCost : Option (HashMap Link Int)} {w : Int}
    {y : ℕ → Dpid} {up : ℕ → Link} {m : ℕ} {tree : BroadcastTree}
    (h : Chain c linkCost w y up (m + 3)) (hT : TurnedBack y up m tree.links) (fuel : ℕ) :
    ∀ i npts, m + 1 ≤ i → i ≤ m + 3 → followLinks tree (y 0) fuel (y i) npts = .running := by
  induction fuel with
  | zero =>
    intro i npts hi hi'
    unfold followLinks
    rw [if_neg]
    intro he
    have := h.inj i 0 hi' (Nat.zero_le _) he
    omega
  | succ fuel ih =>
    intro i npts hi hi'
    -- the next hop stays among the last three nodes
    have hnext : ∃ l j, tree.getTreeLink (y i) = some l ∧ l.dst = y j ∧ m + 1 ≤ j ∧ j ≤ m + 3 := by
      obtain hi | hi | hi : i = m + 1 ∨ i = m + 2 ∨ i = m + 3 := by omega
      · subst hi
        exact ⟨_, m + 2, getTreeLink_eq_some.2 hT.first, h.dst _, by omega, by omega⟩
      · subst hi
        rcases hT.second with hs | hs
        · exact ⟨_, m + 1, getTreeLink_eq_some.2 hs, h.src _, by omega, by omega⟩
        · exact ⟨_, m + 3, getTreeLink_eq_some.2 hs, h.dst _, by omega, by omega⟩
      · subst hi
        exact ⟨_, m + 2, getTreeLink_eq_some.2 hT.last, h.src _, by omega, by omega⟩
    obtain ⟨l, j, hl, hdst, hj, hj'⟩ := hnext
    unfold followLinks
    rw [if_neg, hl]
    · dsimp only
      rw [hdst]
      exact ih j _ hj hj'
    · intro he
      have := h.inj i 0 hi' (Nat.zero_le _) he
      omega

/-- In a chain of 46340 tunnels, each of weight 46342, the distance of the last switch overflows,
and a request for a route from the switch before it is never answered. -/
theorem not_loopFree_tunnelChain : (tunnelChain 46340).Indexed ∧ (tunnelChain 46340).New ∧
    ∃ t, (tunnelChain 46340).compute .insertion (.following []) = some t ∧
      ∀ fuel id, t.buildroute fuel id (chainNode 46339) (chainNode 0) = .running := by
  refine ⟨indexed_ofLinks, new_ofLinks, ?_⟩
  obtain ⟨t, h, hC⟩ := compute_spec .insertion (.following []) (t := tunnelChain 46340)
    indexed_ofLinks.filed new_ofLinks
  refine ⟨t, h, fun fuel id => ?_⟩
  obtain ⟨c, hc, hchain, -⟩ := hC.exists_chain (by norm_num) (by norm_num)
  obtain ⟨tree, hdij, htree⟩ := hC.trees c hc _ (hchain.mem 0 (Nat.zero_le _))
  have hT := Chain.turnedBack (m := 46337) hchain (by norm_num) (by norm_num [MAX_PATH_WEIGHT, MAX_LINK_WEIGHT])
    (by norm_num) hdij
  have hsome : (tree.getTreeLink (chainNode 46339)).isSome := by
    rcases hT.second with hs | hs
    · exact Option.isSome_iff_exists.2 ⟨_, getTreeLink_eq_some.2 hs⟩
    · exact Option.isSome_iff_exists.2 ⟨_, getTreeLink_eq_some.2 hs⟩
  have hports : t.routePorts fuel (chainNode 46339) (chainNode 0) = .running := by
    unfold routePorts
    rw [htree]
    dsimp only
    rw [if_neg, if_pos hsome]
    · exact followLinks_turnedBack hchain hT fuel 46339 [] (by norm_num) (by norm_num)
    · rw [not_or, not_not, not_not]
      exact ⟨hC.filled.mem_switches hc (hchain.mem 46339 (by norm_num)),
        hC.filled.mem_switches hc (hchain.mem 0 (Nat.zero_le _))⟩
  unfold buildroute
  rw [hports]

end TopologyInstance

end Torpedo
