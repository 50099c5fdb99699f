import Torpedo.DeviceManager.Device
import Torpedo.Topology.Instance
import Torpedo.Util.BinarySearch
import Torpedo.Util.MergeJoin

/-!
# Forwarding

`doForwardFlow` takes a packet whose source and destination are known devices. It pushes a route in every L2
domain where both are attached, which it finds by sorting their attachment points by domain and reading the
two arrays side by side.
-/

namespace Torpedo

/-- What `doForwardFlow` does with a packet: the routes of `pushRoute`, in the order of the calls. -/
inductive Forwarded
  | ignored
  | flooded
  | pushed (routes : List Route)
deriving DecidableEq

namespace Forwarding

section

variable (topology : TopologyService) (getRoute : Dpid → OFPort → Dpid → OFPort → Option Route)

/-- The domain of an attachment point. -/
def cluster (dap : SwitchPort) : Dpid := topology.getL2DomainId dap.switchDPID

/-- `Arrays.sort` by `clusterIdComparator`. -/
def sortByCluster (daps : List SwitchPort) : List SwitchPort :=
  daps.insertionSort fun d1 d2 => compare (cluster topology d1) (cluster topology d2) ≠ .gt

/-- The route that is pushed between attachment points of the same domain, if any. -/
def routeBetween (srcDap dstDap : SwitchPort) : Option Route :=
  if srcDap ≠ dstDap then getRoute srcDap.switchDPID srcDap.port dstDap.switchDPID dstDap.port else none

/-- The loop of `doForwardFlow` over what is left of the two sorted arrays. -/
def pushLoop : List SwitchPort → List SwitchPort → List Route
  | srcDap :: srcDaps, dstDap :: dstDaps =>
    match compare (cluster topology srcDap) (cluster topology dstDap) with
    | .eq =>
      match routeBetween getRoute srcDap dstDap with
      | some route => route :: pushLoop srcDaps dstDaps
      | none => pushLoop srcDaps dstDaps
    | .lt => pushLoop srcDaps (dstDap :: dstDaps)
    | .gt => pushLoop (srcDap :: srcDaps) dstDaps
  | _, _ => []
termination_by srcDaps dstDaps => srcDaps.length + dstDaps.length

/-- `doForwardFlow` for a packet from a switch, with the attachment points of the devices that are known.
Whether an attachment point has the very port object of the packet is for `isInPort` to say. -/
def doForwardFlow (sw : Dpid) (isInPort : SwitchPort → Bool) (srcDevice dstDevice : Option (List SwitchPort)) :
    Forwarded :=
  match dstDevice with
  | none => .flooded
  | some dstAps =>
    match srcDevice with
    | none => .ignored
    | some srcAps =>
      let srcIsland := topology.getL2DomainId sw
      -- the loop ends with the first attachment point on the island
      match dstAps.find? fun dstDap => cluster topology dstDap = srcIsland with
      | none => .flooded
      | some dstDap =>
        if sw = dstDap.switchDPID && isInPort dstDap then .ignored
        else .pushed (pushLoop topology getRoute (sortByCluster topology srcAps) (sortByCluster topology dstAps))

end

/-! ## The routes -/

section Routes

variable {topology : TopologyService} {getRoute : Dpid → OFPort → Dpid → OFPort → Option Route}
variable {srcAps dstAps : List SwitchPort} {dap : SwitchPort}

/-- The loop joins the arrays by domain, and looks for a route between the attachment points of a pair. -/
theorem pushLoop_eq (srcAps dstAps : List SwitchPort) : pushLoop topology getRoute srcAps dstAps =
    (mergeJoin compare (cluster topology) (cluster topology) srcAps dstAps).filterMap fun p =>
      routeBetween getRoute p.1 p.2 := by
  fun_induction mergeJoin compare (cluster topology) (cluster topology) srcAps dstAps with
  | case1 a as b bs heq ih =>
    rw [pushLoop, heq, List.filterMap_cons]
    cases routeBetween getRoute a b with
    | none => exact ih
    | some route => exact congrArg _ ih
  | case2 a as b bs hlt ih =>
    rw [pushLoop, hlt]
    exact ih
  | case3 a as b bs hgt ih =>
    rw [pushLoop, hgt]
    exact ih
  | case4 as bs hnot =>
    unfold pushLoop
    split
    · exact (hnot _ _ _ _ rfl rfl).elim
    · rfl

theorem mem_sortByCluster : dap ∈ sortByCluster topology srcAps ↔ dap ∈ srcAps := List.mem_insertionSort _

/-- Attachment points of distinct domains are sorted strictly. -/
theorem pairwise_sortByCluster (h : (srcAps.map (cluster topology)).Nodup) :
    (sortByCluster topology srcAps).Pairwise fun d1 d2 =>
      compare (cluster topology d1) (cluster topology d2) = .lt := by
  have htrans : Std.TransCmp fun d1 d2 => compare (cluster topology d1) (cluster topology d2) :=
    { eq_swap := Std.OrientedCmp.eq_swap
      isLE_trans := Std.TransCmp.isLE_trans }
  refine pairwise_lt_insertionSort ((List.pairwise_map.1 h).imp ?_)
  exact fun hne heq => hne (Std.LawfulEqCmp.eq_of_compare heq)

variable (topology srcAps dstAps) in
/-- The pairs of attachment points in the same domain that the loop meets. -/
def joined : List (SwitchPort × SwitchPort) :=
  mergeJoin compare (cluster topology) (cluster topology) (sortByCluster topology srcAps)
    (sortByCluster topology dstAps)

theorem mem_joined (hsrc : (srcAps.map (cluster topology)).Nodup) (hdst : (dstAps.map (cluster topology)).Nodup)
    {p : SwitchPort × SwitchPort} : p ∈ joined topology srcAps dstAps ↔
      p.1 ∈ srcAps ∧ p.2 ∈ dstAps ∧ cluster topology p.1 = cluster topology p.2 := by
  unfold joined
  rw [mem_mergeJoin (pairwise_sortByCluster hsrc) (pairwise_sortByCluster hdst), mem_sortByCluster,
    mem_sortByCluster]

/-- No two of the pairs are in the same domain. -/
theorem nodup_joined (hsrc : (srcAps.map (cluster topology)).Nodup) :
    (joined topology srcAps dstAps).Pairwise fun p q => cluster topology p.1 ≠ cluster topology q.1 := by
  refine (pairwise_mergeJoin (pairwise_sortByCluster hsrc)).imp fun hlt heq => ?_
  rw [heq] at hlt
  exact nomatch hlt.symm.trans Std.ReflCmp.compare_self

end Routes

/-! ## A route for each domain -/

section Domains

variable (topology : TopologyService) (getRoute : Dpid → OFPort → Dpid → OFPort → Option Route)
variable (srcAps dstAps : List SwitchPort)

/-- The route is one between different attachment points of the devices in the domain. -/
def RouteIn (dom : Dpid) (route : Route) : Prop :=
  ∃ srcDap ∈ srcAps, ∃ dstDap ∈ dstAps, cluster topology srcDap = dom ∧ cluster topology dstDap = dom ∧
    srcDap ≠ dstDap ∧ getRoute srcDap.switchDPID srcDap.port dstDap.switchDPID dstDap.port = some route

/-- The routes are those in the domains that have one, one for each of them. -/
def OncePerDomain (routes : List Route) : Prop :=
  ∃ doms : List Dpid, doms.Nodup ∧
    (∀ dom, dom ∈ doms ↔ ∃ route, RouteIn topology getRoute srcAps dstAps dom route) ∧
    List.Forall₂ (RouteIn topology getRoute srcAps dstAps) doms routes

end Domains

variable {topology : TopologyService} {getRoute : Dpid → OFPort → Dpid → OFPort → Option Route}
variable {srcAps dstAps : List SwitchPort}

theorem routeBetween_eq_some {srcDap dstDap : SwitchPort} {route : Route} :
    routeBetween getRoute srcDap dstDap = some route ↔ srcDap ≠ dstDap ∧
      getRoute srcDap.switchDPID srcDap.port dstDap.switchDPID dstDap.port = some route := by
  unfold routeBetween
  split_ifs with hne
  · exact (and_iff_right hne).symm
  · exact iff_of_false nofun fun h => hne h.1

/-- The routes of some pairs in the same domain are routes in the domains of the pairs that have one. -/
theorem forall₂_routeIn {ps : List (SwitchPort × SwitchPort)}
    (h : ∀ p ∈ ps, p.1 ∈ srcAps ∧ p.2 ∈ dstAps ∧ cluster topology p.1 = cluster topology p.2) :
    List.Forall₂ (RouteIn topology getRoute srcAps dstAps)
      ((ps.filter fun p => (routeBetween getRoute p.1 p.2).isSome).map fun p => cluster topology p.1)
      (ps.filterMap fun p => routeBetween getRoute p.1 p.2) := by
  induction ps with
  | nil => exact .nil
  | cons p ps ih =>
    have hrest := ih fun q hq => h q (List.mem_cons_of_mem p hq)
    obtain ⟨h₁, h₂, hdom⟩ := h p List.mem_cons_self
    cases hroute : routeBetween getRoute p.1 p.2 with
    | none =>
      rw [List.filter_cons_of_neg (by simp [hroute]), List.filterMap_cons, hroute]
      exact hrest
    | some route =>
      rw [List.filter_cons_of_pos (by simp [hroute]), List.filterMap_cons, hroute, List.map_cons]
      obtain ⟨hne, heq⟩ := routeBetween_eq_some.1 hroute
      exact .cons ⟨p.1, h₁, p.2, h₂, rfl, hdom.symm, hne, heq⟩ hrest

theorem oncePerDomain_pushLoop (hsrc : (srcAps.map (cluster topology)).Nodup)
    (hdst : (dstAps.map (cluster topology)).Nodup) :
    OncePerDomain topology getRoute srcAps dstAps
      (pushLoop topology getRoute (sortByCluster topology srcAps) (sortByCluster topology dstAps)) := by
  rw [pushLoop_eq]
  refine ⟨_, ?_, fun dom => ?_, forall₂_routeIn fun p => (mem_joined hsrc hdst).1⟩
  · exact List.pairwise_map.2 ((nodup_joined hsrc).filter _)
  · simp only [List.mem_map, List.mem_filter, Option.isSome_iff_exists, routeBetween_eq_some]
    constructor
    · rintro ⟨p, ⟨hp, route, hne, hroute⟩, rfl⟩
      obtain ⟨h₁, h₂, hdom⟩ := (mem_joined hsrc hdst).1 hp
      exact ⟨route, p.1, h₁, p.2, h₂, rfl, hdom.symm, hne, hroute⟩
    · rintro ⟨route, srcDap, h₁, dstDap, h₂, rfl, hdom, hne, hroute⟩
      exact ⟨(srcDap, dstDap), ⟨(mem_joined hsrc hdst).2 ⟨h₁, h₂, hdom.symm⟩, route, hne, hroute⟩, rfl⟩

/-- When both devices are known, and the destination has an attachment point in the domain of the packet that is
not the port of the packet, a route is pushed in every domain that has one between different attachment points
of the devices, and once in each of them. -/
theorem doForwardFlow_oncePerDomain {sw : Dpid} {isInPort : SwitchPort → Bool}
    (hsrc : (srcAps.map (cluster topology)).Nodup) (hdst : (dstAps.map (cluster topology)).Nodup)
    {dstDap : SwitchPort} (hmem : dstDap ∈ dstAps)
    (hisland : cluster topology dstDap = topology.getL2DomainId sw)
    (hport : ¬(sw = dstDap.switchDPID ∧ isInPort dstDap = true)) :
    ∃ routes, doForwardFlow topology getRoute sw isInPort (some srcAps) (some dstAps) = .pushed routes ∧
      OncePerDomain topology getRoute srcAps dstAps routes := by
  refine ⟨_, ?_, oncePerDomain_pushLoop hsrc hdst⟩
  have hfind : dstAps.find? (fun dap => cluster topology dap = topology.getL2DomainId sw) = some dstDap := by
    have hsome : (dstAps.find? fun dap => cluster topology dap = topology.getL2DomainId sw).isSome :=
      List.find?_isSome.2 ⟨dstDap, hmem, decide_eq_true hisland⟩
    obtain ⟨dap, hfind⟩ := Option.isSome_iff_exists.1 hsome
    have hdom : cluster topology dap = topology.getL2DomainId sw := 
      of_decide_eq_true (List.find?_some hfind :)
    rw [hfind, List.inj_on_of_nodup_map hdst (List.mem_of_find?_eq_some hfind) hmem (hdom.trans hisland.symm)]
  unfold doForwardFlow
  dsimp only
  rw [hfind]
  dsimp only
  rw [if_neg (by simpa using hport)]

/-- Two switches of their own domains; the source is attached to both, the destination to the second. -/
theorem doForwardFlow_twoDomains :
    ∃ routes, doForwardFlow ⟨fun _ _ => true, id, fun _ _ => false, fun _ _ _ _ => false, fun _ _ _ _ => false⟩
        (fun src srcPort dst dstPort => some ⟨⟨src, dst⟩, [⟨src, srcPort⟩, ⟨dst, dstPort⟩]⟩) 2 (fun _ => false)
        (some [⟨2, 1⟩, ⟨1, 1⟩]) (some [⟨2, 2⟩]) = .pushed routes ∧
      OncePerDomain ⟨fun _ _ => true, id, fun _ _ => false, fun _ _ _ _ => false, fun _ _ _ _ => false⟩
        (fun src srcPort dst dstPort => some ⟨⟨src, dst⟩, [⟨src, srcPort⟩, ⟨dst, dstPort⟩]⟩)
        [⟨2, 1⟩, ⟨1, 1⟩] [⟨2, 2⟩] routes :=
  doForwardFlow_oncePerDomain (by decide) (by decide) List.mem_cons_self rfl (by decide)

end Forwarding

end Torpedo
