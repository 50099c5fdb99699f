import Torpedo.TunnelManager.Steps

/-!
# Requests for ports that fail

A request for a port fails if a lookup returns nothing, and the nodes are then to be as they were before. They are,
unless the port comes to a compute node that takes a VLAN for its network first, and the network is not known or has
no tunnel (`Platform.atomic_iff`).
-/

namespace Torpedo

namespace NodeDefinition

variable {node : NodeDefinition} {v : ℤ} {rest : List ℤ}

/-- The VLAN is taken whether or not the rest of the method returns. -/
theorem availableLocalVlans_takeVlan (h : node.availableLocalVlans.mergeSort (· ≤ ·) = v :: rest)
    (netId : Option String) (network : Option NetworkDefinition) :
    (takeVlan netId network node).2.availableLocalVlans = rest := by
  unfold takeVlan
  cases network with
  | none => simp [h]
  | some network => cases netId <;> simp [h]

theorem takeVlan_known (h : node.availableLocalVlans.mergeSort (· ≤ ·) = v :: rest) (netId : String)
    (network : NetworkDefinition) : (takeVlan (some netId) (some network) node).1 = .ok v.repr := by
  unfold takeVlan
  simp [h]

end NodeDefinition

namespace Platform

variable {ε : Type} (p : Platform ε) {tm : OFMTunnelManager ε} {nodeIp : String} {node : NodeDefinition}
  {port : PortDefinition}

/-- The network of the port is not known, or has no tunnel. -/
def Untunneled (port : PortDefinition) (tm : OFMTunnelManager ε) : Prop :=
  ((port.networkId.bind tm.vNetsByGuid.get).bind fun network => tunId network.providerSegmentationId) = none

/-- The node has no map of networks, or the network of the port is not in it. -/
def Unmapped (port : PortDefinition) (node : NodeDefinition) : Prop :=
  node.usedLocalVNetsByGuid = none ∨ ∃ id, port.networkId = some id ∧ node.network id = none

/-- A VLAN is taken, and what throws behind that does not give it back. -/
theorem mapNetwork_pool {v : ℤ} {rest : List ℤ} (hget : tm.nodesByIp.get nodeIp = some node)
    (hsort : node.availableLocalVlans.mergeSort (· ≤ ·) = v :: rest) (netId : Option String)
    {network : Option NetworkDefinition}
    (htun : (network.bind fun network => tunId network.providerSegmentationId) = none) :
    (p.mapNetwork nodeIp netId network tm).1 ≠ .ok () ∧
      ((p.mapNetwork nodeIp netId network tm).2.nodesByIp.get nodeIp).map NodeDefinition.availableLocalVlans =
        some rest := by
  have htake := atNode_some hget (NodeDefinition.takeVlan netId network)
  have hnode : ((setNode nodeIp (NodeDefinition.takeVlan netId network node).2 tm).nodesByIp.get nodeIp).map
      NodeDefinition.availableLocalVlans = some rest := by
    rw [get_setNode_self (hget.trans_ne (Option.some_ne_none node)), Option.map_some,
      NodeDefinition.availableLocalVlans_takeVlan hsort]
  unfold mapNetwork
  cases hr : (NodeDefinition.takeVlan netId network node).1 with
  | error e =>
    rw [hr] at htake
    rw [Method.bind_error htake]
    exact ⟨nofun, hnode⟩
  | ok vlanId =>
    rw [hr] at htake
    rw [Method.bind_ok htake, htun]
    exact ⟨nofun, hnode⟩

/-- A known network with a tunnel gets its VLAN. -/
theorem mapNetwork_ok {v : ℤ} {rest : List ℤ} (hget : tm.nodesByIp.get nodeIp = some node)
    (hsort : node.availableLocalVlans.mergeSort (· ≤ ·) = v :: rest) (netId : String) {network : NetworkDefinition}
    (htun : tunId network.providerSegmentationId ≠ none) :
    ∃ tm', p.mapNetwork nodeIp (some netId) (some network) tm = (.ok (), tm') ∧ tm'.nodesByIp.get nodeIp ≠ none := by
  obtain ⟨tun, htun⟩ := Option.ne_none_iff_exists'.1 htun
  have htake := atNode_some hget (NodeDefinition.takeVlan (some netId) (some network))
  rw [NodeDefinition.takeVlan_known hsort] at htake
  unfold mapNetwork
  rw [Method.bind_ok htake, Option.bind_some, htun]
  refine ⟨_, rfl, ?_⟩
  have hget' : (setNode nodeIp (NodeDefinition.takeVlan (some netId) (some network) node).2 tm).nodesByIp.get nodeIp =
    some _ := get_setNode_self (hget.trans_ne (Option.some_ne_none node))
  exact hget'.trans_ne (Option.some_ne_none _)

theorem placePort_ok (port : PortDefinition) (hget : tm.nodesByIp.get nodeIp ≠ none) :
    (p.placePort port nodeIp tm).1 = .ok () := by
  obtain ⟨node, hnode⟩ := Option.ne_none_iff_exists'.1 hget
  unfold placePort
  rw [Method.bind_ok (atNode_some hnode (Method.modify (NodeDefinition.addPort port)))]
  rfl

/-! ## Creating a port on a node -/

/-- A VLAN is taken for a network that is not known, or has no tunnel. -/
def LosesAt (port : PortDefinition) (node : NodeDefinition) (tm : OFMTunnelManager ε) : Prop :=
  Unmapped port node ∧ node.availableLocalVlans ≠ [] ∧ Untunneled port tm

theorem createPortAt_unmapped (hget : tm.nodesByIp.get nodeIp = some node) (hmapped : Unmapped port node) :
    p.createPortAt port nodeIp tm = (do
      p.mapNetwork nodeIp port.networkId (port.networkId.bind tm.vNetsByGuid.get)
      p.placePort port nodeIp) tm := by
  unfold createPortAt
  rw [Method.get_bind_apply, hget, Method.nonNull_some, Method.pure_bind, isMapped_false hmapped, Method.pure_bind]
  rfl

/-- The VLAN is lost, and the request fails. -/
theorem createPortAt_loses (hget : tm.nodesByIp.get nodeIp = some node) (h : LosesAt port node tm) :
    (p.createPortAt port nodeIp tm).1 ≠ .ok () ∧ (p.createPortAt port nodeIp tm).2.nodesByIp ≠ tm.nodesByIp := by
  obtain ⟨hmapped, hpool, htun⟩ := h
  obtain ⟨v, rest, hsort⟩ : ∃ v rest, node.availableLocalVlans.mergeSort (· ≤ ·) = v :: rest :=
    List.exists_cons_of_ne_nil fun hsort => hpool (List.Perm.eq_nil (hsort ▸ (List.mergeSort_perm _ _).symm))
  obtain ⟨hthrows, hrest⟩ := p.mapNetwork_pool hget hsort port.networkId htun
  rw [p.createPortAt_unmapped hget hmapped]
  cases hmap : p.mapNetwork nodeIp port.networkId (port.networkId.bind tm.vNetsByGuid.get) tm with
  | mk r tm' =>
    rw [hmap] at hthrows hrest
    cases r with
    | ok u => exact absurd rfl hthrows
    | error e =>
      rw [Method.bind_error hmap]
      refine ⟨nofun, fun hsame => ?_⟩
      have hsame : tm'.nodesByIp = tm.nodesByIp := hsame
      rw [hsame, hget, Option.map_some, Option.some.injEq] at hrest
      have hlength := congrArg List.length hsort
      rw [List.length_mergeSort, hrest, List.length_cons] at hlength
      omega

/-- Otherwise a request that fails leaves the node as it was. -/
theorem createPortAt_keeps (hget : tm.nodesByIp.get nodeIp = some node) (h : ¬LosesAt port node tm)
    (hfails : (p.createPortAt port nodeIp tm).1 ≠ .ok ()) :
    (p.createPortAt port nodeIp tm).2.nodesByIp = tm.nodesByIp := by
  have hplace := p.placePort_ok port (hget.trans_ne (Option.some_ne_none node))
  by_cases hmapped : Unmapped port node
  · rw [p.createPortAt_unmapped hget hmapped] at hfails ⊢
    cases hpool : node.availableLocalVlans.mergeSort (· ≤ ·) with
    | nil =>
      have hnil : node.availableLocalVlans = [] := List.Perm.eq_nil (hpool ▸ (List.mergeSort_perm _ _).symm)
      rw [Method.bind_error (p.mapNetwork_exhausted hget hnil _ _)]
    | cons v rest =>
      have hne : node.availableLocalVlans ≠ [] := fun hnil => by
        rw [hnil, List.mergeSort_nil] at hpool
        cases hpool
      have htun : ¬Untunneled port tm := fun htun => h ⟨hmapped, hne, htun⟩
      obtain ⟨tun, htun⟩ := Option.ne_none_iff_exists'.1 htun
      obtain ⟨network, hnetwork, htun⟩ := Option.bind_eq_some_iff.1 htun
      obtain ⟨networkId, hid, hknown⟩ := Option.bind_eq_some_iff.1 hnetwork
      obtain ⟨tm', hmap, hget'⟩ := p.mapNetwork_ok hget hpool networkId (htun.trans_ne (Option.some_ne_none tun))
      rw [hid, Option.bind_some, hknown, Method.bind_ok hmap] at hfails
      exact absurd (p.placePort_ok port hget') hfails
  · obtain ⟨hnets, hnetwork⟩ := not_or.1 hmapped
    unfold createPortAt at hfails ⊢
    rw [Method.get_bind_apply, hget, Method.nonNull_some, Method.pure_bind] at hfails ⊢
    cases hid : port.networkId with
    | none =>
      obtain ⟨networks, hnets⟩ := Option.ne_none_iff_exists'.1 hnets
      unfold isMapped
      rw [hnets]
      rfl
    | some networkId =>
      have hmapped' : node.network networkId ≠ none := fun hnone => hnetwork ⟨networkId, hid, hnone⟩
      rw [hid, isMapped_true hmapped'] at hfails
      exact absurd hplace hfails

/-! ## Requests -/

/-- The state in which `createPortFlow` looks for a node. -/
def recorded (port : PortDefinition) (tm : OFMTunnelManager ε) : OFMTunnelManager ε :=
  { tm with vPortsByGuid := tm.vPortsByGuid.put port.portId port }

/-- The request fails: an exception leaves the method or is logged, or there is no node for the port. -/
def CreateFails (port : PortDefinition) (tm : OFMTunnelManager ε) : Prop :=
  (p.createPortFlow port tm).1 ≠ .ok () ∨
  (IsNetworkOwner port.deviceOwner ∧ p.networkNodeIp tm = "") ∨
  (IsComputeOwner port.deviceOwner ∧ ∃ host, port.bindingHostId = some host ∧
    (p.computeNodeIp tm host = "" ∨ (p.createPortAt port (p.computeNodeIp tm host) (recorded port tm)).1 ≠ .ok ()))

/-- The port comes to a compute node that takes a VLAN for a network that is not known, or has no tunnel. -/
def LosesVlan (port : PortDefinition) (tm : OFMTunnelManager ε) : Prop :=
  IsComputeOwner port.deviceOwner ∧ ∃ host node, port.bindingHostId = some host ∧ p.computeNodeIp tm host ≠ "" ∧
    tm.nodesByIp.get (p.computeNodeIp tm host) = some node ∧ LosesAt port node tm

theorem changes_of_losesVlan (h : p.LosesVlan port tm) :
    p.CreateFails port tm ∧ (p.createPortFlow port tm).2.nodesByIp ≠ tm.nodesByIp := by
  obtain ⟨howner, host, node, hhost, hne, hget, hloses⟩ := h
  have hget' : (recorded port tm).nodesByIp.get (p.computeNodeIp tm host) = some node := hget
  obtain ⟨hthrows, hchanged⟩ := p.createPortAt_loses hget' hloses
  have hflow := congrArg (·.2.nodesByIp) (p.createPortFlow_compute howner hhost rfl hne)
  exact ⟨.inr (.inr ⟨howner, host, hhost, .inr hthrows⟩), fun hsame => hchanged (hflow.symm.trans hsame)⟩

theorem keeps_of_not_losesVlan (h : ¬p.LosesVlan port tm) (hfails : p.CreateFails port tm) :
    (p.createPortFlow port tm).2.nodesByIp = tm.nodesByIp := by
  obtain ⟨howner, hne, hflow⟩ | ⟨howner, host, node, hhost, hne, hget, hflow⟩ | hflow := p.createPortFlow_cases port tm
  · obtain ⟨node, hget, -⟩ := p.networkNodeIp_spec hne
    have hget' : (recorded port tm).nodesByIp.get (p.networkNodeIp tm) = some node := hget
    have hput := hflow.trans (atNode_some hget' (Method.modify (NodeDefinition.addPort port)))
    obtain hfails | ⟨-, hempty⟩ | ⟨hcompute, -⟩ := hfails
    · exact absurd (congrArg Prod.fst hput) hfails
    · exact absurd hempty hne
    · exact absurd howner (not_isNetworkOwner hcompute)
  · have hloses : ¬LosesAt port node tm := fun hloses => h ⟨howner, host, node, hhost, hne, hget, hloses⟩
    have hget' : (recorded port tm).nodesByIp.get (p.computeNodeIp tm host) = some node := hget
    rw [hflow]
    refine p.createPortAt_keeps hget' hloses ?_
    obtain hfails | ⟨hnetwork, -⟩ | ⟨-, host', hhost', hempty | hthrows⟩ := hfails
    · exact absurd (congrArg Prod.fst hflow) hfails
    · exact absurd hnetwork (not_isNetworkOwner howner)
    · obtain rfl := Option.some.inj (hhost.symm.trans hhost')
      exact absurd hempty hne
    · obtain rfl := Option.some.inj (hhost.symm.trans hhost')
      exact hthrows
  · rw [hflow]

/-- A request that fails leaves the nodes as they were if and only if it does not take a VLAN first. -/
theorem create_atomic_iff (port : PortDefinition) (tm : OFMTunnelManager ε) :
    (p.CreateFails port tm → (p.createPortFlow port tm).2.nodesByIp = tm.nodesByIp) ↔ ¬p.LosesVlan port tm :=
  ⟨fun h hloses => (p.changes_of_losesVlan hloses).2 (h (p.changes_of_losesVlan hloses).1), p.keeps_of_not_losesVlan⟩

/-- A port of an unknown network comes to a new node. -/
theorem not_create_atomic : ¬∀ (p : Platform Unit) (port : PortDefinition) (tm : OFMTunnelManager Unit),
    p.CreateFails port tm → (p.createPortFlow port tm).2.nodesByIp = tm.nodesByIp := by
  intro h
  have hloses : silent.LosesVlan novaPort (Machine.run silent.step (.initial ()) (portOfUnknown.take 1)) :=
    ⟨by decide, "host", _, rfl, by decide, rfl, .inl rfl, nofun, rfl⟩
  obtain ⟨hfails, hchanged⟩ := silent.changes_of_losesVlan hloses
  exact hchanged (h silent novaPort _ hfails)

end Platform

end Torpedo
