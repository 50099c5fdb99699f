import Torpedo.TunnelManager.Accounts

/-!
# Steps of the tunnel manager

What the operations on ports make of the node of a port, case by case. The agents may be in any state behind
an operation.
-/

namespace Torpedo

namespace Platform

variable {ε : Type} (p : Platform ε) {tm : OFMTunnelManager ε} {nodeIp : String} {node node' : NodeDefinition}

/-! ## Nodes -/

theorem setNode_setNode : setNode nodeIp node' (setNode nodeIp node tm) = setNode nodeIp node' tm := by
  unfold setNode
  rw [HashMap.change_change]
  rfl

theorem setNode_self (h : tm.nodesByIp.get nodeIp = some node) : setNode nodeIp node tm = tm := by
  unfold setNode
  rw [HashMap.change_eq_self h]

/-- The same but for the agents. -/
def SameButAgents (tm tm' : OFMTunnelManager ε) : Prop := ∃ agents, tm' = { tm with agents }

theorem SameButAgents.refl (tm : OFMTunnelManager ε) : SameButAgents tm tm := ⟨tm.agents, rfl⟩

/-- Unless the ports of the tunnels are an empty string, the flows do not change the node. -/
theorem sameButAgents_ofportsFlow (hget : tm.nodesByIp.get nodeIp = some node) (hofports : node.ofports ≠ some "") :
    SameButAgents tm (p.ofportsFlow nodeIp tm).2 := by
  unfold ofportsFlow
  rw [Method.catchAll_apply, Method.get_bind_apply]
  dsimp only
  rw [hget, Method.nonNull_some, Method.pure_bind]
  cases ho : node.ofports with
  | none => exact .refl tm
  | some ofports =>
    have hne : ofports ≠ "" := fun h => hofports (ho.trans (congrArg some h))
    have hkeep : Method.Keeps (SameButAgents tm) (Method.forEach
        (p.floodVlan nodeIp ofports (node.usedLocalVNetsByVlanid.getD ∅))
        (p.order.iter (node.usedLocalVNetsByVlanid.getD ∅).keySet)) := by
      refine Method.keeps_forEach (fun vlanId => ?_) _
      refine (Method.keeps_nonNull _).bind fun network => (Method.keeps_nonNull _).bind fun tunId => ?_
      rw [if_neg hne]
      rintro _ ⟨agents, rfl⟩
      exact ⟨_, rfl⟩
    exact hkeep tm (.refl tm)

/-- A node that is found is of the kind. -/
theorem findNode_spec {kind : NodeDefinition → Bool} (hne : p.findNode tm kind ≠ "") :
    ∃ node, tm.nodesByIp.get (p.findNode tm kind) = some node ∧ kind node = true := by
  have hall : ∀ (ips : List String) (found : String),
      (found ≠ "" → ∃ node, tm.nodesByIp.get found = some node ∧ kind node = true) →
      ips.foldl (fun found ip => if (tm.nodesByIp.get ip).any kind then ip else found) found ≠ "" →
      ∃ node, tm.nodesByIp.get (ips.foldl (fun found ip =>
        if (tm.nodesByIp.get ip).any kind then ip else found) found) = some node ∧ kind node = true := by
    intro ips
    induction ips with
    | nil => exact fun _ h => h
    | cons ip ips ih =>
      intro found h
      refine ih _ fun hfound => ?_
      dsimp only at hfound ⊢
      split_ifs at hfound ⊢ with hkind
      · cases hnode : tm.nodesByIp.get ip with
        | none =>
          rw [hnode] at hkind
          cases hkind
        | some node =>
          rw [hnode] at hkind
          exact ⟨node, rfl, hkind⟩
      · exact h hfound
  exact hall _ "" (fun h => absurd rfl h) hne

theorem networkNodeIp_spec (hne : p.networkNodeIp tm ≠ "") :
    ∃ node, tm.nodesByIp.get (p.networkNodeIp tm) = some node ∧ node.nodeType = "network" := by
  obtain ⟨node, hget, hkind⟩ := p.findNode_spec hne
  exact ⟨node, hget, of_decide_eq_true hkind⟩

theorem computeNodeIp_spec {host : String} (hne : p.computeNodeIp tm host ≠ "") :
    ∃ node, tm.nodesByIp.get (p.computeNodeIp tm host) = some node ∧ node.nodeName = host := by
  obtain ⟨node, hget, hkind⟩ := p.findNode_spec hne
  exact ⟨node, hget, of_decide_eq_true hkind⟩

/-! ## Mapping and unmapping -/

/-- A method ends in a state, but for the agents. -/
def Reaches (m : Method (OFMTunnelManager ε) Unit) (tm : OFMTunnelManager ε) (r : Except Stop Unit)
    (tm' : OFMTunnelManager ε) : Prop := ∃ agents, m tm = (r, { tm' with agents })

section Mapping

variable {network : NetworkDefinition} {v : ℤ} {rest : List ℤ}

theorem mapNetwork_exhausted (hget : tm.nodesByIp.get nodeIp = some node) (hnil : node.availableLocalVlans = [])
    (netId : Option String) (network : Option NetworkDefinition) :
    p.mapNetwork nodeIp netId network tm = (.error .exception, tm) := by
  have htake := atNode_some hget (NodeDefinition.takeVlan netId network)
  rw [NodeDefinition.takeVlan_nil hnil, setNode_self hget] at htake
  exact Method.bind_error htake

theorem mapNetwork_untunneled (hget : tm.nodesByIp.get nodeIp = some node)
    (hsort : node.availableLocalVlans.mergeSort (· ≤ ·) = v :: rest)
    (htun : tunId network.providerSegmentationId = none) :
    p.mapNetwork nodeIp (some network.netId) (some network) tm =
      (.error .exception, setNode nodeIp (node.taken network v rest) tm) := by
  have htake := atNode_some hget (NodeDefinition.takeVlan (some network.netId) (some network))
  rw [NodeDefinition.takeVlan_cons hsort] at htake
  refine (Method.bind_ok htake).trans ?_
  rw [Option.bind_some, htun]
  rfl

theorem mapNetwork_taken {tun : String} (hget : tm.nodesByIp.get nodeIp = some node)
    (hsort : node.availableLocalVlans.mergeSort (· ≤ ·) = v :: rest)
    (htun : tunId network.providerSegmentationId = some tun) :
    Reaches (p.mapNetwork nodeIp (some network.netId) (some network)) tm (.ok ())
      (setNode nodeIp (node.taken network v rest) tm) := by
  have htake := atNode_some hget (NodeDefinition.takeVlan (some network.netId) (some network))
  rw [NodeDefinition.takeVlan_cons hsort] at htake
  unfold Reaches mapNetwork
  rw [Method.bind_ok htake, Option.bind_some, htun]
  exact ⟨_, rfl⟩

theorem unmapNetwork_none (hget : tm.nodesByIp.get nodeIp = some node) (tunId networkId : String) :
    Reaches (p.unmapNetwork nodeIp none tunId networkId) tm (.error .exception) tm := by
  have hrelease : ∀ agents : ε, atNode nodeIp (NodeDefinition.releaseVlan none networkId) { tm with agents } =
      (.error .exception, { tm with agents }) := fun agents =>
    (atNode_some (by exact hget) _).trans (congrArg (Prod.mk _) (setNode_self (by exact hget)))
  exact ⟨_, hrelease _⟩

theorem unmapNetwork_released {vlanId networkId : String} (hget : tm.nodesByIp.get nodeIp = some node)
    (hacc : node.Accounted) (hvlan : node.vlanOf networkId = some vlanId) (tunId : String) :
    ∃ v : ℤ, vlanId = v.repr ∧ Reaches (p.unmapNetwork nodeIp (some vlanId) tunId networkId) tm (.ok ())
      (setNode nodeIp (node.released v networkId) tm) := by
  obtain ⟨v, rfl, hnode⟩ := hacc.releaseVlan hvlan
  have hrelease : ∀ agents : ε, atNode nodeIp (NodeDefinition.releaseVlan (some v.repr) networkId) { tm with agents } =
      (.ok (), { setNode nodeIp (node.released v networkId) tm with agents }) := fun agents => by
    refine (atNode_some (by exact hget) _).trans ?_
    rw [hnode]
    rfl
  exact ⟨v, rfl, _, hrelease _⟩

end Mapping

/-! ## Creating a port -/

section Creating

variable {port : PortDefinition} {network : NetworkDefinition} {v : ℤ} {rest : List ℤ}

theorem placePort_reaches (hget : tm.nodesByIp.get nodeIp = some node) (hofports : node.ofports ≠ some "") :
    Reaches (p.placePort port nodeIp) tm (.ok ())
      { setNode nodeIp (node.addPort port) tm with vmByGuid := tm.vmByGuid.put port.portId port } := by
  have hadd := atNode_some hget (Method.modify (NodeDefinition.addPort port))
  have hget' : ({ setNode nodeIp (node.addPort port) tm with
      vmByGuid := tm.vmByGuid.put port.portId port } : OFMTunnelManager ε).nodesByIp.get nodeIp = _ :=
    get_setNode_self (hget.trans_ne (Option.some_ne_none node))
  obtain ⟨agents, hflow⟩ := p.sameButAgents_ofportsFlow hget' hofports
  refine ⟨agents, ?_⟩
  unfold placePort
  rw [Method.bind_ok hadd]
  exact Prod.ext rfl hflow

theorem isMapped_true {networkId : String} (h : node.network networkId ≠ none) :
    (isMapped node (some networkId) : Method (OFMTunnelManager ε) Bool) = pure true := by
  unfold isMapped
  unfold NodeDefinition.network at h
  cases hnets : node.usedLocalVNetsByGuid with
  | none =>
    rw [hnets] at h
    exact absurd rfl h
  | some networks =>
    rw [hnets] at h
    obtain ⟨network, hnetwork⟩ := Option.ne_none_iff_exists'.1 h
    have hget : networks.get networkId = some network := hnetwork
    unfold HashMap.containsKey
    simp [hget]

theorem createPortAt_mapped {networkId : String} (hget : tm.nodesByIp.get nodeIp = some node)
    (hofports : node.ofports ≠ some "") (hid : port.networkId = some networkId)
    (hmapped : node.network networkId ≠ none) :
    Reaches (p.createPortAt port nodeIp) tm (.ok ())
      { setNode nodeIp (node.addPort port) tm with vmByGuid := tm.vmByGuid.put port.portId port } := by
  obtain ⟨agents, hplace⟩ : Reaches (p.placePort port nodeIp) tm _ _ := p.placePort_reaches hget hofports
  refine ⟨agents, ?_⟩
  unfold createPortAt
  rw [Method.get_bind_apply, hget, Method.nonNull_some, Method.pure_bind, hid, isMapped_true hmapped,
    Method.pure_bind]
  exact hplace

theorem createPortAt_exhausted {networkId : String} (hget : tm.nodesByIp.get nodeIp = some node)
    (hid : port.networkId = some networkId) (hmapped : node.network networkId = none)
    (hnil : node.availableLocalVlans = []) : p.createPortAt port nodeIp tm = (.error .exception, tm) := by
  unfold createPortAt
  rw [Method.get_bind_apply, hget, Method.nonNull_some, Method.pure_bind, hid,
    isMapped_false (.inr ⟨networkId, rfl, hmapped⟩), Method.pure_bind]
  exact Method.bind_error (p.mapNetwork_exhausted hget hnil _ _)

theorem createPortAt_untunneled (hget : tm.nodesByIp.get nodeIp = some node)
    (hid : port.networkId = some network.netId) (hknown : tm.vNetsByGuid.get network.netId = some network)
    (hmapped : node.network network.netId = none)
    (hsort : node.availableLocalVlans.mergeSort (· ≤ ·) = v :: rest)
    (htun : tunId network.providerSegmentationId = none) :
    p.createPortAt port nodeIp tm = (.error .exception, setNode nodeIp (node.taken network v rest) tm) := by
  unfold createPortAt
  rw [Method.get_bind_apply, hget, Method.nonNull_some, Method.pure_bind, hid,
    isMapped_false (.inr ⟨_, rfl, hmapped⟩), Method.pure_bind, Option.bind_some, hknown]
  exact Method.bind_error (p.mapNetwork_untunneled hget hsort htun)

theorem createPortAt_taken {tun : String} (hget : tm.nodesByIp.get nodeIp = some node)
    (hofports : node.ofports ≠ some "") (hid : port.networkId = some network.netId)
    (hknown : tm.vNetsByGuid.get network.netId = some network) (hmapped : node.network network.netId = none)
    (hsort : node.availableLocalVlans.mergeSort (· ≤ ·) = v :: rest)
    (htun : tunId network.providerSegmentationId = some tun) :
    Reaches (p.createPortAt port nodeIp) tm (.ok ())
      { setNode nodeIp ((node.taken network v rest).addPort port) tm with
        vmByGuid := tm.vmByGuid.put port.portId port } := by
  obtain ⟨agents, hmap⟩ := p.mapNetwork_taken hget hsort htun
  have hget' : ({ setNode nodeIp (node.taken network v rest) tm with agents } :
      OFMTunnelManager ε).nodesByIp.get nodeIp = _ := get_setNode_self (hget.trans_ne (Option.some_ne_none node))
  obtain ⟨agents', hplace⟩ : Reaches (p.placePort port nodeIp) _ _ _ := p.placePort_reaches hget' hofports
  refine ⟨agents', ?_⟩
  unfold createPortAt
  rw [Method.get_bind_apply, hget, Method.nonNull_some, Method.pure_bind, hid,
    isMapped_false (.inr ⟨_, rfl, hmapped⟩), Method.pure_bind, Option.bind_some, hknown]
  refine (Method.bind_ok hmap).trans (hplace.trans (congrArg (Prod.mk _) ?_))
  have htwice : setNode nodeIp ((node.taken network v rest).addPort port)
      (setNode nodeIp (node.taken network v rest) tm) = setNode nodeIp ((node.taken network v rest).addPort port) tm :=
    setNode_setNode
  rw [← htwice]
  rfl

theorem not_isNetworkOwner {deviceOwner : Option String} (h : IsComputeOwner deviceOwner) :
    ¬IsNetworkOwner deviceOwner := by
  unfold IsComputeOwner at h
  unfold IsNetworkOwner
  obtain rfl | rfl := h
  · decide
  · decide

/-- A port of a compute node is created there, and an exception is logged. -/
theorem createPortFlow_compute {host : String} (howner : IsComputeOwner port.deviceOwner)
    (hhost : port.bindingHostId = some host) (hip : p.computeNodeIp tm host = nodeIp) (hne : nodeIp ≠ "") :
    p.createPortFlow port tm = (.ok (), (p.createPortAt port nodeIp
      { tm with vPortsByGuid := tm.vPortsByGuid.put port.portId port }).2) := by
  have hhostNode := p.hostNodeIp_some host { tm with vPortsByGuid := tm.vPortsByGuid.put port.portId port }
  have hip' : p.computeNodeIp { tm with vPortsByGuid := tm.vPortsByGuid.put port.portId port } host = nodeIp :=
    (p.findNode_congr rfl _).trans hip
  rw [hip'] at hhostNode
  unfold createPortFlow
  rw [Method.modify_bind_apply, Method.get_bind_apply, if_neg (not_isNetworkOwner howner), if_pos howner, hhost,
    Method.bind_ok hhostNode, if_pos hne]
  rfl

/-- What `createPortFlow` does behind the first map: it puts the port on the network node, on the node of its
host, or nowhere. -/
theorem createPortFlow_cases (port : PortDefinition) (tm : OFMTunnelManager ε) :
    (IsNetworkOwner port.deviceOwner ∧ p.networkNodeIp tm ≠ "" ∧ p.createPortFlow port tm =
      atNode (p.networkNodeIp tm) (Method.modify (NodeDefinition.addPort port))
        { tm with vPortsByGuid := tm.vPortsByGuid.put port.portId port }) ∨
    (IsComputeOwner port.deviceOwner ∧ ∃ host node, port.bindingHostId = some host ∧
      p.computeNodeIp tm host ≠ "" ∧ tm.nodesByIp.get (p.computeNodeIp tm host) = some node ∧
      p.createPortFlow port tm = (.ok (), (p.createPortAt port (p.computeNodeIp tm host)
        { tm with vPortsByGuid := tm.vPortsByGuid.put port.portId port }).2)) ∨
    (p.createPortFlow port tm).2 = { tm with vPortsByGuid := tm.vPortsByGuid.put port.portId port } := by
  by_cases hnetwork : IsNetworkOwner port.deviceOwner
  · have hip : p.networkNodeIp { tm with vPortsByGuid := tm.vPortsByGuid.put port.portId port } =
        p.networkNodeIp tm := p.findNode_congr rfl _
    by_cases hne : p.networkNodeIp tm = ""
    · refine .inr (.inr ?_)
      unfold createPortFlow
      rw [Method.modify_bind_apply, Method.get_bind_apply, if_pos hnetwork, hip, if_neg (not_not.2 hne)]
      rfl
    · refine .inl ⟨hnetwork, hne, ?_⟩
      unfold createPortFlow
      rw [Method.modify_bind_apply, Method.get_bind_apply, if_pos hnetwork, hip, if_pos hne]
  · by_cases hcompute : IsComputeOwner port.deviceOwner
    · cases hhost : port.bindingHostId with
      | none =>
        refine .inr (.inr ?_)
        have hhostNode := p.hostNodeIp_none { tm with vPortsByGuid := tm.vPortsByGuid.put port.portId port }
        unfold createPortFlow
        rw [Method.modify_bind_apply, Method.get_bind_apply, if_neg hnetwork, if_pos hcompute, hhost]
        split_ifs at hhostNode
        · rw [Method.bind_ok hhostNode]
          rfl
        · rw [Method.bind_error hhostNode]
      | some host =>
        by_cases hne : p.computeNodeIp tm host = ""
        · refine .inr (.inr ?_)
          have hip : p.computeNodeIp { tm with vPortsByGuid := tm.vPortsByGuid.put port.portId port } host =
              p.computeNodeIp tm host := p.findNode_congr rfl _
          have hhostNode := p.hostNodeIp_some host { tm with vPortsByGuid := tm.vPortsByGuid.put port.portId port }
          unfold createPortFlow
          rw [Method.modify_bind_apply, Method.get_bind_apply, if_neg hnetwork, if_pos hcompute, hhost,
            Method.bind_ok hhostNode, hip, if_neg (not_not.2 hne)]
          rfl
        · obtain ⟨node, hget, -⟩ := p.computeNodeIp_spec hne
          exact .inr (.inl ⟨hcompute, host, node, rfl, hne, hget,
            p.createPortFlow_compute hcompute hhost rfl hne⟩)
    · refine .inr (.inr ?_)
      unfold createPortFlow
      rw [Method.modify_bind_apply, Method.get_bind_apply, if_neg hnetwork, if_neg hcompute]
      rfl

end Creating

/-! ## Deleting a port -/

section Deleting

variable {port : PortDefinition} {portId networkId tun : String} {network : NetworkDefinition}

/-- The state behind `displacePort`. -/
def displaced (portId nodeIp : String) (node : NodeDefinition) (tm : OFMTunnelManager ε) : OFMTunnelManager ε :=
  if (node.port portId).isSome then
    { setNode nodeIp (node.removePort portId) tm with vmByGuid := tm.vmByGuid.remove portId }
  else tm

theorem displacePort_apply (hget : tm.nodesByIp.get nodeIp = some node) :
    displacePort node portId nodeIp tm = (.ok (), displaced portId nodeIp node tm) := by
  unfold displacePort displaced
  split_ifs
  · exact Method.bind_ok (atNode_some hget (Method.modify (NodeDefinition.removePort portId)))
  · rfl

/-- What a port needs to be deleted: a network that has a VLAN map on the node, is known, and has a tunnel. -/
structure Deletable (port : PortDefinition) (node : NodeDefinition) (tm : OFMTunnelManager ε)
    (networkId tun : String) : Prop where
  hasVlans : node.localVNetidToVlanid ≠ none
  ofNetwork : port.networkId = some networkId
  tunnelled : ((tm.vNetsByGuid.get networkId).bind fun network => tunId network.providerSegmentationId) = some tun

theorem deletePortAt_deletable (hget : tm.nodesByIp.get nodeIp = some node)
    (h : Deletable port node tm networkId tun) : p.deletePortAt port portId nodeIp tm =
      (if (node.removePort portId).noPorts then p.unmapNetwork nodeIp (node.vlanOf networkId) tun networkId
        else pure ()) (displaced portId nodeIp node tm) := by
  obtain ⟨vlans, hvlans⟩ := Option.ne_none_iff_exists'.1 h.hasVlans
  obtain ⟨network, hnetwork, htun⟩ := Option.bind_eq_some_iff.1 h.tunnelled
  have hvlan : node.vlanOf networkId = vlans.get networkId := by
    unfold NodeDefinition.vlanOf
    rw [hvlans]
    rfl
  unfold deletePortAt
  rw [Method.get_bind_apply, hget, Method.nonNull_some, Method.pure_bind, hvlans, Method.nonNull_some,
    Method.pure_bind, h.ofNetwork, Method.nonNull_some, Method.pure_bind, hnetwork, Method.nonNull_some,
    Method.pure_bind, htun, Method.nonNull_some, Method.pure_bind, hvlan]
  exact Method.bind_ok (displacePort_apply hget)

theorem deletePortAt_throws (hget : tm.nodesByIp.get nodeIp = some node)
    (h : ∀ networkId tun, ¬Deletable port node tm networkId tun) :
    p.deletePortAt port portId nodeIp tm = (.error .exception, tm) := by
  unfold deletePortAt
  rw [Method.get_bind_apply, hget, Method.nonNull_some, Method.pure_bind]
  cases hvlans : node.localVNetidToVlanid with
  | none => rfl
  | some vlans =>
    rw [Method.nonNull_some, Method.pure_bind]
    cases hid : port.networkId with
    | none => rfl
    | some networkId =>
      rw [Method.nonNull_some, Method.pure_bind]
      cases hnetwork : tm.vNetsByGuid.get networkId with
      | none => rfl
      | some network =>
        rw [Method.nonNull_some, Method.pure_bind]
        cases htun : tunId network.providerSegmentationId with
        | none => rfl
        | some tun =>
          refine absurd ⟨hvlans.trans_ne (Option.some_ne_none _), hid, ?_⟩ (h networkId tun)
          rw [hnetwork]
          exact htun

/-- A port of a compute node is deleted there. -/
theorem deletePortFlow_compute {host : String} (hport : tm.vPortsByGuid.get portId = some port)
    (howner : IsComputeOwner port.deviceOwner) (hhost : port.bindingHostId = some host)
    (hip : p.computeNodeIp tm host = nodeIp) (hne : nodeIp ≠ "") :
    p.deletePortFlow portId tm = p.deletePortAt port portId nodeIp
      { tm with vPortsByGuid := tm.vPortsByGuid.remove portId } := by
  have hhostNode := p.hostNodeIp_some host { tm with vPortsByGuid := tm.vPortsByGuid.remove portId }
  have hip' : p.computeNodeIp { tm with vPortsByGuid := tm.vPortsByGuid.remove portId } host = nodeIp :=
    (p.findNode_congr rfl _).trans hip
  rw [hip'] at hhostNode
  unfold deletePortFlow
  rw [Method.get_bind_apply, hport, Method.nonNull_some, Method.pure_bind, Method.modify_bind_apply,
    Method.get_bind_apply, if_neg (not_isNetworkOwner howner), if_pos howner, hhost,
    Method.bind_ok hhostNode, if_pos hne]

/-- What `deletePortFlow` does: it throws, or takes the port off the network node, off the node of its host, or
off no node. -/
theorem deletePortFlow_cases (portId : String) (tm : OFMTunnelManager ε) :
    (tm.vPortsByGuid.get portId = none ∧ p.deletePortFlow portId tm = (.error .exception, tm)) ∨
    ∃ port, tm.vPortsByGuid.get portId = some port ∧
      ((IsNetworkOwner port.deviceOwner ∧ p.networkNodeIp tm ≠ "" ∧ p.deletePortFlow portId tm =
          atNode (p.networkNodeIp tm) (Method.modify (NodeDefinition.removePort portId))
            { tm with vPortsByGuid := tm.vPortsByGuid.remove portId }) ∨
        (IsComputeOwner port.deviceOwner ∧ ∃ host node, port.bindingHostId = some host ∧
          p.computeNodeIp tm host ≠ "" ∧ tm.nodesByIp.get (p.computeNodeIp tm host) = some node ∧
          p.deletePortFlow portId tm = p.deletePortAt port portId (p.computeNodeIp tm host)
            { tm with vPortsByGuid := tm.vPortsByGuid.remove portId }) ∨
        (IsComputeOwner port.deviceOwner ∧ port.bindingHostId = none ∧ tm.nodesByIp.keySet ≠ [] ∧
          p.deletePortFlow portId tm =
            (.error .exception, { tm with vPortsByGuid := tm.vPortsByGuid.remove portId })) ∨
        ((IsComputeOwner port.deviceOwner → ∀ host, port.bindingHostId = some host → p.computeNodeIp tm host = "") ∧
          (IsNetworkOwner port.deviceOwner → p.networkNodeIp tm = "") ∧
          p.deletePortFlow portId tm = (.ok (), { tm with vPortsByGuid := tm.vPortsByGuid.remove portId }))) := by
  cases hport : tm.vPortsByGuid.get portId with
  | none =>
    refine .inl ⟨rfl, ?_⟩
    unfold deletePortFlow
    rw [Method.get_bind_apply, hport]
    rfl
  | some port =>
    refine .inr ⟨port, rfl, ?_⟩
    by_cases hnetwork : IsNetworkOwner port.deviceOwner
    · have hcompute : ¬IsComputeOwner port.deviceOwner := fun h => not_isNetworkOwner h hnetwork
      have hip : p.networkNodeIp { tm with vPortsByGuid := tm.vPortsByGuid.remove portId } =
          p.networkNodeIp tm := p.findNode_congr rfl _
      by_cases hne : p.networkNodeIp tm = ""
      · refine .inr (.inr (.inr ⟨fun h => absurd h hcompute, fun _ => hne, ?_⟩))
        unfold deletePortFlow
        rw [Method.get_bind_apply, hport, Method.nonNull_some, Method.pure_bind, Method.modify_bind_apply,
          Method.get_bind_apply, if_pos hnetwork, hip, if_neg (not_not.2 hne)]
        rfl
      · refine .inl ⟨hnetwork, hne, ?_⟩
        unfold deletePortFlow
        rw [Method.get_bind_apply, hport, Method.nonNull_some, Method.pure_bind, Method.modify_bind_apply,
          Method.get_bind_apply, if_pos hnetwork, hip, if_pos hne]
    · by_cases hcompute : IsComputeOwner port.deviceOwner
      · cases hhost : port.bindingHostId with
        | none =>
          have hhostNode := p.hostNodeIp_none { tm with vPortsByGuid := tm.vPortsByGuid.remove portId }
          by_cases hkeys : tm.nodesByIp.keySet = []
          · rw [if_pos hkeys] at hhostNode
            refine .inr (.inr (.inr ⟨fun _ => nofun, fun h => absurd h hnetwork, ?_⟩))
            unfold deletePortFlow
            rw [Method.get_bind_apply, hport, Method.nonNull_some, Method.pure_bind, Method.modify_bind_apply,
              Method.get_bind_apply, if_neg hnetwork, if_pos hcompute, hhost, Method.bind_ok hhostNode]
            rfl
          · rw [if_neg hkeys] at hhostNode
            refine .inr (.inr (.inl ⟨hcompute, rfl, hkeys, ?_⟩))
            unfold deletePortFlow
            rw [Method.get_bind_apply, hport, Method.nonNull_some, Method.pure_bind, Method.modify_bind_apply,
              Method.get_bind_apply, if_neg hnetwork, if_pos hcompute, hhost, Method.bind_error hhostNode]
        | some host =>
          by_cases hne : p.computeNodeIp tm host = ""
          · have hip : p.computeNodeIp { tm with vPortsByGuid := tm.vPortsByGuid.remove portId } host =
                p.computeNodeIp tm host := p.findNode_congr rfl _
            have hhostNode := p.hostNodeIp_some host { tm with vPortsByGuid := tm.vPortsByGuid.remove portId }
            refine .inr (.inr (.inr ⟨fun _ host' hhost' => ?_, fun h => absurd h hnetwork, ?_⟩))
            · obtain rfl := Option.some.inj hhost'
              exact hne
            · unfold deletePortFlow
              rw [Method.get_bind_apply, hport, Method.nonNull_some, Method.pure_bind, Method.modify_bind_apply,
                Method.get_bind_apply, if_neg hnetwork, if_pos hcompute, hhost, Method.bind_ok hhostNode, hip,
                if_neg (not_not.2 hne)]
              rfl
          · obtain ⟨node, hget, -⟩ := p.computeNodeIp_spec hne
            exact .inr (.inl ⟨hcompute, host, node, rfl, hne, hget,
              p.deletePortFlow_compute hport hcompute hhost rfl hne⟩)
      · refine .inr (.inr (.inr ⟨fun h => absurd h hcompute, fun h => absurd h hnetwork, ?_⟩))
        unfold deletePortFlow
        rw [Method.get_bind_apply, hport, Method.nonNull_some, Method.pure_bind, Method.modify_bind_apply,
          Method.get_bind_apply, if_neg hnetwork, if_neg hcompute]
        rfl

end Deleting

end Platform

end Torpedo
