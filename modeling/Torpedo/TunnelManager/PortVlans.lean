import Torpedo.TunnelManager.Steps

/-!
# VLANs and ports

A compute node holds a VLAN for each network of which it has a port, and for no other, along a run of port
operations in which no port leaves as the last one of its network while ports of other networks stay
(`Platform.balanced_of_clean`): the VLAN is released only when the node has no ports at all.
-/

namespace Torpedo

namespace NodeDefinition

/-- The node has a VLAN for the networks of its ports. -/
def Balanced (node : NodeDefinition) : Prop :=
  ∀ netId, node.vlanOf netId ≠ none ↔ ∃ portId port, node.port portId = some port ∧ port.networkId = some netId

variable {node : NodeDefinition} {port : PortDefinition} {portId : String}

theorem port_addPort : (node.addPort port).port = Function.update node.port port.portId (some port) := by
  funext id
  unfold NodeDefinition.port addPort
  rw [Option.bind_some, HashMap.get_put_eq]
  cases node.usedLocalVPortsByGuid <;> rfl

theorem port_removePort : (node.removePort portId).port = Function.update node.port portId none :=
  bind_get_remove _ _

theorem noPorts_iff : node.noPorts = true ↔ ∀ id, node.port id = none := by
  unfold noPorts NodeDefinition.port
  cases node.usedLocalVPortsByGuid with
  | none => exact iff_of_true rfl fun _ => rfl
  | some ports =>
    show ports.keySet.isEmpty = true ↔ ∀ id, ports.get id = none
    rw [List.isEmpty_iff]
    constructor
    · intro h id
      by_contra hid
      have hmem : id ∈ ports.keySet := ports.mem_keySet.2 (Option.isSome_iff_ne_none.2 hid)
      rw [h] at hmem
      cases hmem
    · intro h
      refine List.eq_nil_iff_forall_not_mem.2 fun id hid => ?_
      have hsome := ports.mem_keySet.1 hid
      rw [h id] at hsome
      cases hsome

/-- The last port of its network on the node. -/
def LastOfNetwork (node : NodeDefinition) (portId networkId : String) : Prop :=
  (∃ port, node.port portId = some port ∧ port.networkId = some networkId) ∧
    ∀ id port, id ≠ portId → node.port id = some port → port.networkId ≠ some networkId

/-- A port is added, and its network has a VLAN then. -/
theorem Balanced.addPort {node' : NodeDefinition} {networkId : String}
    (h : node.Balanced) (hport : node'.port = Function.update node.port port.portId (some port))
    (hid : port.networkId = some networkId) (hmapped : node'.vlanOf networkId ≠ none)
    (hvlan : ∀ id, id ≠ networkId → node'.vlanOf id = node.vlanOf id)
    (hlast : ∀ id, id ≠ networkId → ¬node.LastOfNetwork port.portId id) : node'.Balanced := by
  intro netId
  rw [hport]
  by_cases heq : netId = networkId
  · subst heq
    exact iff_of_true hmapped ⟨port.portId, port, Function.update_self .., hid⟩
  · rw [hvlan netId heq, h netId]
    constructor
    · rintro ⟨portId, port', hport', hid'⟩
      by_cases hportId : portId = port.portId
      · subst hportId
        -- another port of the network is on the node
        have hother := hlast netId heq
        unfold LastOfNetwork at hother
        push Not at hother
        obtain ⟨id, port'', hne, hport'', hid''⟩ := hother ⟨port', hport', hid'⟩
        exact ⟨id, port'', by rw [Function.update_of_ne hne, hport''], hid''⟩
      · exact ⟨portId, port', by rw [Function.update_of_ne hportId, hport'], hid'⟩
    · rintro ⟨portId, port', hport', hid'⟩
      by_cases hportId : portId = port.portId
      · rw [hportId, Function.update_self] at hport'
        obtain rfl := Option.some.inj hport'
        exact absurd (Option.some.inj (hid'.symm.trans hid)) heq
      · rw [Function.update_of_ne hportId] at hport'
        exact ⟨portId, port', hport', hid'⟩

/-- A port is removed, and no VLAN. -/
theorem Balanced.removePort {node' : NodeDefinition} (h : node.Balanced)
    (hport : node'.port = Function.update node.port portId none) (hvlan : node'.vlanOf = node.vlanOf)
    (hlast : ∀ id, ¬node.LastOfNetwork portId id) : node'.Balanced := by
  intro netId
  rw [hport, hvlan, h netId]
  constructor
  · rintro ⟨id, port, hport', hid⟩
    by_cases hportId : id = portId
    · subst hportId
      have hother := hlast netId
      unfold LastOfNetwork at hother
      push Not at hother
      obtain ⟨id', port', hne, hport'', hid'⟩ := hother ⟨port, hport', hid⟩
      exact ⟨id', port', by rw [Function.update_of_ne hne, hport''], hid'⟩
    · exact ⟨id, port, by rw [Function.update_of_ne hportId, hport'], hid⟩
  · rintro ⟨id, port, hport', hid⟩
    by_cases hportId : id = portId
    · rw [hportId, Function.update_self] at hport'
      cases hport'
    · rw [Function.update_of_ne hportId] at hport'
      exact ⟨id, port, hport', hid⟩

/-- No port is left, and no VLAN. -/
theorem balanced_of_noPorts (hports : ∀ id, node.port id = none)
    (hvlans : ∀ id, node.vlanOf id = none) : node.Balanced := fun netId =>
  iff_of_false (not_not.2 (hvlans netId)) fun ⟨portId, port, hport, _⟩ => by
    rw [hports portId] at hport
    cases hport

end NodeDefinition

namespace Platform

variable {ε α : Type} (p : Platform ε) {tm tm' : OFMTunnelManager ε} {nodeIp : String} {node : NodeDefinition}

/-! ## Other nodes -/

/-- Only the node of an address changes, and it stays a node of the same type. -/
structure OnlyNode (nodeIp : String) (tm tm' : OFMTunnelManager ε) : Prop where
  others : ∀ ip, ip ≠ nodeIp → tm'.nodesByIp.get ip = tm.nodesByIp.get ip
  nodeType : (tm'.nodesByIp.get nodeIp).map NodeDefinition.nodeType =
    (tm.nodesByIp.get nodeIp).map NodeDefinition.nodeType
  vNetsByGuid : tm'.vNetsByGuid = tm.vNetsByGuid

theorem OnlyNode.refl (nodeIp : String) (tm : OFMTunnelManager ε) : OnlyNode nodeIp tm tm :=
  ⟨fun _ _ => rfl, rfl, rfl⟩

theorem onlyNode_atNode {m : Method NodeDefinition α}
    (h : ∀ nodeType, Method.Keeps (fun node => node.nodeType = nodeType) m) :
    Method.Keeps (OnlyNode nodeIp tm) (atNode nodeIp m) := by
  intro tm' htm'
  cases hget : tm'.nodesByIp.get nodeIp with
  | none =>
    rw [atNode_none hget]
    exact htm'
  | some node =>
    rw [atNode_some hget]
    refine ⟨fun ip hip => ?_, ?_, htm'.vNetsByGuid⟩
    · exact (HashMap.get_change_of_ne _ hip _).trans (htm'.others ip hip)
    · have hset : (setNode nodeIp (m node).2 tm').nodesByIp.get nodeIp = some (m node).2 :=
        get_setNode_self (hget.trans_ne (Option.some_ne_none node))
      rw [hset, ← htm'.nodeType, hget]
      exact congrArg some (h node.nodeType node rfl)

theorem keeps_nodeType {g : NodeDefinition → NodeDefinition} {nodeType : String}
    (h : ∀ node, (g node).nodeType = node.nodeType) :
    Method.Keeps (fun node => node.nodeType = nodeType) (Method.modify g) :=
  Method.keeps_modify fun node hnode => (h node).trans hnode

theorem onlyNode_modifyNode {g : NodeDefinition → NodeDefinition}
    (h : ∀ node, (g node).nodeType = node.nodeType) :
    Method.Keeps (OnlyNode nodeIp tm) (atNode nodeIp (Method.modify g)) :=
  onlyNode_atNode fun _ => keeps_nodeType h

theorem onlyNode_restPost (ip : String) (command : Command) :
    Method.Keeps (OnlyNode nodeIp tm) (p.restPost ip command) :=
  fun _ h => ⟨h.others, h.nodeType, h.vNetsByGuid⟩

theorem onlyNode_takeVlan (netId : Option String) (network : Option NetworkDefinition) :
    Method.Keeps (OnlyNode nodeIp tm) (atNode nodeIp (NodeDefinition.takeVlan netId network)) := by
  refine onlyNode_atNode fun nodeType => ?_
  refine (keeps_nodeType (by exact fun _ => rfl)).bind fun _ => Method.keeps_get.bind fun _ => ?_
  refine (Method.keeps_nonNull _).bind fun _ => ?_
  refine (keeps_nodeType (by exact fun _ => rfl)).bind fun _ => (Method.keeps_nonNull _).bind fun _ => ?_
  refine (keeps_nodeType (by exact fun _ => rfl)).bind fun _ => (Method.keeps_nonNull _).bind fun _ => ?_
  exact (keeps_nodeType (by exact fun _ => rfl)).bind fun _ => Method.keeps_pure

theorem onlyNode_releaseVlan (vlanId : Option String) (networkId : String) :
    Method.Keeps (OnlyNode nodeIp tm) (atNode nodeIp (NodeDefinition.releaseVlan vlanId networkId)) := by
  refine onlyNode_atNode fun nodeType => ?_
  refine (Method.keeps_nonNull _).bind fun _ => (keeps_nodeType (by exact fun _ => rfl)).bind fun _ => ?_
  refine Method.keeps_get.bind fun _ => (Method.keeps_nonNull _).bind fun _ => ?_
  refine (Method.keeps_nonNull _).bind fun _ => ?_
  refine (keeps_nodeType (by exact fun _ => rfl)).bind fun _ => (Method.keeps_nonNull _).bind fun _ => ?_
  refine (keeps_nodeType (by exact fun _ => rfl)).bind fun _ => (Method.keeps_nonNull _).bind fun _ => ?_
  exact keeps_nodeType (by exact fun _ => rfl)

theorem onlyNode_floodVlan (ofports : String) (used : HashMap String NetworkDefinition) (vlanId : String) :
    Method.Keeps (OnlyNode nodeIp tm) (p.floodVlan nodeIp ofports used vlanId) := by
  refine (Method.keeps_nonNull _).bind fun network => (Method.keeps_nonNull _).bind fun tunId => ?_
  split_ifs
  · refine (p.onlyNode_restPost _ _).bind fun _ => (p.onlyNode_restPost _ _).bind fun _ => ?_
    exact onlyNode_releaseVlan _ _
  · exact p.onlyNode_restPost _ _

theorem onlyNode_ofportsFlow : Method.Keeps (OnlyNode nodeIp tm) (p.ofportsFlow nodeIp) := by
  refine Method.Keeps.catchAll (Method.keeps_get.bind fun tm' => (Method.keeps_nonNull _).bind fun node => ?_)
  cases node.ofports with
  | none => exact Method.keeps_pure
  | some ofports => exact Method.keeps_forEach (p.onlyNode_floodVlan ofports _) _

theorem onlyNode_placePort (port : PortDefinition) :
    Method.Keeps (OnlyNode nodeIp tm) (p.placePort port nodeIp) :=
  (onlyNode_modifyNode (by exact fun _ => rfl)).bind fun _ =>
    (Method.keeps_modify (by exact fun _ h => ⟨h.others, h.nodeType, h.vNetsByGuid⟩)).bind fun _ =>
      p.onlyNode_ofportsFlow

theorem onlyNode_createPortAt (port : PortDefinition) :
    Method.Keeps (OnlyNode nodeIp tm) (p.createPortAt port nodeIp) := by
  refine Method.keeps_get.bind fun tm' => (Method.keeps_nonNull _).bind fun node => ?_
  have hmapped : Method.Keeps (OnlyNode nodeIp tm) (isMapped node port.networkId) := by
    unfold isMapped
    cases node.usedLocalVNetsByGuid with
    | none => exact Method.keeps_pure
    | some networks => exact (Method.keeps_nonNull _).bind fun _ => Method.keeps_pure
  refine hmapped.bind fun mapped => ?_
  cases mapped with
  | true => exact p.onlyNode_placePort port
  | false =>
    refine Method.Keeps.bind (m := p.mapNetwork nodeIp _ _) ?_ fun _ => p.onlyNode_placePort port
    exact (onlyNode_takeVlan _ _).bind fun _ => (Method.keeps_nonNull _).bind fun _ => p.onlyNode_restPost _ _

theorem onlyNode_deletePortAt (port : PortDefinition) (portId : String) :
    Method.Keeps (OnlyNode nodeIp tm) (p.deletePortAt port portId nodeIp) := by
  refine Method.keeps_get.bind fun tm' => (Method.keeps_nonNull _).bind fun node => ?_
  refine (Method.keeps_nonNull _).bind fun vlans => (Method.keeps_nonNull _).bind fun networkId => ?_
  refine (Method.keeps_nonNull _).bind fun network => (Method.keeps_nonNull _).bind fun tunId => ?_
  refine Method.Keeps.bind ?_ fun _ => ?_
  · unfold displacePort
    split_ifs
    · exact (onlyNode_modifyNode (by exact fun _ => rfl)).bind fun _ =>
        Method.keeps_modify (by exact fun _ h => ⟨h.others, h.nodeType, h.vNetsByGuid⟩)
    · exact Method.keeps_pure
  · split_ifs
    · refine (p.onlyNode_restPost _ _).bind fun _ => (p.onlyNode_restPost _ _).bind fun _ => ?_
      exact onlyNode_releaseVlan _ _
    · exact Method.keeps_pure

/-! ## Ports on compute nodes -/

/-- The VLANs of each node are accounted for, and each compute node has them for its ports. -/
structure Settled (tm : OFMTunnelManager ε) : Prop where
  kept : Kept tm
  balanced : ∀ nodeIp node, tm.nodesByIp.get nodeIp = some node → node.nodeType ≠ "network" → node.Balanced

/-- An operation on ports of networks that exist. -/
def OnExisting (tm : OFMTunnelManager ε) : TunnelCall → Prop
  | .createPortFlow port => ∃ network, port.networkId.bind tm.vNetsByGuid.get = some network
  | .deletePortFlow _ => True
  | .ofportsFlow _ => True
  | _ => False

/-- A port is put on a compute node, and a VLAN is left without a port, or the port without a VLAN: the tunnel
ports of the node are an empty string, the network has no number, or the port was one of another network. -/
def MisplacesAt (port : PortDefinition) (network : NetworkDefinition) (node : NodeDefinition) : Prop :=
  (node.network network.netId ≠ none ∨ node.availableLocalVlans ≠ []) ∧
    (node.ofports = some "" ∨
      (node.network network.netId = none ∧ tunId network.providerSegmentationId = none) ∨
      ∃ networkId, networkId ≠ network.netId ∧ node.LastOfNetwork port.portId networkId)

/-- The last port of a network leaves a compute node, and other ports stay there, or it is deleted as a port of
another network. -/
def StrandsAt (portId : String) (port : PortDefinition) (node : NodeDefinition) : Prop :=
  ∃ networkId, node.LastOfNetwork portId networkId ∧
    ((∃ id, id ≠ portId ∧ node.port id ≠ none) ∨ port.networkId ≠ some networkId)

/-- The node of the host of a port is a compute node. -/
def OnComputeNode (tm : OFMTunnelManager ε) (port : PortDefinition) (node : NodeDefinition) : Prop :=
  IsComputeOwner port.deviceOwner ∧ ∃ host, port.bindingHostId = some host ∧ p.computeNodeIp tm host ≠ "" ∧
    tm.nodesByIp.get (p.computeNodeIp tm host) = some node ∧ node.nodeType ≠ "network"

/-- An operation that parts VLANs and ports. -/
def Parts (tm : OFMTunnelManager ε) : TunnelCall → Prop
  | .createPortFlow port => ∃ network node, port.networkId.bind tm.vNetsByGuid.get = some network ∧
      p.OnComputeNode tm port node ∧ MisplacesAt port network node
  | .deletePortFlow portId => ∃ port node networkId tun, tm.vPortsByGuid.get portId = some port ∧
      p.OnComputeNode tm port node ∧ Deletable port node tm networkId tun ∧ StrandsAt portId port node
  | .ofportsFlow nodeIp => ∃ node netId, tm.nodesByIp.get nodeIp = some node ∧ node.nodeType ≠ "network" ∧
      node.ofports = some "" ∧ node.vlanOf netId ≠ none
  | _ => False

variable {p}

theorem Settled.onlyNode (h : Settled tm) (hkept : Kept tm') (honly : OnlyNode nodeIp tm tm')
    (hnode : ∀ node, tm'.nodesByIp.get nodeIp = some node → node.nodeType ≠ "network" → node.Balanced) :
    Settled tm' := by
  refine ⟨hkept, fun ip node hget htype => ?_⟩
  by_cases hip : ip = nodeIp
  · subst hip
    exact hnode node hget htype
  · exact h.balanced ip node ((honly.others ip hip).symm.trans hget) htype

/-- A node of the type that it had before. -/
theorem OnlyNode.nodeType_eq (honly : OnlyNode nodeIp tm tm') {node node' : NodeDefinition}
    (hget : tm.nodesByIp.get nodeIp = some node) (hget' : tm'.nodesByIp.get nodeIp = some node') :
    node'.nodeType = node.nodeType := by
  have htype := honly.nodeType
  rw [hget, hget'] at htype
  exact Option.some.inj htype

theorem Settled.onlyNetworkNode (h : Settled tm) (hkept : Kept tm') (honly : OnlyNode nodeIp tm tm')
    (hget : tm.nodesByIp.get nodeIp = some node) (htype : node.nodeType = "network") : Settled tm' :=
  h.onlyNode hkept honly fun _ hget' htype' => absurd ((honly.nodeType_eq hget hget').trans htype) htype'

/-! ## Creating -/

/-- What `createPortAt` makes of a compute node. -/
theorem balanced_createPortAt {port : PortDefinition} {network : NetworkDefinition} (hkept : Kept tm)
    (hget : tm.nodesByIp.get nodeIp = some node) (hbalanced : node.Balanced)
    (hnet : port.networkId.bind tm.vNetsByGuid.get = some network) (hmis : ¬MisplacesAt port network node)
    {node' : NodeDefinition} (hget' : (p.createPortAt port nodeIp tm).2.nodesByIp.get nodeIp = some node') :
    node'.Balanced := by
  obtain ⟨networkId, hid, hknown⟩ := Option.bind_eq_some_iff.1 hnet
  obtain rfl := hkept.named networkId network hknown
  have hset : ∀ n, (setNode nodeIp n tm).nodesByIp.get nodeIp = some n :=
    fun _ => get_setNode_self (hget.trans_ne (Option.some_ne_none node))
  have hacc := hkept.accounted nodeIp node hget
  by_cases hplace : node.network network.netId ≠ none ∨ node.availableLocalVlans ≠ []
  · have hmis' : ¬_ := fun h => hmis ⟨hplace, h⟩
    push Not at hmis'
    obtain ⟨hofports, htun, hlast⟩ := hmis'
    by_cases hmapped : node.network network.netId = none
    · obtain ⟨v, rest, hsort⟩ : ∃ v rest, node.availableLocalVlans.mergeSort (· ≤ ·) = v :: rest := by
        refine List.exists_cons_of_ne_nil fun hsort => hplace.elim (· hmapped) fun hnil => hnil ?_
        exact List.Perm.eq_nil (hsort ▸ (List.mergeSort_perm _ _).symm)
      obtain ⟨tun, htun⟩ := Option.ne_none_iff_exists'.1 (htun hmapped)
      obtain ⟨agents, htaken⟩ := p.createPortAt_taken hget hofports hid hknown hmapped hsort htun
      rw [htaken] at hget'
      obtain rfl := Option.some.inj ((hset _).symm.trans hget')
      refine hbalanced.addPort NodeDefinition.port_addPort hid ?_ (fun id hne => ?_) hlast
      · show (node.taken network v rest).vlanOf _ ≠ none
        rw [NodeDefinition.vlanOf_taken, Function.update_self]
        exact Option.some_ne_none _
      · show (node.taken network v rest).vlanOf id = _
        rw [NodeDefinition.vlanOf_taken, Function.update_of_ne hne]
    · obtain ⟨agents, hplaced⟩ := p.createPortAt_mapped hget hofports hid hmapped
      rw [hplaced] at hget'
      obtain rfl := Option.some.inj ((hset _).symm.trans hget')
      have hvlan : node.vlanOf network.netId ≠ none := fun h => hmapped ((hacc.network_eq_none_iff _).2 h)
      exact hbalanced.addPort NodeDefinition.port_addPort hid hvlan (fun _ _ => rfl) hlast
  · push Not at hplace
    rw [p.createPortAt_exhausted hget hid hplace.1 hplace.2] at hget'
    obtain rfl := Option.some.inj (hget.symm.trans hget')
    exact hbalanced

/-! ## Deleting -/

/-- The node of a port that has been taken off it. -/
theorem displaced_spec (portId : String) (hkept : Kept tm) (hget : tm.nodesByIp.get nodeIp = some node) :
    ∃ node', (displaced portId nodeIp node tm).nodesByIp.get nodeIp = some node' ∧
      node'.port = Function.update node.port portId none ∧ node'.vlanOf = node.vlanOf ∧ node'.Accounted := by
  have hacc := hkept.accounted nodeIp node hget
  unfold displaced
  by_cases hport : (node.port portId).isSome
  · rw [if_pos hport]
    exact ⟨_, get_setNode_self (hget.trans_ne (Option.some_ne_none node)), NodeDefinition.port_removePort, rfl,
      hacc.tags, hacc.mapped⟩
  · rw [if_neg hport]
    refine ⟨node, hget, (Function.update_eq_self_iff.2 ?_).symm, rfl, hacc⟩
    exact (Option.not_isSome_iff_eq_none.1 hport).symm

/-- The node of a port that has been deleted: its network has no VLAN then if there are no ports, and the
other networks keep theirs. -/
theorem deletePortAt_spec {port : PortDefinition} {networkId tun : String} (portId : String) (hkept : Kept tm)
    (hget : tm.nodesByIp.get nodeIp = some node) (hdel : Deletable port node tm networkId tun) :
    ∃ node', (p.deletePortAt port portId nodeIp tm).2.nodesByIp.get nodeIp = some node' ∧
      node'.port = Function.update node.port portId none ∧
      node'.vlanOf = if (node.removePort portId).noPorts then Function.update node.vlanOf networkId none
        else node.vlanOf := by
  obtain ⟨node₁, hget₁, hport₁, hvlan₁, hacc₁⟩ := displaced_spec portId hkept hget
  rw [p.deletePortAt_deletable hget hdel]
  split_ifs with hno
  · cases hvlan : node.vlanOf networkId with
    | none =>
      obtain ⟨agents, hunmap⟩ := p.unmapNetwork_none hget₁ tun networkId
      rw [hunmap]
      exact ⟨node₁, hget₁, hport₁, hvlan₁.trans (Function.update_eq_self_iff.2 hvlan.symm).symm⟩
    | some vlanId =>
      have hheld : node₁.vlanOf networkId = some vlanId := (congrFun hvlan₁ _).trans hvlan
      obtain ⟨v, rfl, agents, hunmap⟩ := p.unmapNetwork_released hget₁ hacc₁ hheld tun
      rw [hunmap]
      refine ⟨node₁.released v networkId, get_setNode_self (hget₁.trans_ne (Option.some_ne_none _)), hport₁, ?_⟩
      rw [NodeDefinition.vlanOf_released, hvlan₁]
  · exact ⟨node₁, hget₁, hport₁, hvlan₁⟩

theorem balanced_deletePortAt {port : PortDefinition} {portId : String} (hkept : Kept tm)
    (hget : tm.nodesByIp.get nodeIp = some node) (hbalanced : node.Balanced)
    (hstrands : ∀ networkId tun, Deletable port node tm networkId tun → ¬StrandsAt portId port node)
    {node' : NodeDefinition}
    (hget' : (p.deletePortAt port portId nodeIp tm).2.nodesByIp.get nodeIp = some node') : node'.Balanced := by
  by_cases hdel : ∃ networkId tun, Deletable port node tm networkId tun
  · obtain ⟨networkId, tun, hdel⟩ := hdel
    have hstrand := hstrands networkId tun hdel
    obtain ⟨node₁, hget₁, hport₁, hvlan₁⟩ := p.deletePortAt_spec portId hkept hget hdel
    obtain rfl := Option.some.inj (hget₁.symm.trans hget')
    by_cases hno : (node.removePort portId).noPorts
    · rw [if_pos hno] at hvlan₁
      rw [NodeDefinition.noPorts_iff, NodeDefinition.port_removePort, ← hport₁] at hno
      refine NodeDefinition.balanced_of_noPorts hno fun id => ?_
      rw [hvlan₁, Function.update_apply]
      split_ifs with heq
      · rfl
      · by_contra hvlan
        obtain ⟨id', port', hport', hid'⟩ := (hbalanced id).1 hvlan
        have hothers : ∀ id, id ≠ portId → node.port id = none := fun id hne => by
          have hid := hno id
          rwa [hport₁, Function.update_of_ne hne] at hid
        obtain rfl : id' = portId := by
          by_contra hne
          rw [hothers id' hne] at hport'
          cases hport'
        refine hstrand ⟨id, ⟨⟨port', hport', hid'⟩, fun id'' port'' hne' hport'' => ?_⟩, .inr fun heq' => ?_⟩
        · rw [hothers id'' hne'] at hport''
          cases hport''
        · exact heq (Option.some.inj (heq'.symm.trans hdel.ofNetwork))
    · rw [if_neg hno] at hvlan₁
      rw [NodeDefinition.noPorts_iff, NodeDefinition.port_removePort] at hno
      push Not at hno
      obtain ⟨id, hid⟩ := hno
      have hne : id ≠ portId := by
        rintro rfl
        exact hid (Function.update_self ..)
      rw [Function.update_of_ne hne] at hid
      refine hbalanced.removePort hport₁ hvlan₁ fun networkId' hlast => ?_
      exact hstrand ⟨networkId', hlast, .inl ⟨id, hne, hid⟩⟩
  · push Not at hdel
    rw [p.deletePortAt_throws hget hdel] at hget'
    obtain rfl := Option.some.inj (hget.symm.trans hget')
    exact hbalanced

/-- A VLAN is left without a port. -/
theorem not_balanced_deletePortAt {port : PortDefinition} {portId networkId tun : String} (hkept : Kept tm)
    (hget : tm.nodesByIp.get nodeIp = some node) (hbalanced : node.Balanced)
    (hdel : Deletable port node tm networkId tun) (hstrands : StrandsAt portId port node) :
    ∃ node', (p.deletePortAt port portId nodeIp tm).2.nodesByIp.get nodeIp = some node' ∧ ¬node'.Balanced := by
  obtain ⟨node₁, hget₁, hport₁, hvlan₁⟩ := p.deletePortAt_spec portId hkept hget hdel
  refine ⟨node₁, hget₁, fun hbalanced₁ => ?_⟩
  obtain ⟨networkId', ⟨⟨port', hport', hid'⟩, hothers⟩, hwhy⟩ := hstrands
  have hvlan : node₁.vlanOf networkId' ≠ none := by
    have hbefore := (hbalanced networkId').2 ⟨portId, port', hport', hid'⟩
    rw [hvlan₁]
    split_ifs with hno
    · rw [NodeDefinition.noPorts_iff, NodeDefinition.port_removePort] at hno
      obtain ⟨id, hne, hid⟩ | hother := hwhy
      · have hnone := hno id
        rw [Function.update_of_ne hne] at hnone
        exact absurd hnone hid
      · rwa [Function.update_of_ne]
        rintro rfl
        exact hother hdel.ofNetwork
    · exact hbefore
  obtain ⟨id, port'', hport'', hid''⟩ := (hbalanced₁ networkId').1 hvlan
  rw [hport₁] at hport''
  by_cases hne : id = portId
  · rw [hne, Function.update_self] at hport''
    cases hport''
  · rw [Function.update_of_ne hne] at hport''
    exact hothers id port'' hne hport'' hid''

/-! ## Runs -/

theorem ofportsFlow_unused (hget : tm.nodesByIp.get nodeIp = some node) (hacc : node.Accounted)
    (hvlan : ∀ netId, node.vlanOf netId = none) : (p.ofportsFlow nodeIp tm).2 = tm := by
  have hkeys : (node.usedLocalVNetsByVlanid.getD ∅).keySet = [] := by
    refine List.eq_nil_iff_forall_not_mem.2 fun vlanId hmem => ?_
    obtain ⟨network, hnetwork⟩ := (HashMap.mem_keySet_iff _).1 hmem
    have hnetworkOf : node.networkOf vlanId = some network := by
      unfold NodeDefinition.networkOf
      cases hused : node.usedLocalVNetsByVlanid with
      | none =>
        rw [hused] at hnetwork
        cases hnetwork
      | some used =>
        rw [hused] at hnetwork
        exact hnetwork
    have htag := (hacc.tags.holder_iff vlanId network.netId).1
      (congrArg (Option.map NetworkDefinition.netId) hnetworkOf)
    exact Option.some_ne_none _ (htag.symm.trans (hvlan network.netId))
  have hiter : p.order.iter (node.usedLocalVNetsByVlanid.getD ∅).keySet = [] :=
    List.Perm.eq_nil (hkeys ▸ p.order.perm _)
  unfold ofportsFlow
  rw [Method.catchAll_apply, Method.get_bind_apply]
  dsimp only
  rw [hget, Method.nonNull_some, Method.pure_bind]
  cases node.ofports with
  | none => rfl
  | some ofports =>
    dsimp only
    rw [hiter]
    rfl

variable (p)

theorem settled_createPortFlow {port : PortDefinition} (h : Settled tm)
    (hA : OnExisting tm (.createPortFlow port)) (hparts : ¬p.Parts tm (.createPortFlow port))
    (hkept : Kept (p.createPortFlow port tm).2) : Settled (p.createPortFlow port tm).2 := by
  obtain ⟨network, hnet⟩ := hA
  obtain ⟨-, hne, heq⟩ | ⟨howner, host, node, hhost, hne, hget, heq⟩ | heq := p.createPortFlow_cases port tm
  · obtain ⟨node, hget, htype⟩ := p.networkNodeIp_spec hne
    have honly : OnlyNode (p.networkNodeIp tm) tm (p.createPortFlow port tm).2 := by
      rw [heq]
      exact onlyNode_modifyNode (by exact fun _ => rfl) _ ⟨fun _ _ => rfl, rfl, rfl⟩
    exact h.onlyNetworkNode hkept honly hget htype
  · have honly : OnlyNode (p.computeNodeIp tm host) tm (p.createPortFlow port tm).2 := by
      rw [heq]
      exact p.onlyNode_createPortAt port _ ⟨fun _ _ => rfl, rfl, rfl⟩
    by_cases htype : node.nodeType = "network"
    · exact h.onlyNetworkNode hkept honly hget htype
    · refine h.onlyNode hkept honly fun node' hget' _ => ?_
      rw [heq] at hget'
      have hkept₁ : Kept { tm with vPortsByGuid := tm.vPortsByGuid.put port.portId port } :=
        h.kept.congr rfl rfl
      refine balanced_createPortAt hkept₁ hget (h.balanced _ node hget htype) hnet (fun hmis => ?_) hget'
      exact hparts ⟨network, node, hnet, ⟨howner, host, hhost, hne, hget, htype⟩, hmis⟩
  · rw [heq]
    exact ⟨h.kept.congr rfl rfl, h.balanced⟩

theorem settled_deletePortFlow {portId : String} (h : Settled tm)
    (hparts : ¬p.Parts tm (.deletePortFlow portId)) : Settled (p.deletePortFlow portId tm).2 := by
  have hkept : Kept (p.deletePortFlow portId tm).2 := p.keeps_deletePortFlow portId tm h.kept
  have hkept₁ : Kept { tm with vPortsByGuid := tm.vPortsByGuid.remove portId } := h.kept.congr rfl rfl
  obtain ⟨-, heq⟩ | ⟨port, hport, ⟨-, hne, heq⟩ | ⟨howner, host, node, hhost, hne, hget, heq⟩ | ⟨-, -, -, heq⟩ |
    ⟨-, -, heq⟩⟩ := p.deletePortFlow_cases portId tm
  · rw [heq]
    exact h
  · obtain ⟨node, hget, htype⟩ := p.networkNodeIp_spec hne
    have honly : OnlyNode (p.networkNodeIp tm) tm (p.deletePortFlow portId tm).2 := by
      rw [heq]
      exact onlyNode_modifyNode (by exact fun _ => rfl) _ ⟨fun _ _ => rfl, rfl, rfl⟩
    exact h.onlyNetworkNode hkept honly hget htype
  · have honly : OnlyNode (p.computeNodeIp tm host) tm (p.deletePortFlow portId tm).2 := by
      rw [heq]
      exact p.onlyNode_deletePortAt port portId _ ⟨fun _ _ => rfl, rfl, rfl⟩
    by_cases htype : node.nodeType = "network"
    · exact h.onlyNetworkNode hkept honly hget htype
    · refine h.onlyNode hkept honly fun node' hget' _ => ?_
      rw [heq] at hget'
      refine balanced_deletePortAt hkept₁ hget (h.balanced _ node hget htype)
        (fun networkId tun hdel hstrands => ?_) hget'
      exact hparts ⟨port, node, networkId, tun, hport, ⟨howner, host, hhost, hne, hget, htype⟩,
        ⟨hdel.hasVlans, hdel.ofNetwork, hdel.tunnelled⟩, hstrands⟩
  · rw [heq]
    exact ⟨hkept₁, h.balanced⟩
  · rw [heq]
    exact ⟨hkept₁, h.balanced⟩

theorem settled_ofportsFlow (h : Settled tm) (hparts : ¬p.Parts tm (.ofportsFlow nodeIp)) :
    Settled (p.ofportsFlow nodeIp tm).2 := by
  refine h.onlyNode (p.keeps_ofportsFlow nodeIp tm h.kept) (p.onlyNode_ofportsFlow tm (.refl nodeIp tm))
    fun node' hget' htype' => ?_
  cases hget : tm.nodesByIp.get nodeIp with
  | none =>
    have htype := (p.onlyNode_ofportsFlow tm (.refl nodeIp tm)).nodeType
    rw [hget, hget'] at htype
    cases htype
  | some node =>
    have htype : node.nodeType ≠ "network" := by
      rwa [← (p.onlyNode_ofportsFlow tm (.refl nodeIp tm)).nodeType_eq hget hget']
    have hbalanced := h.balanced nodeIp node hget htype
    by_cases hofports : node.ofports = some ""
    · have hvlan : ∀ netId, node.vlanOf netId = none := fun netId => by
        by_contra hvlan
        exact hparts ⟨node, netId, hget, htype, hofports, hvlan⟩
      rw [ofportsFlow_unused hget (h.kept.accounted nodeIp node hget) hvlan] at hget'
      obtain rfl := Option.some.inj (hget.symm.trans hget')
      exact hbalanced
    · obtain ⟨agents, hsame⟩ := p.sameButAgents_ofportsFlow hget hofports
      rw [hsame] at hget'
      obtain rfl := Option.some.inj (hget.symm.trans hget')
      exact hbalanced

theorem settled_step (call : TunnelCall) (hA : OnExisting tm call) (hparts : ¬p.Parts tm call)
    (h : Settled tm) : Settled (p.step tm call) := by
  cases call with
  | createPortFlow port =>
    refine p.settled_createPortFlow h hA hparts (p.kept_createPortFlow h.kept fun hmaps => ?_)
    obtain ⟨network, hnet⟩ := hA
    exact Option.some_ne_none network (hnet.symm.trans hmaps.2.1)
  | deletePortFlow portId => exact p.settled_deletePortFlow h hparts
  | ofportsFlow nodeIp => exact p.settled_ofportsFlow h hparts
  | addTunnel => exact hA.elim
  | createNetworkFlow => exact hA.elim
  | deleteNetworkFlow => exact hA.elim

/-- Along a run of operations on ports of networks that exist, a compute node has VLANs for just the networks of
its ports in every state, unless an operation parts them. -/
theorem balanced_of_clean {calls : List TunnelCall} (hstart : Settled tm)
    (hA : ∀ pre call post, calls = pre ++ call :: post → OnExisting (Machine.run p.step tm pre) call)
    (hclean : Machine.Clean p.step p.Parts tm calls) (pre post : List TunnelCall)
    (hcalls : calls = pre ++ post) : Settled (Machine.run p.step tm pre) := by
  subst hcalls
  have hboth : Machine.Clean p.step (fun tm call => ¬OnExisting tm call ∨ p.Parts tm call) tm pre := by
    refine Machine.clean_iff.2 fun pre' call post' hpre => ?_
    subst hpre
    have hsplit : pre' ++ call :: post' ++ post = pre' ++ call :: (post' ++ post) := by simp
    exact not_or.2 ⟨not_not.2 (hA pre' call _ hsplit), Machine.clean_iff.1 hclean pre' call _ hsplit⟩
  refine hboth.invariant (fun tm' call h hgood => ?_) hstart
  obtain ⟨hexisting, hparts⟩ := not_or.1 hgood
  exact p.settled_step call (not_not.1 hexisting) hparts h

/-- A deletion that parts VLANs and ports leaves a VLAN without a port. -/
theorem not_settled_deletePortFlow {portId : String} (h : Settled tm)
    (hparts : p.Parts tm (.deletePortFlow portId)) : ¬Settled (p.deletePortFlow portId tm).2 := by
  intro hafter
  obtain ⟨port, node, networkId, tun, hport, ⟨howner, host, hhost, hne, hget, htype⟩, hdel, hstrands⟩ := hparts
  have hkept₁ : Kept { tm with vPortsByGuid := tm.vPortsByGuid.remove portId } := h.kept.congr rfl rfl
  have hdel₁ : Deletable port node { tm with vPortsByGuid := tm.vPortsByGuid.remove portId } networkId tun :=
    ⟨hdel.hasVlans, hdel.ofNetwork, hdel.tunnelled⟩
  obtain ⟨node', hget', hnot⟩ :=
    p.not_balanced_deletePortAt hkept₁ hget (h.balanced _ node hget htype) hdel₁ hstrands
  have honly : OnlyNode (p.computeNodeIp tm host) tm (p.deletePortAt port portId (p.computeNodeIp tm host)
      { tm with vPortsByGuid := tm.vPortsByGuid.remove portId }).2 :=
    p.onlyNode_deletePortAt port portId _ ⟨fun _ _ => rfl, rfl, rfl⟩
  rw [p.deletePortFlow_compute hport howner hhost rfl hne] at hafter
  exact hnot (hafter.balanced _ node' hget' ((honly.nodeType_eq hget hget').trans_ne htype))

/-! ## Two ports of two networks -/

theorem createPortFlow_taken {port : PortDefinition} {network : NetworkDefinition} {host tun : String}
    (howner : IsComputeOwner port.deviceOwner) (hhost : port.bindingHostId = some host)
    (hip : p.computeNodeIp tm host = nodeIp) (hne : nodeIp ≠ "") (hget : tm.nodesByIp.get nodeIp = some node)
    (hofports : node.ofports ≠ some "") (hid : port.networkId = some network.netId)
    (hknown : tm.vNetsByGuid.get network.netId = some network) (hmapped : node.network network.netId = none)
    (hpool : node.availableLocalVlans ≠ []) (htun : tunId network.providerSegmentationId = some tun) :
    ∃ v rest, node.availableLocalVlans.Perm (v :: rest) ∧ Reaches (p.createPortFlow port) tm (.ok ())
      { setNode nodeIp ((node.taken network v rest).addPort port) tm with
        vPortsByGuid := tm.vPortsByGuid.put port.portId port
        vmByGuid := tm.vmByGuid.put port.portId port } := by
  obtain ⟨v, rest, hsort⟩ : ∃ v rest, node.availableLocalVlans.mergeSort (· ≤ ·) = v :: rest :=
    List.exists_cons_of_ne_nil fun hsort => hpool (List.Perm.eq_nil (hsort ▸ (List.mergeSort_perm _ _).symm))
  refine ⟨v, rest, hsort ▸ (List.mergeSort_perm _ _).symm, ?_⟩
  have hget₁ : ({ tm with vPortsByGuid := tm.vPortsByGuid.put port.portId port } :
    OFMTunnelManager ε).nodesByIp.get nodeIp = some node := hget
  obtain ⟨agents, htaken⟩ := p.createPortAt_taken hget₁ hofports hid hknown hmapped hsort htun
  refine ⟨agents, ?_⟩
  rw [p.createPortFlow_compute howner hhost hip hne, htaken]
  rfl

def hostNode : NodeDefinition := .new "10.0.0.1" "192.168.0.1" "host" "compute" 0

def networkOne : NetworkDefinition := ⟨"one", none, some "1"⟩

def networkTwo : NetworkDefinition := ⟨"two", none, some "2"⟩

/-- A port of one of the networks. -/
def portOf (portId : String) (network : NetworkDefinition) : PortDefinition where
  portId := portId
  bindingHostId := some "host"
  deviceOwner := some "compute:nova"
  networkId := some network.netId

/-- The tunnel of the node. -/
def addHost : TunnelCall := .addTunnel "10.0.0.1" "192.168.0.1" "host" "compute" "10.0.0.9" 0

/-- A node and two networks. -/
def twoNetworks : OFMTunnelManager Unit :=
  Machine.run silent.step (.initial ()) [addHost, .createNetworkFlow networkOne, .createNetworkFlow networkTwo]

/-- A port has come. -/
def withPort (port : PortDefinition) (node : NodeDefinition) (tm : OFMTunnelManager Unit) :
    OFMTunnelManager Unit :=
  { setNode "10.0.0.1" (node.addPort port) tm with
    vPortsByGuid := tm.vPortsByGuid.put port.portId port
    vmByGuid := tm.vmByGuid.put port.portId port }

/-- A port of each network comes, and the first one leaves. -/
def firstLeaves : List TunnelCall :=
  [.createPortFlow (portOf "first" networkOne), .createPortFlow (portOf "second" networkTwo),
    .deletePortFlow "first"]

theorem kept_twoNetworks : Kept twoNetworks := by
  have hadd : Kept (silent.step (.initial ()) addHost) :=
    silent.keeps_addTunnel _ _ _ _ _ _ _ (kept_initial ())
  have hone : Kept (silent.createNetworkFlow networkOne _).2 :=
    silent.kept_createNetworkFlow hadd fun h => h.1 (by decide)
  exact silent.kept_createNetworkFlow hone fun h => h.1 (by decide)

theorem settled_twoNetworks : Settled twoNetworks := by
  refine ⟨kept_twoNetworks, fun nodeIp node hget _ netId => ?_⟩
  have hnodes : twoNetworks.nodesByIp = (∅ : HashMap String NodeDefinition).put "10.0.0.1" hostNode := rfl
  rw [hnodes, HashMap.get_put] at hget
  split_ifs at hget
  · obtain rfl := Option.some.inj hget
    exact iff_of_false (fun h => h rfl) fun ⟨_, _, hport, _⟩ => nomatch hport
  · cases hget

theorem createPortFlow_portOf {tm : OFMTunnelManager Unit} {network : NetworkDefinition} {tun : String}
    (portId : String) (hip : silent.computeNodeIp tm "host" = "10.0.0.1")
    (hget : tm.nodesByIp.get "10.0.0.1" = some node) (hofports : node.ofports = none)
    (hknown : tm.vNetsByGuid.get network.netId = some network) (hmapped : node.network network.netId = none)
    (hpool : node.availableLocalVlans ≠ []) (htun : tunId network.providerSegmentationId = some tun) :
    ∃ v rest, node.availableLocalVlans.Perm (v :: rest) ∧
      silent.step tm (.createPortFlow (portOf portId network)) =
        withPort (portOf portId network) (node.taken network v rest) tm := by
  obtain ⟨v, rest, hperm, agents, heq⟩ : ∃ v rest, node.availableLocalVlans.Perm (v :: rest) ∧
      Reaches (silent.createPortFlow (portOf portId network)) tm (.ok ()) _ :=
    silent.createPortFlow_taken (.inl rfl) rfl hip (by decide) hget (hofports.trans_ne nofun) rfl hknown hmapped
      hpool htun
  exact ⟨v, rest, hperm, congrArg Prod.snd heq⟩

theorem length_initVlans : NodeDefinition.initVlans.length = maxVlanTag := by
  unfold NodeDefinition.initVlans
  rw [List.length_map, List.length_range']

/-- The states of the run: before the second port, and with both. -/
theorem run_firstLeaves : ∃ v rest v' rest',
    Machine.run silent.step twoNetworks (firstLeaves.take 1) =
        withPort (portOf "first" networkOne) (hostNode.taken networkOne v rest) twoNetworks ∧
      Machine.run silent.step twoNetworks (firstLeaves.take 2) =
        withPort (portOf "second" networkTwo)
          (((hostNode.taken networkOne v rest).addPort (portOf "first" networkOne)).taken networkTwo v' rest')
          (withPort (portOf "first" networkOne) (hostNode.taken networkOne v rest) twoNetworks) := by
  have hpool : hostNode.availableLocalVlans ≠ [] := fun h => by
    have hlength := length_initVlans
    rw [show NodeDefinition.initVlans = [] from h] at hlength
    cases hlength
  obtain ⟨v, rest, hperm, hfirst⟩ : ∃ v rest, hostNode.availableLocalVlans.Perm (v :: rest) ∧
      silent.step twoNetworks (.createPortFlow (portOf "first" networkOne)) = _ :=
    createPortFlow_portOf "first" rfl rfl rfl rfl rfl hpool rfl
  have hrest : rest ≠ [] := by
    rintro rfl
    have hlength := hperm.length_eq.symm.trans length_initVlans
    cases hlength
  obtain ⟨v', rest', -, hsecond⟩ : ∃ v' rest',
      ((hostNode.taken networkOne v rest).addPort (portOf "first" networkOne)).availableLocalVlans.Perm
        (v' :: rest') ∧
      silent.step (withPort (portOf "first" networkOne) (hostNode.taken networkOne v rest) twoNetworks)
        (.createPortFlow (portOf "second" networkTwo)) =
          withPort (portOf "second" networkTwo)
            (((hostNode.taken networkOne v rest).addPort (portOf "first" networkOne)).taken networkTwo v' rest')
            (withPort (portOf "first" networkOne) (hostNode.taken networkOne v rest) twoNetworks) :=
    createPortFlow_portOf "second" rfl rfl rfl rfl rfl hrest rfl
  exact ⟨v, rest, v', rest', hfirst,
    (congrArg (silent.step · (.createPortFlow (portOf "second" networkTwo))) hfirst).trans hsecond⟩

theorem onExisting_firstLeaves (pre : List TunnelCall) (call : TunnelCall) (post : List TunnelCall)
    (h : firstLeaves = pre ++ call :: post) : OnExisting (Machine.run silent.step twoNetworks pre) call := by
  obtain ⟨v, rest, -, -, hfirst, -⟩ := run_firstLeaves
  obtain rfl | ⟨c, rfl⟩ | ⟨c, c', pre, rfl⟩ :
      pre = [] ∨ (∃ c, pre = [c]) ∨ ∃ c c' pre', pre = c :: c' :: pre' := by
    rcases pre with _ | ⟨c, _ | ⟨c', pre⟩⟩
    · exact .inl rfl
    · exact .inr (.inl ⟨c, rfl⟩)
    · exact .inr (.inr ⟨c, c', pre, rfl⟩)
  · cases h
    exact ⟨networkOne, rfl⟩
  · cases h
    refine ⟨networkTwo, ?_⟩
    rw [show Machine.run silent.step twoNetworks [_] = _ from hfirst]
    rfl
  · cases pre with
    | nil =>
      cases h
      trivial
    | cons c'' pre =>
      have hlength := congrArg List.length h
      simp [firstLeaves] at hlength

theorem not_settled_firstLeaves : ¬∀ (p : Platform Unit) (tm : OFMTunnelManager Unit) (calls : List TunnelCall),
    Settled tm → (∀ pre call post, calls = pre ++ call :: post → OnExisting (Machine.run p.step tm pre) call) →
      ∀ pre post, calls = pre ++ post → Settled (Machine.run p.step tm pre) := by
  intro h
  have hall := h silent twoNetworks firstLeaves settled_twoNetworks onExisting_firstLeaves
  obtain ⟨v, rest, v', rest', -, hsecond⟩ := run_firstLeaves
  have hbefore := hall (firstLeaves.take 2) (firstLeaves.drop 2) rfl
  have hafter := hall firstLeaves [] rfl
  rw [show Machine.run silent.step twoNetworks firstLeaves = (silent.deletePortFlow "first" _).2 from
    congrArg (silent.step · (.deletePortFlow "first")) hsecond] at hafter
  rw [hsecond] at hbefore
  have hip : ("10.0.0.1" : String) ≠ "" := by decide
  have hcompute : ("compute" : String) ≠ "network" := by decide
  refine silent.not_settled_deletePortFlow hbefore ⟨portOf "first" networkOne, _, "one", "0x1", rfl,
    ⟨.inl rfl, "host", rfl, hip, rfl, hcompute⟩, ⟨nofun, rfl, rfl⟩, "one",
    ⟨⟨_, rfl, rfl⟩, fun id port hid hport => ?_⟩, .inl ⟨"second", by decide, nofun⟩⟩ hafter
  -- the other port is of the other network
  have hfirstPort :
      (NodeDefinition.addPort (portOf "first" networkOne) (hostNode.taken networkOne v rest)).port =
        Function.update hostNode.port "first" (some (portOf "first" networkOne)) := NodeDefinition.port_addPort
  rw [NodeDefinition.port_addPort, Function.update_apply] at hport
  split_ifs at hport with hsecondId
  · obtain rfl := Option.some.inj hport
    exact show some "two" ≠ some "one" by decide
  · have hnone := (congrFun hfirstPort id).symm.trans hport
    rw [Function.update_of_ne hid] at hnone
    cases hnone

/-- A port comes to a node without ports. -/
theorem settled_firstPort : Settled (Machine.run silent.step twoNetworks (firstLeaves.take 1)) := by
  have hclean : Machine.Clean silent.step silent.Parts twoNetworks (firstLeaves.take 1) := by
    refine ⟨fun ⟨network, node, hnet, ⟨_, host, hhost, _, hget, _⟩, _, hmis⟩ => ?_, trivial⟩
    obtain rfl := Option.some.inj ((rfl : twoNetworks.vNetsByGuid.get "one" = some networkOne).symm.trans hnet)
    obtain rfl := Option.some.inj ((rfl : some "host" = (portOf "first" networkOne).bindingHostId).trans hhost)
    obtain rfl := Option.some.inj ((rfl : twoNetworks.nodesByIp.get "10.0.0.1" = some hostNode).symm.trans hget)
    obtain h | ⟨_, h⟩ | ⟨_, _, ⟨_, h, _⟩, _⟩ := hmis
    · cases h
    · exact Option.some_ne_none "0x1" h
    · cases h
  refine silent.balanced_of_clean settled_twoNetworks (fun pre call post h => ?_) hclean _ [] rfl
  exact onExisting_firstLeaves pre call (post ++ firstLeaves.drop 1)
    (by rw [← List.cons_append, ← List.append_assoc, ← h]; rfl)

end Platform
end Torpedo
