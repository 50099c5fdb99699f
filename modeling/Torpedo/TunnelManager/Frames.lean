import Torpedo.TunnelManager.PortVlans

/-!
# What the flows leave alone

The maps of a node agree on which networks are mapped there (`NodeDefinition.Indexed`), also where VLANs have
been lost. The flows of VLANs change the VLANs of the nodes and nothing else (`Platform.SameButVlans`), so that
what an operation does to the other maps can be read off it.
-/

namespace Torpedo

namespace NodeDefinition

variable {node node' : NodeDefinition} {network : NetworkDefinition} {v : ℤ} {rest : List ℤ}
  {netId vlanId : String}

/-! ## Maps of a node -/

/-- The networks that are mapped are those that have a VLAN, and a VLAN is used for a network that has it. -/
structure Indexed (node : NodeDefinition) : Prop where
  mapped_iff : ∀ netId, node.network netId = none ↔ node.vlanOf netId = none
  vlanOf_networkOf : ∀ vlanId network, node.networkOf vlanId = some network →
    node.vlanOf network.netId = some vlanId

theorem Accounted.indexed (h : node.Accounted) : node.Indexed where
  mapped_iff := h.network_eq_none_iff
  vlanOf_networkOf vlanId network hnetwork :=
    (h.tags.holder_iff vlanId network.netId).1 (congrArg (Option.map NetworkDefinition.netId) hnetwork)

theorem Indexed.taken (h : node.Indexed) (hvlan : node.vlanOf network.netId = none) :
    (node.taken network v rest).Indexed where
  mapped_iff netId := by
    rw [network_taken, vlanOf_taken, Function.update_apply, Function.update_apply]
    split_ifs
    · simp
    · exact h.mapped_iff netId
  vlanOf_networkOf vlanId network' := by
    rw [networkOf_taken, vlanOf_taken, Function.update_apply]
    split_ifs with heq
    · rintro ⟨⟩
      rw [Function.update_self, heq]
    · intro hnetwork
      have hvlan' := h.vlanOf_networkOf vlanId network' hnetwork
      have hne : network'.netId ≠ network.netId := fun hid => by
        rw [hid, hvlan] at hvlan'
        cases hvlan'
      rw [Function.update_of_ne hne, hvlan']

theorem Indexed.forget (h : node.Indexed) (hvlan : node.vlanOf netId = some vlanId)
    (hnetworkOf : node'.networkOf = Function.update node.networkOf vlanId none)
    (hnetwork : node'.network = Function.update node.network netId none)
    (hvlanOf : node'.vlanOf = Function.update node.vlanOf netId none) : node'.Indexed where
  mapped_iff netId' := by
    rw [hnetwork, hvlanOf, Function.update_apply, Function.update_apply]
    split_ifs
    · simp
    · exact h.mapped_iff netId'
  vlanOf_networkOf vlanId' network := by
    rw [hnetworkOf, hvlanOf, Function.update_apply]
    split_ifs with heq
    · exact nofun
    · intro hnet
      have hvlan' := h.vlanOf_networkOf vlanId' network hnet
      have hne : network.netId ≠ netId := fun hid => by
        rw [hid, hvlan] at hvlan'
        exact heq (Option.some.inj hvlan').symm
      rw [Function.update_of_ne hne, hvlan']

/-- The fields that are not about VLANs. -/
def withoutVlans (node : NodeDefinition) : NodeDefinition :=
  { node with
    availableLocalVlans := []
    usedLocalVNetsByVlanid := none
    usedLocalVNetsByGuid := none
    localVNetidToVlanid := none }

theorem port_of_withoutVlans (h : node'.withoutVlans = node.withoutVlans) : node'.port = node.port := by
  have hsame := congrArg NodeDefinition.port h
  exact hsame

theorem nodeType_of_withoutVlans (h : node'.withoutVlans = node.withoutVlans) :
    node'.nodeType = node.nodeType := by
  have hsame := congrArg NodeDefinition.nodeType h
  exact hsame

theorem nodeName_of_withoutVlans (h : node'.withoutVlans = node.withoutVlans) :
    node'.nodeName = node.nodeName := by
  have hsame := congrArg NodeDefinition.nodeName h
  exact hsame

end NodeDefinition

namespace Platform

variable {ε : Type} (p : Platform ε) {tm₀ tm : OFMTunnelManager ε} {nodeIp : String} {node node' : NodeDefinition}
  {known : String → Prop}

/-! ## States that differ in their VLANs -/

/-- The maps of each node agree, and the networks that are mapped are known. -/
structure Traced (known : String → Prop) (tm : OFMTunnelManager ε) : Prop where
  indexed : ∀ ip node, tm.nodesByIp.get ip = some node → node.Indexed
  mapped : ∀ ip node netId, tm.nodesByIp.get ip = some node → node.network netId ≠ none → known netId

/-- Only the VLANs of nodes differ. -/
structure SameButVlans (known : String → Prop) (tm₀ tm : OFMTunnelManager ε) : Prop extends Traced known tm where
  keySet : tm.nodesByIp.keySet = tm₀.nodesByIp.keySet
  others : ∀ ip, (tm.nodesByIp.get ip).map NodeDefinition.withoutVlans =
    (tm₀.nodesByIp.get ip).map NodeDefinition.withoutVlans
  vNetsByGuid : tm.vNetsByGuid = tm₀.vNetsByGuid
  vPortsByGuid : tm.vPortsByGuid = tm₀.vPortsByGuid
  vmByGuid : tm.vmByGuid = tm₀.vmByGuid

theorem Traced.same (h : Traced known tm) : SameButVlans known tm tm := ⟨h, rfl, fun _ => rfl, rfl, rfl, rfl⟩

theorem SameButVlans.agents (h : SameButVlans known tm₀ tm) (agents : ε) :
    SameButVlans known tm₀ { tm with agents } :=
  ⟨⟨h.indexed, h.mapped⟩, h.keySet, h.others, h.vNetsByGuid, h.vPortsByGuid, h.vmByGuid⟩

theorem SameButVlans.setNode (h : SameButVlans known tm₀ tm) (hget : tm.nodesByIp.get nodeIp = some node)
    (hindexed : node'.Indexed) (hothers : node'.withoutVlans = node.withoutVlans)
    (hmapped : ∀ netId, node'.network netId ≠ none → known netId) :
    SameButVlans known tm₀ (setNode nodeIp node' tm) where
  keySet := (HashMap.keySet_change ..).trans h.keySet
  others ip := by
    rw [get_setNode, ← h.others ip]
    split_ifs with hip
    · rw [hip, hget]
      exact congrArg some hothers
    · rfl
  indexed ip n hn := by
    rw [get_setNode] at hn
    split_ifs at hn
    · obtain ⟨-, -, rfl⟩ := Option.map_eq_some_iff.1 hn
      exact hindexed
    · exact h.indexed ip n hn
  mapped ip n netId hn := by
    rw [get_setNode] at hn
    split_ifs at hn
    · obtain ⟨-, -, rfl⟩ := Option.map_eq_some_iff.1 hn
      exact hmapped netId
    · exact h.mapped ip n netId hn
  vNetsByGuid := h.vNetsByGuid
  vPortsByGuid := h.vPortsByGuid
  vmByGuid := h.vmByGuid

/-! ## Flows of VLANs -/

end Platform

end Torpedo
