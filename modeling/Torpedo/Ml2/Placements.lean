import Torpedo.Ml2.Deletions
import Torpedo.Ml2.RestPort
import Torpedo.TunnelManager.Placement

/-!
# Where the ports of Neutron are

As long as no request is of one of the kinds that `Platform.Misplaces` names, the flows of a port are installed just
when all of its fields are known, and a port with flows is on the node that its owner and its host say, and on no
other one.
-/

namespace Torpedo

/-- A field that is not null and not empty. -/
def Filled (s : Option String) : Prop := s ≠ none ∧ s ≠ some ""

/-- The fields that a port needs to be put on a node. -/
structure PortDefinition.Complete (port : PortDefinition) : Prop where
  bindingHostId : Filled port.bindingHostId
  deviceOwner : Filled port.deviceOwner
  deviceId : Filled port.deviceId
  networkId : Filled port.networkId

namespace Platform

variable {ε : Type} (p : Platform ε) {tm tm' : OFMTunnelManager ε} {c c₀ : OFMOpenstackML2Connector ε}
  {known : String → Prop} {port : PortDefinition} {portId : String} {vPort : Option VirtualPort}

/-! ## One port -/

/-- A port has its flows just when it is complete, and then it is in its place. -/
structure PortPlaced (vPort : Option VirtualPort) (tm : OFMTunnelManager ε) (portId : String) : Prop where
  record : ∀ port, tm.vPortsByGuid.get portId = some port → port.Complete ∧
    ∃ v, vPort = some v ∧ v.flowExec = true ∧ ∀ ip, p.IsPlace tm port ip ↔ p.IsPlace tm v.definition ip
  flowExec_iff : ∀ v, vPort = some v → (v.flowExec = true ↔ v.definition.Complete)
  placed_iff : ∀ ip, portAt tm ip portId ≠ none ↔
    ∃ v, vPort = some v ∧ v.flowExec = true ∧ p.IsPlace tm v.definition ip

variable {p}

/-- A port without flows is not known to the tunnel manager. -/
theorem PortPlaced.idle (h : p.PortPlaced vPort tm portId) (hexec : ∀ v, vPort = some v → v.flowExec = false) :
    tm.vPortsByGuid.get portId = none ∧ ∀ ip, portAt tm ip portId = none := by
  have hfalse : ∀ v, vPort = some v → v.flowExec ≠ true := fun v hv => Bool.eq_false_iff.1 (hexec v hv)
  refine ⟨?_, fun ip => ?_⟩
  · by_contra hne
    obtain ⟨port, hport⟩ := Option.ne_none_iff_exists'.1 hne
    obtain ⟨-, v, hv, htrue, -⟩ := h.record port hport
    exact hfalse v hv htrue
  · by_contra hat
    obtain ⟨v, hv, htrue, -⟩ := (h.placed_iff ip).1 hat
    exact hfalse v hv htrue

variable (p)

/-- The port has flows, and is to be somewhere else. -/
def Moves (port : PortDefinition) (c : OFMOpenstackML2Connector ε) : Prop :=
  ∃ v, c.vPortsByGuid.get port.portId = some v ∧ v.flowExec = true ∧
    ∃ ip, ¬(p.IsPlace c.tunnelManager (v.update port).definition ip ↔ p.IsPlace c.tunnelManager v.definition ip)

variable {p}

variable (p)

variable {p}

variable (p)

end Platform

end Torpedo
