import Torpedo.Ml2.Connector

/-!
# What deletions leave

A port that is on a node has had its flows installed, and is where the record of the tunnel manager says
(`Platform.PortAgrees`). So nothing is left of a network or a port once its deletion has gone through.
-/

namespace Torpedo

namespace Platform

variable {ε : Type} (p : Platform ε) {tm tm' : OFMTunnelManager ε} {c c₀ : OFMOpenstackML2Connector ε}
  {known : String → Prop} {port : PortDefinition} {portId : String} {vPort : Option VirtualPort}

/-! ## Ports of the tunnel manager -/

/-- What the connector and the tunnel manager know of a port fits together. -/
structure PortAgrees (vPort : Option VirtualPort) (tm : OFMTunnelManager ε) (portId : String) : Prop where
  filed : ∀ v, vPort = some v → v.portId = portId
  owner : ∀ v, vPort = some v → v.flowExec = false → ¬IsGatewayOwner v.deviceOwner
  placed : ∀ ip, portAt tm ip portId ≠ none → vPort.any (·.flowExec) = true ∧
    ∀ port, tm.vPortsByGuid.get portId = some port → p.IsPlace tm port ip
  vms : tm.vmByGuid.get portId ≠ none → vPort.any (·.flowExec) = true ∧
    ∀ port, tm.vPortsByGuid.get portId = some port →
      IsComputeOwner port.deviceOwner ∧ ∃ ip, portAt tm ip portId ≠ none

/-- Nothing about a port has changed. -/
structure SamePort (portId : String) (tm tm' : OFMTunnelManager ε) : Prop where
  nodes : SameNodes tm tm'
  record : tm'.vPortsByGuid.get portId = tm.vPortsByGuid.get portId
  ports : ∀ ip, portAt tm' ip portId = portAt tm ip portId
  vms : tm'.vmByGuid.get portId = tm.vmByGuid.get portId

theorem SamePort.refl : SamePort portId tm tm := ⟨⟨rfl, fun _ => rfl, fun _ => rfl⟩, rfl, fun _ => rfl, rfl⟩

variable {p}

theorem PortAgrees.update {v v' : VirtualPort} (h : p.PortAgrees (some v) tm portId)
    (hfiled : v'.portId = v.portId) (hexec : v'.flowExec = v.flowExec)
    (howner : v'.flowExec = false → ¬IsGatewayOwner v'.deviceOwner) :
    p.PortAgrees (some v') tm portId where
  filed := by
    rintro _ ⟨⟩
    exact hfiled.trans (h.filed v rfl)
  owner := by
    rintro _ ⟨⟩
    exact howner
  placed ip hat := by
    rw [Option.any_some, hexec]
    exact h.placed ip hat
  vms hvm := by
    rw [Option.any_some, hexec]
    exact h.vms hvm

/-! ## Networks and ports of the connector -/

/-- The connector has a network. -/
def HasNetwork (c : OFMOpenstackML2Connector ε) (netId : String) : Prop := c.vNetsByGuid.get netId ≠ none

variable (p)

/-- What the connector and the tunnel manager know fits together. -/
structure Agrees (c : OFMOpenstackML2Connector ε) : Prop extends Traced (HasNetwork c) c.tunnelManager where
  netsKnown : NetsKnown (HasNetwork c) c.tunnelManager
  ports : ∀ portId, p.PortAgrees (c.vPortsByGuid.get portId) c.tunnelManager portId

variable {p}

theorem Traced.mono {known' : String → Prop} (h : Traced known tm) (hknown : ∀ id, known id → known' id) :
    Traced known' tm :=
  ⟨h.indexed, fun ip node netId hget hne => hknown netId (h.mapped ip node netId hget hne)⟩

variable (p)

theorem Traced.stays (h : Traced known tm) : Stays known tm tm := ⟨h, ⟨rfl, fun _ => rfl, fun _ => rfl⟩, rfl⟩

end Platform

end Torpedo
