import Torpedo.TunnelManager.Frames

/-!
# What the operations change

Behind an operation the tunnel manager is, but for VLANs, as it was before with an entry more or less. A network
that has been deleted without an exception is mapped on no node, and such a port is not where it was put.
-/

namespace Torpedo

namespace Platform

variable {ε : Type} (p : Platform ε) {tm₀ tm : OFMTunnelManager ε} {nodeIp : String} {node node₀ : NodeDefinition}
  {known : String → Prop} {port : PortDefinition} {network : NetworkDefinition}

/-! ## Networks -/

/-- The networks are filed under their ids, and known. -/
def NetsKnown (known : String → Prop) (tm : OFMTunnelManager ε) : Prop :=
  ∀ netId network, tm.vNetsByGuid.get netId = some network → network.netId = netId ∧ known netId

/-- A port has come to a compute node. -/
def placed (port : PortDefinition) (nodeIp : String) (node : NodeDefinition) (tm : OFMTunnelManager ε) :
    OFMTunnelManager ε :=
  { setNode nodeIp (node.addPort port) tm with vmByGuid := tm.vmByGuid.put port.portId port }

/-- The nodes are the same, with the same names and types. -/
structure SameNodes (tm₀ tm : OFMTunnelManager ε) : Prop where
  keySet : tm.nodesByIp.keySet = tm₀.nodesByIp.keySet
  nodeName : ∀ ip, (tm.nodesByIp.get ip).map NodeDefinition.nodeName =
    (tm₀.nodesByIp.get ip).map NodeDefinition.nodeName
  nodeType : ∀ ip, (tm.nodesByIp.get ip).map NodeDefinition.nodeType =
    (tm₀.nodesByIp.get ip).map NodeDefinition.nodeType

theorem SameNodes.trans {tm₁ : OFMTunnelManager ε} (h : SameNodes tm₀ tm₁) (h' : SameNodes tm₁ tm) :
    SameNodes tm₀ tm :=
  ⟨h'.keySet.trans h.keySet, fun ip => (h'.nodeName ip).trans (h.nodeName ip),
    fun ip => (h'.nodeType ip).trans (h.nodeType ip)⟩

/-- It is about the nodes alone. -/
theorem SameNodes.congr {tm₀' tm' : OFMTunnelManager ε} (h : SameNodes tm₀ tm)
    (h₀ : tm₀'.nodesByIp = tm₀.nodesByIp) (h' : tm'.nodesByIp = tm.nodesByIp) : SameNodes tm₀' tm' := by
  refine ⟨?_, fun ip => ?_, fun ip => ?_⟩
  · rw [h₀, h', h.keySet]
  · rw [h₀, h', h.nodeName]
  · rw [h₀, h', h.nodeType]

theorem SameNodes.findNode (h : SameNodes tm₀ tm) {kind : NodeDefinition → Bool}
    (hkind : ∀ ip, (tm.nodesByIp.get ip).any kind = (tm₀.nodesByIp.get ip).any kind) :
    p.findNode tm kind = p.findNode tm₀ kind := by
  unfold Platform.findNode
  rw [h.keySet]
  simp only [hkind]

theorem SameNodes.computeNodeIp (h : SameNodes tm₀ tm) (host : String) :
    p.computeNodeIp tm host = p.computeNodeIp tm₀ host := by
  refine h.findNode p fun ip => ?_
  have hname := congrArg (Option.any fun name => decide (name = host)) (h.nodeName ip)
  rwa [Option.any_map, Option.any_map] at hname

theorem SameNodes.networkNodeIp (h : SameNodes tm₀ tm) : p.networkNodeIp tm = p.networkNodeIp tm₀ := by
  refine h.findNode p fun ip => ?_
  have htype := congrArg (Option.any fun type => decide (type = "network")) (h.nodeType ip)
  rwa [Option.any_map, Option.any_map] at htype

/-- The port of an id that is on the node of an address. -/
def portAt (tm : OFMTunnelManager ε) (nodeIp portId : String) : Option PortDefinition :=
  (tm.nodesByIp.get nodeIp).bind (·.port portId)

theorem SameButVlans.portAt (h : SameButVlans known tm₀ tm) : Platform.portAt tm = Platform.portAt tm₀ := by
  funext ip id
  have hport := congrArg (Option.bind · (·.port id)) (h.others ip)
  simp only [Option.bind_map] at hport
  exact hport

/-- The node on which a port is put. -/
def IsPlace (tm : OFMTunnelManager ε) (port : PortDefinition) (nodeIp : String) : Prop :=
  nodeIp ≠ "" ∧ (IsNetworkOwner port.deviceOwner ∧ nodeIp = p.networkNodeIp tm ∨
    IsComputeOwner port.deviceOwner ∧ ∃ host, port.bindingHostId = some host ∧ nodeIp = p.computeNodeIp tm host)

/-- The nodes and networks of a state are those of another one. -/
structure Stays (known : String → Prop) (tm₀ tm : OFMTunnelManager ε) : Prop extends Traced known tm where
  nodes : SameNodes tm₀ tm
  vNetsByGuid : tm.vNetsByGuid = tm₀.vNetsByGuid

end Platform

end Torpedo
