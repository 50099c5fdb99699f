import Torpedo.Util.Decimal
import Torpedo.Util.Entries
import Torpedo.Util.Method
import Torpedo.Util.Tags

/-!
# Nodes

A node has a pool of local VLANs. A network that is mapped on the node has taken one of them, and three maps
say which. `takeVlan` and `releaseVlan` are what the operations of the tunnel manager do to a pool and to
these maps.
-/

namespace Torpedo

structure NetworkDefinition where
  netId : String
  providerNetworkType : Option String := none
  providerSegmentationId : Option String := none
deriving DecidableEq, Repr

structure PortDefinition where
  portId : String
  bindingHostId : Option String := none
  deviceOwner : Option String := none
  deviceId : Option String := none
  networkId : Option String := none
  flowExec : Bool := false
deriving DecidableEq, Repr

/-- The time is in minutes. -/
structure NodeDefinition where
  nodeIpMgt : String
  nodeIpTun : String
  nodeName : String
  nodeType : String
  currentTime : ℤ
  availableLocalVlans : List ℤ
  usedLocalVNetsByVlanid : Option (HashMap String NetworkDefinition) := none
  usedLocalVNetsByGuid : Option (HashMap String NetworkDefinition) := none
  localVlanOfports : Option (List String) := none
  localVNetidToVlanid : Option (HashMap String String) := none
  usedLocalVPortsByGuid : Option (HashMap String PortDefinition) := none

def minVlanTag : ℕ := 1

def maxVlanTag : ℕ := 4094

/-- `Integer.parseInt`. -/
def parseInteger (s : Option String) : Option ℤ := s.bind (Decimal.parseNumber 32)

theorem parseInteger_repr {v : ℤ} (hle : 0 ≤ v) (hlt : v < 2 ^ 31) : parseInteger (some v.repr) = some v :=
  Decimal.parseNumber_repr (Int.le_trans (by decide) hle) hlt

namespace NodeDefinition

/-! ## VLANs -/

/-- The VLANs of a new node. -/
def initVlans : List ℤ := (List.range' minVlanTag maxVlanTag).map Int.ofNat

/-- A node without networks and ports. -/
def new (nodeIpMgt nodeIpTun nodeName nodeType : String) (now : ℤ) : NodeDefinition where
  nodeIpMgt := nodeIpMgt
  nodeIpTun := nodeIpTun
  nodeName := nodeName
  nodeType := nodeType
  currentTime := now
  availableLocalVlans := initVlans

/-- The smallest VLAN that is available is taken for a network. The id and the network may be null, and the
VLAN is lost then. -/
def takeVlan (netId : Option String) (network : Option NetworkDefinition) : Method NodeDefinition String := do
  Method.modify fun node => { node with availableLocalVlans := node.availableLocalVlans.mergeSort (· ≤ ·) }
  let node ← Method.get
  let modVlanVid ← Method.nonNull (node.availableLocalVlans.head?.map Int.repr)
  Method.modify fun node => { node with
    availableLocalVlans := node.availableLocalVlans.tail
    usedLocalVNetsByVlanid := some (node.usedLocalVNetsByVlanid.getD ∅) }
  let network ← Method.nonNull network
  Method.modify fun node => { node with
    usedLocalVNetsByVlanid := node.usedLocalVNetsByVlanid.map (·.put modVlanVid network)
    usedLocalVNetsByGuid := some (node.usedLocalVNetsByGuid.getD ∅) }
  let netId ← Method.nonNull netId
  Method.modify fun node => { node with
    usedLocalVNetsByGuid := node.usedLocalVNetsByGuid.map (·.put netId network)
    localVNetidToVlanid := some ((node.localVNetidToVlanid.getD ∅).put netId modVlanVid) }
  return modVlanVid

/-- A VLAN is available again, and its network is not mapped any more. -/
def releaseVlan (vlanId : Option String) (networkId : String) : Method NodeDefinition Unit := do
  let vlan ← Method.nonNull (parseInteger vlanId)
  Method.modify fun node => { node with availableLocalVlans := node.availableLocalVlans ++ [vlan] }
  let node ← Method.get
  let usedLocalVNetsByVlanid ← Method.nonNull node.usedLocalVNetsByVlanid
  let vlanId ← Method.nonNull vlanId
  Method.modify fun node => { node with usedLocalVNetsByVlanid := usedLocalVNetsByVlanid.remove vlanId }
  let usedLocalVNetsByGuid ← Method.nonNull node.usedLocalVNetsByGuid
  Method.modify fun node => { node with usedLocalVNetsByGuid := usedLocalVNetsByGuid.remove networkId }
  let localVNetidToVlanid ← Method.nonNull node.localVNetidToVlanid
  Method.modify fun node => { node with localVNetidToVlanid := localVNetidToVlanid.remove networkId }

/-! ## Views -/

variable (node : NodeDefinition)

/-- The network that has a VLAN. -/
def networkOf (vlanId : String) : Option NetworkDefinition := node.usedLocalVNetsByVlanid.bind (·.get vlanId)

/-- The network of an id that is mapped on the node. -/
def network (netId : String) : Option NetworkDefinition := node.usedLocalVNetsByGuid.bind (·.get netId)

/-- The VLAN of a network. -/
def vlanOf (netId : String) : Option String := node.localVNetidToVlanid.bind (·.get netId)

/-- The port of an id that is on the node. -/
def port (portId : String) : Option PortDefinition := node.usedLocalVPortsByGuid.bind (·.get portId)

/-- The VLANs as tags of networks. -/
def tags : Tags String String where
  free := node.availableLocalVlans.map Int.repr
  holder vlanId := (node.networkOf vlanId).map NetworkDefinition.netId
  tag := node.vlanOf

end NodeDefinition

/-- The numbers of the VLANs. -/
def IsVlan (vlanId : String) : Prop := ∃ v : ℤ, minVlanTag ≤ v ∧ v ≤ maxVlanTag ∧ vlanId = v.repr

namespace NodeDefinition

/-- Each VLAN is either available, or used by a network, and the networks that are mapped on the node are
those that have a VLAN. -/
structure Accounted (node : NodeDefinition) : Prop where
  tags : node.tags.Accounted IsVlan
  mapped : ∀ netId, node.network netId = (node.vlanOf netId).bind node.networkOf

end NodeDefinition

end Torpedo
