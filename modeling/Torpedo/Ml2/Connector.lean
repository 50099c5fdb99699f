import Torpedo.TunnelManager.Operations

/-!
# The connector to Neutron

`OFMOpenstackML2Connector` keeps the networks and ports that Neutron tells it of, and hands them to the tunnel
manager: a network at once, a port when its fields are known. `RestPort` is the handler of the requests for ports,
and says of a new port whether they are known.
-/

namespace Torpedo

/-- The fields that nothing reads here are left out. -/
structure VirtualNetwork where
  netId : String
  providerNetworkType : Option String
  providerSegmentationId : Option String
deriving DecidableEq, Repr

/-- The fields that nothing reads here are left out. -/
structure VirtualPort where
  portId : String
  bindingHostId : Option String
  deviceOwner : Option String
  deviceId : Option String
  networkId : Option String
  flowExec : Bool
deriving DecidableEq, Repr

namespace VirtualNetwork

def new (network : NetworkDefinition) : VirtualNetwork where
  netId := network.netId
  providerNetworkType := network.providerNetworkType
  providerSegmentationId := network.providerSegmentationId

/-- The network exists, and its fields are set again. -/
def update (network : NetworkDefinition) (vNet : VirtualNetwork) : VirtualNetwork :=
  { vNet with
    providerNetworkType := network.providerNetworkType
    providerSegmentationId := network.providerSegmentationId }

end VirtualNetwork

/-- A field that is neither null nor empty, nor the text of null. -/
def Given (s : Option String) : Prop := s ≠ some "" ∧ s ≠ some "null" ∧ s ≠ none

instance (s : Option String) : Decidable (Given s) := inferInstanceAs (Decidable (_ ∧ _))

/-- A field is set if it is given. -/
def ifGiven (s old : Option String) : Option String := if Given s then s else old

/-- The owners of ports that are not kept. -/
def IsGatewayOwner (deviceOwner : Option String) : Prop :=
  deviceOwner = some "network:router_gateway" ∨ deviceOwner = some "network:floatingip"

instance (deviceOwner : Option String) : Decidable (IsGatewayOwner deviceOwner) :=
  inferInstanceAs (Decidable (_ ∨ _))

namespace VirtualPort

def new (port : PortDefinition) : VirtualPort where
  portId := port.portId
  bindingHostId := port.bindingHostId
  deviceOwner := port.deviceOwner
  deviceId := port.deviceId
  networkId := port.networkId
  flowExec := port.flowExec

/-- The port exists, and the fields that are given are set. -/
def update (port : PortDefinition) (vPort : VirtualPort) : VirtualPort :=
  { vPort with
    bindingHostId := ifGiven port.bindingHostId vPort.bindingHostId
    deviceOwner := ifGiven port.deviceOwner vPort.deviceOwner
    deviceId := ifGiven port.deviceId vPort.deviceId
    networkId := ifGiven port.networkId vPort.networkId }

def setFlowExec (vPort : VirtualPort) : VirtualPort := { vPort with flowExec := true }

/-- `new PortDefinition` of the port. -/
def definition (vPort : VirtualPort) : PortDefinition where
  portId := vPort.portId
  bindingHostId := vPort.bindingHostId
  deviceOwner := vPort.deviceOwner
  deviceId := vPort.deviceId
  networkId := vPort.networkId
  flowExec := vPort.flowExec

/-- One of the fields is not empty. -/
def AnyField (vPort : VirtualPort) : Prop :=
  vPort.bindingHostId ≠ some "" ∨ vPort.deviceOwner ≠ some "" ∨ vPort.deviceId ≠ some "" ∨
    vPort.networkId ≠ some ""

instance (vPort : VirtualPort) : Decidable vPort.AnyField := inferInstanceAs (Decidable (_ ∨ _))

end VirtualPort

/-- The maps of the tunnel manager are static, so that all its instances are one. -/
structure OFMOpenstackML2Connector (ε : Type) where
  vNetsByGuid : HashMap String VirtualNetwork
  vPortsByGuid : HashMap String VirtualPort
  tunnelManager : OFMTunnelManager ε

namespace OFMOpenstackML2Connector

variable {ε : Type}

def changePort (portId : String) (f : VirtualPort → VirtualPort) (c : OFMOpenstackML2Connector ε) :
    OFMOpenstackML2Connector ε := { c with vPortsByGuid := c.vPortsByGuid.change portId f }

def putPort (vPort : VirtualPort) (c : OFMOpenstackML2Connector ε) : OFMOpenstackML2Connector ε :=
  { c with vPortsByGuid := c.vPortsByGuid.put vPort.portId vPort }

def removePort (portId : String) (c : OFMOpenstackML2Connector ε) : OFMOpenstackML2Connector ε :=
  { c with vPortsByGuid := c.vPortsByGuid.remove portId }

end OFMOpenstackML2Connector

namespace Platform

variable {ε α : Type} (p : Platform ε)

/-! ## The service -/

/-- A method of the tunnel manager. -/
def tunnels (m : Method (OFMTunnelManager ε) α) : Method (OFMOpenstackML2Connector ε) α :=
  Method.zoom (·.tunnelManager) (fun tunnelManager c => { c with tunnelManager }) m

def createNetwork (network : NetworkDefinition) : Method (OFMOpenstackML2Connector ε) Unit := do
  let c ← Method.get
  if c.vNetsByGuid.containsKey network.netId then
    Method.modify fun c =>
      { c with vNetsByGuid := c.vNetsByGuid.change network.netId (VirtualNetwork.update network) }
  else
    Method.modify fun c => { c with vNetsByGuid := c.vNetsByGuid.put network.netId (.new network) }
    tunnels (p.createNetworkFlow network)

def deleteNetwork (netId : String) : Method (OFMOpenstackML2Connector ε) Unit := do
  tunnels (p.deleteNetworkFlow netId)
  Method.modify fun c => { c with vNetsByGuid := c.vNetsByGuid.remove netId }

/-- A port exists, and its fields have been set. -/
def updatePort (portId : String) (vPort : VirtualPort) : Method (OFMOpenstackML2Connector ε) Unit :=
  if vPort.AnyField ∧ vPort.flowExec = false then
    if IsGatewayOwner vPort.deviceOwner then
      Method.modify (OFMOpenstackML2Connector.removePort portId)
    else do
      tunnels (p.createPortFlow vPort.definition)
      Method.modify (OFMOpenstackML2Connector.changePort portId VirtualPort.setFlowExec)
  else
    return

def createPort (port : PortDefinition) : Method (OFMOpenstackML2Connector ε) Unit := do
  let c ← Method.get
  match c.vPortsByGuid.get port.portId with
  | some vPort =>
    Method.modify (OFMOpenstackML2Connector.changePort port.portId (VirtualPort.update port))
    p.updatePort port.portId (vPort.update port)
  | none =>
    Method.modify (OFMOpenstackML2Connector.putPort (.new port))
    if IsGatewayOwner port.deviceOwner then
      Method.modify (OFMOpenstackML2Connector.removePort port.portId)
    if port.flowExec then
      if IsGatewayOwner port.deviceOwner then
        Method.modify (OFMOpenstackML2Connector.removePort port.portId)
      else
        tunnels (p.createPortFlow port)

/-- An exception is logged, and the port stays then. -/
def deletePort (portId : String) : Method (OFMOpenstackML2Connector ε) Unit := do
  let c ← Method.get
  if c.vPortsByGuid.containsKey portId then
    Method.catchAll do
      tunnels (p.deletePortFlow portId)
      Method.modify (OFMOpenstackML2Connector.removePort portId)

/-! ## Requests -/

inductive Ml2Request
  | createNetwork (network : NetworkDefinition)
  | deleteNetwork (netId : String)
  | createPort (port : PortDefinition)
  | deletePort (portId : String)

def request : Ml2Request → Method (OFMOpenstackML2Connector ε) Unit
  | .createNetwork network => p.createNetwork network
  | .deleteNetwork netId => p.deleteNetwork netId
  | .createPort port => p.createPort port
  | .deletePort portId => p.deletePort portId

/-- The state behind a request. -/
def serve (c : OFMOpenstackML2Connector ε) (r : Ml2Request) : OFMOpenstackML2Connector ε := (p.request r c).2

end Platform

end Torpedo
