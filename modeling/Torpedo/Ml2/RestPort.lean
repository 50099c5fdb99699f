import Torpedo.Ml2.Connector

/-!
# The handler of requests for ports

`RestPort` reads a port from the body of a request and hands it to the connector. It decides whether the flows of a
new port are to be installed. A field that is not in the body is null.
-/

namespace Torpedo

/-- The port in the body of a request. The fields that nothing reads here are left out. -/
structure PortBody where
  id : Option String := none
  bindingHostId : Option String := none
  deviceOwner : Option String := none
  deviceId : Option String := none
  networkId : Option String := none
deriving DecidableEq, Repr

namespace PortBody

/-- A field that is null is not empty. -/
def flowExec (body : PortBody) : Bool :=
  body.deviceOwner = some "network:floatingip" ∨
    body.bindingHostId ≠ some "" ∧ body.deviceOwner ≠ some "" ∧ body.deviceId ≠ some "" ∧ body.networkId ≠ some ""

def definition (body : PortBody) (portId : String) : PortDefinition where
  portId := portId
  bindingHostId := body.bindingHostId
  deviceOwner := body.deviceOwner
  deviceId := body.deviceId
  networkId := body.networkId
  flowExec := body.flowExec

end PortBody

/-- A port is created or updated with the same request. -/
inductive NeutronRequest
  | createNetwork (network : NetworkDefinition)
  | deleteNetwork (netId : String)
  | port (body : PortBody) (portUUID : String)
  | deletePort (portUUID : String)

namespace Platform

variable {ε : Type} (p : Platform ε)

/-- The port that the connector is given. The id of the path counts only for a port that the connector has. -/
def accepted (body : PortBody) (portUUID : String) (c : OFMOpenstackML2Connector ε) : Option PortDefinition :=
  match body.id with
  | some id => some (body.definition id)
  | none =>
    if portUUID ≠ "" ∧ c.vPortsByGuid.containsKey portUUID then some (body.definition portUUID)
    else none

def handle : NeutronRequest → Method (OFMOpenstackML2Connector ε) Unit
  | .createNetwork network => p.createNetwork network
  | .deleteNetwork netId => p.deleteNetwork netId
  | .port body portUUID => do
    let c ← Method.get
    match accepted body portUUID c with
    | some port => p.createPort port
    | none => return
  | .deletePort portUUID => p.deletePort portUUID

/-- The state behind a request. -/
def handled (c : OFMOpenstackML2Connector ε) (r : NeutronRequest) : OFMOpenstackML2Connector ε := (p.handle r c).2

variable {c : OFMOpenstackML2Connector ε} {body : PortBody} {portUUID : String}

end Platform

end Torpedo
