import Torpedo.Topology.Manager
import Torpedo.Topology.RouteCache
import Torpedo.Util.Method
import Torpedo.Util.Runs

/-!
# The failover of routes

`OFMNetFailover` hears of the links that a topology change has updated or removed, and puts the updates into a
queue. A thread takes them out one by one, and deletes the flows of the routes that a link is on. It looks for
the routes that a removed link was on in the instance before the latest one.
-/

namespace Torpedo

/-- `BloomFilter` of the ports of a route. It may hold a port that was not put into it. -/
structure BloomFilter where
  mightContain : List NodePortTuple → NodePortTuple → Bool
  mightContain_of_mem : ∀ npts npt, npt ∈ npts → mightContain npts npt = true

/-- The orders of the collections, and the filter. -/
structure Failover where
  order : HashOrder
  nodeQueue : NodeQueue
  bloom : BloomFilter

/-- An update, and the instance before the change that it is of, which nothing reads. -/
structure QueuedUpdate where
  update : LDUpdate
  before : Option TopologyInstance

/-- The topology manager with its `oldInstance`, the thread and its queue, and the flows that switches have been
told to delete, by their output ports. -/
structure NetFailover where
  manager : TopologyManager
  oldInstance : Option TopologyInstance
  queue : List QueuedUpdate
  running : Bool
  deleted : List (Dpid × OFPort)

/-- What the controller says of the switches while the thread is at work. -/
structure SwitchView where
  getSwitchIdentifiers : List Dpid
  getPorts : Dpid → Option (List OFPort)
  /-- The port is a physical one, and enabled. -/
  portEnabled : Dpid → OFPort → Bool
  connected : Dpid → Bool

inductive FailoverEvent
  | linkDiscoveryUpdate (update : LDUpdate)
  | updateTopology
  | getRoute (srcId dstId : Dpid)
  | take (view : SwitchView)

/-! ## Access switches -/

namespace SwitchView

variable (view : SwitchView) (currentInstance : Option TopologyInstance)

/-- `isAttachmentPointPort` of the topology manager. -/
def isAttachmentPointPort (s : Dpid) (p : OFPort) : Except Stop Bool := do
  let ti ← orThrow currentInstance
  return ti.isAttachmentPointPort s p && view.portEnabled s p

/-- The loop over the ports. -/
def hasAttachmentPoint (s : Dpid) : List OFPort → Except Stop Bool
  | [] => .ok false
  | p :: ps => do
    let found ← view.isAttachmentPointPort currentInstance s p
    if found then return true else hasAttachmentPoint s ps

/-- The loop over the switches. -/
def addAccessSwitches : List Dpid → List Dpid → Except Stop (List Dpid)
  | [], asws => .ok asws
  | s :: sws, asws => do
    let ports ← orThrow (view.getPorts s)
    let found ← view.hasAttachmentPoint currentInstance s ports
    addAccessSwitches sws (if found then setAdd asws s else asws)

def getAccessSwitches : Except Stop (List Dpid) :=
  view.addAccessSwitches currentInstance view.getSwitchIdentifiers []

end SwitchView

/-! ## Removing routes -/

/-- `OFPort.ANY`. -/
def OFPort.any : OFPort := -1

namespace Failover

variable (p : Failover) (view : SwitchView)

/-- A request for a route. One that is never answered stops the thread, as one that throws. -/
def answer : Outcome (Option Route × TopologyInstance) → Except Stop (Option Route × TopologyInstance)
  | .returned r => .ok r
  | .nullPointer => .error .exception
  | .running => .error .outOfFuel

/-- `getRoute` of the topology manager. -/
def getRoute (srcId dstId : Dpid) : Method NetFailover (Option Route) := do
  let s ← Method.get
  let ti ← Method.nonNull s.manager.currentInstance
  let r ← Method.ofExcept (answer (ti.request srcId dstId))
  Method.modify fun s => { s with manager := { s.manager with currentInstance := some r.2 } }
  return r.1

def getOldRoute (srcId dstId : Dpid) : Method NetFailover (Option Route) := do
  let s ← Method.get
  match s.oldInstance with
  | none => return none
  | some ti => do
    let r ← Method.ofExcept (answer (ti.request srcId dstId))
    Method.modify fun s => { s with oldInstance := some r.2 }
    return r.1

def removeOutgoingFlowRecord (srcId : Dpid) (outPort : OFPort) : Method NetFailover Unit :=
  if view.connected srcId then Method.modify fun s => { s with deleted := s.deleted ++ [(srcId, outPort)] }
  else pure ()

def removeRouteFromNetwork (r : Route) : Method NetFailover Unit :=
  Method.forEach (fun npt => removeOutgoingFlowRecord view npt.nodeId npt.portId) r.switchPorts

def removeAnyRouteFromNetwork (r : Route) : Method NetFailover Unit :=
  Method.forEach (fun npt => removeOutgoingFlowRecord view npt.nodeId OFPort.any) r.switchPorts

/-- An end of the link is in the filter of the route. -/
def mightTraverse (r : Route) (link : Link) : Bool :=
  p.bloom.mightContain r.switchPorts link.srcNpt || p.bloom.mightContain r.switchPorts link.dstNpt

/-- The body of the loops over pairs of access switches. -/
def removeBetween (link : Link) (getRoute : Dpid → Dpid → Method NetFailover (Option Route))
    (remove : Route → Method NetFailover Unit) (s d : Dpid) : Method NetFailover Unit :=
  -- the reverse direction is left out
  if s ≤ d then pure ()
  else do
    let r ← getRoute s d
    match r with
    | none => pure ()
    | some r => if p.mightTraverse r link then remove r else pure ()

/-- The loops of `removeOldRoutesOnLink` and of `removeRoutesOnAnyLink`. -/
def removeRoutes (link : Link) (getRoute : Dpid → Dpid → Method NetFailover (Option Route))
    (remove : Route → Method NetFailover Unit) : Method NetFailover Unit := do
  let s ← Method.get
  let asws ← Method.ofExcept (view.getAccessSwitches s.manager.currentInstance)
  Method.forEach (fun s => Method.forEach (p.removeBetween link getRoute remove s) (p.order.iter asws))
    (p.order.iter asws)

def removeOldRoutesOnLink (link : Link) : Method NetFailover Unit :=
  p.removeRoutes view link getOldRoute (removeRouteFromNetwork view)

def removeRoutesOnAnyLink (link : Link) : Method NetFailover Unit :=
  p.removeRoutes view link getRoute (removeAnyRouteFromNetwork view)

/-! ## The thread -/

/-- What the thread does with an update. -/
def relay : LDUpdate → Method NetFailover Unit
  | .link src srcPort dst dstPort _ operation =>
    if operation = .linkUpdated then p.removeRoutesOnAnyLink view ⟨src, srcPort, dst, dstPort⟩
    else if operation = .linkRemoved then p.removeOldRoutesOnLink view ⟨src, srcPort, dst, dstPort⟩
    else pure ()
  | .port _ _ _ => pure ()
  | .switch _ _ => pure ()

/-- A round of `LDUpdateProcessor.run`. The thread ends where an exception is thrown. -/
def take (s : NetFailover) : NetFailover :=
  match s.running, s.queue with
  | true, q :: queue =>
    match p.relay view q.update { s with queue } with
    | (.ok _, s') => s'
    | (.error _, s') => { s' with running := false }
  | _, _ => s

/-- The capacity of the queue. -/
def capacity : ℕ := 128

/-- The update is put into the queue. -/
def isRelayed : LDUpdate → Bool
  | .link _ _ _ _ _ operation => decide (operation = .linkUpdated ∨ operation = .linkRemoved)
  | .port _ _ _ => false
  | .switch _ _ => false

/-- The loop of `topologyChanged`, which a full queue ends. -/
def putAll (before : Option TopologyInstance) : List LDUpdate → List QueuedUpdate → List QueuedUpdate
  | [], queue => queue
  | u :: us, queue =>
    if isRelayed u then
      if queue.length < capacity then putAll before us (queue ++ [⟨u, before⟩]) else queue
    else putAll before us queue

/-- `updateTopology` of the topology manager, which tells its listener of the change. -/
def updateTopology (s : NetFailover) : NetFailover :=
  match s.manager.updateTopology p.order p.nodeQueue with
  | none => s
  | some (created, manager) =>
    let oldInstance := if created then s.manager.currentInstance else s.oldInstance
    { s with manager, oldInstance, queue := putAll oldInstance manager.appliedUpdates s.queue }

def step (s : NetFailover) : FailoverEvent → NetFailover
  | .linkDiscoveryUpdate update =>
    { s with manager := { s.manager with ldUpdates := s.manager.ldUpdates ++ [update] } }
  | .updateTopology => p.updateTopology s
  | .getRoute srcId dstId => (getRoute srcId dstId s).2
  | .take view => p.take view s

/-- The manager starts with an instance without switches. -/
def initial : NetFailover where
  manager := { TopologyManager.empty with currentInstance := some (.new ∅ [] ∅ [] []) }
  oldInstance := none
  queue := []
  running := true
  deleted := []

end Failover

end Torpedo
