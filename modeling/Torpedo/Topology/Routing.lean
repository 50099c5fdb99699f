import Torpedo.Topology.ShortestPath

/-!
# Routes and broadcast ports

The questions a computed instance answers: routes, found by a walk along the next hops towards the
destination and cached, OpenFlow domains, attachment point ports and broadcast ports.
-/

namespace Torpedo

/-- What became of a call after a bounded number of rounds of its loop. -/
inductive Outcome (α : Type)
  | returned (a : α)
  | nullPointer
  | running
deriving DecidableEq

namespace TopologyInstance

/-! ## Routes -/

/-- The loop of `buildroute`, for at most `fuel` rounds. -/
def followLinks (tree : BroadcastTree) (dstId : Dpid) :
    ℕ → Dpid → List NodePortTuple → Outcome (List NodePortTuple)
  | fuel, srcId, switchPorts =>
    if srcId = dstId then .returned switchPorts
    else match fuel with
      | 0 => .running
      | fuel + 1 =>
        match tree.getTreeLink srcId with
        | none => .nullPointer
        | some l => followLinks tree dstId fuel l.dst (switchPorts ++ [l.srcNpt, l.dstNpt])

section

variable (t : TopologyInstance) (fuel : ℕ)

/-- The list of switch ports that `buildroute` makes. -/
def routePorts (srcId dstId : Dpid) : Outcome (List NodePortTuple) :=
  match t.destinationRootedTrees.get dstId with
  | none => .returned []
  | some tree =>
    if srcId ∉ t.switches ∨ dstId ∉ t.switches then .returned []
    else if (tree.getTreeLink srcId).isSome then followLinks tree dstId fuel srcId []
    else .returned []

def buildroute (id : RouteId) (srcId dstId : Dpid) : Outcome (Option Route) :=
  match t.routePorts fuel srcId dstId with
  | .returned [] => .returned none
  | .returned (npt :: npts) => .returned (some ⟨id, npt :: npts⟩)
  | .nullPointer => .nullPointer
  | .running => .running

def PATH_CACHE_SIZE : ℕ := 1000

/-- Put an entry at the young end of `pathcache`, and drop the eldest when there are too many. -/
def cachePut (id : RouteId) (result : Option Route) : TopologyInstance :=
  let entries := t.pathcache.filter (·.1 ≠ id) ++ [(id, result)]
  { t with pathcache := if entries.length > PATH_CACHE_SIZE then entries.tail else entries }

/-- `getRoute` with two arguments. -/
def getRoute (srcId dstId : Dpid) : Outcome (Option Route × TopologyInstance) :=
  let id : RouteId := ⟨srcId, dstId⟩
  match t.pathcache.find? (·.1 = id) with
  | some (_, result) => .returned (result, t.cachePut id result)
  | none =>
    match t.buildroute fuel id srcId dstId with
    | .returned result => .returned (result, t.cachePut id result)
    | .nullPointer => .nullPointer
    | .running => .running

/-- `getRoute` with four arguments. -/
def getPortRoute (srcId : Dpid) (srcPort : OFPort) (dstId : Dpid) (dstPort : OFPort) :
    Outcome (Option Route × TopologyInstance) :=
  if srcId = dstId ∧ srcPort = dstPort then .returned (none, t)
  else
    match t.getRoute fuel srcId dstId with
    | .returned (r, t) =>
      if r = none ∧ srcId ≠ dstId then .returned (none, t)
      else
        let nptList := match r with
          | some r => r.switchPorts
          | none => []
        .returned (some ⟨⟨srcId, dstId⟩, ⟨srcId, srcPort⟩ :: nptList ++ [⟨dstId, dstPort⟩]⟩, t)
    | .nullPointer => .nullPointer
    | .running => .running

end

/-! ## Domains and broadcast ports -/

variable (t : TopologyInstance)

def isAttachmentPointPort (switchid : Dpid) (port : OFPort) : Bool :=
  !t.switchPortLinks.containsKey ⟨switchid, port⟩

def isInternalToOpenflowDomain (switchid : Dpid) (port : OFPort) : Bool :=
  !t.isAttachmentPointPort switchid port

/-- The cluster of a switch, possibly `null`. -/
def clusterOf (switchId : Dpid) : Option Cluster := do
  let i ← t.switchClusterMap.get switchId
  t.clusters[i]?

def getOpenflowDomainId (switchId : Dpid) : Dpid :=
  match t.clusterOf switchId with
  | none => switchId
  | some c => c.id

def isIncomingBroadcastAllowedOnSwitchPort (sw : Dpid) (portId : OFPort) : Option Bool :=
  if t.isInternalToOpenflowDomain sw portId then do
    let npts ← t.clusterBroadcastNodePorts.get (t.getOpenflowDomainId sw)
    some (npts.contains ⟨sw, portId⟩)
  else some true

def getBroadcastPorts (targetSw : Dpid) : Option (List OFPort) := do
  let npts ← t.clusterBroadcastNodePorts.get (t.getOpenflowDomainId targetSw)
  some ((npts.filter fun npt => npt.nodeId = targetSw).map NodePortTuple.portId)

end TopologyInstance

end Torpedo
