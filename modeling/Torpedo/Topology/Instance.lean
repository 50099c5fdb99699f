import Mathlib.Algebra.Group.Int.Defs
import Mathlib.Algebra.GroupWithZero.Nat
import Mathlib.Data.Int.Basic
import Mathlib.Order.WithBot
import Torpedo.Util.Collections
import Torpedo.LinkDiscovery.Link

/-!
# Topology instances

`TopologyInstance`: the switches, ports and links it is built from, the OpenFlow domains that
`identifyOpenflowDomains` finds by a depth-first search with lowpoints, the shortest path trees of
`dijkstra` in every domain, and the broadcast ports taken from them. Functions return `none` where
the code would dereference `null`.
-/

namespace Torpedo

/-! ## Clusters -/

/-- `Cluster`: the links of an OpenFlow domain by switch, and the lowest datapath id. -/
structure Cluster where
  id : Dpid
  links : SetMap Dpid Link

namespace Cluster

def empty : Cluster := ⟨Int64.maxValue, ∅⟩

def getNodes (c : Cluster) : List Dpid := c.links.keySet

def add (c : Cluster) (n : Dpid) : Cluster :=
  if c.links.containsKey n = false then
    { links := c.links.put n [], id := if n < c.id then n else c.id }
  else c

/-- Add the link to the links of one of its ends. -/
def addLinkAt (c : Cluster) (l : Link) (n : Dpid) : Cluster :=
  let c := c.add n
  { c with links := SetMap.add c.links n l }

def addLink (c : Cluster) (l : Link) : Cluster := (c.addLinkAt l l.src).addLinkAt l l.dst

end Cluster

/-! ## Broadcast trees -/

/-- `BroadcastTree`: the next-hop link, possibly `null`, and the cost of every node. -/
structure BroadcastTree where
  links : HashMap Dpid (Option Link)
  costs : HashMap Dpid Int

namespace BroadcastTree

def getTreeLink (b : BroadcastTree) (node : Dpid) : Option Link := (b.links.get node).join

def getCost (b : BroadcastTree) (node : Dpid) : Int :=
  match b.costs.get node with
  | none => -1
  | some cost => cost

end BroadcastTree

/-! ## Instances -/

/-- `RouteId`. -/
structure RouteId where
  src : Dpid
  dst : Dpid
deriving DecidableEq, Repr

/-- `Route`. -/
structure Route where
  id : RouteId
  switchPorts : List NodePortTuple
deriving DecidableEq, Repr

/-- `TopologyInstance`. A cluster is referred to by its position in `clusters`. -/
structure TopologyInstance where
  switches : List Dpid
  switchPorts : SetMap Dpid OFPort
  blockedPorts : List NodePortTuple
  switchPortLinks : SetMap NodePortTuple Link
  broadcastDomainPorts : List NodePortTuple
  tunnelPorts : List NodePortTuple
  clusters : List Cluster
  switchClusterMap : HashMap Dpid Nat
  destinationRootedTrees : HashMap Dpid BroadcastTree
  clusterBroadcastTrees : HashMap Dpid BroadcastTree
  clusterBroadcastNodePorts : HashMap Dpid (List NodePortTuple)
  /-- The cached routes, least recently used first. -/
  pathcache : List (RouteId × Option Route)

namespace TopologyInstance

/-- The constructor with five arguments. -/
def new (switchPorts : SetMap Dpid OFPort) (blockedPorts : List NodePortTuple)
    (switchPortLinks : SetMap NodePortTuple Link)
    (broadcastDomainPorts tunnelPorts : List NodePortTuple) : TopologyInstance where
  switches := switchPorts.keySet
  switchPorts := switchPorts
  blockedPorts := blockedPorts
  switchPortLinks := switchPortLinks
  broadcastDomainPorts := broadcastDomainPorts
  tunnelPorts := tunnelPorts
  clusters := []
  switchClusterMap := ∅
  destinationRootedTrees := ∅
  clusterBroadcastTrees := ∅
  clusterBroadcastNodePorts := ∅
  pathcache := []

variable (t : TopologyInstance)

def isBlockedPort (npt : NodePortTuple) : Bool := npt ∈ t.blockedPorts

def isBlockedLink (l : Link) : Bool := t.isBlockedPort l.srcNpt || t.isBlockedPort l.dstNpt

def isBroadcastDomainPort (npt : NodePortTuple) : Bool := npt ∈ t.broadcastDomainPorts

def isBroadcastDomainLink (l : Link) : Bool :=
  t.isBroadcastDomainPort l.srcNpt || t.isBroadcastDomainPort l.dstNpt

end TopologyInstance

/-! ## OpenFlow domains -/

-- the order of the integers that can be computed, whatever orders of them are in scope
instance intLinearOrder : LinearOrder ℤ := Int.instLinearOrder

instance intPartialOrder : PartialOrder ℤ := Int.instLinearOrder.toPartialOrder

/-- `ClusterDFS`; `⊤` is `Long.MAX_VALUE`. -/
structure ClusterDFS where
  dfsIndex : WithTop ℤ
  parentDFSIndex : WithTop ℤ
  lowpoint : WithTop ℤ
  visited : Bool

namespace ClusterDFS

def new : ClusterDFS := ⟨⊤, ⊤, ⊤, false⟩

end ClusterDFS

/-- What `dfsTraverse` reads and changes: its arguments `dfsList` and `currSet`, and the clusters
of the instance. -/
structure DfsState where
  dfsList : HashMap Dpid ClusterDFS
  currSet : List Dpid
  clusters : List Cluster
  switchClusterMap : HashMap Dpid Nat

namespace DfsState

/-- Change the DFS object of a switch. -/
def modify (st : DfsState) (sw : Dpid) (f : ClusterDFS → ClusterDFS) : DfsState :=
  match st.dfsList.get sw with
  | none => st
  | some dfs => { st with dfsList := st.dfsList.put sw (f dfs) }

/-- `if (x < lowpoint) setLowpoint(x)` on the DFS object of a switch. -/
def lower (st : DfsState) (sw : Dpid) (x : WithTop ℤ) : DfsState :=
  st.modify sw fun dfs => if x < dfs.lowpoint then { dfs with lowpoint := x } else dfs

/-- The first lines of `dfsTraverse`. -/
def enter (st : DfsState) (sw : Dpid) (parentIndex : WithTop ℤ) (currIndex : ℤ) : DfsState :=
  st.modify sw fun dfs =>
    { dfs with visited := true, dfsIndex := currIndex, parentDFSIndex := parentIndex }

/-- Close a cluster with the switches of the current set. -/
def newCluster (ord : HashOrder) (st : DfsState) : DfsState :=
  { st with
    clusters := st.clusters ++ [(ord.iter st.currSet).foldl Cluster.add Cluster.empty]
    switchClusterMap := (ord.iter st.currSet).foldl
      (fun m sw => m.put sw st.clusters.length) st.switchClusterMap
    currSet := [] }

end DfsState

namespace TopologyInstance

variable (ord : HashOrder) (t : TopologyInstance)

/-- The links that the loops over ports and links meet at a switch. -/
def linksOf (sw : Dpid) : List Link :=
  match t.switchPorts.get sw with
  | none => []
  | some ports => (ord.iter ports).flatMap fun p =>
    match t.switchPortLinks.get ⟨sw, p⟩ with
    | none => []
    | some lset => ord.iter lset

/-- The loop of `dfsTraverse` over the links of `currSw`; `visit` is the recursive call. -/
def dfsLinks (visit : WithTop ℤ → ℤ → Dpid → DfsState → Option (ℤ × DfsState)) (currSw : Dpid) :
    List Link → ℤ → DfsState → Option (ℤ × DfsState)
  | [], currIndex, st => some (currIndex, st)
  | l :: ls, currIndex, st =>
    if l.dst = currSw ∨ (st.switchClusterMap.get l.dst).isSome ∨ t.isBlockedLink l ∨
        t.isBroadcastDomainLink l then
      dfsLinks visit currSw ls currIndex st
    else do
      let dstDFS ← st.dfsList.get l.dst
      let currDFS ← st.dfsList.get currSw
      if dstDFS.dfsIndex < currDFS.dfsIndex then
        dfsLinks visit currSw ls currIndex (st.lower currSw dstDFS.dfsIndex)
      else if dstDFS.visited = false then do
        let (currIndex, st) ← visit currDFS.dfsIndex currIndex l.dst st
        if currIndex < 0 then some (-1, st)
        else do
          let dstDFS ← st.dfsList.get l.dst
          dfsLinks visit currSw ls currIndex (st.lower currSw dstDFS.lowpoint)
      else dfsLinks visit currSw ls currIndex st

/-- The end of `dfsTraverse`: add the switch to the current set and close a cluster if its lowpoint
is above the index of its parent. -/
def dfsFinish (currSw : Dpid) (currIndex : ℤ) (st : DfsState) : Option (ℤ × DfsState) := do
  let st := { st with currSet := setAdd st.currSet currSw }
  let currDFS ← st.dfsList.get currSw
  if currDFS.lowpoint > currDFS.parentDFSIndex then some (currIndex, st.newCluster ord)
  else some (currIndex, st)

/-- `dfsTraverse`; the depth of the recursion is bounded by `fuel`. -/
def dfsTraverse : ℕ → WithTop ℤ → ℤ → Dpid → DfsState → Option (ℤ × DfsState)
  | 0, _, _, _, _ => none
  | fuel + 1, parentIndex, currIndex, currSw, st => do
    let _ ← st.dfsList.get currSw
    let (currIndex, st) ← t.dfsLinks (dfsTraverse fuel) currSw (t.linksOf ord currSw)
      (currIndex + 1) (st.enter currSw parentIndex currIndex)
    if currIndex < 0 then some (currIndex, st) else dfsFinish ord currSw currIndex st

/-- The `dfsList` and the empty current set that `identifyOpenflowDomains` starts from. -/
def dfsInit : DfsState where
  dfsList := (ord.iter t.switches).foldl (fun m key => m.put key .new) ∅
  currSet := []
  clusters := t.clusters
  switchClusterMap := t.switchClusterMap

/-- The loop of `identifyOpenflowDomains` over the switches. -/
def dfsRoots : List Dpid → DfsState → Option DfsState
  | [], st => some st
  | sw :: sws, st =>
    match st.dfsList.get sw with
    | none => dfsRoots sws st
    | some cdfs =>
      if cdfs.visited = false then do
        let (_, st) ← t.dfsTraverse ord (t.switches.length + 1) (0 : ℤ) 1 sw st
        dfsRoots sws st
      else dfsRoots sws st

def identifyOpenflowDomains : Option TopologyInstance := do
  let st ← t.dfsRoots ord (ord.iter t.switches) (t.dfsInit ord)
  some { t with clusters := st.clusters, switchClusterMap := st.switchClusterMap }

/-- The loops of `addLinksToOpenflowDomains` meet these links in this order. -/
def linksOffBroadcastDomain (s : Dpid) : List Link :=
  match t.switchPorts.get s with
  | none => []
  | some ports => (ord.iter ports).flatMap fun p =>
    match t.switchPortLinks.get ⟨s, p⟩ with
    | none => []
    | some lset => if t.isBroadcastDomainPort ⟨s, p⟩ then [] else ord.iter lset

/-- The body of the innermost loop of `addLinksToOpenflowDomains`. -/
def addLinkToOpenflowDomain (l : Link) (clusters : List Cluster) : Option (List Cluster) :=
  if t.isBlockedLink l then some clusters
  else if t.isBroadcastDomainLink l then some clusters
  else if t.switchClusterMap.get l.src = t.switchClusterMap.get l.dst then do
    let c1 ← t.switchClusterMap.get l.src
    some (clusters.modify c1 fun c => c.addLink l)
  else some clusters

def addLinksToOpenflowDomains : Option TopologyInstance := do
  let links := (ord.iter t.switches).flatMap (t.linksOffBroadcastDomain ord)
  let clusters ← links.foldlM (fun cs l => t.addLinkToOpenflowDomain l cs) t.clusters
  some { t with clusters := clusters }

end TopologyInstance

end Torpedo
