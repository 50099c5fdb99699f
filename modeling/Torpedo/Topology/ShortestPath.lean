import Torpedo.Topology.Instance

/-!
# Shortest path trees and broadcast trees

`dijkstra` with its priority queue, the destination rooted trees of every cluster, and the
broadcast ports taken from the tree of the lowest switch of a cluster. An `int` is an integer that
`toInt` brings back into range after an addition or a subtraction.
-/

namespace Torpedo

/-- The value of an `int` expression, which wraps around at 32 bits. -/
def toInt (x : Int) : Int := x.bmod (2 ^ 32)

theorem toInt_eq {x : Int} (h : -2 ^ 31 ≤ x) (h' : x < 2 ^ 31) : toInt x = x := by
  unfold toInt
  rw [Int.bmod_eq_of_le] <;> omega

def MAX_LINK_WEIGHT : Int := 10000

/-- `Integer.MAX_VALUE - MAX_LINK_WEIGHT - 1`. -/
def MAX_PATH_WEIGHT : Int := 2 ^ 31 - 1 - MAX_LINK_WEIGHT - 1

/-! ## The queue -/

structure NodeDist where
  node : Dpid
  dist : Int
deriving DecidableEq, Repr

/-- `NodeDist.compareTo`. -/
def NodeDist.compareTo (n o : NodeDist) : Int :=
  if o.dist = n.dist then (o.node - n.node).toInt32.toInt else toInt (o.dist - n.dist)

/-- The `PriorityQueue` of `dijkstra`: which entry is at its head. Ties are broken arbitrarily. The
comparison by a truncated difference of node ids is no order, but where the distances do not
overflow in the comparison, no entry of another distance comes before the head. -/
structure NodeQueue where
  peek : List NodeDist → Option NodeDist
  peek_nil : peek [] = none
  peek_mem : ∀ q, q ≠ [] → ∃ n ∈ q, peek q = some n
  peek_first : ∀ q n, peek q = some n → (∀ o ∈ q, 0 ≤ o.dist ∧ o.dist < 2 ^ 31) →
    ∀ o ∈ q, o.dist ≠ n.dist → n.compareTo o < 0

/-! ## Dijkstra -/

/-- The local variables of `dijkstra`. -/
structure DijkstraState where
  nexthoplinks : HashMap Dpid (Option Link)
  cost : HashMap Dpid Int
  seen : List Dpid
  nodeq : List NodeDist

/-- The weight of a link. -/
def weight (linkCost : Option (HashMap Link Int)) (link : Link) : Int :=
  match linkCost with
  | none => 1
  | some linkCost =>
    match linkCost.get link with
    | none => 1
    | some w => w

namespace DijkstraState

variable (linkCost : Option (HashMap Link Int)) (isDstRooted : Bool)

/-- The body of the loop of `dijkstra` over the links of a node at distance `cdist`. -/
def relax (cdist : Int) (link : Link) (st : DijkstraState) : Option DijkstraState := do
  let neighbor := if isDstRooted = true then link.src else link.dst
  let ndist := toInt (cdist + weight linkCost link)
  let cost ← st.cost.get neighbor
  if ndist < cost then
    some { st with
      cost := st.cost.put neighbor ndist
      nexthoplinks := st.nexthoplinks.put neighbor (some link)
      nodeq := st.nodeq ++ [⟨neighbor, ndist⟩] }
  else some st

def relaxAll (cdist : Int) : List Link → DijkstraState → Option DijkstraState
  | [], st => some st
  | link :: links, st => do
    let st ← st.relax linkCost isDstRooted cdist link
    relaxAll cdist links st

end DijkstraState

namespace TopologyInstance

section Dijkstra

variable (ord : HashOrder) (queue : NodeQueue) (c : Cluster) (linkCost : Option (HashMap Link Int))
  (isDstRooted : Bool)

/-- The state of `dijkstra` before its loop. -/
def dijkstraInit (root : Dpid) : DijkstraState where
  nexthoplinks := (ord.iter c.links.keySet).foldl (HashMap.put · · none) ∅
  cost := ((ord.iter c.links.keySet).foldl (HashMap.put · · MAX_PATH_WEIGHT) ∅).put root 0
  seen := []
  nodeq := [⟨root, 0⟩]

/-- The loop of `dijkstra`, for at most `fuel` rounds. -/
def dijkstraLoop : ℕ → DijkstraState → Option DijkstraState
  | 0, _ => none
  | fuel + 1, st =>
    match queue.peek st.nodeq with
    | none => some st
    | some n =>
      let st := { st with nodeq := st.nodeq.erase n }
      if n.dist ≥ MAX_PATH_WEIGHT then some st
      else if n.node ∈ st.seen then dijkstraLoop fuel st
      else do
        let st := { st with seen := setAdd st.seen n.node }
        let links ← c.links.get n.node
        let st ← st.relaxAll linkCost isDstRooted n.dist (ord.iter links)
        dijkstraLoop fuel st

/-- Every round takes an entry, and entries are added only on behalf of a link of a node that is
seen for the first time. -/
def dijkstraRounds : ℕ :=
  2 + (c.links.keySet.map fun node => ((c.links.get node).getD []).length).sum

def dijkstra (root : Dpid) : Option BroadcastTree := do
  let st ← dijkstraLoop ord queue c linkCost isDstRooted (dijkstraRounds c) (dijkstraInit ord c root)
  some ⟨st.nexthoplinks, st.cost⟩

end Dijkstra

/-! ## The trees of an instance -/

variable (ord : HashOrder) (queue : NodeQueue) (t : TopologyInstance)

/-- The links at the tunnel ports, with the weight of a tunnel. -/
def tunnelLinkCost : HashMap Link Int :=
  (ord.iter t.tunnelPorts).foldl (fun m npt =>
    match t.switchPortLinks.get npt with
    | none => m
    | some links => (ord.iter links).foldl
        (HashMap.put · · (toInt (t.switchPorts.keySet.length + 1))) m) ∅

/-- The loop of `calculateShortestPathTreeInClusters` over the nodes of a cluster. -/
def addTrees (linkCost : HashMap Link Int) (trees : HashMap Dpid BroadcastTree) (c : Cluster) :
    Option (HashMap Dpid BroadcastTree) :=
  (ord.iter c.links.keySet).foldlM (fun trees node => do
    let tree ← dijkstra ord queue c (some linkCost) true node
    some (trees.put node tree)) trees

def calculateShortestPathTreeInClusters : Option TopologyInstance := do
  let trees ← (ord.iter t.clusters).foldlM (addTrees ord queue (t.tunnelLinkCost ord)) ∅
  some { t with pathcache := [], destinationRootedTrees := trees }

/-- A cluster without a tree would be given `null`, which is dereferenced later on. -/
def calculateBroadcastTreeInClusters : Option TopologyInstance := do
  let trees ← (ord.iter t.clusters).foldlM (fun trees c => do
    let tree ← t.destinationRootedTrees.get c.id
    some (HashMap.put trees c.id tree)) ∅
  some { t with clusterBroadcastTrees := trees }

/-- The end ports of the links of a tree. -/
def treePorts (tree : BroadcastTree) : List NodePortTuple :=
  (ord.iter tree.links.keySet).foldl (fun nptSet nodeId =>
    match tree.getTreeLink nodeId with
    | none => nptSet
    | some l => setAdd (setAdd nptSet l.srcNpt) l.dstNpt) []

def calculateBroadcastNodePortsInClusters : Option TopologyInstance := do
  let t ← t.calculateBroadcastTreeInClusters ord
  let nodePorts ← (ord.iter t.clusters).foldlM (fun nodePorts c => do
    let tree ← t.clusterBroadcastTrees.get c.id
    some (HashMap.put nodePorts c.id (treePorts ord tree))) t.clusterBroadcastNodePorts
  some { t with clusterBroadcastNodePorts := nodePorts }

def compute : Option TopologyInstance := do
  let t ← t.identifyOpenflowDomains ord
  let t ← t.addLinksToOpenflowDomains ord
  let t ← t.calculateShortestPathTreeInClusters ord queue
  t.calculateBroadcastNodePortsInClusters ord

end TopologyInstance

end Torpedo
