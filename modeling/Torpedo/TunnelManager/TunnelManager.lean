import Torpedo.TunnelManager.Node
import Torpedo.Util.Runs

/-!
# The tunnel manager

`OFMTunnelManager` knows the nodes, and maps networks and ports on them. Each node has an agent that runs
commands; the answers of the agents, and what the commands change, are open (`Platform`). An agent that does
not answer gives no lines. The thread of `port_tagging` changes nothing here and is left out.
-/

namespace Torpedo

/-! ## Commands -/

inductive Bridge
  | integration | tunneling
deriving DecidableEq, Repr

def Bridge.name : Bridge → String
  | .integration => "br-int"
  | .tunneling => "br-tun"

/-- The commands that an agent is asked to run. -/
inductive Command
  | getDatapathId (bridge : Bridge)
  | getOfport (interface : String)
  | delController (bridge : Bridge)
  | setController (bridge : Bridge) (irisIp : String)
  | addPort (bridge : Bridge) (portName localIpTun remoteIpTun : String)
  | delPort (bridge : Bridge) (portName : String)
  | addFlow (bridge : Bridge) (flow : String)
  | delFlows (bridge : Bridge) (flow : String)
deriving DecidableEq, Repr

/-- The configuration, the resolver of names, the order of hash maps, and the agents of the nodes. -/
structure Platform (ε : Type) where
  tunnelType : String
  vxlanPortNumber : String
  portNumber : String
  getAddress : String → Option (List UInt8)
  order : HashOrder
  post : String → Command → ε → ε
  get : String → Command → ε → List String × ε

/-- The text of a command. -/
def Command.text {ε : Type} (p : Platform ε) : Command → String
  | .getDatapathId bridge => "sudo ovs-vsctl get Bridge " ++ bridge.name ++ " datapath_id"
  | .getOfport interface => "sudo ovs-vsctl get Interface " ++ interface ++ " ofport"
  | .delController bridge => "sudo ovs-vsctl del-controller " ++ bridge.name
  | .setController bridge irisIp =>
    "sudo ovs-vsctl set-controller " ++ bridge.name ++ " tcp:" ++ irisIp ++ ":" ++ p.portNumber
  | .addPort bridge portName localIpTun remoteIpTun =>
    "sudo ovs-vsctl --may-exist add-port " ++ bridge.name ++ " " ++ portName ++ " -- set Interface " ++
      portName ++ " type=" ++ p.tunnelType ++ " options:in_key=flow options:local_ip=" ++ localIpTun ++
      " options:out_key=flow options:remote_ip=" ++ remoteIpTun ++ " options:dst_port=" ++ p.vxlanPortNumber
  | .delPort bridge portName => "sudo ovs-vsctl del-port " ++ bridge.name ++ " " ++ portName
  | .addFlow bridge flow => "sudo ovs-ofctl add-flow " ++ bridge.name ++ " " ++ flow
  | .delFlows bridge flow => "sudo ovs-ofctl del-flows " ++ bridge.name ++ " " ++ flow

namespace TunnelFlow

def tunPeerPatchPort : String := "patch-int"

def patchLvToTun : String := "1"

def greTunToLv : String := "2"

def vxlanTunToLv : String := "3"

def learnFromTun : String := "10"

def ucastToTun : String := "20"

def floodToTun : String := "21"

def canaryTable : String := "22"

/-- Flows without timeouts. -/
def lasting (flow : String) : String := "hard_timeout=0,idle_timeout=0," ++ flow

def ofVlan (vlanId : String) : String := "table=" ++ floodToTun ++ ",dl_vlan=" ++ vlanId

def ofTunnel (tunId : String) : String := "table=" ++ vxlanTunToLv ++ ",tun_id=" ++ tunId

end TunnelFlow

/-- The key of a tunnel, which is the segmentation id in hexadecimal. -/
def tunId (providerSegmentationId : Option String) : Option String :=
  (parseInteger providerSegmentationId).map fun n => "0x" ++ String.ofList (Nat.toDigits 16 (n % 2 ^ 32).toNat)

/-- The value of a hexadecimal digit. -/
def hexDigit (c : Char) : Option ℕ :=
  if c.isDigit then some (c.toNat - '0'.toNat)
  else if 'a' ≤ c ∧ c ≤ 'f' then some (c.toNat - 'a'.toNat + 10)
  else if 'A' ≤ c ∧ c ≤ 'F' then some (c.toNat - 'A'.toNat + 10)
  else none

/-- `Long.parseLong` of hexadecimal digits, without the quotes. -/
def parseDatapathId (s : String) : Option ℤ :=
  let digits (cs : List Char) : Option ℤ :=
    if cs = [] then none
    else cs.foldl (fun n c => do return (← n) * 16 + (← hexDigit c)) (some 0)
  let n := match s.toList.filter (· ≠ '"') with
    | '-' :: cs => (digits cs).map (- ·)
    | '+' :: cs => digits cs
    | cs => digits cs
  n.filter fun n => -2 ^ 63 ≤ n ∧ n < 2 ^ 63

/-- `HexString.toHexString`, without the colons. -/
def toHexString (bytes : List UInt8) : String :=
  String.ofList (bytes.flatMap fun b => [Nat.digitChar (b.toNat / 16), Nat.digitChar (b.toNat % 16)])

/-! ## The state -/

/-- The last field is what the agents work on. -/
structure OFMTunnelManager (ε : Type) where
  nodesByIp : HashMap String NodeDefinition
  intDpidByIp : HashMap String ℤ
  nodeIpByDpid : HashMap ℤ String
  vNetsByGuid : HashMap String NetworkDefinition
  vPortsByGuid : HashMap String PortDefinition
  vmByGuid : HashMap String PortDefinition
  agents : ε

namespace NodeDefinition

def addPort (port : PortDefinition) (node : NodeDefinition) : NodeDefinition :=
  { node with usedLocalVPortsByGuid := some ((node.usedLocalVPortsByGuid.getD ∅).put port.portId port) }

def removePort (portId : String) (node : NodeDefinition) : NodeDefinition :=
  { node with usedLocalVPortsByGuid := node.usedLocalVPortsByGuid.map (·.remove portId) }

/-- No port is on the node. -/
def noPorts (node : NodeDefinition) : Bool := node.usedLocalVPortsByGuid.all (·.keySet.isEmpty)

def addOfport (ofport : String) (node : NodeDefinition) : NodeDefinition :=
  { node with localVlanOfports := some (setAdd (node.localVlanOfports.getD []) ofport) }

def removeOfport (ofport : String) (node : NodeDefinition) : NodeDefinition :=
  { node with localVlanOfports := node.localVlanOfports.map (·.erase ofport) }

/-- The numbers of the tunnel ports, with commas between them. -/
def ofports (node : NodeDefinition) : Option String := node.localVlanOfports.map (",".intercalate ·)

end NodeDefinition

namespace Platform

open TunnelFlow

variable {ε α : Type} (p : Platform ε)

/-! ## Nodes and agents -/

def restPost (nodeIp : String) (command : Command) : Method (OFMTunnelManager ε) Unit :=
  Method.modify fun tm => { tm with agents := p.post nodeIp command tm.agents }

/-- The first line of the answer. -/
def restGet (nodeIp : String) (command : Command) : Method (OFMTunnelManager ε) String := do
  let tm ← Method.get
  Method.modify fun tm => { tm with agents := (p.get nodeIp command tm.agents).2 }
  Method.nonNull (p.get nodeIp command tm.agents).1.head?

/-- A method of the node of an address. -/
def atNode (nodeIp : String) (m : Method NodeDefinition α) : Method (OFMTunnelManager ε) α := do
  let tm ← Method.get
  let node ← Method.nonNull (tm.nodesByIp.get nodeIp)
  Method.zoom (fun _ => node) (fun node tm => { tm with nodesByIp := tm.nodesByIp.change nodeIp fun _ => node }) m

/-- The address of the last node of a kind, or the empty string. -/
def findNode (tm : OFMTunnelManager ε) (kind : NodeDefinition → Bool) : String :=
  (p.order.iter tm.nodesByIp.keySet).foldl
    (fun found nodeIp => if (tm.nodesByIp.get nodeIp).any kind then nodeIp else found) ""

def networkNodeIp (tm : OFMTunnelManager ε) : String := p.findNode tm (·.nodeType = "network")

def computeNodeIp (tm : OFMTunnelManager ε) (bindingHostId : String) : String :=
  p.findNode tm (·.nodeName = bindingHostId)

/-- The loop over the nodes calls `equals` on the host, which may be null. -/
def hostNodeIp (bindingHostId : Option String) : Method (OFMTunnelManager ε) String := do
  let tm ← Method.get
  if tm.nodesByIp.keySet = [] then return ""
  else return p.computeNodeIp tm (← Method.nonNull bindingHostId)

/-! ## Flows of VLANs -/

/-- The loop of `ofports_flow`. -/
def floodVlan (nodeIp ofports : String) (used : HashMap String NetworkDefinition) (vlanId : String) :
    Method (OFMTunnelManager ε) Unit := do
  let network ← Method.nonNull (used.get vlanId)
  let tunId ← Method.nonNull (tunId network.providerSegmentationId)
  if ofports = "" then
    p.restPost nodeIp (.delFlows .tunneling (ofVlan vlanId))
    p.restPost nodeIp (.delFlows .tunneling (ofTunnel tunId))
    atNode nodeIp (NodeDefinition.releaseVlan (some vlanId) network.netId)
  else
    p.restPost nodeIp (.addFlow .tunneling
      (ofVlan vlanId ++ ",actions=strip_vlan,set_tunnel:" ++ tunId ++ ",output:" ++ ofports))

def ofportsFlow (nodeIp : String) : Method (OFMTunnelManager ε) Unit := Method.catchAll do
  let tm ← Method.get
  let node ← Method.nonNull (tm.nodesByIp.get nodeIp)
  match node.ofports with
  | none => return
  | some ofports =>
    let used := node.usedLocalVNetsByVlanid.getD ∅
    Method.forEach (p.floodVlan nodeIp ofports used) (p.order.iter used.keySet)

/-- A network takes a VLAN of a node. -/
def mapNetwork (nodeIp : String) (netId : Option String) (network : Option NetworkDefinition) :
    Method (OFMTunnelManager ε) Unit := do
  let modVlanVid ← atNode nodeIp (NodeDefinition.takeVlan netId network)
  let tunId ← Method.nonNull (network.bind fun network => tunId network.providerSegmentationId)
  p.restPost nodeIp (.addFlow .tunneling (lasting ("table=" ++ vxlanTunToLv ++ ",priority=1,tun_id=" ++ tunId ++
    ",actions=mod_vlan_vid:" ++ modVlanVid ++ ",resubmit(," ++ learnFromTun ++ ")")))

/-- The flows of a VLAN are deleted, and the VLAN is available again. -/
def unmapNetwork (nodeIp : String) (vlanId : Option String) (tunId networkId : String) :
    Method (OFMTunnelManager ε) Unit := do
  p.restPost nodeIp (.delFlows .tunneling (ofVlan (vlanId.getD "null")))
  p.restPost nodeIp (.delFlows .tunneling (ofTunnel tunId))
  atNode nodeIp (NodeDefinition.releaseVlan vlanId networkId)

/-! ## Networks -/

def createNetworkFlow (network : NetworkDefinition) : Method (OFMTunnelManager ε) Unit := do
  Method.modify fun tm => { tm with vNetsByGuid := tm.vNetsByGuid.put network.netId network }
  let tm ← Method.get
  if p.networkNodeIp tm ≠ "" then
    Method.catchAll do
      p.mapNetwork (p.networkNodeIp tm) (some network.netId) (some network)
      p.ofportsFlow (p.networkNodeIp tm)

/-- The loop of `delete_network_flow`. An exception is not caught. -/
def unmapAt (networkId nodeIp : String) : Method (OFMTunnelManager ε) Unit := do
  let tm ← Method.get
  let node ← Method.nonNull (tm.nodesByIp.get nodeIp)
  match node.network networkId with
  | none => return
  | some network =>
    let vlans ← Method.nonNull node.localVNetidToVlanid
    let tunId ← Method.nonNull (tunId network.providerSegmentationId)
    p.unmapNetwork nodeIp (vlans.get networkId) tunId networkId

def deleteNetworkFlow (networkId : String) : Method (OFMTunnelManager ε) Unit := do
  Method.modify fun tm => { tm with vNetsByGuid := tm.vNetsByGuid.remove networkId }
  let tm ← Method.get
  Method.forEach (p.unmapAt networkId) (p.order.iter tm.nodesByIp.keySet)

/-! ## Ports -/

/-- The owners whose ports are on the network node. -/
def IsNetworkOwner (deviceOwner : Option String) : Prop :=
  deviceOwner = some "network:dhcp" ∨ deviceOwner = some "network:router_interface"

/-- The owners whose ports are on the node of their host. -/
def IsComputeOwner (deviceOwner : Option String) : Prop :=
  deviceOwner = some "compute:nova" ∨ deviceOwner = some "compute:None"

instance (deviceOwner : Option String) : Decidable (IsNetworkOwner deviceOwner) :=
  inferInstanceAs (Decidable (_ ∨ _))

instance (deviceOwner : Option String) : Decidable (IsComputeOwner deviceOwner) :=
  inferInstanceAs (Decidable (_ ∨ _))

/-- The network is mapped on the node. The key may be null, and is not looked up if there is no map. -/
def isMapped (node : NodeDefinition) (networkId : Option String) : Method (OFMTunnelManager ε) Bool :=
  match node.usedLocalVNetsByGuid with
  | none => return false
  | some networks => return networks.containsKey (← Method.nonNull networkId)

/-- A port is put on a compute node. -/
def placePort (port : PortDefinition) (nodeIp : String) : Method (OFMTunnelManager ε) Unit := do
  atNode nodeIp (Method.modify (NodeDefinition.addPort port))
  Method.modify fun tm => { tm with vmByGuid := tm.vmByGuid.put port.portId port }
  p.ofportsFlow nodeIp

/-- A port comes to a compute node. -/
def createPortAt (port : PortDefinition) (nodeIp : String) : Method (OFMTunnelManager ε) Unit := do
  let tm ← Method.get
  let node ← Method.nonNull (tm.nodesByIp.get nodeIp)
  if !(← isMapped node port.networkId) then
    p.mapNetwork nodeIp port.networkId (port.networkId.bind tm.vNetsByGuid.get)
  p.placePort port nodeIp

def createPortFlow (port : PortDefinition) : Method (OFMTunnelManager ε) Unit := do
  Method.modify fun tm => { tm with vPortsByGuid := tm.vPortsByGuid.put port.portId port }
  let tm ← Method.get
  if IsNetworkOwner port.deviceOwner then
    if p.networkNodeIp tm ≠ "" then
      atNode (p.networkNodeIp tm) (Method.modify (NodeDefinition.addPort port))
  else if IsComputeOwner port.deviceOwner then
    let nodeIp ← p.hostNodeIp port.bindingHostId
    if nodeIp ≠ "" then
      Method.catchAll (p.createPortAt port nodeIp)

/-- A port is taken off a compute node, if it is there. -/
def displacePort (node : NodeDefinition) (portId nodeIp : String) : Method (OFMTunnelManager ε) Unit :=
  if (node.port portId).isSome then do
    atNode nodeIp (Method.modify (NodeDefinition.removePort portId))
    Method.modify fun tm => { tm with vmByGuid := tm.vmByGuid.remove portId }
  else
    return

/-- A port leaves a compute node. -/
def deletePortAt (port : PortDefinition) (portId nodeIp : String) : Method (OFMTunnelManager ε) Unit := do
  let tm ← Method.get
  let node ← Method.nonNull (tm.nodesByIp.get nodeIp)
  let vlans ← Method.nonNull node.localVNetidToVlanid
  let networkId ← Method.nonNull port.networkId
  let network ← Method.nonNull (tm.vNetsByGuid.get networkId)
  let tunId ← Method.nonNull (tunId network.providerSegmentationId)
  displacePort node portId nodeIp
  -- the other ports may be of other networks
  if (node.removePort portId).noPorts then
    p.unmapNetwork nodeIp (vlans.get networkId) tunId networkId

def deletePortFlow (portId : String) : Method (OFMTunnelManager ε) Unit := do
  let tm ← Method.get
  let port ← Method.nonNull (tm.vPortsByGuid.get portId)
  Method.modify fun tm => { tm with vPortsByGuid := tm.vPortsByGuid.remove portId }
  let tm ← Method.get
  if IsNetworkOwner port.deviceOwner then
    if p.networkNodeIp tm ≠ "" then
      atNode (p.networkNodeIp tm) (Method.modify (NodeDefinition.removePort portId))
  else if IsComputeOwner port.deviceOwner then
    let nodeIp ← p.hostNodeIp port.bindingHostId
    if nodeIp ≠ "" then
      p.deletePortAt port portId nodeIp

/-! ## Tunnels -/

def datapathId (nodeIp : String) (bridge : Bridge) : Method (OFMTunnelManager ε) ℤ := do
  Method.nonNull (parseDatapathId (← p.restGet nodeIp (.getDatapathId bridge)))

/-- The flows of a new bridge, in the order in which they are added. -/
def bridgeFlows (patchIntOfport : String) : List (Bridge × String) :=
  [(.integration, "priority=100,dl_type=0x88cc,actions=CONTROLLER"),
   (.integration, "table=" ++ canaryTable ++ ",priority=0,actions=drop"),
   (.tunneling, "priority=100,dl_type=0x88cc,actions=CONTROLLER"),
   (.tunneling, "priority=1,in_port=" ++ patchIntOfport ++ ",actions=resubmit(," ++ patchLvToTun ++ ")"),
   (.tunneling, "priority=0,actions=drop"),
   (.tunneling, "table=" ++ patchLvToTun ++
      ",priority=1,dl_dst=00:00:00:00:00:00/01:00:00:00:00:00,actions=resubmit(," ++ ucastToTun ++ ")"),
   (.tunneling, "table=" ++ patchLvToTun ++
      ",priority=1,dl_dst=01:00:00:00:00:00/01:00:00:00:00:00,actions=resubmit(," ++ floodToTun ++ ")")] ++
  (if p.tunnelType = "gre" then [(.tunneling, "table=" ++ greTunToLv ++ ",priority=0,actions=drop")]
    else if p.tunnelType = "vxlan" then [(.tunneling, "table=" ++ vxlanTunToLv ++ ",priority=0,actions=drop")]
    else []) ++
  [(.tunneling, "table=" ++ learnFromTun ++ ",priority=1,actions=learn(table=" ++ ucastToTun ++
      ",priority=1,hard_timeout=300,NXM_OF_VLAN_TCI[0..11],NXM_OF_ETH_DST[]=NXM_OF_ETH_SRC[]," ++
      "load:0->NXM_OF_VLAN_TCI[],load:NXM_NX_TUN_ID[]->NXM_NX_TUN_ID[],output:NXM_OF_IN_PORT[]),output:" ++
      patchIntOfport),
   (.tunneling, "table=" ++ ucastToTun ++ ",priority=0,actions=resubmit(," ++ floodToTun ++ ")"),
   (.tunneling, "table=" ++ floodToTun ++ ",priority=0,actions=drop")]

def setupBridge (nodeIp irisIp : String) : Method (OFMTunnelManager ε) Unit := Method.catchAll do
  let patchIntOfport ← p.restGet nodeIp (.getOfport tunPeerPatchPort)
  Method.forEach (p.restPost nodeIp)
    [.delController .integration, .delController .tunneling,
     .setController .integration irisIp, .setController .tunneling irisIp]
  Method.forEach (fun flow => p.restPost nodeIp (.addFlow flow.1 (lasting flow.2))) (p.bridgeFlows patchIntOfport)

/-- The name of the tunnel port to an address. -/
def tunnelName (nodeIpTun : String) : Option String :=
  (p.getAddress nodeIpTun).map fun address => p.tunnelType ++ "-" ++ toHexString address

def setupTunnelPort (nodeIp portName localIpTun remoteIpTun : String) : Method (OFMTunnelManager ε) Unit :=
  Method.catchAll do
    p.restPost nodeIp (.addPort .tunneling portName localIpTun remoteIpTun)
    let ofport ← p.restGet nodeIp (.getOfport portName)
    p.restPost nodeIp (.addFlow .tunneling (lasting ("priority=1,in_port=" ++ ofport ++ ",actions=resubmit(," ++
      vxlanTunToLv ++ ")")))
    atNode nodeIp (Method.modify (NodeDefinition.addOfport ofport))
    p.ofportsFlow nodeIp

/-- The tunnels between a new node and another one, in both directions. -/
def connectNodes (nodeIpMgt nodeIpTun remoteIpMgt : String) : Method (OFMTunnelManager ε) Unit := do
  let tm ← Method.get
  let remote ← Method.nonNull (tm.nodesByIp.get remoteIpMgt)
  if remoteIpMgt ≠ nodeIpMgt then
    p.setupTunnelPort nodeIpMgt (← Method.nonNull (p.tunnelName remote.nodeIpTun)) nodeIpTun remote.nodeIpTun
    p.setupTunnelPort remoteIpMgt (← Method.nonNull (p.tunnelName nodeIpTun)) remote.nodeIpTun nodeIpTun

/-- A node that is new. -/
def registerNode (nodeIpMgt nodeIpTun nodeName nodeType irisIp : String) (now : ℤ) :
    Method (OFMTunnelManager ε) Unit := do
  Method.modify fun tm => { tm with
    nodesByIp := tm.nodesByIp.put nodeIpMgt (.new nodeIpMgt nodeIpTun nodeName nodeType now) }
  let intDpid ← p.datapathId nodeIpMgt .integration
  let tunDpid ← p.datapathId nodeIpMgt .tunneling
  Method.modify fun tm => { tm with
    intDpidByIp := tm.intDpidByIp.put nodeIpMgt intDpid
    nodeIpByDpid := (tm.nodeIpByDpid.put intDpid nodeIpMgt).put tunDpid nodeIpMgt }
  p.setupBridge nodeIpMgt irisIp
  let tm ← Method.get
  if 1 < tm.nodesByIp.keySet.length then
    Method.forEach (p.connectNodes nodeIpMgt nodeIpTun) (p.order.iter tm.nodesByIp.keySet)

def addTunnel (nodeIpMgt nodeIpTun nodeName nodeType irisIp : String) (now : ℤ) :
    Method (OFMTunnelManager ε) Unit := Method.catchAll do
  let tm ← Method.get
  if !tm.nodesByIp.containsKey nodeIpMgt then
    p.registerNode nodeIpMgt nodeIpTun nodeName nodeType irisIp now
  atNode nodeIpMgt (Method.modify fun node => { node with currentTime := now, nodeName, nodeType })

def deleteTimeGap : ℤ := 3

/-- A node loses its tunnel to a node that is gone. -/
def disconnectNode (delTunName nodeIp : String) : Method (OFMTunnelManager ε) Unit := do
  let inPort ← p.restGet nodeIp (.getOfport delTunName)
  p.restPost nodeIp (.delPort .tunneling delTunName)
  p.restPost nodeIp (.delFlows .tunneling ("in_port=" ++ inPort))
  atNode nodeIp (Method.modify (NodeDefinition.removeOfport inPort))
  p.ofportsFlow nodeIp

/-- A node is gone if it has not been added again for a time. -/
def removeNode (now : ℤ) (nodeIp : String) : Method (OFMTunnelManager ε) Unit := do
  let tm ← Method.get
  let node ← Method.nonNull (tm.nodesByIp.get nodeIp)
  if deleteTimeGap ≤ now - node.currentTime then
    let delTunName ← Method.nonNull (p.tunnelName node.nodeIpTun)
    Method.modify fun tm => { tm with
      nodesByIp := tm.nodesByIp.remove nodeIp
      intDpidByIp := tm.intDpidByIp.remove nodeIp
      nodeIpByDpid := tm.nodeIpByDpid.keySet.foldl
        (fun m dpid => if m.get dpid = some nodeIp then m.remove dpid else m) tm.nodeIpByDpid }
    let tm ← Method.get
    Method.forEach (p.disconnectNode delTunName) (p.order.iter tm.nodesByIp.keySet)

def delTunnel (now : ℤ) : Method (OFMTunnelManager ε) Unit := Method.catchAll do
  let tm ← Method.get
  Method.forEach (p.removeNode now) (p.order.iter tm.nodesByIp.keySet)

end Platform

/-! ## Runs -/

inductive TunnelCall
  | addTunnel (nodeIpMgt nodeIpTun nodeName nodeType irisIp : String) (now : ℤ)
  | createNetworkFlow (network : NetworkDefinition)
  | deleteNetworkFlow (networkId : String)
  | createPortFlow (port : PortDefinition)
  | deletePortFlow (portId : String)
  | ofportsFlow (nodeIp : String)

def OFMTunnelManager.initial {ε : Type} (agents : ε) : OFMTunnelManager ε := ⟨∅, ∅, ∅, ∅, ∅, ∅, agents⟩

namespace Platform

variable {ε : Type} (p : Platform ε)

def call : TunnelCall → Method (OFMTunnelManager ε) Unit
  | .addTunnel nodeIpMgt nodeIpTun nodeName nodeType irisIp now =>
    p.addTunnel nodeIpMgt nodeIpTun nodeName nodeType irisIp now
  | .createNetworkFlow network => p.createNetworkFlow network
  | .deleteNetworkFlow networkId => p.deleteNetworkFlow networkId
  | .createPortFlow port => p.createPortFlow port
  | .deletePortFlow portId => p.deletePortFlow portId
  | .ofportsFlow nodeIp => p.ofportsFlow nodeIp

def step (tm : OFMTunnelManager ε) (call : TunnelCall) : OFMTunnelManager ε := (p.call call tm).2

end Platform

end Torpedo
