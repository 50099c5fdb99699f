import Mathlib.Data.Finset.Basic
import Mathlib.Data.Fintype.Basic

/-!
# Links, ports and link updates

The value types of link discovery: datapath ids and ports, `NodePortTuple`, `Link`, `LinkInfo` and
the `LDUpdate` notifications, with the classification of a link (`getLinkType`) and of a port state
(`getUpdateOperation`).
-/

namespace Torpedo

/-- A datapath id, a Java `long`. -/
abbrev Dpid := Int64

/-- `OFPort`, told apart by its 32-bit port number. -/
abbrev OFPort := Int32

structure NodePortTuple where
  nodeId : Dpid
  portId : OFPort
deriving DecidableEq, Repr

structure Link where
  src : Dpid
  srcPort : OFPort
  dst : Dpid
  dstPort : OFPort
deriving DecidableEq, Repr

namespace Link

def srcNpt (l : Link) : NodePortTuple := ⟨l.src, l.srcPort⟩

def dstNpt (l : Link) : NodePortTuple := ⟨l.dst, l.dstPort⟩

/-- The two end ports. -/
def ends (l : Link) : List NodePortTuple := [l.srcNpt, l.dstNpt]

/-- The two end switches. -/
def endSwitches (l : Link) : List Dpid := [l.src, l.dst]

/-- The link in the other direction. -/
def reverse (l : Link) : Link := ⟨l.dst, l.dstPort, l.src, l.srcPort⟩

@[simp] theorem reverse_reverse (l : Link) : l.reverse.reverse = l := rfl

@[simp] theorem mem_ends {l : Link} {npt : NodePortTuple} :
    npt ∈ l.ends ↔ npt = l.srcNpt ∨ npt = l.dstNpt := by simp [ends]

@[simp] theorem mem_endSwitches {l : Link} {s : Dpid} :
    s ∈ l.endSwitches ↔ s = l.src ∨ s = l.dst := by simp [endSwitches]

end Link

/-! ## Port states -/

inductive OFPortState
  | linkDown | stpListen | stpLearn | stpForward | stpBlock | stpMask | blocked | live
deriving DecidableEq, Repr

inductive OFPortConfig
  | portDown | noStp | noRecv | noRecvStp | noFlood | noFwd | noPacketIn | bsnMirrorDest
deriving DecidableEq, Repr

inductive OFPortReason
  | add | delete | modify
deriving DecidableEq, Repr

/-- The part of an `OFPortDesc` that link discovery reads. -/
structure OFPortDesc where
  portNo : OFPort
  config : Finset OFPortConfig
  state : Finset OFPortState
deriving DecidableEq

structure OFPortStatus where
  reason : OFPortReason
  desc : OFPortDesc
deriving DecidableEq

/-- `OFProtocol.portEnabled(OFPortDesc)`. -/
def OFPortDesc.portEnabled (port : OFPortDesc) : Bool :=
  if .portDown ∈ port.config then false
  else if .linkDown ∈ port.state ∨ .blocked ∈ port.state then false
  else true

/-- `OFProtocol.portEnabled(IOFSwitch, OFPort)` on the description found for the port, if any. -/
def portEnabled (desc : Option OFPortDesc) : Bool :=
  match desc with
  | none => false
  | some desc => desc.portEnabled

/-! ## Link information and updates -/

inductive LinkType
  | invalidLink | directLink | multihopLink | tunnel
deriving DecidableEq, Repr

inductive UpdateOperation
  | linkUpdated | linkRemoved | switchUpdated | switchRemoved | portUp | portDown
deriving DecidableEq, Repr

structure LinkInfo where
  firstSeenTime : Int
  /-- The unicast valid time: when the last LLDP packet was received. -/
  lastLldpReceivedTime : Option Int
  /-- The multicast valid time: when the last BDDP packet was received. -/
  lastBddpReceivedTime : Option Int
  srcPortState : Finset OFPortState
  dstPortState : Finset OFPortState
deriving DecidableEq

/-- `OFMLinkDiscovery.getLinkType`. -/
def getLinkType (info : Option LinkInfo) : LinkType :=
  match info with
  | none => .invalidLink
  | some info =>
    if info.lastLldpReceivedTime.isSome then .directLink
    else if info.lastBddpReceivedTime.isSome then .multihopLink
    else .invalidLink

/-- `getUpdateOperation(Set<OFPortState>)`. -/
def getPortUpdateOperation (srcPortState : Finset OFPortState) : UpdateOperation :=
  if .stpBlock ∉ srcPortState ∧ .linkDown ∉ srcPortState ∧ .blocked ∉ srcPortState then .portUp
  else .portDown

/-- `getUpdateOperation(Set<OFPortState>, Set<OFPortState>)`. -/
def getUpdateOperation (srcPortState dstPortState : Finset OFPortState) : UpdateOperation :=
  let srcPortUp := .stpBlock ∉ srcPortState ∧ .linkDown ∉ srcPortState ∧ .blocked ∉ srcPortState
  let dstPortUp := .stpBlock ∉ dstPortState ∧ .linkDown ∉ dstPortState ∧ .blocked ∉ dstPortState
  if srcPortUp ∧ dstPortUp then .linkUpdated else .linkRemoved

/-- Both recorded port states are forwarding. -/
def LinkInfo.Forwarding (info : LinkInfo) : Prop :=
  getUpdateOperation info.srcPortState info.dstPortState = .linkUpdated

instance (info : LinkInfo) : Decidable info.Forwarding := by
  unfold LinkInfo.Forwarding; infer_instance

theorem getUpdateOperation_eq (info : LinkInfo) :
    getUpdateOperation info.srcPortState info.dstPortState =
      if info.Forwarding then .linkUpdated else .linkRemoved := by
  unfold LinkInfo.Forwarding getUpdateOperation
  dsimp only
  split_ifs <;> simp_all

/-- `LDUpdate`, one constructor for each constructor of the class. -/
inductive LDUpdate
  | link (src : Dpid) (srcPort : OFPort) (dst : Dpid) (dstPort : OFPort) (type : LinkType)
      (operation : UpdateOperation)
  | port (sw : Dpid) (port : OFPort) (operation : UpdateOperation)
  | switch (switchId : Dpid) (operation : UpdateOperation)
deriving DecidableEq, Repr

end Torpedo
