import Torpedo.Util.Collections
import Torpedo.LinkDiscovery.Link

/-!
# The link store

`Links` keeps every discovered link with its information and three indices over it: by switch, by
switch port, and the links known from multicast discovery only (`portBroadcastDomainLinks`). Each
operation updates them by hand and appends its notifications to the queue `updates` of its manager.
-/

namespace Torpedo

/-- A probe that `OFMLinkDiscovery.sendDiscoveryMessage` is asked to send. -/
structure DiscoveryMessage where
  switchId : Dpid
  destinationPort : OFPort
  isStandard : Bool
  isReverse : Bool
deriving DecidableEq, Repr

structure Links where
  links : HashMap Link LinkInfo
  switchLinks : SetMap Dpid Link
  portLinks : SetMap NodePortTuple Link
  portBroadcastDomainLinks : SetMap NodePortTuple Link
  /-- `manager.updates`. -/
  updates : List LDUpdate
  /-- The probes requested from the manager. -/
  discoveryMessages : List DiscoveryMessage

namespace Links

def empty : Links := ⟨∅, ∅, ∅, ∅, [], []⟩

/-- The timeout of a discovery time, in seconds. -/
def linkTimeout : Int := 35

/-! ## Notifications -/

/-- `addLinkUpdate(Link, LinkInfo)`: the operation is computed from the port states. -/
def addLinkUpdate (s : Links) (lt : Link) (info : LinkInfo) : Links :=
  { s with updates := s.updates ++ [.link lt.src lt.srcPort lt.dst lt.dstPort
      (getLinkType (some info)) (getUpdateOperation info.srcPortState info.dstPortState)] }

/-- `addLinkUpdate(Link, LinkInfo, UpdateOperation)`. -/
def addLinkUpdateAs (s : Links) (lt : Link) (info : Option LinkInfo)
    (operation : UpdateOperation) : Links :=
  { s with updates := s.updates ++ [.link lt.src lt.srcPort lt.dst lt.dstPort
      (getLinkType info) operation] }

/-- `addLinkUpdate(long, OFPort, UpdateOperation)`. -/
def addPortUpdate (s : Links) (switchId : Dpid) (portNum : OFPort) (op : UpdateOperation) : Links :=
  { s with updates := s.updates ++ [.port switchId portNum op] }

/-! ## Broadcast domain links -/

def addLinkToBroadcastDomain (s : Links) (lt : Link) : Links :=
  { s with portBroadcastDomainLinks :=
      (s.portBroadcastDomainLinks.add lt.srcNpt lt).add lt.dstNpt lt }

def removeLinkFromBroadcastDomain (s : Links) (lt : Link) : Links :=
  { s with portBroadcastDomainLinks :=
      (s.portBroadcastDomainLinks.erase lt.srcNpt lt).erase lt.dstNpt lt }

/-! ## Deletion -/

/-- One round of the loop of `deleteLinks`. -/
def deleteLink (s : Links) (lt : Link) : Links :=
  let info := s.links.get lt
  addLinkUpdateAs
    { s with
      switchLinks := (s.switchLinks.erase lt.src lt).erase lt.dst lt
      portLinks := (s.portLinks.erase lt.srcNpt lt).erase lt.dstNpt lt
      links := s.links.remove lt }
    lt info .linkRemoved

def deleteLinks (s : Links) (links : List Link) : Links := links.foldl deleteLink s

def deleteLinksOnPort (ord : HashOrder) (s : Links) (npt : NodePortTuple) : Links :=
  let s :=
    match s.portLinks.get npt with
    | none => s
    | some eraseList => s.deleteLinks (ord.iter eraseList)
  s.addPortUpdate npt.nodeId npt.portId .portDown

/-- `cleanDisconnectedSwitches` for one switch that has been away for too long. -/
def deleteSwitch (ord : HashOrder) (s : Links) (id : Dpid) (ports : List OFPort) : Links :=
  ports.foldl (fun s port => s.deleteLinksOnPort ord ⟨id, port⟩) s

/-! ## Timeouts -/

/-- A discovery time that is set and out of date. -/
def Expired (time : Option Int) (curTime : Int) : Prop := ∃ t, time = some t ∧ t + linkTimeout * 1000 < curTime

instance (time : Option Int) (curTime : Int) : Decidable (Expired time curTime) :=
  match time with
  | none => .isFalse fun ⟨_, h, _⟩ => by cases h
  | some t => decidable_of_iff (t + linkTimeout * 1000 < curTime)
      ⟨fun h => ⟨t, rfl, h⟩, fun ⟨_, ht, h⟩ => Option.some.inj ht ▸ h⟩

/-- The state of the loop of `timeoutLinks`: the store, `eraseList` and `linkChanged`. -/
structure TimeoutState where
  store : Links
  eraseList : List Link
  linkChanged : Bool

/-- The first `if` of the loop of `timeoutLinks`. -/
def expireUnicast (curTime : Int) (s : Links) (lt : Link) (info : LinkInfo) : Links × LinkInfo × Bool :=
  if Expired info.lastLldpReceivedTime curTime then
    let info := { info with lastLldpReceivedTime := none }
    let s := { s with links := s.links.put lt info }
    (if info.lastBddpReceivedTime.isSome then s.addLinkToBroadcastDomain lt else s, info, true)
  else (s, info, false)

/-- The second `if` of the loop of `timeoutLinks`. -/
def expireMulticast (curTime : Int) (s : Links) (lt : Link) (info : LinkInfo) :
    Links × LinkInfo × Bool :=
  if Expired info.lastBddpReceivedTime curTime then
    let info := { info with lastBddpReceivedTime := none }
    let s := { s with links := s.links.put lt info }
    (s.removeLinkFromBroadcastDomain lt, info, true)
  else (s, info, false)

/-- One round of the loop of `timeoutLinks`. -/
def timeoutLink (curTime : Int) (st : TimeoutState) (lt : Link) : TimeoutState :=
  match st.store.links.get lt with
  | none => st
  | some info =>
    let (s, info, changed₁) := st.store.expireUnicast curTime lt info
    let (s, info, changed₂) := s.expireMulticast curTime lt info
    let linkChanged := st.linkChanged || changed₁ || changed₂
    if info.lastLldpReceivedTime = none ∧ info.lastBddpReceivedTime = none then
      ⟨s, st.eraseList ++ [lt], linkChanged⟩
    else if linkChanged then ⟨s.addLinkUpdate lt info, st.eraseList, linkChanged⟩
    else ⟨s, st.eraseList, linkChanged⟩

def timeoutLinks (ord : HashOrder) (s : Links) (curTime : Int) : Links :=
  let st := (ord.iter s.links.keySet).foldl (timeoutLink curTime) ⟨s, [], false⟩
  if 0 < st.eraseList.length ∨ st.linkChanged = true then st.store.deleteLinks st.eraseList
  else st.store

/-! ## Additions -/

/-- The discovery times of a known link after another packet: the time that the packet does not
bring is copied from the old information. -/
def copyValidTime (oldInfo newInfo : LinkInfo) : LinkInfo :=
  if newInfo.lastLldpReceivedTime = none then
    if oldInfo.lastLldpReceivedTime.isSome then
      { newInfo with lastLldpReceivedTime := oldInfo.lastLldpReceivedTime }
    else newInfo
  else if newInfo.lastBddpReceivedTime = none then
    if oldInfo.lastBddpReceivedTime.isSome then
      { newInfo with lastBddpReceivedTime := oldInfo.lastBddpReceivedTime }
    else newInfo
  else newInfo

/-- The branch of `addOrUpdateLink(Link, LinkInfo)` for a link that is not stored yet. -/
def addNewLink (s : Links) (lt : Link) (newInfo : LinkInfo) : Links :=
  let s := { s with
    links := s.links.put lt newInfo
    switchLinks := (s.switchLinks.add lt.src lt).add lt.dst lt
    portLinks := (s.portLinks.add lt.srcNpt lt).add lt.dstNpt lt }
  let s := if newInfo.lastLldpReceivedTime = none then s.addLinkToBroadcastDomain lt else s
  s.addLinkUpdateAs lt (some newInfo) .linkUpdated

/-- The branch of `addOrUpdateLink(Link, LinkInfo)` for a stored link, and its `linkChanged`. -/
def updateLink (s : Links) (lt : Link) (oldInfo newInfo : LinkInfo) : Links × Bool :=
  let newInfo :=
    if oldInfo.firstSeenTime < newInfo.firstSeenTime then
      { newInfo with firstSeenTime := oldInfo.firstSeenTime }
    else newInfo
  let newInfo := copyValidTime oldInfo newInfo
  let s := { s with links := s.links.put lt newInfo }
  let oldTime := oldInfo.lastLldpReceivedTime
  let newTime := newInfo.lastLldpReceivedTime
  let (s, linkChanged) :=
    if oldTime ≠ none ∧ newTime = none then (s.addLinkToBroadcastDomain lt, true)
    else if oldTime = none ∧ newTime ≠ none then (s.removeLinkFromBroadcastDomain lt, true)
    else (s, false)
  let linkChanged := linkChanged ||
    (decide (newInfo.srcPortState ≠ oldInfo.srcPortState) ||
      decide (newInfo.dstPortState ≠ oldInfo.dstPortState))
  (if linkChanged then s.addLinkUpdate lt newInfo else s, linkChanged)

/-- `addOrUpdateLink(Link, LinkInfo)`. -/
def addOrUpdateLinkInfo (s : Links) (lt : Link) (newInfo : LinkInfo) : Links × Bool :=
  match s.links.get lt with
  | none => (s.addNewLink lt newInfo, true)
  | some oldInfo => s.updateLink lt oldInfo newInfo

/-- The arguments of `addOrUpdateLink(long, OFPort, OFPortDesc, long, OFPort, OFPortDesc, boolean,
boolean)` and the clock readings it takes. -/
structure Discovery where
  remoteSwitchId : Dpid
  remotePort : OFPort
  remotePhyPort : Option OFPortDesc
  localSwitchId : Dpid
  localInPort : OFPort
  localInPhyPort : Option OFPortDesc
  isStandard : Bool
  isReverse : Bool
  firstSeenTime : Int
  lastTime : Int
  probeTime : Int

namespace Discovery

variable (d : Discovery)

def srcPortState : Finset OFPortState := (d.remotePhyPort.map (·.state)).getD ∅

def dstPortState : Finset OFPortState := (d.localInPhyPort.map (·.state)).getD ∅

def link : Link := ⟨d.remoteSwitchId, d.remotePort, d.localSwitchId, d.localInPort⟩

def lastLldpTime : Option Int := if d.isStandard then some d.lastTime else none

def lastBddpTime : Option Int := if d.isStandard then none else some d.lastTime

def info : LinkInfo :=
  ⟨d.firstSeenTime, d.lastLldpTime, d.lastBddpTime, d.srcPortState, d.dstPortState⟩

/-- The information of the reverse link, with the port states exchanged. -/
def reverseInfo : LinkInfo :=
  ⟨d.firstSeenTime, d.lastLldpTime, d.lastBddpTime, d.dstPortState, d.srcPortState⟩

end Discovery

/-- Probe the reverse direction of a link that LLDP has just found, if it is not stored. -/
def probeReverse (s : Links) (d : Discovery) : Links :=
  match s.links.get d.link with
  | none => s
  | some newLinkInfo =>
    if d.isStandard ∧ d.isReverse = false ∧ s.links.get d.link.reverse = none ∧
        newLinkInfo.firstSeenTime > d.probeTime - linkTimeout then
      { s with discoveryMessages :=
          s.discoveryMessages ++ [⟨d.link.dst, d.link.dstPort, d.isStandard, true⟩] }
    else s

/-- The public `addOrUpdateLink`. -/
def addOrUpdateLink (s : Links) (d : Discovery) : Links :=
  let s := (s.addOrUpdateLinkInfo d.link d.info).1
  let s := s.probeReverse d
  if d.isStandard then s else (s.addOrUpdateLinkInfo d.link.reverse d.reverseInfo).1

/-! ## Port status -/

/-- The new information of a link whose port `npt` reports `state`. -/
def updatePortState (npt : NodePortTuple) (state : Finset OFPortState) (lt : Link)
    (info : LinkInfo) : LinkInfo :=
  { info with
    srcPortState := if lt.srcNpt = npt then state else info.srcPortState
    dstPortState := if lt.dstNpt = npt then state else info.dstPortState }

/-- One round of the loop of `updatePortStatus`; the flag is `linkInfoChanged`. -/
def updateLinkStatus (npt : NodePortTuple) (state : Finset OFPortState) (st : Links × Bool)
    (lt : Link) : Links × Bool :=
  match st.1.links.get lt with
  | none => st
  | some info =>
    if (lt.srcNpt = npt ∧ info.srcPortState ≠ state) ∨ (lt.dstNpt = npt ∧ info.dstPortState ≠ state)
    then
      let info := updatePortState npt state lt info
      (addLinkUpdate { st.1 with links := st.1.links.put lt info } lt info, true)
    else st

def updatePortStatus (ord : HashOrder) (s : Links) (switchId : Dpid) (portnum : OFPort)
    (ps : OFPortStatus) : Links × Bool :=
  let npt : NodePortTuple := ⟨switchId, portnum⟩
  let (s, linkInfoChanged) :=
    match s.portLinks.get npt with
    | none => (s, false)
    | some links => (ord.iter links).foldl (updateLinkStatus npt ps.desc.state) (s, false)
  (s.addPortUpdate switchId portnum (getPortUpdateOperation ps.desc.state), linkInfoChanged)

end Links

end Torpedo
