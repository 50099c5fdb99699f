import Torpedo.LinkDiscovery.Link
import Torpedo.Util.Collections

/-!
# The controller

`OFController` with its `OFProtocol`, the connections and the switches. A switch object is made once
for each connection, when its first event comes, so both go by the sequence number of the connection.
What the modules do is a parameter (`Handlers`): they read the whole controller, and change their own
state and write to the connection.
-/

namespace Torpedo

/-! ## Messages -/

inductive OFVersion
  | of10 | of11 | of12 | of13
deriving DecidableEq, Repr

/-- The body of an `OFStatsReply`. -/
inductive OFStats
  | portDesc (entries : List OFPortDesc)
  | desc (description : String)
  /-- Statistics of a type that only the waiting request reads. -/
  | other (type : ℕ)
deriving DecidableEq

/-- The messages of a switch, with the fields that `OFProtocol.process` reads. -/
inductive OFMessage
  | hello (version : OFVersion)
  | error
  | echoRequest (version : OFVersion) (xid : ℕ) (data : List UInt8)
  /-- The port list is `none` where `getPorts` is not supported. -/
  | featuresReply (version : OFVersion) (xid : ℕ) (datapathId : Dpid) (ports : Option (List OFPortDesc))
  | portStatus (ps : OFPortStatus)
  | statsReply (xid : ℕ) (stats : OFStats) (replyMore : Bool)
  | packetIn (data : List UInt8)
  | flowRemoved
  /-- A message of another type. -/
  | other (type : ℕ)
deriving DecidableEq

/-- The messages to a switch. -/
inductive OFRequest
  | hello (version : OFVersion)
  | featuresRequest (version : OFVersion)
  | echoReply (version : OFVersion) (xid : ℕ) (data : List UInt8)
  | portDescStatsRequest (version : OFVersion)
  | setConfig (version : OFVersion)
  | descStatsRequest (version : OFVersion)
  /-- The flow that sends a packet without a match to the controller. -/
  | flowAdd (version : OFVersion)
  /-- A message of a module. -/
  | module (m : ℕ)
deriving DecidableEq, Repr

/-! ## Connections and switches -/

/-- `Connection.STATUS`. -/
inductive Status
  | connected | running | closed
deriving DecidableEq, Repr

/-- The name of the host at the other end. -/
abbrev Host := String

/-- `Connection`. -/
structure Connection where
  host : Host
  status : Status
  /-- The switch object, from the first event to `close`. -/
  sw : Option ℕ
  isConnected : Bool
deriving DecidableEq

/-- `close` of a connection that is open. -/
def Connection.close (conn : Connection) : Connection :=
  { conn with status := .closed, sw := none, isConnected := false }

/-- `OFSwitchImpl`. -/
structure OFSwitch where
  version : OFVersion
  /-- The datapath id; `getId` throws as long as there is none, and `getStringId` is `null`. -/
  id : Option Dpid
  conn : Option ℕ
deriving DecidableEq

/-- A new switch object of a connection. -/
def OFSwitch.new (c : ℕ) : OFSwitch := ⟨.of10, none, some c⟩

/-! ## The protocol -/

/-- `SwitchInfo`. -/
structure SwitchInfo where
  descStatsReply : Option String
  featuresReply : Option OFMessage
deriving DecidableEq

/-- `OFProtocol`. -/
structure OFProtocol where
  switchInformations : HashMap ℕ SwitchInfo
  portInformations : HashMap ℕ (HashMap OFPort OFPortDesc)
  /-- The replies that came for each request that waits, by switch and transaction id. -/
  responsesCache : HashMap ℕ (HashMap ℕ (List OFMessage))
  helloFailedSwitches : List Host

namespace OFProtocol

def new : OFProtocol := ⟨∅, ∅, ∅, []⟩

def getSwitchInformation (p : OFProtocol) (sw : ℕ) : SwitchInfo :=
  (p.switchInformations.get sw).getD ⟨none, none⟩

/-- `setSwitchInformation` with a description. -/
def setDescription (p : OFProtocol) (sw : ℕ) (r : String) : OFProtocol :=
  { p with switchInformations :=
      p.switchInformations.put sw { p.getSwitchInformation sw with descStatsReply := some r } }

/-- `setSwitchInformation` with a features reply. -/
def setFeaturesReply (p : OFProtocol) (sw : ℕ) (r : OFMessage) : OFProtocol :=
  { p with switchInformations :=
      p.switchInformations.put sw { p.getSwitchInformation sw with featuresReply := some r } }

def setPortInformation (p : OFProtocol) (sw : ℕ) (desc : OFPortDesc) : OFProtocol :=
  { p with portInformations :=
      p.portInformations.put sw (((p.portInformations.get sw).getD ∅).put desc.portNo desc) }

def removePortInformation (p : OFProtocol) (sw : ℕ) (desc : OFPortDesc) : OFProtocol :=
  match p.portInformations.get sw with
  | none => p
  | some inner => { p with portInformations := p.portInformations.put sw (inner.remove desc.portNo) }

def setPortInformations (p : OFProtocol) (sw : ℕ) (ports : List OFPortDesc) : OFProtocol :=
  ports.foldl (fun p port => p.setPortInformation sw port) p

/-- `deliverSwitchStatistics` and `deliverFeaturesReply`: add the reply to the request that waits. -/
def deliver (p : OFProtocol) (sw xid : ℕ) (m : OFMessage) : OFProtocol :=
  match p.responsesCache.get sw with
  | none => p
  | some rcache =>
    match rcache.get xid with
    | none => p
    | some response =>
      { p with responsesCache := p.responsesCache.put sw (rcache.put xid (response ++ [m])) }

/-- What a port-status message does to the ports of a switch. -/
def updatePort (p : OFProtocol) (sw : ℕ) (ps : OFPortStatus) : OFProtocol :=
  match ps.reason with
  | .delete => p.removePortInformation sw ps.desc
  | .modify => (p.removePortInformation sw ps.desc).setPortInformation sw ps.desc
  | .add => p.setPortInformation sw ps.desc

end OFProtocol

/-! ## The controller -/

/-- What a call ends with. -/
inductive HandlerResult
  | returned (handled : Bool)
  | thrown
deriving DecidableEq, Repr

/-- `OFController`, with everything that it holds. -/
structure Controller (σ : Type) where
  /-- `Connection.SEQ`. -/
  seq : ℕ
  conns : HashMap ℕ Connection
  switchObjects : HashMap ℕ OFSwitch
  switches : HashMap Dpid ℕ
  protocol : OFProtocol
  modules : σ
  /-- The messages written so far, with their connections. -/
  written : List (ℕ × OFRequest)
  /-- The calls of `processDisconnect` so far: the module, the connection and its switch. -/
  disconnects : List (ℕ × ℕ × Option ℕ)

/-- What the modules of a controller do. -/
structure Handlers (σ : Type) where
  handlePacketIn : Controller σ → ℕ → OFMessage → HandlerResult × σ × List OFRequest
  handleGeneric : Controller σ → ℕ → OFMessage → HandlerResult × σ × List OFRequest
  /-- `processDisconnect` of each module: whether it throws. -/
  processDisconnect : List (Controller σ → ℕ → Bool × σ)

/-- The handlers of a controller without modules. -/
def Handlers.idle : Handlers Unit where
  handlePacketIn _ _ _ := (.returned true, (), [])
  handleGeneric _ _ _ := (.returned true, (), [])
  processDisconnect := []

namespace Controller

variable {σ : Type}

def new (modules : σ) : Controller σ := ⟨0, ∅, ∅, ∅, .new, modules, [], []⟩

/-- `getSwitch` of a connection. -/
def getSwitch (s : Controller σ) (c : ℕ) : Option ℕ := (s.conns.get c).bind Connection.sw

/-- `getId` of the switch of a connection. -/
def getId (s : Controller σ) (c : ℕ) : Option Dpid :=
  ((s.getSwitch c).bind s.switchObjects.get).bind OFSwitch.id

def isConnected (s : Controller σ) (c : ℕ) : Bool := ((s.conns.get c).map Connection.isConnected).getD false

/-- `write` of a connection. -/
def write (s : Controller σ) (c : ℕ) (m : OFRequest) : Controller σ :=
  { s with written := s.written ++ [(c, m)] }

def writeAll (s : Controller σ) (c : ℕ) (ms : List OFRequest) : Controller σ :=
  ms.foldl (fun s m => s.write c m) s

def setProtocol (s : Controller σ) (f : OFProtocol → OFProtocol) : Controller σ :=
  { s with protocol := f s.protocol }

/-- `addSwitch`. -/
def addSwitch (s : Controller σ) (id : Dpid) (sw : ℕ) : Controller σ :=
  { s with switches := s.switches.put id sw }

/-- Change the switch object. -/
def setSwitchObject (s : Controller σ) (sw : ℕ) (f : OFSwitch → OFSwitch) : Controller σ :=
  match s.switchObjects.get sw with
  | none => s
  | some o => { s with switchObjects := s.switchObjects.put sw (f o) }

/-- The call of a handler of the modules. -/
def call (f : Controller σ → ℕ → OFMessage → HandlerResult × σ × List OFRequest) (s : Controller σ) (c : ℕ)
    (m : OFMessage) : HandlerResult × Controller σ :=
  let (outcome, modules, out) := f s c m
  (outcome, writeAll { s with modules := modules } c out)

/-! ## process -/

/-- The case `HELLO` of `process`. -/
def processHello (s : Controller σ) (c : ℕ) (conn : Connection) (version : OFVersion) : Controller σ :=
  let s :=
    match conn.sw with
    | none => s
    | some sw => s.setSwitchObject sw fun o => { o with version := version }
  let s := s.setProtocol fun p =>
    { p with helloFailedSwitches := setRemove p.helloFailedSwitches conn.host }
  s.write c (.featuresRequest version)

/-- The case `FEATURES_REPLY` of `process`, up to the modules. -/
def processFeaturesReply (s : Controller σ) (c sw : ℕ) (m : OFMessage) (version : OFVersion) (xid : ℕ)
    (datapathId : Dpid) (ports : Option (List OFPortDesc)) : Controller σ :=
  let s := s.setSwitchObject sw fun o => { o with id := some datapathId }
  let s := s.setProtocol fun p => p.setFeaturesReply sw m
  let s :=
    match ports with
    | some ports => s.setProtocol fun p => p.setPortInformations sw ports
    | none => s.write c (.portDescStatsRequest version)
  let s := if version ≠ .of10 then s.write c (.setConfig version) else s
  let s := s.write c (.descStatsRequest version)
  -- version 1.0 has no instructions
  let s := if version ≠ .of10 then s.write c (.flowAdd version) else s
  (s.addSwitch datapathId sw).setProtocol fun p => p.deliver sw xid m

/-- The case `STATS_REPLY` of `process`. -/
def processStatsReply (p : OFProtocol) (sw : ℕ) (m : OFMessage) (xid : ℕ) : OFStats → OFProtocol
  | .portDesc entries => (p.setPortInformations sw entries).deliver sw xid m
  | .desc description => p.setDescription sw description
  | .other _ => p.deliver sw xid m

/-- `OFProtocol.process`. -/
def process (h : Handlers σ) (s : Controller σ) (c : ℕ) (m : OFMessage) : HandlerResult × Controller σ :=
  match s.conns.get c with
  | none => (.returned false, s)
  | some conn =>
    if conn.isConnected = false then (.returned false, s)
    else
      match m, conn.sw with
      | .hello version, _ => (.returned true, s.processHello c conn version)
      | .error, _ => (.returned false, s)
      | .echoRequest version xid data, _ => (.returned true, s.write c (.echoReply version xid data))
      | .featuresReply .., none => (.returned false, s)
      | .featuresReply version xid datapathId ports, some sw =>
        (s.processFeaturesReply c sw m version xid datapathId ports).call h.handleGeneric c m
      | .portStatus _, none => (.returned false, s)
      | .portStatus ps, some sw => (s.setProtocol fun p => p.updatePort sw ps).call h.handleGeneric c m
      | .statsReply .., none => (.returned false, s)
      | .statsReply xid stats _, some sw =>
        (.returned true, s.setProtocol fun p => processStatsReply p sw m xid stats)
      | .packetIn _, none => (.thrown, s)
      | .packetIn _, some _ =>
        if s.getId c = none then (.returned false, s) else s.call h.handlePacketIn c m
      | .flowRemoved, none => (.thrown, s)
      | .flowRemoved, some _ =>
        if s.getId c = none then (.returned false, s) else s.call h.handlePacketIn c m
      | .other _, _ => s.call h.handleGeneric c m

/-! ## Connections -/

/-- `OFProtocol.handleConnectedEvent`: propose a version. -/
def proposeVersion (s : Controller σ) (c : ℕ) (host : Host) : Controller σ :=
  if host ∈ s.protocol.helloFailedSwitches then
    (s.write c (.hello .of10)).setProtocol fun p =>
      { p with helloFailedSwitches := setRemove p.helloFailedSwitches host }
  else
    (s.write c (.hello .of13)).setProtocol fun p =>
      { p with helloFailedSwitches := setAdd p.helloFailedSwitches host }

/-- `addClient`: a new connection. -/
def accept (s : Controller σ) (host : Host) : Controller σ :=
  { s with
    seq := s.seq + 1
    conns := s.conns.put (s.seq + 1) ⟨host, .connected, none, true⟩ }

/-- The first event of a connection: it gets a switch object, and a version is proposed. -/
def connected (s : Controller σ) (c : ℕ) : Controller σ :=
  match s.conns.get c with
  | none => s
  | some conn =>
    if conn.status = .connected then
      let s := { s with
        conns := s.conns.put c { conn with status := .running, sw := some c }
        switchObjects := s.switchObjects.put c (.new c) }
      s.proposeVersion c conn.host
    else s

/-- The loop of `handleDisconnectEvent` over the modules, which ends when one of them throws. -/
def processDisconnects (c : ℕ) : ℕ → List (Controller σ → ℕ → Bool × σ) → Controller σ → Controller σ
  | _, [], s => s
  | i, f :: fs, s =>
    let (throws, modules) := f s c
    let s := { s with
      modules := modules
      disconnects := s.disconnects ++ [(i, c, s.getSwitch c)] }
    if throws then s else processDisconnects c (i + 1) fs s

/-- `handleDisconnectEvent`. -/
def handleDisconnectEvent (h : Handlers σ) (s : Controller σ) (c : ℕ) : Controller σ :=
  match s.getId c with
  | none => s
  | some id =>
    let s := processDisconnects c 0 h.processDisconnect s
    { s with switches := s.switches.remove id }

/-- `close` of a connection. -/
def close (s : Controller σ) (c : ℕ) : Controller σ :=
  match s.conns.get c with
  | none => s
  | some conn => { s with conns := s.conns.put c conn.close }

/-- The watcher sees that the other end has closed the connection, or that it cannot be read. -/
def disconnected (h : Handlers σ) (s : Controller σ) (c : ℕ) : Controller σ :=
  if s.isConnected c then (handleDisconnectEvent h s c).close c else s

/-! ## Runs -/

/-- An event of the controller. Those of one connection come in their order, those of different
connections in any order. -/
inductive Event
  | accept (host : Host)
  | connected (c : ℕ)
  | message (c : ℕ) (m : OFMessage)
  | disconnected (c : ℕ)
deriving DecidableEq

/-- What an event does. A connection is read only after its first event. -/
def handle (h : Handlers σ) (s : Controller σ) : Event → Controller σ
  | .accept host => s.accept host
  | .connected c => s.connected c
  | .message c m => (s.process h c m).2
  | .disconnected c => s.disconnected h c

end Controller

end Torpedo
