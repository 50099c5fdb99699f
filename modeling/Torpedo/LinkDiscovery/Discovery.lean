import Torpedo.LinkDiscovery.Links

/-!
# The events of link discovery

`OFMLinkDiscovery`: what LLDP packets, port-status messages, the periodic timeout and the cleaning
of disconnected switches do to the link store.
-/

namespace Torpedo

/-- An LLDP packet handed to `handleLldp`, with what the controller knows about the two ports and
the clock readings taken while it is handled. -/
structure LldpPacket where
  sw : Dpid
  inputPort : OFPort
  inputPhyPort : Option OFPortDesc
  /-- The switch that the packet names, if it is connected. -/
  remoteSwitch : Option Dpid
  remotePort : OFPort
  remotePhyPort : Option OFPortDesc
  isStandard : Bool
  /-- The direction, `null` if the packet carries none. -/
  isReverse : Option Bool
  myId : Int64
  /-- The controller that sent the packet, if the packet names one. -/
  otherId : Option Int64
  firstSeenTime : Int
  lastTime : Int
  probeTime : Int

namespace LldpPacket

variable (p : LldpPacket)

/-- A packet of another controller that is not handled here. -/
def Foreign : Prop :=
  p.otherId ≠ some p.myId ∧ (p.isStandard = true ∨ p.myId < p.otherId.getD 0)

instance : Decidable p.Foreign := by unfold Foreign; infer_instance

/-- The call of `addOrUpdateLink` that the packet leads to, if any. A packet without a direction
makes the call throw. -/
def discovery : Option Links.Discovery :=
  if p.Foreign then none
  else
    match p.remoteSwitch with
    | none => none
    | some remoteSwitch =>
      if remoteSwitch = p.sw then none
      else if portEnabled p.remotePhyPort = false then none
      else if portEnabled p.inputPhyPort = false then none
      else
        match p.isReverse with
        | none => none
        | some isReverse => some ⟨remoteSwitch, p.remotePort, p.remotePhyPort, p.sw, p.inputPort,
            p.inputPhyPort, p.isStandard, isReverse, p.firstSeenTime, p.lastTime, p.probeTime⟩

/-- A discovered link joins two different switches. -/
theorem ne_of_discovery {d : Links.Discovery} (h : p.discovery = some d) :
    d.remoteSwitchId ≠ d.localSwitchId := by
  unfold discovery at h
  cases hr : p.remoteSwitch with
  | none => simp [hr] at h
  | some r =>
    rw [hr] at h
    dsimp only at h
    split_ifs at h with hf hne
    split at h
    · cases h
    · obtain rfl := Option.some.inj h
      exact hne

end LldpPacket

namespace Links

def handleLldp (s : Links) (p : LldpPacket) : Links :=
  match p.discovery with
  | none => s
  | some d => s.addOrUpdateLink d

/-- `processNewPort`: send a probe. -/
def processNewPort (s : Links) (sw : Dpid) (portnum : OFPort) : Links :=
  { s with discoveryMessages := s.discoveryMessages ++ [⟨sw, portnum, true, false⟩] }

def handlePortStatus (ord : HashOrder) (s : Links) (sw : Dpid) (ps : OFPortStatus) : Links :=
  let portnum := ps.desc.portNo
  if ps.reason = .delete ∨ (ps.reason = .modify ∧ ps.desc.portEnabled = false) then
    s.deleteLinksOnPort ord ⟨sw, portnum⟩
  else if ps.reason = .modify then
    (s.updatePortStatus ord sw portnum ps).1.processNewPort sw portnum
  else s.processNewPort sw portnum

/-- `generateSwitchPortStatusUpdate` for the state of a known port. -/
def generateSwitchPortStatusUpdate (s : Links) (sw : Dpid) (port : OFPort)
    (state : Finset OFPortState) : Links :=
  s.addPortUpdate sw port (getPortUpdateOperation state)

inductive Event
  | lldp (p : LldpPacket)
  | portStatus (ord : HashOrder) (sw : Dpid) (ps : OFPortStatus)
  | timeout (ord : HashOrder) (curTime : Int)
  | disconnected (ord : HashOrder) (id : Dpid) (ports : List OFPort)
  | quarantined (sw : Dpid) (port : OFPort) (state : Finset OFPortState)

def handle (s : Links) : Event → Links
  | .lldp p => s.handleLldp p
  | .portStatus ord sw ps => handlePortStatus ord s sw ps
  | .timeout ord curTime => s.timeoutLinks ord curTime
  | .disconnected ord id ports => s.deleteSwitch ord id ports
  | .quarantined sw port state => s.generateSwitchPortStatusUpdate sw port state

end Links

end Torpedo
