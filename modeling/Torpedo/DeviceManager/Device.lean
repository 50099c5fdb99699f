import Torpedo.DeviceManager.Entity
import Torpedo.Util.Collections

/-!
# Devices and their attachment points

A `Device` is a host: its entities, and the switch ports where it is attached, one for each L2
domain. `updateAttachmentPoint` takes a new sighting into account, which the comparator weighs
against the attachment point that is known in the same domain.
-/

namespace Torpedo

/-! ## The network -/

/-- What the device manager asks `ITopologyService`. -/
structure TopologyService where
  isAttachmentPointPort : Dpid → OFPort → Bool
  getL2DomainId : Dpid → Dpid
  isBroadcastDomainPort : Dpid → OFPort → Bool
  isConsistent : Dpid → OFPort → Dpid → OFPort → Bool
  isInSameBroadcastDomain : Dpid → OFPort → Dpid → OFPort → Bool

/-- `SwitchPort` without an error status. -/
structure SwitchPort where
  switchDPID : Dpid
  port : OFPort
deriving DecidableEq, Repr

/-- `Devices.isValidAttachmentPoint`. -/
def isValidAttachmentPoint (topology : TopologyService) (suppressedAPs : List SwitchPort)
    (switchDPID : Dpid) (switchPort : OFPort) : Bool :=
  if topology.isAttachmentPointPort switchDPID switchPort = false then false
  else if ⟨switchDPID, switchPort⟩ ∈ suppressedAPs then false
  else true

/-! ## Attachment points -/

/-- `AttachmentPoint`. The objects are told apart by `ref`, as a device may hold one of them in both
its lists. -/
structure AttachmentPoint where
  ref : ℕ
  sw : Dpid
  port : OFPort
  activeSince : Int
  lastSeen : Int
deriving DecidableEq, Repr

namespace AttachmentPoint

def INACTIVITY_INTERVAL : Int := 30000

def EXTERNAL_TO_EXTERNAL_TIMEOUT : Int := 5000

def OPENFLOW_TO_EXTERNAL_TIMEOUT : Int := 30000

def CONSISTENT_TIMEOUT : Int := 30000

def setLastSeen (ap : AttachmentPoint) (lastSeen : Int) : AttachmentPoint :=
  { ap with
    activeSince := if ap.lastSeen + INACTIVITY_INTERVAL < lastSeen then lastSeen else ap.activeSince
    lastSeen := if ap.lastSeen < lastSeen then lastSeen else ap.lastSeen }

/-- `equals`: the same switch port. -/
def equals (ap other : AttachmentPoint) : Bool := ap.port = other.port && ap.sw = other.sw

def switchPort (ap : AttachmentPoint) : SwitchPort := ⟨ap.sw, ap.port⟩

section Compare

variable (topology : TopologyService)

/-- The end of `compare`, where the old attachment point became active no later than the new one. -/
def compareInDomain (oldAP newAP : AttachmentPoint) : Int :=
  let oldBD := topology.isBroadcastDomainPort oldAP.sw oldAP.port
  let newBD := topology.isBroadcastDomainPort newAP.sw newAP.port
  let seen (activeOffset : Int) : Int :=
    if newAP.activeSince > oldAP.lastSeen + activeOffset ∨
        newAP.lastSeen > oldAP.lastSeen + INACTIVITY_INTERVAL then -1
    else 1
  if topology.isConsistent oldAP.sw oldAP.port newAP.sw newAP.port = false then
    if newBD = false ∧ oldBD = true then -1
    else if newBD = true ∧ oldBD = true then seen EXTERNAL_TO_EXTERNAL_TIMEOUT
    else if newBD = true ∧ oldBD = false then seen OPENFLOW_TO_EXTERNAL_TIMEOUT
    else seen 0
  else seen CONSISTENT_TIMEOUT

/-- `AttachmentPointComparator.compare`. -/
def compare (oldAP newAP : AttachmentPoint) : Int :=
  let oldDomain := topology.getL2DomainId oldAP.sw
  let newDomain := topology.getL2DomainId newAP.sw
  if oldDomain < newDomain then -1
  else if oldDomain > newDomain then 1
  else if oldAP.activeSince > newAP.activeSince then -compareInDomain topology newAP oldAP
  else compareInDomain topology oldAP newAP

end Compare

end AttachmentPoint

/-! ## Lists of attachment points -/

section ArrayLists

variable (aps : List AttachmentPoint)

/-- The methods of `CopyOnWriteArrayList`. -/
def addIfAbsent (ap : AttachmentPoint) : List AttachmentPoint :=
  if aps.any (·.equals ap) then aps else aps ++ [ap]

def addAllAbsent (c : List AttachmentPoint) : List AttachmentPoint := c.foldl addIfAbsent aps

def retainAll (c : List AttachmentPoint) : List AttachmentPoint :=
  aps.filter fun ap => c.any (·.equals ap)

end ArrayLists

/-! ## Devices -/

/-- `Device`. `nextRef` names its next attachment point object. -/
structure Device where
  deviceKey : ℕ
  entities : List Entity
  oldAPs : List AttachmentPoint
  attachmentPoints : List AttachmentPoint
  nextRef : ℕ
deriving DecidableEq, Repr

namespace Device

/-- `equals`: the same key and equal entities. -/
def equals (d other : Device) : Bool :=
  d.deviceKey = other.deviceKey && d.entities.length = other.entities.length &&
    (d.entities.zip other.entities).all fun p => p.1.equals p.2

section Constructors

variable (ports : PortOrder) (topology : TopologyService) (suppressedAPs : List SwitchPort)

/-- `allocateDevice`, with `null` for an entity that is not seen at a valid attachment point. -/
def allocateDevice (deviceKey : ℕ) (entity : Entity) : Option Device :=
  match entity.switchDPID, entity.switchPort with
  | some sw, some port =>
    if isValidAttachmentPoint topology suppressedAPs sw port then
      some {
        deviceKey := deviceKey
        entities := sortEntities ports [entity]
        oldAPs := []
        attachmentPoints := [⟨0, sw, port, entity.lastSeenTimestamp, entity.lastSeenTimestamp⟩]
        nextRef := 1 }
    else none
  | _, _ => none

/-- The constructor with the entities that are kept; the lists of attachment points are copied. -/
def withEntities (d : Device) (entities : List Entity) : Device :=
  { d with entities := sortEntities ports entities }

/-- The constructor with an additional entity. -/
def addEntity (d : Device) (newEntity : Entity) : Device :=
  { d with entities := sortEntities ports (d.entities ++ [newEntity]) }

end Constructors

section AttachmentPoints

variable (ord : HashOrder) (topology : TopologyService) (suppressedAPs : List SwitchPort)

/-- `getAPMap`: the last valid attachment point of each L2 domain. -/
def getAPMap (apList : List AttachmentPoint) : HashMap Dpid AttachmentPoint :=
  apList.foldl (fun apMap ap =>
    if isValidAttachmentPoint topology suppressedAPs ap.sw ap.port then
      apMap.put (topology.getL2DomainId ap.sw) ap
    else apMap) ∅

/-- `values()` of a map of attachment points. -/
def apValues (apMap : HashMap Dpid AttachmentPoint) : List AttachmentPoint :=
  (ord.iter apMap.keySet).filterMap apMap.get

/-- `setLastSeen` on an object, in both lists. -/
def setLastSeen (d : Device) (ref : ℕ) (lastSeen : Int) : Device :=
  let set (ap : AttachmentPoint) := if ap.ref = ref then ap.setLastSeen lastSeen else ap
  { d with oldAPs := d.oldAPs.map set, attachmentPoints := d.attachmentPoints.map set }

/-- The loop of `updateAttachmentPoint` that looks for the sighting among the old attachment points:
the attachment point, whether it was found, and the device without it. -/
def takeOldAP (d : Device) (sw : Dpid) (port : OFPort) (lastSeen : Int) :
    AttachmentPoint × Bool × Device :=
  let newAP : AttachmentPoint := ⟨d.nextRef, sw, port, lastSeen, lastSeen⟩
  match d.oldAPs.find? (·.equals newAP) with
  | none => (newAP, false, { d with nextRef := d.nextRef + 1 })
  | some tmp =>
    (tmp.setLastSeen lastSeen, true,
      ({ d with oldAPs := d.oldAPs.eraseP (·.equals newAP) } : Device).setLastSeen tmp.ref lastSeen)

/-- `updateAttachmentPoint` for a packet from a switch port. -/
def updateAttachmentPoint (d : Device) (sw : Dpid) (port : OFPort) (lastSeen : Int) : Bool × Device :=
  if isValidAttachmentPoint topology suppressedAPs sw port = false then (false, d)
  else
    let (newAP, oldAPFlag, d) := d.takeOldAP sw port lastSeen
    let apMap := getAPMap topology suppressedAPs d.attachmentPoints
    let values := apValues ord apMap
    if apMap.keySet = [] then (true, { d with attachmentPoints := d.attachmentPoints ++ [newAP] })
    else
      match apMap.get (topology.getL2DomainId sw) with
      | none => (true, { d with attachmentPoints := addIfAbsent (addAllAbsent [] values) newAP })
      | some oldAP =>
        if oldAP.equals newAP then
          let d := if newAP.lastSeen > oldAP.lastSeen then d.setLastSeen oldAP.ref newAP.lastSeen else d
          (false, { d with attachmentPoints := retainAll d.attachmentPoints values })
        else if AttachmentPoint.compare topology oldAP newAP < 0 then
          (!topology.isInSameBroadcastDomain oldAP.sw oldAP.port newAP.sw newAP.port,
            { d with
              attachmentPoints := addIfAbsent (retainAll d.attachmentPoints values) newAP
              oldAPs := d.oldAPs ++ [oldAP] })
        else if oldAPFlag then (false, { d with oldAPs := d.oldAPs ++ [newAP] })
        else (false, d)

/-- `updateAttachmentPoint` for a change of the topology. -/
def updateAttachmentPoint₀ (d : Device) : Bool × Device :=
  if d.attachmentPoints = [] then (false, d)
  else
    let newMap := getAPMap topology suppressedAPs d.attachmentPoints
    let values := apValues ord newMap
    if newMap.keySet.length ≠ d.attachmentPoints.length then
      (true, { d with
        attachmentPoints := addAllAbsent (retainAll d.attachmentPoints values) values
        oldAPs := [] })
    else (false, { d with oldAPs := [] })

/-- `deleteAttachmentPoint` with the switch. -/
def deleteAttachmentPoint (d : Device) (sw : Dpid) : Device :=
  { d with
    oldAPs := d.oldAPs.filter (·.sw ≠ sw)
    attachmentPoints := d.attachmentPoints.filter (·.sw ≠ sw) }

/-- `getAttachmentPoints`. -/
def getAttachmentPoints (d : Device) : List SwitchPort :=
  (apValues ord (getAPMap topology suppressedAPs d.attachmentPoints)).map AttachmentPoint.switchPort

end AttachmentPoints

end Device

end Torpedo
