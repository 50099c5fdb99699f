import Torpedo.DeviceManager.DeviceRuns

/-!
# Queries on the device store

`queryDevices` looks the candidates up in a secondary index when there is one for the fields that
are given, and scans all devices otherwise. The candidates pass through a `DeviceIterator`, which is
run to its end here. An element `none` is a `null`, and a result `none` is an exception.
-/

namespace Torpedo

/-- The arguments of `queryDevices`. -/
structure Query where
  macAddress : Option Int64
  vlan : Option Int16
  ipv4Address : Option Int32
  switchDPID : Option Dpid
  switchPort : Option OFPort
deriving DecidableEq, Repr

/-- `getEntityKeys`. -/
def Query.getEntityKeys (q : Query) : Finset DeviceField :=
  (if q.macAddress.isSome then {.mac} else ∅) ∪ (if q.vlan.isSome then {.vlan} else ∅) ∪
    (if q.ipv4Address.isSome then {.ipv4} else ∅) ∪ (if q.switchDPID.isSome then {.switch} else ∅) ∪
    (if q.switchPort.isSome then {.port} else ∅)

/-- The entity that is looked up in an index. -/
def Query.entity (q : Query) : Entity :=
  .new (q.macAddress.getD 0) q.vlan q.ipv4Address q.switchDPID q.switchPort 0

/-- `FilterIterator`, run to its end. -/
def filterIterator {α : Type} (f : α → Option Bool) : List α → Option (List α)
  | [] => some []
  | next :: rest =>
    match f next with
    | none => none
    | some true => (filterIterator f rest).map (next :: ·)
    | some false => filterIterator f rest

namespace Devices

section Lookup

variable (ord : HashOrder) (s : Devices)

/-- `DeviceIdIterator`: the devices of the ids, `null` for an id without a device. -/
def deviceIdIterator (ids : List ℕ) : List (Option Device) := ids.map s.deviceIdToDeviceMap.get

/-- `EntityToMultiDeviceIdIndex.queryByEntity`. -/
def queryByEntity (index : SetMap IndexedEntity ℕ) (entity : Entity) : List ℕ :=
  ord.iter ((index.get entity.indexed).getD [])

/-- `findDeviceByEntity`; the index of the class is the primary one. -/
def findDeviceByEntity (entity : Entity) : Option Device :=
  (s.primaryIndex.get entity.indexed).bind s.deviceIdToDeviceMap.get

/-- `queryClassByEntity`. -/
def queryClassByEntity (fields : Finset DeviceField) (entity : Entity) : List (Option Device) :=
  match s.multiIndices.get fields with
  | none => []
  | some index => s.deviceIdIterator (queryByEntity ord index entity)

end Lookup

end Devices

namespace Device

/-- `getMACAddress`, of the first entity. -/
def getMACAddress (d : Device) : Option Int64 := d.entities.head?.map (·.macAddress)

/-- `getVlanId`: an untagged entity counts as VLAN -1. -/
def getVlanId (d : Device) : List Int16 :=
  match d.entities with
  | [e] => [e.vlan.getD (-1)]
  | es => treeSet compare (es.map fun e => e.vlan.getD (-1))

/-- The loop of `getIPv4Addresses` over the devices with the address of an entity: whether none of
the others has seen it later. -/
def validIP (d : Device) (e : Entity) : List (Option Device) → Option Bool
  | [] => some true
  | none :: _ => none
  | some d' :: devices =>
    if d.deviceKey = d'.deviceKey then d.validIP e devices
    else if d'.entities.any fun se => se.ipv4Address.isSome && se.ipv4Address = e.ipv4Address &&
        se.lastSeenTimestamp > e.lastSeenTimestamp then some false
    else d.validIP e devices

/-- The loop of `getIPv4Addresses` over the entities. -/
def ipv4Values (ord : HashOrder) (s : Devices) (d : Device) : List Entity → Option (List Int32)
  | [] => some []
  | e :: es =>
    match e.ipv4Address with
    | none => d.ipv4Values ord s es
    | some ip =>
      match d.validIP e (s.queryClassByEntity ord {.ipv4} e) with
      | none => none
      | some true => (d.ipv4Values ord s es).map (ip :: ·)
      | some false => d.ipv4Values ord s es

/-- `getIPv4Addresses`. -/
def getIPv4Addresses (ord : HashOrder) (s : Devices) (d : Device) : Option (List Int32) :=
  (d.ipv4Values ord s d.entities).map (treeSet compare)

end Device

namespace DeviceIterator

variable (ord : HashOrder) (topology : TopologyService) (s : Devices) (q : Query)

/-- The loop of `matches` over the attachment points ends with the first of them. -/
def matchesAttachmentPoint : List SwitchPort → Bool
  | [] => false
  | sp :: _ =>
    if q.switchDPID.any (· ≠ sp.switchDPID) then false
    else if q.switchPort.any (· ≠ sp.port) then false
    else true

/-- The part of `matches` for the IPv4 address. -/
def matchesIPv4 (value : Device) : Option Bool :=
  match q.ipv4Address with
  | none => some true
  | some ipv4Address =>
    (value.getIPv4Addresses ord s).map fun ips => ¬binarySearch compare ips ipv4Address < 0

/-- `matches` of a device, without entity classes. -/
def matchesDevice (value : Device) : Option Bool :=
  if q.macAddress.any fun mac => some mac ≠ value.getMACAddress then some false
  else if q.vlan.any fun vlan => binarySearch compare value.getVlanId vlan < 0 then some false
  else
    match matchesIPv4 ord s q value with
    | none => none
    | some false => some false
    | some true =>
      if q.switchDPID.isSome || q.switchPort.isSome then
        some (matchesAttachmentPoint q (value.getAttachmentPoints ord topology s.suppressedAPs))
      else some true

/-- `matches` of a value that may be `null`, which only a query without filters lets pass. -/
def matchesValue : Option Device → Option Bool
  | none => if q.getEntityKeys = ∅ then some true else none
  | some value => matchesDevice ord topology s q value

end DeviceIterator

/-- `queryDevices`. -/
def Devices.queryDevices (ord : HashOrder) (topology : TopologyService) (s : Devices) (q : Query) :
    Option (List (Option Device)) :=
  filterIterator (DeviceIterator.matchesValue ord topology s q) <|
    match s.multiIndices.get q.getEntityKeys with
    | none => (s.deviceValues ord).map some
    | some index => s.deviceIdIterator (Devices.queryByEntity ord index q.entity)

end Torpedo
