import Torpedo.DeviceManager.Device

/-!
# The device store

`Devices`: the map of devices, the counter that their ids are drawn from, the primary index from the
key fields of an entity to the id of its device, and the index of the same key fields to sets of
ids. The classifier is the default one, with one class of entities whose key fields are the MAC
address and the VLAN. Operations run one at a time.
-/

namespace Torpedo

/-- `DeviceField`. -/
inductive DeviceField
  | mac | ipv4 | vlan | switch | port
deriving DecidableEq, Repr

/-- The key fields of the default classifier. -/
def keyFields : Finset DeviceField := {.mac, .vlan}

/-- `Devices`. Of `singleIndices` there is only the primary index, under the key fields. -/
structure Devices where
  deviceIdToDeviceMap : HashMap ℕ Device
  deviceKeyCounter : ℕ
  primaryIndex : HashMap IndexedEntity ℕ
  multiIndices : HashMap (Finset DeviceField) (SetMap IndexedEntity ℕ)
  suppressedAPs : List SwitchPort

/-! ## Indices -/

/-- `EntityToSingleDeviceIdIndex.updateIndex` with a device: whether no entity is filed for another
device, and the index. -/
def updateIndex (deviceKey : ℕ) : List Entity → HashMap IndexedEntity ℕ → Bool × HashMap IndexedEntity ℕ
  | [], index => (true, index)
  | e :: es, index =>
    match index.get e.indexed with
    | none => updateIndex deviceKey es (index.put e.indexed deviceKey)
    | some ret => if ret ≠ deviceKey then (false, index) else updateIndex deviceKey es index

/-- Some entity of `others` has the key fields of `entity`. -/
def neededBy (entity : Entity) (others : List Entity) : Bool :=
  others.any fun o => o.indexed = entity.indexed

/-- `EntityToSingleDeviceIdIndex.removeEntityIfNeeded`. -/
def removeFromSingle (entity : Entity) (deviceKey : ℕ) (others : List Entity)
    (index : HashMap IndexedEntity ℕ) : HashMap IndexedEntity ℕ :=
  if neededBy entity others then index
  else if index.get entity.indexed = some deviceKey then index.remove entity.indexed
  else index

/-- `EntityToMultiDeviceIdIndex.removeEntityIfNeeded`. -/
def removeFromMulti (entity : Entity) (deviceKey : ℕ) (others : List Entity)
    (index : SetMap IndexedEntity ℕ) : SetMap IndexedEntity ℕ :=
  if neededBy entity others then index
  else
    match index.get entity.indexed with
    | none => index
    | some devices =>
      if deviceKey ∈ devices then index.put entity.indexed (setRemove devices deviceKey) else index

namespace Devices

def new : Devices where
  deviceIdToDeviceMap := ∅
  deviceKeyCounter := 0
  primaryIndex := ∅
  multiIndices := ∅
  suppressedAPs := []

/-- `updateIndices`. -/
def updateIndices (s : Devices) (device : Device) (deviceId : ℕ) : Bool × Devices :=
  let (ok, index) := updateIndex deviceId device.entities s.primaryIndex
  (ok, { s with primaryIndex := index })

/-- `updateSecondaryIndices`. -/
def updateSecondaryIndices (s : Devices) (entity : Entity) (deviceKey : ℕ) : Devices :=
  let index := (s.multiIndices.get keyFields).getD ∅
  { s with multiIndices := s.multiIndices.put keyFields (SetMap.add index entity.indexed deviceKey) }

/-- `removeEntity`. -/
def removeEntity (removed : Entity) (deviceKey : ℕ) (others : List Entity) (s : Devices) : Devices :=
  { s with
    primaryIndex := removeFromSingle removed deviceKey others s.primaryIndex
    multiIndices :=
      match s.multiIndices.get keyFields with
      | none => s.multiIndices
      | some mindex => s.multiIndices.put keyFields (removeFromMulti removed deviceKey others mindex) }

/-! ## The device map -/

def putDevice (s : Devices) (deviceId : ℕ) (device : Device) : Devices :=
  { s with deviceIdToDeviceMap := s.deviceIdToDeviceMap.put deviceId device }

/-- `replace` of the device map: whether the old device was there, and the map. -/
def replaceDevice (s : Devices) (deviceId : ℕ) (device newDevice : Device) : Bool × Devices :=
  match s.deviceIdToDeviceMap.get deviceId with
  | none => (false, s)
  | some d => if d.equals device then (true, s.putDevice deviceId newDevice) else (false, s)

/-- `remove` of the device map with a key and a device. -/
def removeDevice (s : Devices) (deviceId : ℕ) (device : Device) : Bool × Devices :=
  match s.deviceIdToDeviceMap.get deviceId with
  | none => (false, s)
  | some d =>
    if d.equals device then
      (true, { s with deviceIdToDeviceMap := s.deviceIdToDeviceMap.remove deviceId })
    else (false, s)

/-- `values()` of the device map. -/
def deviceValues (ord : HashOrder) (s : Devices) : List Device :=
  (ord.iter s.deviceIdToDeviceMap.keySet).filterMap s.deviceIdToDeviceMap.get

/-! ## Learning -/

/-- What a round of the loop of `learnDeviceByEntity` ends with. -/
inductive LearnRound
  | again (s : Devices)
  | returned (device : Option Device) (s : Devices)

section Learn

variable (ord : HashOrder) (ports : PortOrder) (topology : TopologyService)

/-- A sighting of an entity at its switch port, if it has one. -/
def sight (suppressedAPs : List SwitchPort) (device : Device) (entity : Entity) (lastSeen : Int) :
    Device :=
  match entity.switchDPID, entity.switchPort with
  | some sw, some port => (device.updateAttachmentPoint ord topology suppressedAPs sw port lastSeen).2
  | _, _ => device

/-- The entity is in no index. -/
def learnNew (entity : Entity) (s : Devices) : LearnRound :=
  let deviceId := s.deviceKeyCounter
  let s := { s with deviceKeyCounter := s.deviceKeyCounter + 1 }
  match Device.allocateDevice ports topology s.suppressedAPs deviceId entity with
  | none => .returned none s
  | some device =>
    match s.updateIndices device deviceId with
    | (false, s) => .again s
    | (true, s) =>
      if (s.deviceIdToDeviceMap.get deviceId).isSome then .again s
      else .returned (some device)
        ((s.putDevice deviceId device).updateSecondaryIndices entity deviceId)

/-- The entity belongs to a device. -/
def learnKnown (entity : Entity) (deviceId : ℕ) (device : Device) (s : Devices) : LearnRound :=
  let index := entityIndex ports device.entities entity
  if index ≥ 0 then
    let lastSeen := entity.lastSeenTimestamp
    let device := { device with
      entities := device.entities.modify index.toNat fun e => e.setLastSeenTimestamp lastSeen }
    match device.entities[index.toNat]? with
    | none => .returned (some device) (s.putDevice deviceId device)
    | some e =>
      let device := sight ord topology s.suppressedAPs device e lastSeen
      .returned (some device) (s.putDevice deviceId device)
  else
    let newDevice := device.addEntity ports entity
    let newDevice := sight ord topology s.suppressedAPs newDevice entity entity.lastSeenTimestamp
    match s.replaceDevice deviceId device newDevice with
    | (false, s) => .again s
    | (true, s) =>
      match s.updateIndices newDevice deviceId with
      | (false, s) => .again s
      | (true, s) => .returned (some newDevice) (s.updateSecondaryIndices entity deviceId)

/-- The body of the loop of `learnDeviceByEntity`. -/
def learnRound (entity : Entity) (s : Devices) : LearnRound :=
  match s.primaryIndex.get entity.indexed with
  | none => learnNew ports topology entity s
  | some deviceId =>
    match s.deviceIdToDeviceMap.get deviceId with
    -- a corrupted device id
    | none => .again { s with primaryIndex := s.primaryIndex.remove entity.indexed }
    | some device => learnKnown ord ports topology entity deviceId device s

/-- `learnDeviceByEntity`, for at most `fuel` rounds. -/
def learnDeviceByEntity : ℕ → Entity → Devices → Option (Option Device × Devices)
  | 0, _, _ => none
  | fuel + 1, entity, s =>
    match learnRound ord ports topology entity s with
    | .again s => learnDeviceByEntity fuel entity s
    | .returned device s => some (device, s)

end Learn

/-! ## Cleaning up -/

section Cleanup

variable (ord : HashOrder) (ports : PortOrder) (topology : TopologyService)

/-- The inner loop of `cleanupEntities` for a device, for at most `fuel` rounds. -/
def cleanupDevice (cutoff : Int) : ℕ → Device → Devices → Option Devices
  | 0, _, _ => none
  | fuel + 1, d, s =>
    let toRemove := d.entities.filter fun e => e.lastSeenTimestamp < cutoff
    let toKeep := d.entities.filter fun e => ¬e.lastSeenTimestamp < cutoff
    if toRemove = [] then some s
    else
      let s := toRemove.foldl (fun s e => s.removeEntity e d.deviceKey toKeep) s
      if toKeep ≠ [] then
        match s.replaceDevice d.deviceKey d (d.withEntities ports toKeep) with
        | (true, s) => some s
        | (false, s) =>
          match s.deviceIdToDeviceMap.get d.deviceKey with
          | none => some s
          | some d => cleanupDevice cutoff fuel d s
      else
        match s.removeDevice d.deviceKey d with
        -- the device is not null, so the loop goes on although it was removed
        | (true, s) => cleanupDevice cutoff fuel d s
        | (false, s) =>
          match s.deviceIdToDeviceMap.get d.deviceKey with
          | none => some s
          | some d => cleanupDevice cutoff fuel d s

/-- `cleanupEntities`. -/
def cleanupEntities (fuel : ℕ) (cutoff : Int) (s : Devices) : Option Devices :=
  (s.deviceValues ord).foldlM (fun s d => cleanupDevice ports cutoff fuel d s) s

/-- The body of the loop of `updateAttachmentPoints`. -/
def updateDevice (s : Devices) (d : Device) : Devices :=
  let d' := (d.updateAttachmentPoint₀ ord topology s.suppressedAPs).2
  let s := s.putDevice d.deviceKey d'
  if (d'.getAttachmentPoints ord topology s.suppressedAPs).length = 0 then
    { s with deviceIdToDeviceMap := s.deviceIdToDeviceMap.remove d.deviceKey }
  else s

/-- `updateAttachmentPoints`. -/
def updateAttachmentPoints (s : Devices) : Devices :=
  (s.deviceValues ord).foldl (updateDevice ord topology) s

/-- The private `deleteDevice` with a device. -/
def deleteMapped (s : Devices) (device : Device) : Devices :=
  let s := device.entities.foldl (fun s e => s.removeEntity e device.deviceKey []) s
  (s.removeDevice device.deviceKey device).2

/-- The body of the second loop of `deleteDevice`. -/
def deleteFromSwitch (datapathid : Dpid) (s : Devices) (d : Device) : Devices :=
  let d' := d.deleteAttachmentPoint datapathid
  let s := s.putDevice d.deviceKey d'
  if d'.attachmentPoints.length = 0 then s.deleteMapped d' else s

/-- `deleteDevice` with a switch. -/
def deleteDevice (datapathid : Dpid) (s : Devices) : Devices :=
  let toRemove := (s.deviceValues ord).filter fun d =>
    (d.getAttachmentPoints ord topology s.suppressedAPs).any (·.switchDPID = datapathid)
  toRemove.foldl (deleteFromSwitch datapathid) s

end Cleanup

/-! ## Runs -/

/-- An operation on the store, with the topology as it is at that time. -/
inductive Op
  | learnDeviceByEntity (topology : TopologyService) (entity : Entity)
  | cleanupEntities (cutoff : Int)
  | updateAttachmentPoints (topology : TopologyService)
  | deleteDevice (topology : TopologyService) (datapathid : Dpid)
  | addSuppressAPs (swId : Dpid) (port : OFPort)
  | removeSuppressAPs (swId : Dpid) (port : OFPort)

/-- The operation returns and leaves the store in the state `s'`. -/
inductive Step (ord : HashOrder) (ports : PortOrder) (s : Devices) : Op → Devices → Prop
  | learnDeviceByEntity (topology : TopologyService) (entity : Entity) (fuel : ℕ)
    (device : Option Device) (s' : Devices) :
    s.learnDeviceByEntity ord ports topology fuel entity = some (device, s') →
    Step ord ports s (.learnDeviceByEntity topology entity) s'
  | cleanupEntities (cutoff : Int) (fuel : ℕ) (s' : Devices) :
    s.cleanupEntities ord ports fuel cutoff = some s' → Step ord ports s (.cleanupEntities cutoff) s'
  | updateAttachmentPoints (topology : TopologyService) :
    Step ord ports s (.updateAttachmentPoints topology) (s.updateAttachmentPoints ord topology)
  | deleteDevice (topology : TopologyService) (datapathid : Dpid) :
    Step ord ports s (.deleteDevice topology datapathid) (s.deleteDevice ord topology datapathid)
  | addSuppressAPs (swId : Dpid) (port : OFPort) :
    Step ord ports s (.addSuppressAPs swId port)
      { s with suppressedAPs := setAdd s.suppressedAPs ⟨swId, port⟩ }
  | removeSuppressAPs (swId : Dpid) (port : OFPort) :
    Step ord ports s (.removeSuppressAPs swId port)
      { s with suppressedAPs := setRemove s.suppressedAPs ⟨swId, port⟩ }

/-- The store after the operations, one at a time. -/
inductive Run (ord : HashOrder) (ports : PortOrder) : Devices → List Op → Devices → Prop
  | nil (s : Devices) : Run ord ports s [] s
  | cons {s s' s'' : Devices} {op : Op} {ops : List Op} :
    Step ord ports s op s' → Run ord ports s' ops s'' → Run ord ports s (op :: ops) s''

end Devices

end Torpedo
