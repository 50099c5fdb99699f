import Torpedo.DeviceManager.DeviceRuns
import Torpedo.Util.Runs

/-!
# Concurrent calls of learnDeviceByEntity

Two calls work on one store, each in its own thread, and take their steps in any order. A step is an
operation on one of the maps, or the draw of an id. What a call does to the entities and attachment
points of a device that is in the map already changes only times and lists that no map looks at, and
is left out.
-/

namespace Torpedo

/-- Where a call of `learnDeviceByEntity` is. -/
inductive LearnCall
  /-- The start of the loop: look the entity up in the primary index. -/
  | lookup
  /-- No entry: draw an id and allocate a device. -/
  | draw
  /-- Put the entry of the new device. -/
  | publish (device : Device)
  /-- Put the new device. -/
  | put (device : Device)
  /-- An entry: get its device. -/
  | load (deviceId : ℕ)
  /-- No device: remove the entry. -/
  | repair
  /-- Replace the device by one with the entity. -/
  | replace (deviceId : ℕ) (device : Device)
  /-- Put the entries of the entities of the device. -/
  | update (deviceId : ℕ) (entities : List Entity)
  /-- Put the entry in the secondary index. -/
  | file (deviceId : ℕ)
  | returned
  /-- The call has returned `null`. -/
  | refused
deriving DecidableEq

namespace LearnCall

variable (ord : HashOrder) (ports : PortOrder) (topology : TopologyService)

/-- The next step of a call for the entity. -/
def advance (entity : Entity) (s : Devices) : LearnCall → LearnCall × Devices
  | lookup =>
    match s.primaryIndex.get entity.indexed with
    | none => (draw, s)
    | some deviceId => (load deviceId, s)
  | draw =>
    let deviceId := s.deviceKeyCounter
    let s := { s with deviceKeyCounter := s.deviceKeyCounter + 1 }
    match Device.allocateDevice ports topology s.suppressedAPs deviceId entity with
    | none => (refused, s)
    | some device => (publish device, s)
  | publish device =>
    match s.primaryIndex.get entity.indexed with
    | none =>
      (put device, { s with primaryIndex := s.primaryIndex.put entity.indexed device.deviceKey })
    | some ret => if ret ≠ device.deviceKey then (lookup, s) else (put device, s)
  | put device =>
    match s.deviceIdToDeviceMap.get device.deviceKey with
    | none => (file device.deviceKey, s.putDevice device.deviceKey device)
    | some _ => (lookup, s)
  | load deviceId =>
    match s.deviceIdToDeviceMap.get deviceId with
    | none => (repair, s)
    | some device =>
      if entityIndex ports device.entities entity ≥ 0 then (returned, s)
      else (replace deviceId device, s)
  | repair => (lookup, { s with primaryIndex := s.primaryIndex.remove entity.indexed })
  | replace deviceId device =>
    let newDevice := Devices.sight ord topology s.suppressedAPs (device.addEntity ports entity) entity
      entity.lastSeenTimestamp
    match s.replaceDevice deviceId device newDevice with
    | (false, s) => (lookup, s)
    | (true, s) => (update deviceId newDevice.entities, s)
  | update deviceId [] => (file deviceId, s)
  | update deviceId (e :: es) =>
    match s.primaryIndex.get e.indexed with
    | none => (update deviceId es, { s with primaryIndex := s.primaryIndex.put e.indexed deviceId })
    | some ret => if ret ≠ deviceId then (lookup, s) else (update deviceId es, s)
  | file deviceId => (returned, s.updateSecondaryIndices entity deviceId)
  | returned => (returned, s)
  | refused => (refused, s)

end LearnCall

/-- Two calls, called `false` and `true`, and the store that they share. -/
structure Learners where
  store : Devices
  calls : Bool → LearnCall

namespace Learners

section Steps

variable (ord : HashOrder) (ports : PortOrder) (topology : TopologyService) (entities : Bool → Entity)

/-- Both calls at their start. -/
def start (s : Devices) : Learners := ⟨s, fun _ => .lookup⟩

/-- A step of the call `b`. -/
def step (l : Learners) (b : Bool) : Learners :=
  let next := (l.calls b).advance ord ports topology (entities b) l.store
  ⟨next.2, Function.update l.calls b next.1⟩

/-- Both calls have come to their end. -/
def Done (l : Learners) : Prop := ∀ b, l.calls b = .returned ∨ l.calls b = .refused

/-- There is exactly one device with the key fields of the entities, the index points to it, and it
has the entities of both calls. -/
def Learned (l : Learners) : Prop :=
  ∃ id d, l.store.deviceIdToDeviceMap.get id = some d ∧
    (∀ b, l.store.primaryIndex.get (entities b).indexed = some id) ∧
    (∀ b, ∃ e ∈ d.entities, e.equals (entities b) = true) ∧
    ∀ b id' d', l.store.deviceIdToDeviceMap.get id' = some d' → d'.HasKey (entities b).indexed →
      id' = id

/-- The next step of `b` does damage: it draws an id for an entity that makes no device, or removes an
entry whose device is in the map or about to be put there by the other call. -/
def Bad (l : Learners) (b : Bool) : Prop :=
  (l.calls b = .draw ∧ Device.allocateDevice ports topology l.store.suppressedAPs
    l.store.deviceKeyCounter (entities b) = none) ∨
  (l.calls b = .repair ∧ ∃ id, l.store.primaryIndex.get (entities b).indexed = some id ∧
    ((∃ d, l.store.deviceIdToDeviceMap.get id = some d) ∨
      ∃ d, l.calls (!b) = .put d ∧ d.deviceKey = id))

end Steps

end Learners

end Torpedo
