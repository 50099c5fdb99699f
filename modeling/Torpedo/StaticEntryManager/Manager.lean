import Torpedo.StaticEntryManager.Storage
import Torpedo.Util.Decimal

/-!
# The static entry manager

`OFMStaticFlowEntryManager` writes a flow-mod to the switch of an entry, puts the entry into the database, and then
into the maps of the storage. An entry of the same name is deleted first. A reload adds stored entries again.
-/

namespace Torpedo

/-- The commands that are used of `OFFlowModCommand`. -/
inductive FlowModCommand
  | add | deleteStrict
deriving DecidableEq, Repr

/-- What the manager is built upon: the builders of flow-mods, what a switch makes of them, the database, and what
each deletion and insertion meets outside. -/
structure StaticFlowEntryManager (φ τ : Type) where
  order : HashOrder
  finder : Finder
  debug : Bool
  /-- The flow-mod of an entry with a name and a switch. There is none of an entry that is not active. -/
  buildFlowMod : OFVersion → FlowModCommand → Entry → Except Stop (Option φ)
  apply : φ → τ → τ
  around : ℕ → Surroundings

/-- The cast of an object, which may be null. -/
def castString : Option Value → Option (Option String)
  | none => some none
  | some .null => some none
  | some (.string s) => some (some s)
  | some _ => none

namespace StaticFlowEntryManager

open StaticFlowEntryStorage

variable {φ τ : Type} (p : StaticFlowEntryManager φ τ)

def makeFlowMod (version : OFVersion) (command : FlowModCommand) (entry : Entry) : Except Stop (Option φ) :=
  if entry.containsKey "name" ∧ entry.containsKey "switch" then p.buildFlowMod version command entry
  else .ok none

/-- What is met outside from now on. -/
def meet : Method (StaticFlowEntryStorage τ) Surroundings := do
  let s ← Method.get
  Method.modify fun s => { s with attempts := s.attempts + 1 }
  return p.around s.attempts

/-- A message of null is taken as written. -/
def writeOFMessageToSwitch (around : Surroundings) (id : Dpid) (message : Option φ) :
    Method (StaticFlowEntryStorage τ) Bool :=
  if around.found then
    match message with
    | none => return true
    | some message =>
      if around.writes then do
        Method.modify fun s =>
          { s with flowTables := Function.update s.flowTables id (p.apply message (s.flowTables id)) }
        return true
      else return false
  else return false

/-- What `addFlow` and `deleteFlow` do before they turn to the database. -/
def sendFlowMod (around : Surroundings) (dpid : Option String) (command : FlowModCommand) (entry : Option Entry) :
    Method (StaticFlowEntryStorage τ) Unit := do
  let dpid ← Method.nonNull dpid
  let id ← Method.nonNull (parseDpid dpid)
  let version ← Method.nonNull (around.getSwitch id)
  let entry ← Method.nonNull entry
  let message ← Method.ofExcept (p.makeFlowMod version command entry)
  let written ← p.writeOFMessageToSwitch around id message
  if written then return () else Method.throw

/-- The listing in debug mode. -/
def printDB (around : Surroundings) : Method (StaticFlowEntryStorage τ) Unit :=
  if p.debug then do
    let _ ← getAllDBEntries around.lists
    return ()
  else return ()

def deleteFlow (name : String) : Method (StaticFlowEntryStorage τ) Unit := do
  let s ← Method.get
  let dpid ← Method.nonNull (s.flowModNameToDpidIndex.get name)
  let around ← p.meet
  p.sendFlowMod around (some dpid) .deleteStrict (s.flowModMap.get name)
  let deleted ← deleteDBEntry p.finder around name
  if deleted then do
    Method.modify fun s => s.deleteEntryFromIndices name
    Method.modify fun s => { s with flowModMap := s.flowModMap.remove name }
    p.printDB around
  else Method.throw

/-- An entry that has the same name is removed. -/
def deleteOld (name : String) : Method (StaticFlowEntryStorage τ) Unit := do
  let s ← Method.get
  if s.flowModMap.containsKey name then p.deleteFlow name else return ()

/-- What `addFlow` does when no entry has the name. -/
def pushFlow (name : String) (entry : Entry) (dpid : Option String) :
    Method (StaticFlowEntryStorage τ) Unit := do
  let around ← p.meet
  p.sendFlowMod around dpid .add (some entry)
  let dpid ← Method.nonNull dpid
  let inserted ← insertDBEntry p.finder around entry
  if inserted then do
    Method.modify fun s => s.addEntryToIndices dpid name
    Method.modify fun s => { s with flowModMap := s.flowModMap.put name entry }
    p.printDB around
  else Method.throw

def addFlow (name : String) (entry : Entry) (dpid : Option String) : Method (StaticFlowEntryStorage τ) Unit := do
  p.deleteOld name
  p.pushFlow name entry dpid

def deleteFlowsForSwitch (dpid : String) : Method (StaticFlowEntryStorage τ) Unit := do
  let s ← Method.get
  let nameset ← Method.nonNull (s.dpidToFlowModNameIndex.get dpid)
  Method.forEachIn (fun s => (s.dpidToFlowModNameIndex.get dpid).getD []) nameset p.deleteFlow
    (p.order.iter nameset)

def deleteAllFlows : Method (StaticFlowEntryStorage τ) Unit := do
  let s ← Method.get
  let nameset := s.flowModNameToDpidIndex.keySet
  Method.forEachIn (fun s => s.flowModNameToDpidIndex.keySet) nameset p.deleteFlow (p.order.iter nameset)

def getFlowsForSwitch (s : StaticFlowEntryStorage τ) (dpid : String) : HashMap String (Option Entry) :=
  (p.order.iter s.dpidToFlowModNameIndex.keySet).foldl (fun flows name => flows.put dpid (s.flowModMap.get name)) ∅

/-- The body of the loop of `reloadFlowModsToSwitch`. -/
def reloadFlowMod (flowName : String) (entry : Option Entry) : Method (StaticFlowEntryStorage τ) Unit := do
  let around ← p.meet
  let entry ← Method.nonNull entry
  let dpid ← Method.nonNull ((entry.get "switch").bind Value.asString)
  let id ← Method.nonNull (parseDpid dpid)
  if (around.getSwitch id).isSome then p.addFlow flowName entry (some dpid) else return ()

def reloadFlowModsToSwitch (dpid : String) : Method (StaticFlowEntryStorage τ) Unit := do
  let s ← Method.get
  let names ← Method.nonNull (s.dpidToFlowModNameIndex.get dpid)
  Method.forEach (fun flowName => p.reloadFlowMod flowName (s.flowModMap.get flowName)) (p.order.iter names)

def reloadAllFlowModsToSwitch : Method (StaticFlowEntryStorage τ) Unit := do
  let s ← Method.get
  Method.forEach p.reloadFlowModsToSwitch (p.order.iter s.dpidToFlowModNameIndex.keySet)

/-- The call of `addFlow` that a request makes. -/
def post (entry : Entry) : Method (StaticFlowEntryStorage τ) Unit := do
  let flowName ← Method.nonNull (castString (entry.get "name"))
  match flowName with
  | none => return ()
  | some flowName => do
    let dpid ← Method.nonNull (castString (entry.get "switch"))
    p.addFlow flowName entry dpid

end StaticFlowEntryManager

/-! ## Calls -/

inductive StaticFlowCall
  | addFlow (entry : Entry)
  | deleteFlow (name : String)
  | deleteFlowsForSwitch (dpid : String)
  | deleteAllFlows
  | reloadFlowsToSwitch (dpid : String)
  | reloadAllFlowsToSwitch

namespace StaticFlowEntryManager

variable {φ τ : Type} (p : StaticFlowEntryManager φ τ)

def handle : StaticFlowCall → Method (StaticFlowEntryStorage τ) Unit
  | .addFlow entry => p.post entry
  | .deleteFlow name => p.deleteFlow name
  | .deleteFlowsForSwitch dpid => p.deleteFlowsForSwitch dpid
  | .deleteAllFlows => p.deleteAllFlows
  | .reloadFlowsToSwitch dpid => p.reloadFlowModsToSwitch dpid
  | .reloadAllFlowsToSwitch => p.reloadAllFlowModsToSwitch

def step (s : StaticFlowEntryStorage τ) (call : StaticFlowCall) : StaticFlowEntryStorage τ := (p.handle call s).2

end StaticFlowEntryManager

/-- A manager of entries that have no fields but a priority, and of switches that hold flows by their priorities. -/
def byPriority (around : ℕ → Surroundings) : StaticFlowEntryManager (FlowModCommand × ℤ) (List ℤ) where
  order := .insertion
  finder := .byStrings
  debug := true
  buildFlowMod _ command entry := do
    let priority ← match entry.get "priority" with
      | none => .ok 100
      | some priority => orThrow (priority.asString.bind (Decimal.parseNumber 16))
    return some (command, priority)
  apply
    | (.add, priority), flows => setAdd flows priority
    | (.deleteStrict, priority), flows => setRemove flows priority
  around := around

/-- A switch is connected whose id is 1, and nothing outside fails. -/
def sound : Surroundings where
  getSwitch id := if id = 1 then some .of13 else none
  found := true
  writes := true
  retrieves := true
  counts := true
  inserts := true
  removes := true
  lists := true

/-- An entry for the switch. -/
def entryOf (priority : String) : Entry :=
  (∅ : Entry)
    |>.put "name" (.string "s1")
    |>.put "switch" (.string "00:00:00:00:00:00:00:01")
    |>.put "priority" (.string priority)

end Torpedo
