import Torpedo.Controller.Controller
import Torpedo.LinkDiscovery.Link
import Torpedo.StorageManager.StorageConverter
import Torpedo.Util.Iterators

/-!
# Storage of static flow entries

`StaticFlowEntryStorage` holds the entries by their names, with two indices, and keeps a collection of the
database in step with them. What the operations meet outside, from one to the next, is left open.
-/

namespace Torpedo

/-- `new BigInteger(dpid.replaceAll(":", ""), 16).longValue()`. -/
def parseDpid (dpid : String) : Option Dpid :=
  match dpid.toList.filter (· ≠ ':') with
  | '-' :: ds => (digits ds).map fun n => Int64.ofInt (-(n : ℤ))
  | '+' :: ds => (digits ds).map Int64.ofNat
  | ds => (digits ds).map Int64.ofNat
where
  digit (c : Char) : Option ℕ :=
    if c.isDigit then some (c.toNat - '0'.toNat)
    else if 'a' ≤ c ∧ c ≤ 'f' then some (c.toNat - 'a'.toNat + 10)
    else if 'A' ≤ c ∧ c ≤ 'F' then some (c.toNat - 'A'.toNat + 10)
    else none
  digits (ds : List Char) : Option ℕ :=
    if ds = [] then none else (ds.mapM digit).map fun ds => ds.foldl (16 * · + ·) 0

example : parseDpid "00:00:00:00:00:00:00:0a" = some 10 := by decide

/-- What a deletion or an insertion meets outside. -/
structure Surroundings where
  /-- The version that the switch speaks, if it is connected. -/
  getSwitch : Dpid → Option OFVersion
  /-- The switch is found once more when the flow-mod is written. -/
  found : Bool
  writes : Bool
  /-- `retrieveAll` does not throw. -/
  retrieves : Bool
  /-- `find` and `count` do not throw. -/
  counts : Bool
  /-- The driver inserts the document, and reports no error. -/
  inserts : Bool
  /-- `remove` does not throw. -/
  removes : Bool
  /-- The listing in debug mode does not throw. -/
  lists : Bool

/-- The maps, the collection of the database if that is connected, the flow tables of the switches, and the number
of deletions and insertions that there have been. -/
structure StaticFlowEntryStorage (τ : Type) where
  flowModMap : HashMap String Entry
  dpidToFlowModNameIndex : SetMap String String
  flowModNameToDpidIndex : HashMap String String
  collection : Option (List Entry)
  flowTables : Dpid → τ
  attempts : ℕ

namespace StaticFlowEntryStorage

variable {τ : Type} (s : StaticFlowEntryStorage τ)

/-! ## Indices -/

def addEntryToIndices (dpid name : String) : StaticFlowEntryStorage τ :=
  { s with
    dpidToFlowModNameIndex := s.dpidToFlowModNameIndex.add dpid name
    flowModNameToDpidIndex := s.flowModNameToDpidIndex.put name dpid }

def deleteEntryFromIndices (name : String) : StaticFlowEntryStorage τ :=
  match s.flowModNameToDpidIndex.get name with
  | none => s
  | some dpid =>
    match s.dpidToFlowModNameIndex.get dpid with
    | none => s
    | some _ => { s with
        dpidToFlowModNameIndex := s.dpidToFlowModNameIndex.erase dpid name
        flowModNameToDpidIndex := s.flowModNameToDpidIndex.remove name }

/-- The body of the loop of `buildDpidToFlowModNameIndex`. -/
def indexByDpid (flowName : String) : Method (StaticFlowEntryStorage τ) Unit := do
  let s ← Method.get
  let entry ← Method.nonNull (s.flowModMap.get flowName)
  let dpid ← Method.nonNull (entry.get "switch")
  Method.modify fun s =>
    { s with dpidToFlowModNameIndex := s.dpidToFlowModNameIndex.add dpid.toText flowName }

/-- The body of the loop of `buildFlowModNameToDpidIndex`. -/
def indexByName (flowName : String) : Method (StaticFlowEntryStorage τ) Unit := do
  let s ← Method.get
  let entry ← Method.nonNull (s.flowModMap.get flowName)
  let dpid ← Method.nonNull (entry.get "switch")
  Method.modify fun s =>
    { s with flowModNameToDpidIndex := s.flowModNameToDpidIndex.put flowName dpid.toText }

def buildIndices (order : HashOrder) : Method (StaticFlowEntryStorage τ) Unit := do
  let s ← Method.get
  Method.forEach indexByDpid (order.iter s.flowModMap.keySet)
  Method.forEach indexByName (order.iter s.flowModMap.keySet)

end StaticFlowEntryStorage

/-! ## The database -/

open StorageConverter

/-- The documents that a query finds. -/
structure Finder where
  finds : Entry → Entry → Bool
  finds_self : ∀ document, finds document document = true
  /-- A string is found in a string only if that is the same. -/
  string_eq : ∀ query document key v w, finds query document = true →
    query.get key = some (.string v) → document.get key = some (.string w) → v = w

/-- A database in which a query finds the documents with the same strings. -/
def Finder.byStrings : Finder where
  finds query document := query.keySet.all fun k =>
    (query.get k).bind Value.asString = (document.get k).bind Value.asString
  finds_self document := by simp
  string_eq query document key v w hfinds hquery hdocument := by
    have hkey := List.all_eq_true.1 hfinds key ((HashMap.mem_keySet_iff query).2 ⟨_, hquery⟩)
    rw [hquery, hdocument] at hkey
    exact Option.some.inj (of_decide_eq_true hkey)

namespace StaticFlowEntryStorage

variable {τ : Type} (finder : Finder) (around : Surroundings)

/-- `getAllDBEntries`. -/
def getAllDBEntries (retrieves : Bool) : Method (StaticFlowEntryStorage τ) (List Entry) := do
  let s ← Method.get
  match s.collection with
  | none => return []
  | some documents => if retrieves then return documents.map dbObjectToMap else Method.throw

/-- `insert` of the storage manager. -/
def insert (entry : Entry) : Method (StaticFlowEntryStorage τ) Bool := do
  let s ← Method.get
  match s.collection with
  | none => return false
  | some documents =>
    let dbObject := mapToDBObject entry
    if around.counts then
      if documents.any (finder.finds dbObject) then return true
      else if around.inserts then do
        Method.modify fun s => { s with collection := some (documents ++ [dbObject]) }
        return true
      else return false
    else Method.throw

/-- `delete` of the storage manager. -/
def delete (query : Entry) : Method (StaticFlowEntryStorage τ) Bool := do
  let s ← Method.get
  match s.collection with
  | none => return false
  | some documents =>
    let dbObject := mapToDBObject query
    if around.counts then
      if documents.any (finder.finds dbObject) then
        if around.removes then do
          Method.modify fun s => { s with collection := some (documents.filter (!finder.finds dbObject ·)) }
          return true
        else Method.throw
      else return false
    else Method.throw

def insertDBEntry (entry : Entry) : Method (StaticFlowEntryStorage τ) Bool := do
  let s ← Method.get
  if s.collection.isNone then return true
  else do
    -- the result is not looked at
    let _ ← insert finder around entry
    return true

/-- The loop of `getDBEntry`. -/
def findEntry (name : String) : List Entry → Method (StaticFlowEntryStorage τ) (Option Entry)
  | [] => return none
  | entry :: entries => do
    let entryName ← Method.nonNull (entry.get "name")
    if entryName.asString = some name then return some entry else findEntry name entries

def getDBEntry (name : String) : Method (StaticFlowEntryStorage τ) (Option Entry) := do
  let entries ← getAllDBEntries around.retrieves
  findEntry name entries

def deleteDBEntry (name : String) : Method (StaticFlowEntryStorage τ) Bool := do
  let s ← Method.get
  if s.collection.isNone then return true
  else do
    let entry ← getDBEntry around name
    match entry with
    | none => return false
    | some entry => do
      -- the result is not looked at
      let _ ← delete finder around entry
      return true

/-- The body of the loop of `loadFlowModsFromDB`. -/
def loadEntry (entry : Entry) : Method (StaticFlowEntryStorage τ) Unit := do
  -- an entry without a name would be put under null
  let name ← Method.nonNull ((entry.get "name").bind Value.asString)
  Method.modify fun s => { s with flowModMap := s.flowModMap.put name entry }

def loadFlowModsFromDB (order : HashOrder) (retrieves : Bool) : Method (StaticFlowEntryStorage τ) Unit := do
  let entries ← getAllDBEntries retrieves
  Method.forEach loadEntry entries
  buildIndices order

/-- `getFlowModMap` of a switch, or of all. The entry of a name may be null. -/
def getFlowModMap (order : HashOrder) (s : StaticFlowEntryStorage τ) (dpid : String) : HashMap String (Option Entry) :=
  match if dpid ≠ "all" then s.dpidToFlowModNameIndex.get dpid else some s.flowModMap.keySet with
  | none => ∅
  | some names => (order.iter names).foldl (fun flowmods name => flowmods.put name (s.flowModMap.get name)) ∅

/-- Nothing is stored yet. -/
def initial (collection : Option (List Entry)) (flowTables : Dpid → τ) : StaticFlowEntryStorage τ where
  flowModMap := ∅
  dpidToFlowModNameIndex := ∅
  flowModNameToDpidIndex := ∅
  collection := collection
  flowTables := flowTables
  attempts := 0

/-- The maps, the database and the flow tables say the same. -/
structure SameStore {τ : Type} (s s' : StaticFlowEntryStorage τ) : Prop where
  entries : ∀ name, s'.flowModMap.get name = s.flowModMap.get name
  listed : ∀ dpid name, s'.dpidToFlowModNameIndex.Has dpid name ↔ s.dpidToFlowModNameIndex.Has dpid name
  switches : ∀ name, s'.flowModNameToDpidIndex.get name = s.flowModNameToDpidIndex.get name
  documents : (s'.collection.getD []).Perm (s.collection.getD [])
  flows : s'.flowTables = s.flowTables

end StaticFlowEntryStorage

end Torpedo
