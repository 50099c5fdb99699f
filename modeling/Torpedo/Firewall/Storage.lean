import Torpedo.Firewall.Rule
import Torpedo.Util.Collections
import Torpedo.Util.Decimal

/-!
# Storage of rules

`addRule` flattens a rule into an entry of strings, which `FirewallStorage` puts into a table in memory and
into the database. When the controller starts, `readRulesFromStorage` makes rules of the entries again. What
it makes of an entry is `FirewallRule.restored`: the rule, but for two wildcards that are not read.
-/

namespace Torpedo

/-! ## Entries -/

/-- The columns of an entry. -/
inductive Column
  | ruleid | dpid | inPort | dlSrc | dlDst | dlType
  | nwSrcPrefix | nwSrcMaskbits | nwDstPrefix | nwDstMaskbits | nwProto | tpSrc | tpDst
  | wildcardDpid | wildcardInPort | wildcardDlSrc | wildcardDlDst | wildcardDlType
  | wildcardNwSrc | wildcardNwDst | wildcardNwProto | wildcardTpSrc | wildcardTpDst
  | priority | action
deriving DecidableEq, Repr

abbrev Row := HashMap Column String

/-- `FirewallAction.ordinal`. -/
def FirewallAction.ordinal : FirewallAction → ℕ
  | .deny => 0
  | .allow => 1

namespace FirewallRule

/-- The entry of a rule in `addRule`. -/
def entry (r : FirewallRule) : Row :=
  (∅ : Row)
    |>.put .ruleid r.ruleid.toInt.repr
    |>.put .dpid r.dpid.toInt.repr
    |>.put .inPort r.inPort.toInt.repr
    |>.put .dlSrc r.dlSrc.toInt.repr
    |>.put .dlDst r.dlDst.toInt.repr
    |>.put .dlType r.dlType.toInt16.toInt.repr
    |>.put .nwSrcPrefix r.nwSrcPrefix.toInt.repr
    |>.put .nwSrcMaskbits r.nwSrcMaskbits.toInt.repr
    |>.put .nwDstPrefix r.nwDstPrefix.toInt.repr
    |>.put .nwDstMaskbits r.nwDstMaskbits.toInt.repr
    |>.put .nwProto r.nwProto.toInt.repr
    |>.put .tpSrc r.tpSrc.toInt.repr
    |>.put .tpDst r.tpDst.toInt.repr
    |>.put .wildcardDpid (toString r.wildcardDpid)
    |>.put .wildcardInPort (toString r.wildcardInPort)
    |>.put .wildcardDlSrc (toString r.wildcardDlSrc)
    |>.put .wildcardDlDst (toString r.wildcardDlDst)
    |>.put .wildcardDlType (toString r.wildcardDlType)
    |>.put .wildcardNwSrc (toString r.wildcardNwSrc)
    |>.put .wildcardNwDst (toString r.wildcardNwDst)
    |>.put .wildcardNwProto (toString r.wildcardNwProto)
    |>.put .wildcardTpSrc (toString r.wildcardTpSrc)
    |>.put .wildcardTpDst (toString r.wildcardTpDst)
    |>.put .priority r.priority.toInt.repr
    |>.put .action (r.action.ordinal : ℤ).repr

end FirewallRule

namespace FirewallRule

/-- The values in the entry of a rule. -/
def column (r : FirewallRule) : Column → String
  | .ruleid => r.ruleid.toInt.repr
  | .dpid => r.dpid.toInt.repr
  | .inPort => r.inPort.toInt.repr
  | .dlSrc => r.dlSrc.toInt.repr
  | .dlDst => r.dlDst.toInt.repr
  | .dlType => r.dlType.toInt16.toInt.repr
  | .nwSrcPrefix => r.nwSrcPrefix.toInt.repr
  | .nwSrcMaskbits => r.nwSrcMaskbits.toInt.repr
  | .nwDstPrefix => r.nwDstPrefix.toInt.repr
  | .nwDstMaskbits => r.nwDstMaskbits.toInt.repr
  | .nwProto => r.nwProto.toInt.repr
  | .tpSrc => r.tpSrc.toInt.repr
  | .tpDst => r.tpDst.toInt.repr
  | .wildcardDpid => toString r.wildcardDpid
  | .wildcardInPort => toString r.wildcardInPort
  | .wildcardDlSrc => toString r.wildcardDlSrc
  | .wildcardDlDst => toString r.wildcardDlDst
  | .wildcardDlType => toString r.wildcardDlType
  | .wildcardNwSrc => toString r.wildcardNwSrc
  | .wildcardNwDst => toString r.wildcardNwDst
  | .wildcardNwProto => toString r.wildcardNwProto
  | .wildcardTpSrc => toString r.wildcardTpSrc
  | .wildcardTpDst => toString r.wildcardTpDst
  | .priority => r.priority.toInt.repr
  | .action => (r.action.ordinal : ℤ).repr

theorem get_entry (r : FirewallRule) (c : Column) : r.entry.get c = some (r.column c) := by
  unfold entry
  cases c <;> simp only [HashMap.get_put, reduceCtorEq, if_false, if_true] <;> rfl

end FirewallRule

/-! ## The table -/

/-- The entries by the ids of their rules. -/
abbrev FirewallEntryTable := HashMap String Row

/-! ## The database -/

/-- A query finds the documents that have its values. -/
def Row.Finds (query document : Row) : Prop := ∀ c ∈ query.keySet, document.get c = query.get c

instance {query document : Row} : Decidable (Row.Finds query document) :=
  inferInstanceAs (Decidable (∀ c ∈ query.keySet, _))

/-- The documents of the collection in the order in which they were inserted, if the database is
connected. -/
abbrev Database := Option (List Row)

namespace Database

/-- `insertDBEntry`. -/
def insertEntry (db : Database) (entry : Row) : Database :=
  db.map fun rows => if ∃ row ∈ rows, Row.Finds entry row then rows else rows ++ [entry]

/-- `getDBEntry`. -/
def getEntry (ruleid : Int32) : List Row → Except Stop (Option Row)
  | [] => .ok none
  | row :: rows => do
    let id ← orThrow (row.get .ruleid)
    if id = ruleid.toInt.repr then return some row else getEntry ruleid rows

/-- `deleteDBEntry`. -/
def deleteEntry (db : Database) (ruleid : Int32) : Except Stop Database :=
  match db with
  | none => .ok none
  | some rows => do
    match ← getEntry ruleid rows with
    | none => return some rows
    | some entry => return some (rows.filter fun row => ¬Row.Finds entry row)

/-- `getAllDBEntries`. -/
def getAllEntries (db : Database) : List Row := db.getD []

end Database

/-! ## Reading -/

/-- `Short.parseShort`. -/
def parseShort (s : String) : Except Stop Int16 := Int16.ofInt <$> orThrow (Decimal.parseNumber 16 s)

/-- `Integer.parseInt`. -/
def parseInt (s : String) : Except Stop Int32 := Int32.ofInt <$> orThrow (Decimal.parseNumber 32 s)

/-- `Long.parseLong`. -/
def parseLong (s : String) : Except Stop Int64 := Int64.ofInt <$> orThrow (Decimal.parseNumber 64 s)

/-- `Boolean.parseBoolean`, in upper and lower case. -/
def parseBoolean (s : String) : Bool := s.toList.map Char.toLower = ['t', 'r', 'u', 'e']

/-- A rule that is read, and whether its action is recognized. -/
abbrev ReadRule := FirewallRule × Bool

/-- Read a column into a rule. The wildcards of the ports have no branch. -/
def readColumn : ReadRule → Column → String → Except Stop ReadRule
  | (r, recognized), c, s =>
  match c with
  | .ruleid | .dpid => .ok (r, recognized)
  | .inPort => return ({ r with inPort := ← parseShort s }, recognized)
  | .dlSrc => return ({ r with dlSrc := ← parseLong s }, recognized)
  | .dlDst => return ({ r with dlDst := ← parseLong s }, recognized)
  | .dlType => return ({ r with dlType := (← parseShort s).toUInt16 }, recognized)
  | .nwSrcPrefix => return ({ r with nwSrcPrefix := ← parseInt s }, recognized)
  | .nwSrcMaskbits => return ({ r with nwSrcMaskbits := ← parseInt s }, recognized)
  | .nwDstPrefix => return ({ r with nwDstPrefix := ← parseInt s }, recognized)
  | .nwDstMaskbits => return ({ r with nwDstMaskbits := ← parseInt s }, recognized)
  | .nwProto => return ({ r with nwProto := ← parseShort s }, recognized)
  | .tpSrc => return ({ r with tpSrc := ← parseShort s }, recognized)
  | .tpDst => return ({ r with tpDst := ← parseShort s }, recognized)
  | .wildcardDpid => .ok ({ r with wildcardDpid := parseBoolean s }, recognized)
  | .wildcardInPort => .ok ({ r with wildcardInPort := parseBoolean s }, recognized)
  | .wildcardDlSrc => .ok ({ r with wildcardDlSrc := parseBoolean s }, recognized)
  | .wildcardDlDst => .ok ({ r with wildcardDlDst := parseBoolean s }, recognized)
  | .wildcardDlType => .ok ({ r with wildcardDlType := parseBoolean s }, recognized)
  | .wildcardNwSrc => .ok ({ r with wildcardNwSrc := parseBoolean s }, recognized)
  | .wildcardNwDst => .ok ({ r with wildcardNwDst := parseBoolean s }, recognized)
  | .wildcardNwProto => .ok ({ r with wildcardNwProto := parseBoolean s }, recognized)
  | .wildcardTpSrc | .wildcardTpDst => .ok (r, recognized)
  | .priority => return ({ r with priority := ← parseInt s }, recognized)
  | .action => do
    let tmp ← parseInt s
    if tmp.toInt = FirewallAction.deny.ordinal then return ({ r with action := .deny }, true)
    else if tmp.toInt = FirewallAction.allow.ordinal then return ({ r with action := .allow }, true)
    else return (r, false)

/-- Read a column of a row, if it has a value. -/
def readKey (row : Row) (read : ReadRule) (c : Column) : Except Stop ReadRule :=
  match row.get c with
  | none => .ok read
  | some s => readColumn read c s

variable (ord : HashOrder)

/-- Read the columns of a row, in the order of its hash map. -/
def readRow (row : Row) (ruleid dpid : String) : Except Stop ReadRule := do
  let ruleid ← parseInt ruleid
  let dpid ← parseLong dpid
  (ord.iter row.keySet).foldlM (readKey row) ({ ruleid, dpid }, true)

/-- The rules that are read up to a row that cannot be read, and whether they are sorted then. They are not
sorted if a row has no id or no switch. -/
def readRows : List Row → List FirewallRule × Bool
  | [] => ([], true)
  | row :: rows =>
    match row.get .ruleid, row.get .dpid with
    | some ruleid, some dpid =>
      match readRow ord row ruleid dpid with
      | .ok (r, true) => (readRows rows).map (r :: ·) id
      | .ok (_, false) => readRows rows
      | .error _ => ([], true)
    | _, _ => ([], false)

/-- `synchronizeStorage`. -/
def synchronizeStorage (table : FirewallEntryTable) (rows : List Row) :
    Except Stop FirewallEntryTable :=
  rows.foldlM (fun table row => do return table.put (← orThrow (row.get .ruleid)) row) table

/-- `readRulesFromStorage`, with `Collections.sort`. -/
def readRulesFromStorage (sort : List FirewallRule → Except Stop (List FirewallRule))
    (table : FirewallEntryTable) (db : Database) : Except Stop (FirewallEntryTable × List FirewallRule) := do
  let resultSet := db.getAllEntries
  let table ← synchronizeStorage table resultSet
  match readRows ord resultSet with
  | (l, true) => return (table, ← sort l)
  | (l, false) => return (table, l)

end Torpedo
