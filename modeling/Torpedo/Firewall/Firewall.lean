import Torpedo.Firewall.Purge
import Torpedo.Firewall.Storage
import Torpedo.Util.Runs

/-!
# The firewall

`OFMFirewall` keeps its rules in a list, in the order of their priorities, in a table of entries and in the
database. The three operations on rules update one after the other, and purge the flows of a rule in
between. An exception of the purge leaves what is not yet updated as it is.
-/

namespace Torpedo

structure OFMFirewall where
  rules : List FirewallRule
  firewallEntryTable : FirewallEntryTable
  db : Database

/-- `RuleWildcardsPair`. -/
structure RuleWildcardsPair where
  rule : Option FirewallRule
  wildcards : UInt32
deriving DecidableEq, Repr

/-- `FirewallRule.genID`, of the hash code. The identity of the object is a part of the hash code. -/
def FirewallRule.genID (hashCode : Int32) : Int32 :=
  if hashCode < 0 then hashCode.abs * 15551 else hashCode

/-- The key of an entry. -/
def FirewallRule.key (ruleid : Int32) : String := ruleid.toInt.repr

namespace OFMFirewall

/-- What is written to the switches, and whether an exception is thrown in the end. -/
abbrev Outcome := List (IOFSwitch × Match) × Except Stop Unit

/-! ## Updates -/

/-- Add a rule before the first one whose priority is not lower. -/
def insertRule (rules : List FirewallRule) (rule : FirewallRule) : List FirewallRule :=
  let i := rules.findIdx fun r => rule.priority ≤ r.priority
  if i ≤ rules.length then rules.insertIdx i rule else rules ++ [rule]

def addRule (fw : OFMFirewall) (rule : FirewallRule) (hashCode : Int32) (switches : List IOFSwitch) :
    OFMFirewall × Outcome :=
  let rule := { rule with ruleid := FirewallRule.genID hashCode }
  ({ rules := insertRule fw.rules rule
     firewallEntryTable := fw.firewallEntryTable.put (FirewallRule.key rule.ruleid) rule.entry
     db := fw.db.insertEntry rule.entry },
    rule.purgeMatchingRulesFromSwitches switches)

/-- The entry is deleted from the table and from the database. -/
def deleteEntry (fw : OFMFirewall) (ruleid : Int32) : OFMFirewall × Except Stop Unit :=
  let fw := { fw with firewallEntryTable := fw.firewallEntryTable.remove (FirewallRule.key ruleid) }
  match fw.db.deleteEntry ruleid with
  | .ok db => ({ fw with db }, .ok ())
  | .error e => (fw, .error e)

def deleteRule (fw : OFMFirewall) (ruleid : Int32) (switches : List IOFSwitch) : OFMFirewall × Outcome :=
  match fw.deleteEntry ruleid with
  | (fw, .error e) => (fw, [], .error e)
  | (fw, .ok ()) =>
    match fw.rules.find? (·.ruleid = ruleid) with
    | none => (fw, [], .ok ())
    | some r =>
      match r.purgeMatchingRulesFromSwitches switches with
      -- the rule is removed only behind the purge
      | (written, .error e) => (fw, written, .error e)
      | (written, .ok ()) => ({ fw with rules := fw.rules.eraseP (·.ruleid = ruleid) }, written, .ok ())

/-- The loop of `clearRules` over the rules, and the list that is cleared behind it. -/
def clearLoop (switches : List IOFSwitch) : List FirewallRule → OFMFirewall → OFMFirewall × Outcome
  | [], fw => ({ fw with rules := [] }, [], .ok ())
  | r :: rules, fw =>
    match fw.deleteEntry r.ruleid with
    | (fw, .error e) => (fw, [], .error e)
    | (fw, .ok ()) =>
      match r.purgeMatchingRulesFromSwitches switches with
      | (written, .error e) => (fw, written, .error e)
      | (written, .ok ()) => (clearLoop switches rules fw).map id (Prod.map (written ++ ·) id)

def clearRules (fw : OFMFirewall) (switches : List IOFSwitch) : OFMFirewall × Outcome :=
  clearLoop switches fw.rules fw

/-! ## Decisions -/

/-- The loop of `matchWithRule`. -/
def matchLoop (switchDpid : Dpid) (inPort : OFPort) (packet : Ethernet) :
    List FirewallRule → FirewallRule.Flow (Option FirewallRule)
  | [] => return none
  | rule :: rules => do
    if ← rule.matchesFlow switchDpid inPort packet then return some rule
    else matchLoop switchDpid inPort packet rules

def matchWithRule (fw : OFMFirewall) (switchDpid : Dpid) (inPort : OFPort) (packet : Ethernet) :
    Except Stop RuleWildcardsPair := do
  match ← matchLoop switchDpid inPort packet fw.rules {} with
  | (none, wildcards) => return ⟨none, wildcards.drop⟩
  | (some rule, wildcards) =>
    return ⟨some rule, if rule.action = .deny then wildcards.drop else wildcards.allow⟩

end OFMFirewall

/-- What `processPacketInMessage` decides: `DROP` if there is no rule or it denies, and `FORWARD_OR_FLOOD`
otherwise. -/
def RuleWildcardsPair.decision (ret : RuleWildcardsPair) : FirewallAction :=
  match ret.rule with
  | none => .deny
  | some rule => rule.action

/-! ## Runs -/

/-- The calls of the three operations, with the switches that are connected at the time. -/
inductive FirewallCall
  | addRule (rule : FirewallRule) (hashCode : Int32) (switches : List IOFSwitch)
  | deleteRule (ruleid : Int32) (switches : List IOFSwitch)
  | clearRules (switches : List IOFSwitch)

/-- The id of a rule that is added. -/
def FirewallCall.added : FirewallCall → Option Int32
  | .addRule _ hashCode _ => some (FirewallRule.genID hashCode)
  | _ => none

namespace OFMFirewall

/-- A firewall without rules, with an empty database if it is connected to one. -/
def initial (connected : Bool) : OFMFirewall := ⟨[], ∅, if connected then some [] else none⟩

def step (fw : OFMFirewall) : FirewallCall → OFMFirewall
  | .addRule rule hashCode switches => (fw.addRule rule hashCode switches).1
  | .deleteRule ruleid switches => (fw.deleteRule ruleid switches).1
  | .clearRules switches => (fw.clearRules switches).1

end OFMFirewall

end Torpedo
