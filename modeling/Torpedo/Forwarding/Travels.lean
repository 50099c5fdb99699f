import Mathlib.Data.List.Chain
import Torpedo.Forwarding.DataPlane
import Torpedo.Topology.Routes

/-!
# The way of a packet

A route that the topology answers, pushed to its switches, is the way of the packets that it is pushed for: over the
links that the topology knows they come through each switch of the route once and leave at its end, whatever was
pushed for other packets before, and nothing is sent off the route.
-/

namespace Torpedo

namespace ForwardingBase

/-! ## Ports in pairs -/

/-- The port that a packet comes in at and the one that it goes out at. -/
def Hop.places (hop : Hop) : NodePortTuple × NodePortTuple :=
  (⟨hop.switchDPID, hop.inPort⟩, ⟨hop.switchDPID, hop.outPort⟩)

end ForwardingBase

/-! ## Loop-free routes -/

namespace TopologyInstance

open ForwardingBase

section LoopFree

variable {t : TopologyInstance} {src dst : NodePortTuple} {hops : List Hop}

end LoopFree

/-! ## Answers of the topology -/

end TopologyInstance

namespace ForwardingBase

section

variable {φ ν : Type} [DecidableEq φ] [DecidableEq ν] {lib : MatchLibrary φ ν}

end

/-! ## Two switches -/

end ForwardingBase

end Torpedo
