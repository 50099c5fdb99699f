import Mathlib.Data.Set.Insert
import Torpedo.Forwarding.PushRoute
import Torpedo.Util.Journeys

/-!
# Flow tables and packets

What the switches do with the flow-mods of `pushRoute`: an `ADD` replaces the flow with the same match and the same
priority, and a packet goes out at the ports of a flow that it meets and whose priority is highest. Behind a push,
a packet that no match of an earlier push covers but its own is sent the one way that the route has next.
-/

namespace Torpedo

/-- The ports that a packet is put out at. -/
def FlowBody.outputs : FlowBody → List OFPort
  | .actions as => as.map OutputAction.port
  | .applyActions as => as.map OutputAction.port

/-- The flows in the table of each switch. -/
abbrev SwitchTables (φ ν : Type) := Dpid → Set (RouteFlow φ ν)

namespace SwitchTables

/-! ## Adding flows -/

section Add

variable {φ ν : Type}

/-- A switch gets a flow-mod of the command `ADD`. -/
def add (tables : SwitchTables φ ν) (sent : Dpid × RouteFlow φ ν) : SwitchTables φ ν :=
  Function.update tables sent.1 (insert sent.2
    {flow ∈ tables sent.1 | ¬(flow.ofMatch = sent.2.ofMatch ∧ flow.priority = sent.2.priority)})

def addAll (tables : SwitchTables φ ν) (sent : List (Dpid × RouteFlow φ ν)) : SwitchTables φ ν :=
  sent.foldl add tables

variable {tables : SwitchTables φ ν} {x : Dpid × RouteFlow φ ν} {sent : List (Dpid × RouteFlow φ ν)} {sw : Dpid}
  {flow : RouteFlow φ ν}

end Add

/-! ## Packets -/

section Meets

variable {φ ν : Type} [DecidableEq φ] (lib : MatchLibrary φ ν) (agrees : ν → Oxm ν → Prop)

/-- The fields of a packet, without the port. -/
abbrev Header (φ ν : Type) := φ → Option ν

/-- Each field of the match but the port is met by the packet. -/
def MeetsFields (m : OfMatch φ ν) (header : Header φ ν) : Prop :=
  ∀ f, f ≠ lib.inPort → ∀ oxm, m f = some oxm → ∃ value, header f = some value ∧ agrees value oxm

/-- The match is met by a packet that comes in at the port. -/
def Meets (m : OfMatch φ ν) (port : OFPort) (header : Header φ ν) : Prop :=
  MeetsFields lib agrees m header ∧ ∀ oxm, m lib.inPort = some oxm → agrees (lib.ofPort port) oxm

/-- The flow is met, and none of a higher priority is. -/
def Highest (tables : SwitchTables φ ν) (header : Header φ ν) (a : NodePortTuple) (flow : RouteFlow φ ν) : Prop :=
  flow ∈ tables a.nodeId ∧ Meets lib agrees flow.ofMatch a.portId header ∧
    ∀ flow' ∈ tables a.nodeId, Meets lib agrees flow'.ofMatch a.portId header → flow'.priority ≤ flow.priority

/-- A packet that has come in at the port `a` goes out at the port `d` of the same switch. -/
def Sends (tables : SwitchTables φ ν) (header : Header φ ν) (a d : NodePortTuple) : Prop :=
  d.nodeId = a.nodeId ∧ ∃ flow, Highest lib agrees tables header a flow ∧ d.portId ∈ flow.body.outputs

variable {lib agrees} {m m' : OfMatch φ ν} {header : Header φ ν}

/-- Matches that differ in the port only are met by the same packets. -/
theorem MeetsFields.congr (h : MeetsFields lib agrees m header) (hsame : ∀ f, f ≠ lib.inPort → m' f = m f) :
    MeetsFields lib agrees m' header := fun f hf oxm hoxm => h f hf oxm (hsame f hf ▸ hoxm)

end Meets

end SwitchTables

/-! ## What a push adds -/

namespace ForwardingBase

/-- A call of `pushRoute` by the forwarding module: the switches that are connected, the match of a packet-in, its
switch, and a route. -/
structure Push (φ ν : Type) where
  isConnected : Dpid → Bool
  ofMatch : OfMatch φ ν
  pi : RoutePacketIn
  pinSwitch : Dpid
  cookie : UInt64
  route : Route

section

variable {φ ν : Type} [DecidableEq φ] [DecidableEq ν] (lib : MatchLibrary φ ν)

/-- The flow-mods that a push has written, also if it has thrown in between. -/
def Push.flows (p : Push φ ν) : List (Dpid × RouteFlow φ ν) :=
  flowModsOf (pushRoute lib p.isConnected p.ofMatch p.pi p.pinSwitch p.route p.cookie .add []).2

/-- The flow has the priority of all flows of the module, and its match is one of the packet-in with a port. -/
def OfPush (m : OfMatch φ ν) (flow : RouteFlow φ ν) : Prop :=
  flow.priority = 10 ∧ ∃ port, flow.ofMatch = MatchLibrary.setExact lib.inPort (lib.ofPort port) m

end

section

variable {φ ν : Type} [DecidableEq φ] {lib : MatchLibrary φ ν} {isConnected : Dpid → Bool} {m : OfMatch φ ν}
  {pi : RoutePacketIn} {pinSwitch : Dpid}

/-- All flows written so far are of the push. -/
def AllOf (lib : MatchLibrary φ ν) (m : OfMatch φ ν) (written : List (Dpid × RouteMessage φ ν)) : Prop :=
  ∀ x ∈ flowModsOf written, OfPush lib m x.2

theorem AllOf.flowMod {s : List (Dpid × RouteMessage φ ν)} (hs : AllOf lib m s) {flow : RouteFlow φ ν}
    (hflow : OfPush lib m flow) (sw : Dpid) : AllOf lib m (s ++ [(sw, .flowMod flow)]) := by
  intro x hx
  rw [flowModsOf_append] at hx
  rcases List.mem_append.1 hx with hx | hx
  · exact hs x hx
  · obtain rfl := List.mem_singleton.1 hx
    exact hflow

theorem AllOf.packetOut {s : List (Dpid × RouteMessage φ ν)} (hs : AllOf lib m s) (message : PacketOut)
    (sw : Dpid) : AllOf lib m (s ++ [(sw, .packetOut message)]) := by
  intro x hx
  rw [flowModsOf_append] at hx
  rcases List.mem_append.1 hx with hx | hx
  · exact hs x hx
  · exact absurd hx List.not_mem_nil

variable [DecidableEq ν]

/-- The flow-mods of a push along connected switches, one for each of them. -/
theorem flows_eq {p : Push φ ν} {id : RouteId} {hops : List Hop} (hcopies : lib.Copies p.ofMatch)
    (hroute : p.route = routeOf id hops) (hconn : ∀ hop ∈ hops, p.isConnected hop.switchDPID)
    (hsend : ∀ hop ∈ hops, Sendable p.pi p.pinSwitch hop) : ∃ b, lib.copy p.ofMatch = .ok b ∧
      p.flows lib =
        (latched (fun hop => asksRemoval lib p.ofMatch p.pinSwitch hop.switchDPID) false hops.reverse).map fun hop =>
          (hop.1.switchDPID, sentFlow p.pi p.pinSwitch p.cookie .add lib b hop.2 hop.1) := by
  obtain ⟨b, hcopy, -⟩ := hcopies.copy
  obtain ⟨included, written, hrun, hflows⟩ := pushLoop_eq (m := p.ofMatch) p.cookie .add hcopy
    (fun hop hmem => hconn hop (List.mem_reverse.1 hmem)) (fun hop hmem => hsend hop (List.mem_reverse.1 hmem))
    p.ofMatch false (.actions []) noBuffer false []
  refine ⟨b, hcopy, ?_⟩
  unfold Push.flows
  rw [hroute, pushRoute_eq, hrun]
  exact hflows

end

end ForwardingBase

end Torpedo
