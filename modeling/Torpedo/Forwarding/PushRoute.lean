import Torpedo.Controller.Controller
import Torpedo.Packet.Actions
import Torpedo.Packet.MatchLibrary
import Torpedo.StaticEntryManager.StaticFlowEntry
import Torpedo.Topology.Instance
import Torpedo.Util.Latches
import Torpedo.Util.Method

/-!
# Pushing routes

`pushRoute` goes along a route from its end, with one builder of flow-mods for all switches, and hands a flow-mod
for each of them to the damper. The messages of a route have a transaction number of their own, so the damper has
not met them. At the switch of the packet-in a message is asked for when the flow is removed, and the builder keeps
that for the switches that come later.
-/

namespace Torpedo

/-! ## Messages -/

/-- `OFFlowModCommand`. -/
inductive OFFlowModCommand
  | add | modify | modifyStrict | delete | deleteStrict
deriving DecidableEq, Repr

/-- `OFFlowMod`, also as long as it is in the builder. -/
structure RouteFlow (φ ν : Type) where
  command : OFFlowModCommand
  idleTimeout : ℕ
  hardTimeout : ℕ
  cookie : UInt64
  ofMatch : OfMatch φ ν
  priority : ℕ
  sendFlowRem : Bool
  /-- There is none in a version without tables. -/
  tableId : Option ℕ
  cookieMask : Option UInt64
  body : FlowBody
  bufferId : UInt32

inductive RouteMessage (φ ν : Type)
  | packetOut (message : PacketOut)
  | flowMod (flow : RouteFlow φ ν)

/-- A packet-in. What `getInputPort` gives is null if the match of the message has no port. -/
structure RoutePacketIn where
  version : OFVersion
  bufferId : UInt32
  inPort : Option OFPort
  data : List UInt8

/-- The flow-mods among the messages that were written, each with its switch. -/
def flowModsOf {φ ν : Type} (written : List (Dpid × RouteMessage φ ν)) : List (Dpid × RouteFlow φ ν) :=
  written.filterMap fun
    | (sw, .flowMod flow) => some (sw, flow)
    | (_, .packetOut _) => none

namespace ForwardingBase

section

variable {φ ν : Type} [DecidableEq φ] [DecidableEq ν]

/-- The builder in front of the loop. -/
def newFlow (version : OFVersion) (m : OfMatch φ ν) (cookie : UInt64) (command : OFFlowModCommand) :
    RouteFlow φ ν where
  command := command
  idleTimeout := 5
  hardTimeout := 0
  cookie := cookie
  ofMatch := m
  priority := 10
  sendFlowRem := false
  tableId := if version = .of10 then none else some 0
  cookieMask := if version = .of10 then none else some 0xffffffffffffffff
  body := .actions []
  bufferId := noBuffer

/-- The actions, which are in an instruction if the message has none of its own. -/
def outputBody (version : OFVersion) (outPort : OFPort) : FlowBody :=
  if version = .of10 then .actions [⟨outPort, 0⟩] else .applyActions [⟨outPort, 0⟩]

/-- `messageDamper.write`. -/
def write (sw : Dpid) (message : RouteMessage φ ν) : Method (List (Dpid × RouteMessage φ ν)) Unit :=
  Method.modify fun written => written ++ [(sw, message)]

variable (lib : MatchLibrary φ ν) (isConnected : Dpid → Bool) (m : OfMatch φ ν) (pi : RoutePacketIn)
  (pinSwitch : Dpid)

/-- The flag is set at the switch of the packet-in, but not for ARP. -/
def asksRemoval (sw : Dpid) : Bool := sw = pinSwitch && !decide (lib.IsArp m)

/-- What the body of the loop writes, and the builder after it. -/
def writeHop (sw : Dpid) (fm : RouteFlow φ ν) (outPort : OFPort) :
    Method (List (Dpid × RouteMessage φ ν)) (RouteFlow φ ν) := do
  if sw = pinSwitch then
    if pi.bufferId ≠ noBuffer then
      let fm := { fm with bufferId := pi.bufferId }
      write sw (.flowMod fm)
      return fm
    else
      let inPort ← Method.nonNull pi.inPort
      write sw (.packetOut ⟨noBuffer, inPort, [⟨outPort, 0⟩], some pi.data⟩)
      write sw (.flowMod fm)
      return fm
  else
    write sw (.flowMod fm)
    return fm

/-- The loop over the path from its end: a port that packets go out at, and one that they come in at. -/
def pushLoop : List NodePortTuple → RouteFlow φ ν → Bool → Method (List (Dpid × RouteMessage φ ν)) Bool
  | out :: into :: path, fm, srcSwitchIncluded =>
    let switchDPID := out.nodeId
    if isConnected switchDPID then do
      let fm := if asksRemoval lib m pinSwitch switchDPID then { fm with sendFlowRem := true } else fm
      let fmMatch ← Method.ofExcept (lib.copy m)
      let fm := { fm with
        body := outputBody pi.version out.portId
        ofMatch := lib.build (MatchLibrary.setExact lib.inPort (lib.ofPort into.portId) fmMatch)
        bufferId := noBuffer }
      let fm ← writeHop pi pinSwitch switchDPID fm out.portId
      pushLoop path fm (srcSwitchIncluded || switchDPID = pinSwitch)
    else return srcSwitchIncluded
  | _, _, srcSwitchIncluded => return srcSwitchIncluded

def pushRoute (route : Route) (cookie : UInt64) (command : OFFlowModCommand) :
    Method (List (Dpid × RouteMessage φ ν)) Bool :=
  pushLoop lib isConnected m pi pinSwitch route.switchPorts.reverse (newFlow pi.version m cookie command) false

end

/-! ## Routes -/

/-- A switch of a route, with the ports of the route. -/
structure Hop where
  switchDPID : Dpid
  inPort : OFPort
  outPort : OFPort
deriving DecidableEq, Repr

/-- The ports of a switch follow each other on a path. -/
def Hop.ports (hop : Hop) : List NodePortTuple := [⟨hop.switchDPID, hop.inPort⟩, ⟨hop.switchDPID, hop.outPort⟩]

def routeOf (id : RouteId) (hops : List Hop) : Route := ⟨id, hops.flatMap Hop.ports⟩

section

variable {φ ν : Type} [DecidableEq φ] [DecidableEq ν]
variable (lib : MatchLibrary φ ν) (isConnected : Dpid → Bool) (m : OfMatch φ ν) (pi : RoutePacketIn)
  (pinSwitch : Dpid) (cookie : UInt64) (command : OFFlowModCommand)

/-- What the builder holds, whatever has been set in the loop. -/
def flowWith (m : OfMatch φ ν) (flag : Bool) (body : FlowBody) (bufferId : UInt32) : RouteFlow φ ν :=
  { newFlow pi.version m cookie command with sendFlowRem := flag, body := body, bufferId := bufferId }

/-- The buffer of the packet-in is one of its switch. -/
def bufferAt (sw : Dpid) : UInt32 := if sw = pinSwitch then pi.bufferId else noBuffer

/-- The flow-mod of a switch: its ports, the match, and what only the switch of the packet-in gets. -/
def hopFlow (hop : Hop) : RouteFlow φ ν :=
  flowWith pi cookie command (MatchLibrary.setExact lib.inPort (lib.ofPort hop.inPort) m)
    (asksRemoval lib m pinSwitch hop.switchDPID) (outputBody pi.version hop.outPort)
    (bufferAt pi pinSwitch hop.switchDPID)

/-- The route is pushed, and each switch has been sent its flow-mod. -/
def Installs (id : RouteId) (hops : List Hop) : Prop :=
  ∃ srcSwitchIncluded written,
    pushRoute lib isConnected m pi pinSwitch (routeOf id hops) cookie command [] =
      (.ok srcSwitchIncluded, written) ∧
    (flowModsOf written).Perm
      (hops.map fun hop => (hop.switchDPID, hopFlow lib m pi pinSwitch cookie command hop))

/-- On a route, the switches that are asked come before the others. -/
def AskedFirst (hops : List Hop) : Prop :=
  hops.Pairwise fun a b => asksRemoval lib m pinSwitch b.switchDPID → asksRemoval lib m pinSwitch a.switchDPID

/-- The packet can be sent from its switch, or it is in a buffer there. -/
def Sendable (hop : Hop) : Prop := hop.switchDPID = pinSwitch → pi.bufferId ≠ noBuffer ∨ pi.inPort.isSome

end

/-! ## The loop -/

section

variable {φ ν : Type} {pi : RoutePacketIn} {pinSwitch : Dpid} {cookie : UInt64} {command : OFFlowModCommand}
  {hop : Hop}

theorem flowModsOf_append (written written' : List (Dpid × RouteMessage φ ν)) :
    flowModsOf (written ++ written') = flowModsOf written ++ flowModsOf written' :=
  List.filterMap_append

theorem reverse_ports (hops : List Hop) :
    (hops.flatMap Hop.ports).reverse = hops.reverse.flatMap fun hop => hop.ports.reverse :=
  List.reverse_flatMap

variable (cookie command) in
/-- A switch is sent one flow-mod. -/
theorem writeHop_eq (hsend : Sendable pi pinSwitch hop) (x : OfMatch φ ν) (flag : Bool) (body : FlowBody)
    (s : List (Dpid × RouteMessage φ ν)) : ∃ written,
      writeHop pi pinSwitch hop.switchDPID (flowWith pi cookie command x flag body noBuffer) hop.outPort s =
        (.ok (flowWith pi cookie command x flag body (bufferAt pi pinSwitch hop.switchDPID)), s ++ written) ∧
      flowModsOf written =
        [(hop.switchDPID, flowWith pi cookie command x flag body (bufferAt pi pinSwitch hop.switchDPID))] := by
  unfold writeHop bufferAt
  by_cases hpin : hop.switchDPID = pinSwitch
  · rw [if_pos hpin, if_pos hpin]
    by_cases hbuffer : pi.bufferId = noBuffer
    · rw [if_neg (not_not.2 hbuffer), hbuffer]
      obtain ⟨inPort, hin⟩ := Option.isSome_iff_exists.1 ((hsend hpin).resolve_left (not_not.2 hbuffer))
      rw [hin]
      refine ⟨[(hop.switchDPID, .packetOut ⟨noBuffer, inPort, [⟨hop.outPort, 0⟩], some pi.data⟩),
        (hop.switchDPID, .flowMod (flowWith pi cookie command x flag body noBuffer))], ?_, rfl⟩
      exact Prod.ext rfl (List.append_assoc s _ _)
    · rw [if_pos hbuffer]
      exact ⟨_, rfl, rfl⟩
  · rw [if_neg hpin, if_neg hpin]
    exact ⟨_, rfl, rfl⟩

/-- If the packet of a packet-in cannot be sent, an exception is thrown. -/
theorem sendable_of_writeHop {fm fm' : RouteFlow φ ν} {s s' : List (Dpid × RouteMessage φ ν)}
    (h : writeHop pi pinSwitch hop.switchDPID fm hop.outPort s = (.ok fm', s')) : Sendable pi pinSwitch hop := by
  intro hpin
  by_contra hnot
  obtain ⟨hbuffer, hin⟩ := not_or.1 hnot
  unfold writeHop at h
  rw [if_pos hpin, if_neg hbuffer, Option.not_isSome_iff_eq_none.1 hin] at h
  exact nomatch congrArg Prod.fst h

variable [DecidableEq φ] [DecidableEq ν]
variable {lib : MatchLibrary φ ν} {isConnected : Dpid → Bool} {m b : OfMatch φ ν} {hops : List Hop}

variable (lib pi pinSwitch cookie command b) in
/-- The flow-mod of a switch as the loop writes it, with a copy of the match. -/
def sentFlow (flag : Bool) (hop : Hop) : RouteFlow φ ν :=
  flowWith pi cookie command (lib.build (MatchLibrary.setExact lib.inPort (lib.ofPort hop.inPort) b)) flag
    (outputBody pi.version hop.outPort) (bufferAt pi pinSwitch hop.switchDPID)

variable (cookie command) in
/-- One round of the loop, for a switch that is connected. The builder holds the flow-mod that was sent. -/
theorem pushLoop_cons (hconn : isConnected hop.switchDPID) (hcopy : lib.copy m = .ok b)
    (hsend : Sendable pi pinSwitch hop) (path : List NodePortTuple) (x : OfMatch φ ν) (flag : Bool)
    (body : FlowBody) (bufferId : UInt32) (included : Bool) (s : List (Dpid × RouteMessage φ ν)) :
    let flow := sentFlow pi pinSwitch cookie command lib b (flag || asksRemoval lib m pinSwitch hop.switchDPID) hop
    ∃ written,
      pushLoop lib isConnected m pi pinSwitch (hop.ports.reverse ++ path)
          (flowWith pi cookie command x flag body bufferId) included s =
        pushLoop lib isConnected m pi pinSwitch path flow (included || hop.switchDPID = pinSwitch) (s ++ written) ∧
      flowModsOf written = [(hop.switchDPID, flow)] := by
  intro flow
  obtain ⟨written, hwrite, hflows⟩ := writeHop_eq cookie command hsend
    (lib.build (MatchLibrary.setExact lib.inPort (lib.ofPort hop.inPort) b))
    (flag || asksRemoval lib m pinSwitch hop.switchDPID) (outputBody pi.version hop.outPort) s
  refine ⟨written, ?_, hflows⟩
  show pushLoop lib isConnected m pi pinSwitch
    (⟨hop.switchDPID, hop.outPort⟩ :: ⟨hop.switchDPID, hop.inPort⟩ :: path) _ _ _ = _
  rw [pushLoop, if_pos hconn, hcopy]
  have hcopied : (Method.ofExcept (.ok b) : Method (List (Dpid × RouteMessage φ ν)) _) s = (.ok b, s) := rfl
  refine (Method.bind_ok hcopied).trans (Method.bind_ok ?_)
  refine Eq.trans ?_ hwrite
  refine congrArg (fun fm => writeHop pi pinSwitch hop.switchDPID fm hop.outPort s) ?_
  cases asksRemoval lib m pinSwitch hop.switchDPID with
  | true => rw [Bool.or_true, if_pos rfl]; rfl
  | false => rw [Bool.or_false]; rfl

variable (cookie command) in
/-- What the loop sends for hops in the order in which it meets them. -/
theorem pushLoop_eq (hcopy : lib.copy m = .ok b) (hconn : ∀ hop ∈ hops, isConnected hop.switchDPID)
    (hsend : ∀ hop ∈ hops, Sendable pi pinSwitch hop) (x : OfMatch φ ν) (flag : Bool) (body : FlowBody)
    (bufferId : UInt32) (included : Bool) (s : List (Dpid × RouteMessage φ ν)) :
    ∃ included' written,
      pushLoop lib isConnected m pi pinSwitch (hops.flatMap fun hop => hop.ports.reverse)
          (flowWith pi cookie command x flag body bufferId) included s = (.ok included', s ++ written) ∧
      flowModsOf written = (latched (fun hop => asksRemoval lib m pinSwitch hop.switchDPID) flag hops).map
        fun hop => (hop.1.switchDPID, sentFlow pi pinSwitch cookie command lib b hop.2 hop.1) := by
  induction hops generalizing x flag body bufferId included s with
  | nil =>
    refine ⟨included, [], ?_, rfl⟩
    rw [List.append_nil]
    rfl
  | cons hop hops ih =>
    rw [List.forall_mem_cons] at hconn hsend
    obtain ⟨written, hround, hflow⟩ := pushLoop_cons cookie command hconn.1 hcopy hsend.1
      (hops.flatMap fun hop => hop.ports.reverse) x flag body bufferId included s
    obtain ⟨included', written', hrun, hflows⟩ := ih hconn.2 hsend.2 _ _ _ _ _ (s ++ written)
    refine ⟨included', written ++ written', ?_, ?_⟩
    · rw [List.flatMap_cons, hround, ← List.append_assoc]
      exact hrun
    · rw [flowModsOf_append, hflow, hflows]
      rfl

/-- If the loop returns, the match could be copied and the packet be sent. -/
theorem of_pushLoop_eq_ok {fm : RouteFlow φ ν} {included included' : Bool} {s s' : List (Dpid × RouteMessage φ ν)}
    (hconn : ∀ hop ∈ hops, isConnected hop.switchDPID)
    (h : pushLoop lib isConnected m pi pinSwitch (hops.flatMap fun hop => hop.ports.reverse) fm included s =
      (.ok included', s')) : ∀ hop ∈ hops, (∃ b, lib.copy m = .ok b) ∧ Sendable pi pinSwitch hop := by
  induction hops generalizing fm included s with
  | nil => exact fun hop hmem => absurd hmem List.not_mem_nil
  | cons hop hops ih =>
    rw [List.forall_mem_cons] at hconn ⊢
    have hround : pushLoop lib isConnected m pi pinSwitch (⟨hop.switchDPID, hop.outPort⟩ ::
      ⟨hop.switchDPID, hop.inPort⟩ :: hops.flatMap fun hop => hop.ports.reverse) fm included s =
        (.ok included', s') := h
    rw [pushLoop, if_pos hconn.1] at hround
    obtain ⟨b, s₁, hcopy, hround⟩ := Method.of_bind_eq_ok hround
    obtain ⟨fm', s₂, hwrite, hround⟩ := Method.of_bind_eq_ok hround
    exact ⟨⟨⟨b, congrArg Prod.fst hcopy⟩, sendable_of_writeHop hwrite⟩, ih hconn.2 hround⟩

/-! ## Whole routes -/

/-- The switch of the packet-in comes first, or the flag is not asked for. -/
theorem askedFirst_iff : AskedFirst lib m pinSwitch hops ↔
      lib.IsArp m ∨ hops.Pairwise fun a b => b.switchDPID = pinSwitch → a.switchDPID = pinSwitch := by
  unfold AskedFirst asksRemoval
  by_cases harp : lib.IsArp m
  · refine iff_of_true ?_ (.inl harp)
    refine List.pairwise_of_forall fun a b h => ?_
    simp [harp] at h
  · simp [harp]

theorem pushRoute_eq (id : RouteId) (hops : List Hop) :
    pushRoute lib isConnected m pi pinSwitch (routeOf id hops) cookie command =
      pushLoop lib isConnected m pi pinSwitch (hops.reverse.flatMap fun hop => hop.ports.reverse)
        (flowWith pi cookie command m false (.actions []) noBuffer) false := by
  unfold pushRoute routeOf
  rw [reverse_ports]
  rfl

/-- The flags of the flow-mods that are sent are those of the switches. -/
theorem askedFirst_of_perm
    (h : ((latched (fun hop => asksRemoval lib m pinSwitch hop.switchDPID) false hops.reverse).map
        fun hop => (hop.1.switchDPID, sentFlow pi pinSwitch cookie command lib b hop.2 hop.1)).Perm
      (hops.map fun hop => (hop.switchDPID, hopFlow lib m pi pinSwitch cookie command hop))) :
    AskedFirst lib m pinSwitch hops := by
  have hcount := h.countP_eq fun flow => flow.2.sendFlowRem
  rw [List.countP_map, List.countP_map] at hcount
  refine List.pairwise_reverse.1 (countP_latched_iff.1 ?_)
  rw [List.countP_reverse]
  exact hcount

/-- What is so if a route is installed. -/
theorem of_installs {id : RouteId} (hconn : ∀ hop ∈ hops, isConnected hop.switchDPID)
    (h : Installs lib isConnected m pi pinSwitch cookie command id hops) :
    (hops ≠ [] → lib.Copies m) ∧ (∀ hop ∈ hops, Sendable pi pinSwitch hop) ∧
      AskedFirst lib m pinSwitch hops := by
  have hconn' : ∀ hop ∈ hops.reverse, isConnected hop.switchDPID :=
    fun hop hmem => hconn hop (List.mem_reverse.1 hmem)
  obtain ⟨included, written, hrun, hperm⟩ := h
  rw [pushRoute_eq] at hrun
  have hall := of_pushLoop_eq_ok hconn' hrun
  have hsend : ∀ hop ∈ hops, Sendable pi pinSwitch hop := fun hop hmem => (hall hop (List.mem_reverse.2 hmem)).2
  cases hhops : hops with
  | nil => exact ⟨fun hne => absurd rfl hne, hhops ▸ hsend, List.Pairwise.nil⟩
  | cons first rest =>
    have hfirst : first ∈ hops := hhops ▸ List.mem_cons_self
    rw [← hhops]
    obtain ⟨b, hcopy⟩ := (hall first (List.mem_reverse.2 hfirst)).1
    obtain ⟨included', written', hrun', hflows⟩ := pushLoop_eq cookie command hcopy hconn'
      (fun hop hmem => (hall hop hmem).2) m false (.actions []) noBuffer false []
    obtain ⟨-, rfl⟩ := Prod.ext_iff.1 (hrun.symm.trans hrun')
    rw [hflows] at hperm
    refine ⟨fun _ => ?_, hsend, askedFirst_of_perm hperm⟩
    obtain ⟨flag, hflag⟩ : ∃ flag, (first, flag) ∈
        latched (fun hop => asksRemoval lib m pinSwitch hop.switchDPID) false hops.reverse := by
      have hmem := List.mem_reverse.2 hfirst
      rw [← map_fst_latched (fun hop => asksRemoval lib m pinSwitch hop.switchDPID) false hops.reverse] at hmem
      obtain ⟨⟨_, flag⟩, hflag, rfl⟩ := List.mem_map.1 hmem
      exact ⟨flag, hflag⟩
    -- the match of any flow-mod is that of a switch
    obtain ⟨hop, -, hsame⟩ := List.mem_map.1 (hperm.mem_iff.1 (List.mem_map_of_mem hflag))
    exact MatchLibrary.copies_of_build hcopy
      (congrArg (fun flow : Dpid × RouteFlow φ ν => flow.2.ofMatch) hsame).symm

/-- When a route is installed. -/
theorem installs_iff (id : RouteId) (hconn : ∀ hop ∈ hops, isConnected hop.switchDPID) :
    Installs lib isConnected m pi pinSwitch cookie command id hops ↔
      (hops ≠ [] → lib.Copies m) ∧ (∀ hop ∈ hops, Sendable pi pinSwitch hop) ∧
        (lib.IsArp m ∨ hops.Pairwise fun a b => b.switchDPID = pinSwitch → a.switchDPID = pinSwitch) := by
  rw [← askedFirst_iff]
  refine ⟨of_installs hconn, ?_⟩
  rintro ⟨hcopies, hsend, hasked⟩
  unfold Installs
  rw [pushRoute_eq]
  by_cases hne : hops = []
  · subst hne
    exact ⟨_, _, rfl, .refl _⟩
  · obtain ⟨b, hcopy, hbuild⟩ := (hcopies hne).copy
    obtain ⟨included, written, hrun, hflows⟩ := pushLoop_eq cookie command hcopy
      (fun hop hmem => hconn hop (List.mem_reverse.1 hmem)) (fun hop hmem => hsend hop (List.mem_reverse.1 hmem)) m
      false (.actions []) noBuffer false []
    refine ⟨included, written, hrun, ?_⟩
    rw [hflows, latched_eq (List.pairwise_reverse.2 hasked), List.map_map]
    refine (List.Perm.of_eq (List.map_congr_left fun hop _ => ?_)).trans (hops.reverse_perm.map _)
    show (hop.switchDPID, sentFlow pi pinSwitch cookie command lib b _ hop) = _
    unfold sentFlow
    rw [hbuild]
    rfl

end

/-! ## Version 1.3 -/

/-- The field that has to be in a match for another one, with some of the values, or any if there are none. -/
def prerequisite : MatchField → Option (MatchField × List ℤ)
  | .vlanPcp => some (.vlanVid, [])
  | .ipDscp | .ipEcn | .ipProto => some (.ethType, [0x0800, 0x86dd])
  | .ipv4Src | .ipv4Dst => some (.ethType, [0x0800])
  | .tcpSrc | .tcpDst => some (.ipProto, [6])
  | .udpSrc | .udpDst => some (.ipProto, [17])
  | .sctpSrc | .sctpDst => some (.ipProto, [132])
  | .icmpv4Type | .icmpv4Code => some (.ipProto, [1])
  | .arpOp | .arpSpa | .arpTpa | .arpSha | .arpTha => some (.ethType, [0x0806])
  | .mplsLabel | .mplsTc => some (.ethType, [0x8847, 0x8848])
  | .inPort | .ethDst | .ethSrc | .vlanVid | .ethType => none

/-- The prerequisites of a field, which have prerequisites themselves. -/
def arePrerequisitesOK (m : OfMatch MatchField ℤ) : ℕ → MatchField → Bool
  | 0, _ => false
  | depth + 1, f =>
    match prerequisite f with
    | none => true
    | some (g, values) =>
      (m g).any (fun oxm => values = [] || decide (oxm.value ∈ values)) && arePrerequisitesOK m depth g

def matchFields : List MatchField :=
  [.inPort, .ethDst, .ethSrc, .ethType, .vlanVid, .vlanPcp, .ipDscp, .ipEcn, .ipProto, .ipv4Src, .ipv4Dst,
    .tcpSrc, .tcpDst, .udpSrc, .udpDst, .sctpSrc, .sctpDst, .icmpv4Type, .icmpv4Code, .arpOp, .arpSpa, .arpTpa,
    .arpSha, .arpTha, .mplsLabel, .mplsTc]

/-- OpenFlow 1.3: what is stored is listed if its prerequisites are met, and the builder leaves nothing out. -/
def of13 : MatchLibrary MatchField ℤ where
  inPort := .inPort
  ethType := .ethType
  ofPort port := port.toInt
  arp := 0x0806
  getMatchFields m := .ok (matchFields.filter fun f => (m f).isSome && arePrerequisitesOK m 3 f)
  isExact m f := (m f).any fun oxm => oxm.mask.isNone
  build := id
  isExact_spec m f h := by
    cases hf : m f with
    | none =>
      rw [hf] at h
      exact nomatch h
    | some oxm =>
      rw [hf] at h
      exact ⟨oxm.value, congrArg some (congrArg (Oxm.mk oxm.value) (Option.isNone_iff_eq_none.1 h))⟩
  build_spec _ _ := .inl rfl
  build_update _ _ := rfl

/-- The packets of IPv4. -/
def ofIPv4 : OfMatch MatchField ℤ := MatchLibrary.setExact .ethType 0x0800 fun _ => none

theorem copies_ofIPv4 : of13.Copies ofIPv4 := by
  refine ⟨[.ethType], rfl, by decide, fun f _ hf => ?_, rfl⟩
  by_contra hnot
  unfold ofIPv4 MatchLibrary.setExact at hf
  rw [Function.update_of_ne (mt List.mem_singleton.2 hnot)] at hf
  exact hf rfl

theorem installs_first : Installs of13 (fun _ => true) ofIPv4 ⟨.of13, noBuffer, some 1, []⟩ 1 0 .add ⟨1, 2⟩
    [⟨1, 1, 2⟩, ⟨2, 1, 2⟩] :=
  (installs_iff ⟨1, 2⟩ fun _ _ => rfl).2
    ⟨fun _ => copies_ofIPv4, fun _ _ _ => .inr rfl, .inr (by decide)⟩

/-- The packet came in at the second switch of the route. -/
theorem not_installs : ¬∀ (m : OfMatch MatchField ℤ) (pi : RoutePacketIn) (pinSwitch : Dpid) (cookie : UInt64)
    (command : OFFlowModCommand) (id : RouteId) (hops : List Hop),
    Installs of13 (fun _ => true) m pi pinSwitch cookie command id hops := by
  intro hall
  have hfirst := (of_installs (fun _ _ => rfl)
    (hall ofIPv4 ⟨.of13, noBuffer, some 1, []⟩ 2 0 .add ⟨1, 2⟩ [⟨1, 1, 2⟩, ⟨2, 1, 2⟩])).2.2
  unfold AskedFirst at hfirst
  exact absurd hfirst (by decide)

end ForwardingBase

end Torpedo
