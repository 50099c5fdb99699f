import Torpedo.Packet.Actions
import Torpedo.Packet.Loading
import Torpedo.Util.Collections
import Torpedo.Util.Method

/-!
# MAC learning

`OFMLearningMac` learns the ports of the sources of packets, and for a destination whose port it knows it
installs two flows: one for the packets like the one that came, and one for those of the other direction.
-/

namespace Torpedo

/-! ## Builders with a parent -/

/-- What `Match.createBuilder` gives: the match, and the fields if one of them has been set. -/
structure MatchBuilder where
  parent : Match
  fields : Option Match := none

def Match.createBuilder (m : Match) : MatchBuilder := { parent := m }

namespace MatchBuilder

/-- `setExact`, for an update of a field. In OpenFlow 1.0 the other fields are those of the parent. From 1.2 on
they are unset, and in 1.1 nothing is set. -/
def setExact (version : OFVersion) (update : Match → Match) (b : MatchBuilder) : MatchBuilder :=
  match version with
  | .of10 => { b with fields := some (update (b.fields.getD b.parent)) }
  | .of11 => b
  | .of12 | .of13 => { b with fields := some (update (b.fields.getD {})) }

/-- A field is set if its value is not null. -/
def setNonNull {α : Type} (version : OFVersion) (value : Option α) (update : Match → Match) (b : MatchBuilder) :
    MatchBuilder :=
  match value with
  | none => b
  | some _ => b.setExact version update

def build (version : OFVersion) (b : MatchBuilder) : Match := (b.fields.getD b.parent).build version

end MatchBuilder

/-! ## Messages -/

/-- A message that adds a flow. It has a table where its actions are in an instruction. -/
structure LearnedFlow where
  cookie : UInt64
  idleTimeout : ℕ
  hardTimeout : ℕ
  priority : ℕ
  bufferId : UInt32
  outPort : OFPort
  sendFlowRem : Bool
  ofMatch : Match
  body : FlowBody
  tableId : Option ℕ
deriving DecidableEq, Repr

inductive LearningMessage
  | packetOut (message : PacketOut)
  | flowAdd (flow : LearnedFlow)
deriving DecidableEq, Repr

/-- A packet-in. Before OpenFlow 1.2 it has a port and no match, and from then on a match and no port. -/
structure LearnedPacketIn where
  version : OFVersion
  bufferId : UInt32
  inPort : OFPort
  ofMatch : Match
  data : List UInt8

/-! ## Ports -/

structure MacVlanPair where
  mac : List UInt8
  vlan : UInt16
  sw : ℕ
deriving DecidableEq, Repr

/-- An `LRULinkedHashMap`: the eldest entry comes first. A port may be null. -/
abbrev PortMap := List (MacVlanPair × Option OFPort)

/-- The ports of the hosts at each switch, and the messages that go out. -/
structure LearningMac where
  macVlanToSwitchPortMap : HashMap ℕ PortMap
  out : List LearningMessage

namespace PortMap

/-- `MAX_MACS_PER_SWITCH`. -/
def capacity : ℕ := 1000

/-- An entry that is put is the youngest. The eldest is removed if there are too many. -/
def put (m : PortMap) (key : MacVlanPair) (port : Option OFPort) : PortMap :=
  let m := m.filter (·.1 ≠ key) ++ [(key, port)]
  if capacity < m.length then m.tail else m

/-- An entry that is read is the youngest, too. -/
def get (m : PortMap) (key : MacVlanPair) : Option OFPort × PortMap :=
  match m.find? (·.1 = key) with
  | some entry => (entry.2, m.filter (·.1 ≠ key) ++ [entry])
  | none => (none, m)

end PortMap

namespace LearningMac

/-- `LEARNING_SWITCH_COOKIE`. -/
def learningSwitchCookie : UInt64 := 0x10000000000000

def addToPortMap (sw : ℕ) (mac : List UInt8) (vlan : Option UInt16) (port : Option OFPort) :
    Method LearningMac Unit :=
  Method.modify fun s =>
    let swMap := (s.macVlanToSwitchPortMap.get sw).getD []
    { s with macVlanToSwitchPortMap := s.macVlanToSwitchPortMap.put sw (swMap.put ⟨mac, vlan.getD 0, sw⟩ port) }

/-- The hash code of a pair without an address is not defined. -/
def getFromPortMap (sw : ℕ) (mac : Option (List UInt8)) (vlan : Option UInt16) :
    Method LearningMac (Option OFPort) := do
  let s ← Method.get
  match s.macVlanToSwitchPortMap.get sw with
  | none => return none
  | some swMap =>
    let mac ← Method.nonNull mac
    let (port, swMap) := swMap.get ⟨mac, vlan.getD 0, sw⟩
    Method.modify fun s => { s with macVlanToSwitchPortMap := s.macVlanToSwitchPortMap.put sw swMap }
    return port

/-! ## Messages that are sent -/

def send (message : LearningMessage) : Method LearningMac Unit :=
  Method.modify fun s => { s with out := s.out ++ [message] }

/-- The flow that `writeFlowMod` makes with the command `ADD`. Only a message of OpenFlow 1.0 has actions. -/
def flowAdd (version : OFVersion) (bufferId : UInt32) (ofMatch : Match) (outPort : OFPort) : LearnedFlow where
  cookie := learningSwitchCookie
  idleTimeout := 5
  hardTimeout := 0
  priority := 100
  bufferId := bufferId
  outPort := outPort
  sendFlowRem := true
  ofMatch := ofMatch
  body := if version = .of10 then .actions [⟨outPort, 0xffff⟩] else .applyActions [⟨outPort, 0xffff⟩]
  tableId := if version = .of10 then none else some 0

def writeFlowMod (version : OFVersion) (bufferId : UInt32) (ofMatch : Match) (outPort : Option OFPort) :
    Method LearningMac Unit := do
  let outPort ← Method.nonNull outPort
  send (.flowAdd (flowAdd version bufferId ofMatch outPort))

def writePacketOutForPacketIn (pi : LearnedPacketIn) (egressPort : OFPort) (inputPort : Option OFPort) :
    Method LearningMac Unit := do
  let inputPort ← Method.nonNull inputPort
  send (.packetOut ⟨pi.bufferId, inputPort, [⟨egressPort, 0xffff⟩],
    if pi.bufferId = noBuffer then some pi.data else none⟩)

/-! ## Packets -/

/-- `pi.getMatch()`, or a match of the header of the frame if it is not supported. -/
def loadMatch (pi : LearnedPacketIn) : Except Stop Match :=
  match pi.version with
  | .of10 | .of11 => Match.loadOFMatchFromPacket pi.version pi.data pi.inPort true
  | .of12 | .of13 => .ok pi.ofMatch

/-- `OFVlanVidMatch.getVlanVid`. From OpenFlow 1.2 on a bit says that there is a tag. -/
def getVlanVid (version : OFVersion) (vm : UInt16) : Option UInt16 :=
  match version with
  | .of10 | .of11 => some (vm &&& 0xfff)
  | .of12 | .of13 =>
    if vm = 0xffff then some 0xffff else if vm &&& 0x1000 ≠ 0 then some (vm &&& 0xfff) else none

/-- The fields of the header, in a match that is made of the one of the packet. -/
def target (version : OFVersion) (m : Match) : Match :=
  m.createBuilder
    |>.setNonNull version m.inPort (fun r => { r with inPort := m.inPort })
    |>.setNonNull version m.ethType (fun r => { r with ethType := m.ethType })
    |>.setNonNull version (m.vlanVid.bind (getVlanVid version)) (fun r => { r with vlanVid := m.vlanVid })
    |>.setNonNull version m.ethSrc (fun r => { r with ethSrc := m.ethSrc })
    |>.setNonNull version m.ethDst (fun r => { r with ethDst := m.ethDst })
    |>.build version

/-- The match of the other direction. The source is set in `target`, which has been built. -/
def reverse (version : OFVersion) (m : Match) : Match :=
  (target version m).createBuilder
    |>.setNonNull version m.inPort (fun r => { r with inPort := m.inPort })
    |>.setNonNull version m.ethType (fun r => { r with ethType := m.ethType })
    |>.setNonNull version (m.vlanVid.bind (getVlanVid version)) (fun r => { r with vlanVid := m.vlanVid })
    |>.setNonNull version m.ethSrc (fun r => { r with ethDst := m.ethSrc })
    |>.build version

/-- An address of the range of the bridge protocols. -/
def isReserved (mac : List UInt8) : Bool := bigEndian mac &&& 0xfffffffffff0 = 0x0180c2000000

def isUnicast (mac : List UInt8) : Bool := bigEndian mac &&& 0x010000000000 = 0

/-- The port of the source is learned if it is not that of a group. -/
def learn (sw : ℕ) (version : OFVersion) (m : Match) : Method LearningMac Unit :=
  match m.ethSrc with
  | some sourceMac =>
    if isUnicast sourceMac then addToPortMap sw sourceMac (m.vlanVid.bind (getVlanVid version)) m.inPort
    else pure ()
  | none => pure ()

/-- The packet is sent, or flooded, and the flows of both directions are installed. -/
def forward (pi : LearnedPacketIn) (m : Match) (outPort : Option OFPort) : Method LearningMac Bool := do
  match outPort with
  | none => do
    writePacketOutForPacketIn pi (-5) m.inPort
    return true
  | some outPort =>
    if some outPort = m.inPort then return true
    else do
      writePacketOutForPacketIn pi outPort m.inPort
      writeFlowMod pi.version noBuffer (target pi.version m) (some outPort)
      writeFlowMod pi.version noBuffer (reverse pi.version m) m.inPort
      return true

/-- `processPacketInMessage`. There is no switch before the handshake. -/
def processPacketInMessage (sw : Option ℕ) (msg : Option LearnedPacketIn) : Method LearningMac Bool :=
  match sw, msg with
  | none, _ => return true
  | some _, none => return false
  | some sw, some pi => do
    let m ← Method.ofExcept (loadMatch pi)
    if m.ethDst.any isReserved then return true
    else
      learn sw pi.version m
      let outPort ← getFromPortMap sw m.ethDst (m.vlanVid.bind (getVlanVid pi.version))
      forward pi m outPort

end LearningMac

/-! ## Mirrors -/

/-- The match of the packets of the other direction: the sources are the destinations, and they come in where
these go out. -/
def Match.mirrored (m : Match) (outPort : OFPort) : Match :=
  { m with
    inPort := some outPort
    ethDst := m.ethSrc, ethSrc := m.ethDst
    ipv4Src := m.ipv4Dst, ipv4Dst := m.ipv4Src
    arpSpa := m.arpTpa, arpTpa := m.arpSpa
    tcpSrc := m.tcpDst, tcpDst := m.tcpSrc
    udpSrc := m.udpDst, udpDst := m.udpSrc }

/-- Mirrored twice, a match is what it was. -/
theorem Match.mirrored_mirrored {m : Match} {inPort : OFPort} (h : m.inPort = some inPort) (outPort : OFPort) :
    (m.mirrored outPort).mirrored inPort = m := by
  cases m
  cases h
  rfl

namespace LearnedFlow

/-- The flow of the other direction: it takes the packets from where they were sent, and sends them to where they
came from. All the rest is the same. -/
def IsMirror (f g : LearnedFlow) : Prop :=
  ∃ inPort, f.ofMatch.inPort = some inPort ∧ g = { f with
    ofMatch := f.ofMatch.mirrored f.outPort
    outPort := inPort
    body := f.body.setPort inPort }

end LearnedFlow

/-! ## The flows of a known destination -/

namespace MatchBuilder

variable {version : OFVersion} {b : MatchBuilder} {port : OFPort}

/-- Fields have been set, and the in-port is one of them. -/
def HasInPort (b : MatchBuilder) (port : OFPort) : Prop := ∃ r, b.fields = some r ∧ r.inPort = some port

theorem hasInPort_setExact (hversion : version ≠ .of11) {update : Match → Match}
    (h : ∀ r, (update r).inPort = some port) : (b.setExact version update).HasInPort port := by
  cases version with
  | of11 => exact absurd rfl hversion
  | _ => exact ⟨_, rfl, h _⟩

theorem HasInPort.setExact (hb : b.HasInPort port) {update : Match → Match}
    (h : ∀ r, (update r).inPort = r.inPort) : (b.setExact version update).HasInPort port := by
  obtain ⟨r, hr, hport⟩ := id hb
  cases version with
  | of11 => exact hb
  | _ => exact ⟨update r, by simp [MatchBuilder.setExact, hr], (h r).trans hport⟩

theorem HasInPort.setNonNull (hb : b.HasInPort port) {α : Type} (value : Option α) {update : Match → Match}
    (h : ∀ r, (update r).inPort = r.inPort) : (b.setNonNull version value update).HasInPort port := by
  cases value with
  | none => exact hb
  | some _ => exact hb.setExact h

theorem HasInPort.build (hb : b.HasInPort port) (hversion : version ≠ .of11) :
    (b.build version).inPort = some port := by
  obtain ⟨r, hr, hport⟩ := hb
  have hbuild : (r.build version).inPort = r.inPort := by
    unfold Match.build Match.normalized Match.withoutPorts
    cases version with
    | of11 => exact absurd rfl hversion
    | of10 =>
      dsimp only
      split_ifs <;> rfl
    | _ => rfl
  unfold MatchBuilder.build
  rw [hr, Option.getD_some, hbuild, hport]

end MatchBuilder

namespace LearningMac

/-- A packet with ports that are known: it came in at a port, and when its source has been learned its destination
is known to be at another one. -/
structure Known (s : LearningMac) (sw : ℕ) (pi : LearnedPacketIn) (inputPort outPort : OFPort) : Prop where
  known : ∃ m, loadMatch pi = .ok m ∧ m.inPort = some inputPort ∧ m.ethDst.any isReserved = false ∧
    (getFromPortMap sw m.ethDst (m.vlanVid.bind (getVlanVid pi.version)) (learn sw pi.version m s).2).1 =
      .ok (some outPort)
  ne : outPort ≠ inputPort

/-- The messages that add flows. -/
def flows (s : LearningMac) : List LearnedFlow :=
  s.out.filterMap fun message => match message with
    | .flowAdd flow => some flow
    | .packetOut _ => none

variable {version : OFVersion} {m : Match} {port : OFPort}

theorem inPort_target (hversion : version ≠ .of11) (h : m.inPort = some port) :
    (target version m).inPort = some port := by
  unfold target
  refine MatchBuilder.HasInPort.build ?_ hversion
  refine .setNonNull ?_ _ fun _ => rfl
  refine .setNonNull ?_ _ fun _ => rfl
  refine .setNonNull ?_ _ fun _ => rfl
  refine .setNonNull ?_ _ fun _ => rfl
  rw [h]
  exact MatchBuilder.hasInPort_setExact hversion fun _ => rfl

/-- The in-port of the second flow is that of the first. -/
theorem inPort_reverse (hversion : version ≠ .of11) (h : m.inPort = some port) :
    (reverse version m).inPort = some port := by
  unfold reverse
  refine MatchBuilder.HasInPort.build ?_ hversion
  refine .setNonNull ?_ _ fun _ => rfl
  refine .setNonNull ?_ _ fun _ => rfl
  refine .setNonNull ?_ _ fun _ => rfl
  rw [h]
  exact MatchBuilder.hasInPort_setExact hversion fun _ => rfl

/-- Nothing is loaded in OpenFlow 1.1. -/
theorem version_ne {pi : LearnedPacketIn} (hload : loadMatch pi = .ok m) (h : m.inPort = some port) :
    pi.version ≠ .of11 := by
  intro hversion
  unfold loadMatch at hload
  rw [hversion] at hload
  rw [Match.load_of11 hload] at h
  exact nomatch h

variable {s : LearningMac} {sw : ℕ} {pi : LearnedPacketIn} {inputPort outPort : OFPort}

/-- Learning sends nothing. -/
theorem learn_eq (sw : ℕ) (version : OFVersion) (m : Match) (s : LearningMac) :
    ∃ s', learn sw version m s = (.ok (), s') ∧ s'.out = s.out := by
  unfold learn
  cases m.ethSrc with
  | none => exact ⟨s, rfl, rfl⟩
  | some sourceMac =>
    dsimp only
    split_ifs
    · exact ⟨_, rfl, rfl⟩
    · exact ⟨s, rfl, rfl⟩

theorem out_getFromPortMap (sw : ℕ) (s : LearningMac) (mac : Option (List UInt8)) (vlan : Option UInt16) :
    (getFromPortMap sw mac vlan s).2.out = s.out := by
  unfold getFromPortMap
  rw [Method.get_bind_apply]
  cases s.macVlanToSwitchPortMap.get sw with
  | none => rfl
  | some swMap =>
    cases mac with
    | none => rfl
    | some mac => rfl

variable (pi) in
/-- The packet and both flows are sent. -/
theorem out_forward (hm : m.inPort = some inputPort) (hne : outPort ≠ inputPort) (s : LearningMac) :
    ∃ data, (forward pi m (some outPort) s).2.out = s.out ++ [
      .packetOut ⟨pi.bufferId, inputPort, [⟨outPort, 0xffff⟩], data⟩,
      .flowAdd (flowAdd pi.version noBuffer (target pi.version m) outPort),
      .flowAdd (flowAdd pi.version noBuffer (reverse pi.version m) inputPort)] := by
  refine ⟨if pi.bufferId = noBuffer then some pi.data else none, ?_⟩
  unfold forward
  dsimp only
  rw [hm, if_neg fun h => hne (Option.some.inj h)]
  show s.out ++ _ ++ _ ++ _ = _
  simp

/-- The flows that are installed for a known destination. -/
theorem Known.flows_eq (h : Known s sw pi inputPort outPort) : ∃ m, m.inPort = some inputPort ∧
    pi.version ≠ .of11 ∧ (processPacketInMessage (some sw) (some pi) s).2.flows = s.flows ++
      [flowAdd pi.version noBuffer (target pi.version m) outPort,
        flowAdd pi.version noBuffer (reverse pi.version m) inputPort] := by
  obtain ⟨⟨m, hload, hm, hreserved, hknown⟩, hne⟩ := h
  refine ⟨m, hm, version_ne hload hm, ?_⟩
  obtain ⟨s₁, hlearn, hout₁⟩ := learn_eq sw pi.version m s
  rw [hlearn] at hknown
  have hout₂ := out_getFromPortMap sw s₁ m.ethDst (m.vlanVid.bind (getVlanVid pi.version))
  rcases hs₂ : getFromPortMap sw m.ethDst (m.vlanVid.bind (getVlanVid pi.version)) s₁ with ⟨r, s₂⟩
  rw [hs₂] at hknown hout₂
  obtain rfl : r = .ok (some outPort) := hknown
  have hrun : processPacketInMessage (some sw) (some pi) s = forward pi m (some outPort) s₂ := by
    show (Method.ofExcept (loadMatch pi) >>= _) s = _
    rw [hload, Method.ofExcept_ok, Method.pure_bind, hreserved, if_neg Bool.false_ne_true,
      Method.bind_ok hlearn, Method.bind_ok hs₂]
  obtain ⟨data, hout⟩ := out_forward pi hm hne s₂
  unfold flows
  rw [hrun, hout, hout₂, hout₁, List.filterMap_append]
  rfl

/-- The second flow takes its packets from the port of the first one, and not from where these are sent. -/
theorem not_isMirror (hversion : version ≠ .of11) (hm : m.inPort = some inputPort) (hne : outPort ≠ inputPort) :
    ¬(flowAdd version noBuffer (target version m) outPort).IsMirror
      (flowAdd version noBuffer (reverse version m) inputPort) := by
  rintro ⟨port, -, hg⟩
  have hsame : (reverse version m).inPort = some outPort := congrArg (·.ofMatch.inPort) hg
  rw [inPort_reverse hversion hm] at hsame
  exact hne (Option.some.inj hsame).symm

/-- Two flows are installed for a known destination: the first one takes the packets from the port of the packet to
that of the destination, and the second one is not its mirror. -/
theorem not_mirror (h : Known s sw pi inputPort outPort) : ∃ f g,
    (processPacketInMessage (some sw) (some pi) s).2.flows = s.flows ++ [f, g] ∧
      f.ofMatch.inPort = some inputPort ∧ f.outPort = outPort ∧ ¬f.IsMirror g := by
  obtain ⟨m, hm, hversion, hflows⟩ := h.flows_eq
  exact ⟨_, _, hflows, inPort_target hversion hm, rfl, not_isMirror hversion hm h.ne⟩

/-- The host with the address 2 is at the port 2 of the switch 7. -/
def learned : LearningMac where
  macVlanToSwitchPortMap := (∅ : HashMap ℕ PortMap).put 7 [(⟨[0, 0, 0, 0, 0, 2], 0, 7⟩, some 2)]
  out := []

/-- A packet from the host with the address 1 to it, at the port 1. -/
def knownPacket : LearnedPacketIn where
  version := .of10
  bufferId := noBuffer
  inPort := 1
  ofMatch := {}
  data := [0, 0, 0, 0, 0, 2, 0, 0, 0, 0, 0, 1, 8, 0]

theorem known_knownPacket : Known learned 7 knownPacket 1 2 :=
  ⟨⟨_, rfl, rfl, by decide, by decide⟩, by decide⟩

theorem not_mirror_knownPacket : ∃ f g,
    (processPacketInMessage (some 7) (some knownPacket) learned).2.flows = learned.flows ++ [f, g] ∧
      f.ofMatch.inPort = some 1 ∧ f.outPort = 2 ∧ ¬f.IsMirror g :=
  not_mirror known_knownPacket

theorem not_mirrors : ¬∀ (s : LearningMac) (sw : ℕ) (pi : LearnedPacketIn) (inputPort outPort : OFPort),
    Known s sw pi inputPort outPort → ∃ f g,
      (processPacketInMessage (some sw) (some pi) s).2.flows = s.flows ++ [f, g] ∧ f.IsMirror g := by
  intro hall
  obtain ⟨f, g, hflows, hmirror⟩ := hall _ _ _ _ _ known_knownPacket
  obtain ⟨m, hm, hversion, hflows'⟩ := known_knownPacket.flows_eq
  rw [hflows', List.append_cancel_left_eq] at hflows
  cases hflows
  exact not_isMirror hversion hm (by decide) hmirror

end LearningMac

end Torpedo
