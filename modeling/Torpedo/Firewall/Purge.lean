import Torpedo.Firewall.Decisions

/-!
# Purging

`OFMFirewall.purgeMatchingRulesFromSwitches` deletes the flows of a rule from the switches, by a match that
it makes of the rule. The match reads the rule otherwise than `matchesFlow` does: a protocol is asked for
also where `matchesFlow` does not look at it, and the ports are always those of TCP.
-/

namespace Torpedo

/-! ## Values of a match -/

/-- `IpProtocol.of`, with the byte on the wire. -/
def IpProtocol.of (proto : Int16) : Except Stop UInt8 :=
  if 0xff ≤ proto then .error .exception else .ok proto.toUInt16.toUInt8

/-- `TransportPort.of`, with the number on the wire. -/
def TransportPort.of (port : Int32) : Except Stop UInt16 :=
  if port = 0 ∨ port = -1 then .ok port.toInt16.toUInt16
  else if port < 0 ∨ 0xffff < port then .error .exception
  else .ok port.toInt16.toUInt16

/-- `MacAddress.of`, of the last 48 bits. -/
def MacAddress.of (raw : Int64) : List UInt8 := bytesOf 6 raw.toUInt64.toNat

/-! ## Building the match -/

/-- A switch of the controller. -/
structure IOFSwitch where
  id : Dpid
  version : OFVersion
deriving DecidableEq, Repr

namespace FirewallRule

/-- Set a field that is no wildcard. -/
def setExact {α : Type} (wildcard : Bool) (value : Except Stop α) : Except Stop (Option α) :=
  if wildcard then .ok none else some <$> value

/-- The addresses of a prefix. -/
def maskedOf (rulePrefix maskbits : Int32) : Masked :=
  if maskbits = 32 then .exact rulePrefix.toUInt32
  else ⟨rulePrefix.toUInt32, ((-1 : Int32) <<< (32 - maskbits)).toUInt32⟩

/-- The addresses, if the number of the protocol is that of a type. It is the addresses that are wildcards
that are set. -/
def buildAddresses (r : FirewallRule) : Match :=
  let src := if r.wildcardNwSrc then some (maskedOf r.nwSrcPrefix r.nwSrcMaskbits) else none
  let dst := if r.wildcardNwDst then some (maskedOf r.nwDstPrefix r.nwDstMaskbits) else none
  if r.wildcardNwProto then {}
  else if r.nwProto = 0x800 then { ipv4Src := src, ipv4Dst := dst }
  else if r.nwProto = 0x806 then { arpSpa := src, arpTpa := dst }
  else {}

def buildMatch (r : FirewallRule) : Except Stop Match := do
  let ethType ← setExact r.wildcardDlType (.ok r.dlType)
  let ethSrc ← setExact r.wildcardDlSrc (.ok (MacAddress.of r.dlSrc))
  let ethDst ← setExact r.wildcardDlDst (.ok (MacAddress.of r.dlDst))
  let ipProto ← setExact r.wildcardNwProto (IpProtocol.of r.nwProto)
  let inPort ← setExact r.wildcardInPort (OFPort.of r.inPort.toInt32)
  let tcpSrc ← setExact r.wildcardTpSrc (TransportPort.of r.tpSrc.toInt32)
  let tcpDst ← setExact r.wildcardTpDst (TransportPort.of r.tpDst.toInt32)
  return { r.buildAddresses with ethType, ethSrc, ethDst, ipProto, inPort, tcpSrc, tcpDst }

/-- The match of the message that deletes the flows. In OpenFlow 1.0 there is no mask of a cookie, and the
match is left as it is by default, without fields. -/
def deletedMatch (r : FirewallRule) : OFVersion → Except Stop Match
  | .of10 => .ok {}
  | version => Match.build version <$> r.buildMatch

/-- The messages that are written to the switches, and whether an exception is thrown in the end. -/
def purgeMatchingRulesFromSwitches (r : FirewallRule) :
    List IOFSwitch → List (IOFSwitch × Match) × Except Stop Unit
  | [] => ([], .ok ())
  | sw :: switches =>
    if r.wildcardDpid = false ∧ sw.id ≠ r.dpid then r.purgeMatchingRulesFromSwitches switches
    else
      match r.deletedMatch sw.version with
      | .ok m => (r.purgeMatchingRulesFromSwitches switches).map ((sw, m) :: ·) id
      | .error e => ([], .error e)

/-! ## Exceptions -/

/-- The fields of the rule have values that a match can have. -/
def Buildable (r : FirewallRule) : Prop :=
  (r.wildcardNwProto = false → r.nwProto < 0xff) ∧
  (r.wildcardInPort = false → r.inPort ≤ -256 ∨ -8 ≤ r.inPort) ∧
  (r.wildcardTpSrc = false → -1 ≤ r.tpSrc) ∧
  (r.wildcardTpDst = false → -1 ≤ r.tpDst)

instance {r : FirewallRule} : Decidable r.Buildable := inferInstanceAs (Decidable (_ ∧ _ ∧ _ ∧ _))

/-- The match, if there is one. -/
def matchOf (r : FirewallRule) : Match where
  inPort := if r.wildcardInPort then none else some r.inPort.toInt32
  ethDst := if r.wildcardDlDst then none else some (MacAddress.of r.dlDst)
  ethSrc := if r.wildcardDlSrc then none else some (MacAddress.of r.dlSrc)
  ethType := if r.wildcardDlType then none else some r.dlType
  ipProto := if r.wildcardNwProto then none else some r.nwProto.toUInt16.toUInt8
  tcpSrc := if r.wildcardTpSrc then none else some r.tpSrc.toUInt16
  tcpDst := if r.wildcardTpDst then none else some r.tpDst.toUInt16

variable {r : FirewallRule}

theorem setExact_ok {α : Type} (wildcard : Bool) (v : α) :
    setExact wildcard (.ok v) = .ok (if wildcard then none else some v) := by
  cases wildcard <;> rfl

theorem setExact_eq {α : Type} {c : Prop} [Decidable c] {wildcard : Bool} {value : Except Stop α} {v : α}
    (h : value = if c then .ok v else .error .exception) : setExact wildcard value =
      if wildcard = false → c then .ok (if wildcard then none else some v) else .error .exception := by
  subst h
  cases wildcard with
  | true => rfl
  | false =>
    by_cases hc : c
    · rw [if_pos hc, if_pos fun _ => hc]
      rfl
    · rw [if_neg hc, if_neg fun h => hc (h rfl)]
      rfl

theorem ipProtocol_of_eq (proto : Int16) : IpProtocol.of proto =
    if proto < 0xff then .ok proto.toUInt16.toUInt8 else .error .exception := by
  unfold IpProtocol.of
  by_cases h : proto < 0xff
  · rw [if_pos h, if_neg (Int16.not_le.2 h)]
  · rw [if_neg h, if_pos (Int16.not_lt.1 h)]

theorem transportPort_of_eq (port : Int16) : TransportPort.of port.toInt32 =
    if -1 ≤ port then .ok port.toUInt16 else .error .exception := by
  have hlt := port.toInt_lt
  unfold TransportPort.of
  rw [Int16.toInt16_toInt32]
  simp only [← Int32.toInt_inj, Int32.lt_iff_toInt_lt, Int16.le_iff_toInt_le, Int16.toInt_toInt32]
  have hzero : (0 : Int32).toInt = 0 := rfl
  have hone : (-1 : Int32).toInt = -1 := rfl
  have hone' : (-1 : Int16).toInt = -1 := rfl
  have hmax : (0xffff : Int32).toInt = 0xffff := rfl
  rw [hzero, hone, hone', hmax]
  split_ifs <;> first | rfl | omega

theorem ofPort_of_eq (port : Int16) : OFPort.of port.toInt32 =
    if port ≤ -256 ∨ -8 ≤ port then .ok port.toInt32 else .error .exception := by
  unfold OFPort.of OFPort.named OFPort.max OFPort.controller OFPort.local'
  simp only [List.mem_cons, List.not_mem_nil, or_false, ← Int32.toInt_inj, Int32.lt_iff_toInt_lt,
    Int16.le_iff_toInt_le, Int16.toInt_toInt32, Int32.reduceToInt, Int16.reduceToInt]
  split_ifs <;> first | rfl | omega

/-- No address is set: the numbers of the types are no protocols. -/
theorem buildAddresses_eq (h : r.wildcardNwProto = false → r.nwProto < 0xff) : r.buildAddresses = {} := by
  unfold buildAddresses
  cases hwildcard : r.wildcardNwProto with
  | true => rfl
  | false =>
    have hlt := h hwildcard
    have hipv4 : r.nwProto ≠ 0x800 := fun heq => absurd (heq ▸ hlt) (by decide)
    have harp : r.nwProto ≠ 0x806 := fun heq => absurd (heq ▸ hlt) (by decide)
    simp [hipv4, harp]

theorem buildMatch_eq :
    r.buildMatch = if r.Buildable then .ok r.matchOf else .error .exception := by
  unfold buildMatch
  rw [setExact_ok, setExact_ok, setExact_ok, setExact_eq (ipProtocol_of_eq _),
    setExact_eq (ofPort_of_eq _), setExact_eq (transportPort_of_eq _), setExact_eq (transportPort_of_eq _)]
  by_cases hproto : r.wildcardNwProto = false → r.nwProto < 0xff
  · rw [if_pos hproto, buildAddresses_eq hproto]
    by_cases hport : r.wildcardInPort = false → r.inPort ≤ -256 ∨ -8 ≤ r.inPort
    · rw [if_pos hport]
      by_cases hsrc : r.wildcardTpSrc = false → -1 ≤ r.tpSrc
      · rw [if_pos hsrc]
        by_cases hdst : r.wildcardTpDst = false → -1 ≤ r.tpDst
        · rw [if_pos hdst, if_pos (show r.Buildable from ⟨hproto, hport, hsrc, hdst⟩)]
          rfl
        · rw [if_neg hdst, if_neg fun h : r.Buildable => hdst h.2.2.2]
          rfl
      · rw [if_neg hsrc, if_neg fun h : r.Buildable => hsrc h.2.2.1]
        rfl
    · rw [if_neg hport, if_neg fun h : r.Buildable => hport h.2.1]
      rfl
  · rw [if_neg hproto, if_neg fun h : r.Buildable => hproto h.1]
    rfl

/-- A switch gets a message if a match for its version can be built. -/
def BuildableFor (r : FirewallRule) (version : OFVersion) : Prop := version = .of10 ∨ r.Buildable

instance {version : OFVersion} : Decidable (r.BuildableFor version) :=
  inferInstanceAs (Decidable (_ ∨ _))

theorem deletedMatch_ok {version : OFVersion} (h : r.BuildableFor version) :
    r.deletedMatch version = .ok (if version = .of10 then {} else r.matchOf.build version) := by
  unfold deletedMatch
  obtain rfl | h := h
  · rfl
  · rw [buildMatch_eq, if_pos h]
    cases version <;> rfl

theorem deletedMatch_error {version : OFVersion} (h : ¬r.BuildableFor version) :
    r.deletedMatch version = .error .exception := by
  obtain ⟨hversion, h⟩ := not_or.1 h
  unfold deletedMatch
  rw [buildMatch_eq, if_neg h]
  cases version with
  | of10 => exact absurd rfl hversion
  | of11 | of12 | of13 => rfl

/-! ## The messages -/

/-- The exceptions that end the loop come at the switches of the rule. -/
def Purges (r : FirewallRule) (sw : IOFSwitch) : Prop := r.SwitchMatches sw.id → r.BuildableFor sw.version

variable {switches : List IOFSwitch} {sw : IOFSwitch}

theorem switchMatches_iff : ¬(r.wildcardDpid = false ∧ sw.id ≠ r.dpid) ↔ r.SwitchMatches sw.id := by
  unfold SwitchMatches
  rw [not_and, not_not]
  exact imp_congr_right fun _ => eq_comm

theorem purge_skipped {s : IOFSwitch} (hs : ¬r.SwitchMatches s.id) :
    r.purgeMatchingRulesFromSwitches (s :: switches) = r.purgeMatchingRulesFromSwitches switches := by
  rw [purgeMatchingRulesFromSwitches, if_pos (not_not.1 fun h => hs (switchMatches_iff.1 h))]

theorem purge_written {s : IOFSwitch} {m : Match} (hs : r.SwitchMatches s.id)
    (hm : r.deletedMatch s.version = .ok m) : r.purgeMatchingRulesFromSwitches (s :: switches) =
      (r.purgeMatchingRulesFromSwitches switches).map ((s, m) :: ·) id := by
  rw [purgeMatchingRulesFromSwitches, if_neg (switchMatches_iff.2 hs), hm]

theorem purge_thrown {s : IOFSwitch} (hs : ¬r.Purges s) :
    r.purgeMatchingRulesFromSwitches (s :: switches) = ([], .error .exception) := by
  obtain ⟨hmatches, hbuild⟩ := Classical.not_imp.1 hs
  rw [purgeMatchingRulesFromSwitches, if_neg (switchMatches_iff.2 hmatches), deletedMatch_error hbuild]

/-- No exception is thrown at a switch before this one. -/
def Reaches (r : FirewallRule) (switches : List IOFSwitch) (sw : IOFSwitch) : Prop :=
  ∀ s ∈ switches.takeWhile (· ≠ sw), r.Purges s

/-- No exception is thrown at any of the switches. -/
def PurgesAll (r : FirewallRule) (switches : List IOFSwitch) : Prop := ∀ s ∈ switches, r.Purges s

instance {s : IOFSwitch} : Decidable (r.Purges s) := inferInstanceAs (Decidable ((_ → _) → _))

instance : Decidable (r.PurgesAll switches) := inferInstanceAs (Decidable (∀ s ∈ switches, _))

theorem purge_ok_iff :
    (r.purgeMatchingRulesFromSwitches switches).2 = .ok () ↔ r.PurgesAll switches := by
  unfold PurgesAll
  induction switches with
  | nil => exact iff_of_true rfl nofun
  | cons s switches ih =>
    rw [List.forall_mem_cons]
    by_cases hpurges : r.Purges s
    · rw [and_iff_right hpurges, ← ih]
      by_cases hs : r.SwitchMatches s.id
      · rw [purge_written hs (deletedMatch_ok (hpurges hs))]
        rfl
      · rw [purge_skipped hs]
    · rw [purge_thrown hpurges]
      exact iff_of_false nofun fun h => hpurges h.1

theorem purge_cases (r : FirewallRule) (switches : List IOFSwitch) :
    (∃ written, r.PurgesAll switches ∧ r.purgeMatchingRulesFromSwitches switches = (written, .ok ())) ∨
    ∃ written e, ¬r.PurgesAll switches ∧
      r.purgeMatchingRulesFromSwitches switches = (written, .error e) := by
  rw [← purge_ok_iff]
  cases hpurge : r.purgeMatchingRulesFromSwitches switches with
  | mk written result =>
    cases result with
    | ok u => exact .inl ⟨written, rfl, rfl⟩
    | error e => exact .inr ⟨written, e, nofun, rfl⟩

end FirewallRule

/-! ## Flows that are covered -/

/-- A field that is set has the value that the packet has. -/
def FieldCovers {α : Type} (field packet : Option α) : Prop := ∀ v, field = some v → packet = some v

def MaskedCovers (field packet : Option Masked) : Prop :=
  ∀ v, field = some v → ∃ w, packet = some w ∧ w.value &&& v.mask = v.value &&& v.mask

namespace Match

/-- Every field that is set has the value of the packet. -/
structure Covers (m packet : Match) : Prop where
  inPort : FieldCovers m.inPort packet.inPort
  ethDst : FieldCovers m.ethDst packet.ethDst
  ethSrc : FieldCovers m.ethSrc packet.ethSrc
  ethType : FieldCovers m.ethType packet.ethType
  vlanVid : FieldCovers m.vlanVid packet.vlanVid
  vlanPcp : FieldCovers m.vlanPcp packet.vlanPcp
  ipDscp : FieldCovers m.ipDscp packet.ipDscp
  ipEcn : FieldCovers m.ipEcn packet.ipEcn
  ipProto : FieldCovers m.ipProto packet.ipProto
  ipv4Src : MaskedCovers m.ipv4Src packet.ipv4Src
  ipv4Dst : MaskedCovers m.ipv4Dst packet.ipv4Dst
  arpOp : FieldCovers m.arpOp packet.arpOp
  arpSpa : MaskedCovers m.arpSpa packet.arpSpa
  arpTpa : MaskedCovers m.arpTpa packet.arpTpa
  tcpSrc : FieldCovers m.tcpSrc packet.tcpSrc
  tcpDst : FieldCovers m.tcpDst packet.tcpDst
  udpSrc : FieldCovers m.udpSrc packet.udpSrc
  udpDst : FieldCovers m.udpDst packet.udpDst

end Match

namespace FirewallRule

variable {r : FirewallRule} {sw : IOFSwitch} {switches : List IOFSwitch} {inPort : OFPort}
  {packet : Ethernet}

/-- The packet of TCP in a frame. -/
def tcpOf (packet : Ethernet) : Option TCP := do
  match (← ipv4Of packet).payload with
  | some (.tcp tcp) => some tcp
  | _ => none

/-- The fields that the match asks for are in the packet: its port is no large one, and it is one of the
protocol, or of TCP with the ports. -/
structure Named (r : FirewallRule) (inPort : OFPort) (packet : Ethernet) : Prop where
  inPort : r.wildcardInPort = false → inPort < 0x8000
  protocol : FieldMatches r.wildcardNwProto (ipv4Of packet) fun ip => ip.protocol = r.nwProto.toUInt16.toUInt8
  tpSrc : FieldMatches r.wildcardTpSrc (tcpOf packet) fun tcp => tcp.sourcePort = r.tpSrc.toUInt16
  tpDst : FieldMatches r.wildcardTpDst (tcpOf packet) fun tcp => tcp.destinationPort = r.tpDst.toUInt16

theorem macAddress_of_toLong (mac : MACAddress) : MacAddress.of mac.toLong = mac.address := by
  have hlt : bigEndian mac.address < 256 ^ 6 := mac.length_eq ▸ bigEndian_lt mac.address
  have htoNat : mac.toLong.toUInt64.toNat = bigEndian mac.address := by
    unfold MACAddress.toLong
    rw [Int64.toUInt64_ofNat', UInt64.toNat_ofNat']
    exact Nat.mod_eq_of_lt (by omega)
  unfold MacAddress.of
  rw [htoNat]
  exact mac.length_eq ▸ bytesOf_bigEndian mac.address

end FirewallRule

end Torpedo
