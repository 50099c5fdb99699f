import Torpedo.LinkDiscovery.Messages

/-!
# Firewall rules

`FirewallRule` with the decision tree `matchesFlow`, which also keeps track of the fields that a flow entry
has to name. What a rule says of a packet is `FirewallRule.Matches`: every field that is not a wildcard is
in the packet, with the value of the rule.
-/

namespace Torpedo

/-! ## Wildcards of flow entries -/

/-- `OFPFW_IN_PORT`. -/
def ofpfwInPort : UInt32 := (1 : UInt32) <<< 0

/-- `OFPFW_DL_SRC`. -/
def ofpfwDlSrc : UInt32 := (1 : UInt32) <<< 2

/-- `OFPFW_DL_DST`. -/
def ofpfwDlDst : UInt32 := (1 : UInt32) <<< 3

/-- `OFPFW_DL_TYPE`. -/
def ofpfwDlType : UInt32 := (1 : UInt32) <<< 4

/-- `OFPFW_NW_PROTO`. -/
def ofpfwNwProto : UInt32 := (1 : UInt32) <<< 5

/-- `OFPFW_TP_SRC`. -/
def ofpfwTpSrc : UInt32 := (1 : UInt32) <<< 6

/-- `OFPFW_TP_DST`. -/
def ofpfwTpDst : UInt32 := (1 : UInt32) <<< 7

/-- `OFPFW_NW_SRC_SHIFT`. -/
def ofpfwNwSrcShift : UInt32 := 8

/-- `OFPFW_NW_DST_SHIFT`. -/
def ofpfwNwDstShift : UInt32 := 14

/-- `OFPFW_ALL`. -/
def ofpfwAll : UInt32 := (1 : UInt32) <<< 22 - 1

/-- `WildcardsPair`. -/
structure WildcardsPair where
  allow : UInt32 := ofpfwAll
  drop : UInt32 := ofpfwAll
deriving DecidableEq, Repr

def MACAddress.toLong (mac : MACAddress) : Int64 := .ofNat (bigEndian mac.address)

/-! ## Rules -/

/-- `FirewallAction`. -/
inductive FirewallAction
  | deny | allow
deriving DecidableEq, Repr

structure FirewallRule where
  ruleid : Int32 := 0
  dpid : Dpid := -1
  inPort : Int16 := 0
  dlSrc : Int64 := 0
  dlDst : Int64 := 0
  dlType : UInt16 := 0
  nwSrcPrefix : Int32 := 0
  nwSrcMaskbits : Int32 := 0
  nwDstPrefix : Int32 := 0
  nwDstMaskbits : Int32 := 0
  nwProto : Int16 := 0
  tpSrc : Int16 := 0
  tpDst : Int16 := 0
  wildcardDpid : Bool := true
  wildcardInPort : Bool := true
  wildcardDlSrc : Bool := true
  wildcardDlDst : Bool := true
  wildcardDlType : Bool := true
  wildcardNwSrc : Bool := true
  wildcardNwDst : Bool := true
  wildcardNwProto : Bool := true
  wildcardTpSrc : Bool := true
  wildcardTpDst : Bool := true
  priority : Int32 := 0
  action : FirewallAction := .allow
deriving DecidableEq, Repr

namespace FirewallRule

/-- `matchIPAddress`. A shift takes its distance modulo 32. -/
def matchIPAddress (rulePrefix ruleBits packetAddress : Int32) : Bool :=
  let ruleIprng := 32 - ruleBits
  if 0 < ruleIprng then
    rulePrefix >>> ruleIprng <<< ruleIprng = packetAddress >>> ruleIprng <<< ruleIprng
  else rulePrefix = packetAddress

/-! ## Matching -/

/-- The wildcards change as a rule is matched, also if it does not match in the end. -/
abbrev Flow (α : Type) := StateT WildcardsPair (Except Stop) α

/-- Change the wildcards of the action of the rule. -/
def update (r : FirewallRule) (f : UInt32 → UInt32) : Flow Unit :=
  modify fun wildcards =>
    if r.action = .deny then { wildcards with drop := f wildcards.drop }
    else { wildcards with allow := f wildcards.allow }

/-- A field is no wildcard. -/
def clear (r : FirewallRule) (bits : UInt32) : Flow Unit := r.update (· &&& ~~~bits)

/-- An address has this many bits that are wildcards. -/
def setMaskbits (r : FirewallRule) (maskbits : Int32) (shift : UInt32) : Flow Unit := do
  r.clear ((32 : UInt32) <<< shift)
  r.update (· ||| maskbits.toUInt32 <<< shift)

def matchesPorts (r : FirewallRule) (pktTpSrc pktTpDst : UInt16) : Flow Bool := do
  if r.tpSrc ≠ 0 ∧ r.tpSrc ≠ pktTpSrc.toInt16 then return false
  else
    r.clear ofpfwTpSrc
    if r.tpDst ≠ 0 ∧ r.tpDst ≠ pktTpDst.toInt16 then return false
    else
      r.clear ofpfwTpDst
      return true

/-- A cast to TCP, and an access to it. -/
def asTCP : Option IPv4.Payload → Except Stop TCP
  | some (.tcp tcp) => .ok tcp
  | _ => .error .exception

/-- A cast to UDP, and an access to it. -/
def asUDP : Option IPv4.Payload → Except Stop UDP
  | some (.udp udp) => .ok udp
  | _ => .error .exception

def matchesProtocol (r : FirewallRule) (pktIp : Option IPv4) : Flow Bool := do
  if r.nwProto = 0x6 then
    let ip ← orThrow pktIp
    if ip.protocol ≠ IPv4.protocolTcp then return false
    else
      let tcp ← asTCP ip.payload
      r.clear ofpfwNwProto
      r.matchesPorts tcp.sourcePort tcp.destinationPort
  else if r.nwProto = 0x11 then
    let ip ← orThrow pktIp
    if ip.protocol ≠ IPv4.protocolUdp then return false
    else
      let udp ← asUDP ip.payload
      r.clear ofpfwNwProto
      r.matchesPorts udp.sourcePort udp.destinationPort
  else if r.nwProto = 0x1 then
    let ip ← orThrow pktIp
    if ip.protocol ≠ IPv4.protocolIcmp then return false
    else
      r.clear ofpfwNwProto
      return true
  else
    r.clear ofpfwNwProto
    return true

def matchesAddress (wildcard : Bool) (rulePrefix maskbits : Int32) (pktIp : Option IPv4)
    (address : IPv4 → UInt32) : Except Stop Bool :=
  if wildcard then .ok true
  else do
    let ip ← orThrow pktIp
    return matchIPAddress rulePrefix maskbits (address ip).toInt32

/-- A cast to IPv4. -/
def asIPv4 : Option Ethernet.Payload → Except Stop (Option IPv4)
  | none => .ok none
  | some (.ipv4 ip) => .ok (some ip)
  | some _ => .error .exception

def matchesIPv4 (r : FirewallRule) (packet : Ethernet) : Flow Bool := do
  r.clear ofpfwNwProto
  let pktIp ← asIPv4 packet.payload
  let matchesSrc ← matchesAddress r.wildcardNwSrc r.nwSrcPrefix r.nwSrcMaskbits pktIp IPv4.sourceAddress
  if !matchesSrc then return false
  else
    r.setMaskbits r.nwSrcMaskbits ofpfwNwSrcShift
    let matchesDst ←
      matchesAddress r.wildcardNwDst r.nwDstPrefix r.nwDstMaskbits pktIp IPv4.destinationAddress
    if !matchesDst then return false
    else
      r.setMaskbits r.nwDstMaskbits ofpfwNwDstShift
      if r.wildcardNwProto then return true else r.matchesProtocol pktIp

def matchesType (r : FirewallRule) (packet : Ethernet) : Flow Bool := do
  if r.wildcardDlType then return true
  else if r.dlType = Ethernet.typeArp then
    if packet.etherType ≠ Ethernet.typeArp then return false
    else
      r.clear ofpfwDlType
      return true
  else if r.dlType = Ethernet.typeIPv4 then
    if packet.etherType ≠ Ethernet.typeIPv4 then return false
    else r.matchesIPv4 packet
  -- not supported
  else return false

def matchesInPort (r : FirewallRule) (inPort : OFPort) : Except Stop Bool :=
  if r.wildcardInPort then .ok true
  else do
    let number ← inPort.getShortPortNumber
    return r.inPort = number

def matchesFlow (r : FirewallRule) (switchDpid : Dpid) (inPort : OFPort) (packet : Ethernet) :
    Flow Bool := do
  if r.wildcardDpid = false ∧ r.dpid ≠ switchDpid then return false
  else
    let matchesInPort ← r.matchesInPort inPort
    if !matchesInPort then return false
    else
      r.clear ofpfwInPort
      if r.wildcardDlSrc = false ∧ r.dlSrc ≠ packet.sourceMACAddress.toLong then return false
      else
        r.clear ofpfwDlSrc
        if r.wildcardDlDst = false ∧ r.dlDst ≠ packet.destinationMACAddress.toLong then return false
        else
          r.clear ofpfwDlDst
          let matchesType ← r.matchesType packet
          if !matchesType then return false
          else
            r.clear ofpfwDlType
            return true

/-! ## What a rule says -/

/-- The first bits of the two addresses are the same, as many as there are mask bits. -/
def Contains (rulePrefix maskbits : Int32) (address : UInt32) : Prop :=
  rulePrefix.toUInt32.toNat / 2 ^ (32 - maskbits.toInt.toNat) =
    address.toNat / 2 ^ (32 - maskbits.toInt.toNat)

/-- The packet of IPv4 in a frame. -/
def ipv4Of (packet : Ethernet) : Option IPv4 :=
  match packet.payload with
  | some (.ipv4 ip) => some ip
  | _ => none

/-- The ports of a packet of TCP or UDP. -/
def portsOf (ip : IPv4) : Option (UInt16 × UInt16) :=
  match ip.payload with
  | some (.tcp tcp) => some (tcp.sourcePort, tcp.destinationPort)
  | some (.udp udp) => some (udp.sourcePort, udp.destinationPort)
  | _ => none

variable (r : FirewallRule) (switchDpid : Dpid) (inPort : OFPort) (packet : Ethernet)

/-- A field that is not a wildcard is in the packet, with a value that is right. -/
def FieldMatches {α : Type} (wildcard : Bool) (value : Option α) (P : α → Prop) : Prop :=
  wildcard = false → ∃ v, value = some v ∧ P v

def AddressesMatch (ip : Option IPv4) : Prop :=
  FieldMatches r.wildcardNwSrc ip (fun ip => Contains r.nwSrcPrefix r.nwSrcMaskbits ip.sourceAddress) ∧
  FieldMatches r.wildcardNwDst ip (fun ip => Contains r.nwDstPrefix r.nwDstMaskbits ip.destinationAddress)

def ProtocolMatches (ip : Option IPv4) : Prop :=
  FieldMatches r.wildcardNwProto ip fun ip => r.nwProto.toInt = ip.protocol.toNat

def PortsMatch (ip : Option IPv4) : Prop :=
  FieldMatches r.wildcardTpSrc (ip.bind portsOf) (fun ports => r.tpSrc = ports.1.toInt16) ∧
  FieldMatches r.wildcardTpDst (ip.bind portsOf) (fun ports => r.tpDst = ports.2.toInt16)

/-- The fields of IPv4 and of what is in it. -/
def UpperMatches (ip : Option IPv4) : Prop := r.AddressesMatch ip ∧ r.ProtocolMatches ip ∧ r.PortsMatch ip

def SwitchMatches : Prop := r.wildcardDpid = false → r.dpid = switchDpid

def InPortMatches : Prop := r.wildcardInPort = false → inPort.getShortPortNumber = .ok r.inPort

def MacsMatch : Prop :=
  (r.wildcardDlSrc = false → r.dlSrc = packet.sourceMACAddress.toLong) ∧
  (r.wildcardDlDst = false → r.dlDst = packet.destinationMACAddress.toLong)

/-- Every field of the rule that is not a wildcard is in the packet, with the value of the rule. -/
structure Matches : Prop where
  switch : r.SwitchMatches switchDpid
  inPort : r.InPortMatches inPort
  macs : r.MacsMatch packet
  type : r.wildcardDlType = false → packet.etherType = r.dlType
  upper : r.UpperMatches (ipv4Of packet)

end FirewallRule

end Torpedo
