import Torpedo.Controller.Controller
import Torpedo.Packet.Positions

/-!
# Matches

`OFProtocol.loadOFMatchFromPacket` makes the match of a packet-in from the bytes of the frame itself, and not
from the decoded frame. What the match of the decoded frame is, is said by `Match.ofFrame`.
-/

namespace Torpedo

open Decoder

/-! ## Matches -/

/-- A value, and the bits of it that are looked at. -/
structure Masked where
  value : UInt32
  mask : UInt32
deriving DecidableEq, Repr

def Masked.exact (value : UInt32) : Masked := ⟨value, 0xffffffff⟩

/-- The fields of a match, with their values on the wire. A field that is `none` matches everything. -/
structure Match where
  inPort : Option OFPort := none
  ethDst : Option (List UInt8) := none
  ethSrc : Option (List UInt8) := none
  ethType : Option UInt16 := none
  vlanVid : Option UInt16 := none
  vlanPcp : Option UInt8 := none
  ipDscp : Option UInt8 := none
  ipEcn : Option UInt8 := none
  ipProto : Option UInt8 := none
  ipv4Src : Option Masked := none
  ipv4Dst : Option Masked := none
  arpOp : Option UInt16 := none
  arpSpa : Option Masked := none
  arpTpa : Option Masked := none
  tcpSrc : Option UInt16 := none
  tcpDst : Option UInt16 := none
  udpSrc : Option UInt16 := none
  udpDst : Option UInt16 := none
deriving DecidableEq, Repr

namespace Match

def withoutPorts (m : Match) : Match :=
  { m with tcpSrc := none, tcpDst := none, udpSrc := none, udpDst := none }

/-- The builder of OpenFlow 1.0 leaves out the fields that the others do not ask for. -/
def normalized (m : Match) : Match :=
  if m.ethType = some Ethernet.typeIPv4 then
    if m.ipProto = some IPv4.protocolTcp ∨ m.ipProto = some IPv4.protocolUdp ∨
        m.ipProto = some IPv4.protocolIcmp then m
    else m.withoutPorts
  else if m.ethType = some Ethernet.typeArp then { m.withoutPorts with ipDscp := none }
  else { m.withoutPorts with
    ipDscp := none, ipProto := none, ipv4Src := none, ipv4Dst := none
    arpOp := none, arpSpa := none, arpTpa := none }

/-- The match of a builder. That of OpenFlow 1.0 does not support `IP_ECN`, and nothing is set in that of
OpenFlow 1.1. -/
def build (version : OFVersion) (m : Match) : Match :=
  match version with
  | .of10 => { m with ipEcn := none }.normalized
  | .of11 => {}
  | .of12 | .of13 => m

/-! ## Loading -/

/-- `ArpOpcode.of`, for a byte. -/
def arpOpcode (networkProtocol : UInt8) : Except Stop UInt16 :=
  if networkProtocol < 0x80 then .ok networkProtocol.toUInt16 else .error .exception

def loadVlan (dataLayerType : UInt16) (ret : Match) : Decoder Match := do
  if dataLayerType = 0x8100 then
    let scratch ← getShort
    if 0xfff &&& scratch ≠ 0 then
      return { ret with
        vlanVid := some (0xfff &&& scratch)
        vlanPcp := some ((0xe000 &&& scratch) >>> 13).toUInt8 }
    else return ret
  else return ret

def loadIPv4 (ret : Match) : Decoder (Match × UInt8) := do
  let scratch ← getByte
  let pos ← position
  let transportOffset := pos - 1 + (0xf &&& scratch).toNat * 4
  let scratch ← getByte
  let pos ← position
  setPosition (pos + 7)
  let networkProtocol ← getByte
  let pos ← position
  setPosition (pos + 2)
  let ipv4Src ← getInt
  let ipv4Dst ← getInt
  setPosition transportOffset
  return ({ ret with
    ipDscp := some ((0xfc &&& scratch) >>> 2)
    ipEcn := some (0x3 &&& scratch)
    ipProto := some networkProtocol
    ipv4Src := some (.exact ipv4Src)
    ipv4Dst := some (.exact ipv4Dst) }, networkProtocol)

/-- The addresses, if they are of IPv4. -/
def loadArpAddresses (arpPos : ℕ) (ret : Match) : Decoder Match := do
  let scratch ← getShortAt (arpPos + 2)
  if scratch = 0x800 then
    let length ← getByteAt (arpPos + 5)
    if length = 4 then
      let arpSpa ← getIntAt (arpPos + 14)
      let arpTpa ← getIntAt (arpPos + 24)
      return { ret with arpSpa := some (.exact arpSpa), arpTpa := some (.exact arpTpa) }
    else return ret
  else return ret

def loadArp (ret : Match) : Decoder (Match × UInt8) := do
  let arpPos ← position
  let scratch ← getShortAt (arpPos + 6)
  let networkProtocol := scratch.toUInt8
  let arpOp ← arpOpcode networkProtocol
  let ret ← loadArpAddresses arpPos { ret with arpOp := some arpOp }
  return (ret, networkProtocol)

def loadNetwork (dataLayerType : UInt16) (ret : Match) : Decoder (Match × UInt8) :=
  if dataLayerType = 0x0800 then loadIPv4 ret
  else if dataLayerType = 0x0806 then loadArp ret
  else return (ret, 0)

def loadTransport (networkProtocol : UInt8) (ret : Match) : Decoder Match :=
  if networkProtocol = 0x06 then do
    let tcpSrc ← getShort
    let tcpDst ← getShort
    return { ret with tcpSrc := some tcpSrc, tcpDst := some tcpDst }
  else if networkProtocol = 0x11 then do
    let udpSrc ← getShort
    let udpDst ← getShort
    return { ret with udpSrc := some udpSrc, udpDst := some udpDst }
  else return ret

/-- The part of `loadOFMatchFromPacket` behind the header. -/
def loadPayload (version : OFVersion) (l2only : Bool) (dataLayerType : UInt16) (ret : Match) :
    Decoder Match := do
  if l2only then return ret.build version
  else
    let (ret, networkProtocol) ← loadNetwork dataLayerType ret
    let ret ← loadTransport networkProtocol ret
    return ret.build version

def loadOFMatchFromPacket (version : OFVersion) (data : List UInt8) (inputPort : OFPort) (l2only : Bool) :
    Except Stop Match :=
  decode (do
    let ethDst ← getBytes 6
    let ethSrc ← getBytes 6
    let dataLayerType ← getShort
    let ret ← loadVlan dataLayerType {
      inPort := some inputPort
      ethDst := some ethDst
      ethSrc := some ethSrc
      ethType := some dataLayerType }
    loadPayload version l2only dataLayerType ret) data 0 data.length

/-! ## The match of a decoded frame -/

def setTransport (m : Match) : Option IPv4.Payload → Match
  | some (.tcp tcp) => { m with tcpSrc := some tcp.sourcePort, tcpDst := some tcp.destinationPort }
  | some (.udp udp) => { m with udpSrc := some udp.sourcePort, udpDst := some udp.destinationPort }
  | _ => m

def setIPv4 (m : Match) (version : OFVersion) (ip : IPv4) : Match :=
  { m with
    ipDscp := some (ip.diffServ >>> 2)
    ipEcn := if version = .of10 then none else some (ip.diffServ &&& 0x3)
    ipProto := some ip.protocol
    ipv4Src := some (.exact ip.sourceAddress)
    ipv4Dst := some (.exact ip.destinationAddress) }

def setArp (m : Match) (arp : ARP) : Match :=
  if arp.protocolType = 0x800 ∧ arp.protocolAddressLength = 4 then
    { m with
      arpOp := some arp.opCode
      arpSpa := some (.exact (intAt arp.senderProtocolAddress 0))
      arpTpa := some (.exact (intAt arp.targetProtocolAddress 0)) }
  else { m with arpOp := some arp.opCode }

def setPayload (m : Match) (version : OFVersion) : Option Ethernet.Payload → Match
  | some (.ipv4 ip) => (m.setIPv4 version ip).setTransport ip.payload
  | some (.arp arp) => m.setArp arp
  | _ => m

/-- The match of a frame: VLAN fields if it is tagged, fields of IPv4 or of ARP if its payload is IPv4 or ARP,
and ports if the payload of that is TCP or UDP. -/
def ofFrame (version : OFVersion) (inputPort : OFPort) (l2only : Bool) (eth : Ethernet) : Match :=
  let m : Match := {
    inPort := some inputPort
    ethDst := some eth.destinationMACAddress.address
    ethSrc := some eth.sourceMACAddress.address
    ethType := some eth.etherType
    vlanVid := if eth.vlanID = Ethernet.vlanUntagged then none else some eth.vlanID
    vlanPcp := if eth.vlanID = Ethernet.vlanUntagged then none else some eth.priorityCode }
  if l2only then m else m.setPayload version eth.payload

end Match

end Torpedo
