import Torpedo.Packet.Matches
import Torpedo.Packet.Serialize
import Torpedo.Util.Runs
import Torpedo.VxlanFlowMapper.Storage

/-!
# The flow mapping manager

`OFVxlanFlowMappingManager` learns a mapping from a packet-in with a packet of a VXLAN, and forgets it when the
flow of the outer headers is removed. How addresses, types and ports are written is open (`FlowMapper`).
-/

namespace Torpedo

/-- The configuration, the order of the iterators of hash sets, and the texts of the types of OpenFlow:
of `MacAddress`, `IPv4Address`, `TransportPort`, and of `EthType`, which may not be one. -/
structure FlowMapper where
  vxlanPortNumber : ℤ
  order : HashOrder
  macText : List UInt8 → String
  ipText : UInt32 → String
  portText : UInt16 → String
  etherTypeText : UInt16 → Option String

/-- A packet-in comes with the match of the switch, or else a match is made of the packet. Which deliveries of
a notification succeed is chosen for each message. -/
structure FlowPacketIn (υ : Type) where
  version : OFVersion
  handshaked : Bool
  inPort : OFPort
  ofSwitch : Option Match
  data : List UInt8
  delivers : υ → Bool

/-- The messages, and the REST calls. -/
inductive FlowEvent (υ : Type)
  | packetIn (pi : FlowPacketIn υ)
  | flowRemoved (ofFlow : Match) (delivers : υ → Bool)
  | register (url : υ)
  | unregister (url : υ)

namespace FlowMapper

variable {υ : Type} [DecidableEq υ] (p : FlowMapper)

/-! ## Packets -/

/-- The payload of a UDP packet, as bytes. -/
def udpPayload (udp : UDP) : Except Stop (List UInt8) := do
  let (bytes, _, _) ← udp.serializePayload none
  orThrow bytes

/-- The packets that are in each other: `getPayload` with a cast. -/
def ipv4Of (ethernet : Ethernet) : Except Stop IPv4 :=
  match ethernet.payload with
  | some (.ipv4 ip) => .ok ip
  | _ => .error .exception

def udpOf (ip : IPv4) : Except Stop UDP :=
  match ip.payload with
  | some (.udp udp) => .ok udp
  | _ => .error .exception

/-- The network identifier is behind the first four bytes, and is moved as a signed number. -/
def vnidOf (udpPayload : List UInt8) : Except Stop ℤ :=
  Decoder.decode (do
    Decoder.setPosition 4
    let n ← Decoder.getInt
    return n.toInt32.toInt >>> (8 : ℕ)) udpPayload 0 udpPayload.length

/-- The addresses of the inner packet, if it is one of IPv4. -/
def innerAddresses (inner : Ethernet) : Except Stop (Option (UInt32 × UInt32)) :=
  if inner.etherType = Ethernet.typeIPv4 then do
    let ip ← ipv4Of inner
    return some (ip.sourceAddress, ip.destinationAddress)
  else .ok none

/-- The entry of a packet. A packet that has no bytes is no packet. -/
def mappingOf (data : List UInt8) : Except Stop OverlayFlowMappingEntry := do
  let outer ← orThrow (← Ethernet.deserialize data 0 data.length)
  let outerIp ← ipv4Of outer
  let outerUdp ← udpOf outerIp
  let payload ← udpPayload outerUdp
  let vnid ← vnidOf payload
  let inner ← orThrow (← Ethernet.deserialize payload 8 (payload.length - 8))
  let addresses ← innerAddresses inner
  let innerEtherType ← orThrow (p.etherTypeText inner.etherType)
  let innerSrcMac := inner.sourceMACAddress.toString
  let innerDstMac := inner.destinationMACAddress.toString
  let innerSrcIP := addresses.map fun a => p.ipText a.1
  let innerDstIP := addresses.map fun a => p.ipText a.2
  let v2OKey := match innerSrcIP, innerDstIP with
    | some innerSrcIP, some innerDstIP =>
      innerSrcMac ++ " " ++ innerDstMac ++ " " ++ innerEtherType ++ " " ++ innerSrcIP ++ " " ++ innerDstIP
    | _, _ => innerSrcMac ++ " " ++ innerDstMac ++ " " ++ innerEtherType
  return {
    outerSrcMac := outer.sourceMACAddress.toString
    outerDstMac := outer.destinationMACAddress.toString
    outerSrcIP := p.ipText outerIp.sourceAddress
    outerDstIP := p.ipText outerIp.destinationAddress
    outerSrcPort := p.portText outerUdp.sourcePort
    innerSrcMac, innerDstMac, innerEtherType, innerSrcIP, innerDstIP
    vnid := vnid.repr
    v2OKey }

/-! ## Messages -/

/-- The entry is put under both of its keys. -/
def learn (delivers : υ → Bool) (flowMapping : OverlayFlowMappingEntry) :
    Method (VxlanFlowMappingStorage υ) Unit := do
  let _ ← VxlanFlowMappingStorage.addO2VEnrty p.order delivers flowMapping.outerKey flowMapping
  let _ ← VxlanFlowMappingStorage.addV2OEnrty flowMapping.v2OKey flowMapping

def processPacketInMessage (pi : FlowPacketIn υ) : Method (VxlanFlowMappingStorage υ) Bool := do
  if !pi.handshaked then return true
  else
    let flowMapping ← Method.ofExcept (p.mappingOf pi.data)
    p.learn pi.delivers flowMapping
    return true

/-- The key of the flow of a match, if it is one of a VXLAN. -/
def flowKey (ofFlow : Match) : Except Stop (Option String) := do
  let ipProtocol ← orThrow ofFlow.ipProto
  if ipProtocol = 0x11 then
    let outerDstPort ← orThrow ofFlow.udpDst
    if (outerDstPort.toNat : ℤ) = p.vxlanPortNumber then
      let outerSrcMac ← orThrow ofFlow.ethSrc
      let outerDstMac ← orThrow ofFlow.ethDst
      let outerSrcIP ← orThrow ofFlow.ipv4Src
      let outerDstIP ← orThrow ofFlow.ipv4Dst
      let outerSrcPort ← orThrow ofFlow.udpSrc
      return some (o2VKey (p.macText outerSrcMac).toUpper (p.macText outerDstMac).toUpper
        (p.ipText outerSrcIP.value) (p.ipText outerDstIP.value) (p.portText outerSrcPort))
    else return none
  else return none

/-- The entry is removed under both keys. -/
def forget (delivers : υ → Bool) (o2VKey : String) : Method (VxlanFlowMappingStorage υ) Unit := do
  let s ← Method.get
  match s.getO2VEnrty o2VKey with
  | none => pure ()
  | some flowMapping => do let _ ← VxlanFlowMappingStorage.removeV2OEnrty flowMapping.v2OKey
  let _ ← VxlanFlowMappingStorage.removeO2VEnrty p.order delivers o2VKey

def processFlowRemoved (ofFlow : Match) (delivers : υ → Bool) : Method (VxlanFlowMappingStorage υ) Bool := do
  let key ← Method.ofExcept (p.flowKey ofFlow)
  match key with
  | none => return true
  | some o2VKey => do
    p.forget delivers o2VKey
    return true

/-- The match is that of a packet of a VXLAN. -/
def isVxlan (m : Match) : Except Stop Bool := do
  let ether ← orThrow m.ethType
  return ether = 0x0800 && m.udpDst.any fun udpdst =>
    m.ipProto = some 0x11 && decide ((udpdst.toNat : ℤ) = p.vxlanPortNumber)

def loadMatch (pi : FlowPacketIn υ) : Except Stop Match :=
  match pi.ofSwitch with
  | some m => .ok m
  | none => Match.loadOFMatchFromPacket pi.version pi.data pi.inPort false

/-- `handleMessage`, for a packet-in. -/
def handlePacketIn (pi : FlowPacketIn υ) : Method (VxlanFlowMappingStorage υ) Bool := do
  let m ← Method.ofExcept (loadMatch pi)
  let vxlan ← Method.ofExcept (p.isVxlan m)
  if vxlan then p.processPacketInMessage pi else return true

/-- The state after an event. -/
def step (s : VxlanFlowMappingStorage υ) : FlowEvent υ → VxlanFlowMappingStorage υ
  | .packetIn pi => (p.handlePacketIn pi s).2
  | .flowRemoved ofFlow delivers => (p.processFlowRemoved ofFlow delivers s).2
  | .register url => s.register url
  | .unregister url => s.unregister url

end FlowMapper

end Torpedo
