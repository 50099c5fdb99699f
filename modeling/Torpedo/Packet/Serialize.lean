import Mathlib.Algebra.Ring.Int.Defs
import Torpedo.Packet.Ethernet
import Torpedo.Util.Encoder

/-!
# Writing packets

The encoders of the packets. A packet first writes its payload. Writing changes packets: lengths and
checksums are set, and a payload sets the protocol or the type of the packet it is in, its parent.
-/

namespace Torpedo

open Encoder

/-! ## Data -/

def Data.serialize (p : Data) : List UInt8 := p.data

/-! ## Checksums -/

/-- The loop over the shorts of a buffer. -/
def addShorts : ℕ → UInt32 → Decoder UInt32
  | 0, accumulation => return accumulation
  | n + 1, accumulation => do
    let s ← Decoder.getShort
    addShorts n (accumulation + s.toUInt32)

/-- Pad to an even number of bytes. -/
def addLast (length : ℕ) (accumulation : UInt32) : Decoder UInt32 := do
  if 0 < length % 2 then
    let b ← Decoder.getByte
    return accumulation + b.toUInt32 <<< 8
  else return accumulation

/-- The sum of the two halves. -/
def halves (n : UInt32) : UInt32 := (n >>> (16 : UInt32) &&& 0xffff) + (n &&& 0xffff)

/-- One carry, and the complement. -/
def complement (accumulation : UInt32) : UInt16 := (~~~halves accumulation &&& 0xffff).toUInt16

/-- Compute the checksum of `length` bytes if needed, and write it at an index. -/
def putChecksum (checksum : UInt16) (accumulation : UInt32) (length index : ℕ) : Encoder UInt16 := do
  if checksum = 0 then
    rewind
    let accumulation ← addShorts (length / 2) accumulation
    let accumulation ← addLast length accumulation
    putShortAt index (complement accumulation)
    return complement accumulation
  else return checksum

/-- The pseudo header of a segment of an IPv4 packet. -/
def pseudoHeader (parent : Option IPv4) (length : ℕ) : UInt32 :=
  match parent with
  | none => 0
  | some ipv4 =>
    halves ipv4.sourceAddress + halves ipv4.destinationAddress + ipv4.protocol.toUInt32
      + (UInt32.ofNat length &&& 0xffff)

def IPv4.setProtocol (p : IPv4) (protocol : UInt8) : IPv4 := { p with protocol }

def IPv4.resetChecksum (p : IPv4) : IPv4 := { p with checksum := 0 }

/-! ## ICMP -/

/-- The fields and the payload. -/
def ICMP.put (p : ICMP) (payloadData : Option (List UInt8)) : Encoder Unit := do
  putByte p.icmpType
  putByte p.icmpCode
  putShort p.checksum
  putOptional payloadData

def ICMP.serialize (p : ICMP) (parent : Option IPv4) :
    Except Stop (List UInt8 × ICMP × Option IPv4) := do
  let payloadData := p.payload.map Data.serialize
  let length := 4 + (payloadData.getD []).length
  let (data, checksum) ← Encoder.encode length (do
    p.put payloadData
    putChecksum p.checksum 0 length 2)
  return (data, { p with checksum }, parent.map (·.setProtocol IPv4.protocolIcmp))

/-! ## TCP -/

/-- The default header length. -/
def TCP.setDataOffset (p : TCP) : TCP :=
  { p with dataOffset := if p.dataOffset = 0 then 5 else p.dataOffset }

/-- The data offset, a signed number. -/
def TCP.offset (p : TCP) : ℤ := p.dataOffset.toInt8.toInt

/-- The options, padded to the header length. -/
def TCP.putOptions (p : TCP) : Encoder Unit := do
  if 5 < p.offset then
    putArray p.options
    putZeros (p.offset * 4 - 20 - (p.options.getD []).length).toNat

def TCP.put (p : TCP) (payloadData : Option (List UInt8)) : Encoder Unit := do
  putShort p.sourcePort
  putShort p.destinationPort
  putInt p.sequence
  putInt p.acknowledge
  putShort (p.flags ||| p.dataOffset.toUInt16 <<< 12)
  putShort p.windowSize
  putShort p.checksum
  putShort p.urgentPointer
  p.putOptions
  putOptional payloadData

def TCP.serialize (p : TCP) (parent : Option IPv4) :
    Except Stop (List UInt8 × TCP × Option IPv4) := do
  let p := p.setDataOffset
  let payloadData := p.payload.map Data.serialize
  let length := p.offset * 4 + (payloadData.getD []).length
  let parent := parent.map (·.setProtocol IPv4.protocolTcp)
  let (data, checksum) ← Encoder.encode length (do
    p.put payloadData
    putChecksum p.checksum (pseudoHeader parent length.toNat) length.toNat 16)
  return (data, { p with checksum }, parent)

/-! ## DHCP -/

namespace DHCP

/-- The options that are a code only. -/
def isBare (code : UInt8) : Bool := code = 0 || code = 255

def optionsLength (options : List DHCPOption) : ℕ :=
  (options.map fun option => if isBare option.code then 1 else 2 + option.length.toNat).sum

/-- A character in the charset `ascii`. -/
def asciiByte (c : Char) : UInt8 := if c.toNat < 128 then .ofNat c.toNat else 63

def writeString (string : Option String) (maxLength : ℕ) : Encoder Unit := do
  match string with
  | none => putZeros maxLength
  | some s =>
    let bytes := s.toList.map asciiByte
    let writeLength := min bytes.length maxLength
    putBytes (bytes.take writeLength)
    putZeros (maxLength - writeLength)

def writeOptions : List DHCPOption → Encoder Unit
  | [] => return
  | option :: options => do
    putByte option.code
    if isBare option.code then writeOptions options
    else
      putByte option.length
      putArray option.data
      writeOptions options

def put (p : DHCP) : Encoder Unit := do
  putByte p.opCode
  putByte p.hardwareType
  putByte p.hardwareAddressLength
  putByte p.hops
  putInt p.transactionId
  putShort p.seconds
  putShort p.flags
  putInt p.clientIPAddress
  putInt p.yourIPAddress
  putInt p.serverIPAddress
  putInt p.gatewayIPAddress
  putArray p.clientHardwareAddress
  putZeros (16 - (p.clientHardwareAddress.getD []).length)
  writeString p.serverName 64
  writeString p.bootFileName 128
  -- the magic cookie
  putBytes [0x63, 0x82, 0x53, 0x63]
  writeOptions p.options

/-- The length is not kept: the options are padded to 60 bytes. -/
def serialize (p : DHCP) : Except Stop (List UInt8) := do
  let (data, _) ← Encoder.encode (240 + max (optionsLength p.options) 60 : ℕ) p.put
  return data

end DHCP

/-! ## UDP -/

namespace UDP

/-- The payload, which may reset the checksums of the packets that it is in. -/
def serializePayload (p : UDP) (parent : Option IPv4) :
    Except Stop (Option (List UInt8) × UDP × Option IPv4) :=
  match p.payload with
  | none => .ok (none, p, parent)
  | some (.data payload) => .ok (some payload.serialize, p, parent)
  | some (.dhcp payload) => do
    let data ← payload.serialize
    return (some data, { p with checksum := 0 }, parent.map (·.resetChecksum))

def put (p : UDP) (payloadData : Option (List UInt8)) : Encoder Unit := do
  putShort p.sourcePort
  putShort p.destinationPort
  putShort p.length
  putShort p.checksum
  putOptional payloadData

def serialize (p : UDP) (parent : Option IPv4) : Except Stop (List UInt8 × UDP × Option IPv4) := do
  let (payloadData, p, parent) ← p.serializePayload parent
  let p := { p with length := .ofNat (8 + (payloadData.getD []).length) }
  let parent := parent.map (·.setProtocol IPv4.protocolUdp)
  -- the length of the array is a signed number
  let (data, checksum) ← Encoder.encode p.length.toInt16.toInt (do
    p.put payloadData
    putChecksum p.checksum (pseudoHeader parent p.length.toNat) p.length.toNat 6)
  return (data, { p with checksum }, parent)

end UDP

/-! ## IPv4 -/

namespace IPv4

/-- The payload, which sets the protocol and may reset the checksum. -/
def serializePayload (p : IPv4) : Except Stop (Option (List UInt8) × IPv4) :=
  match p.payload with
  | none => .ok (none, p)
  | some (.data payload) => .ok (some payload.serialize, p)
  | some (.icmp payload) => do
    let (data, payload, parent) ← payload.serialize (some p)
    return (some data, { parent.getD p with payload := some (.icmp payload) })
  | some (.tcp payload) => do
    let (data, payload, parent) ← payload.serialize (some p)
    return (some data, { parent.getD p with payload := some (.tcp payload) })
  | some (.udp payload) => do
    let (data, payload, parent) ← payload.serialize (some p)
    return (some data, { parent.getD p with payload := some (.udp payload) })

/-- The lengths of the header and of the packet. Both may overflow. -/
def setLengths (p : IPv4) (payloadLength : ℕ) : IPv4 :=
  let headerLength : UInt8 := .ofNat (5 + (p.options.getD []).length / 4)
  { p with
    headerLength
    totalLength := .ofInt (headerLength.toInt8.toInt * 4 + payloadLength) }

def put (p : IPv4) (payloadData : Option (List UInt8)) : Encoder Unit := do
  putByte ((p.version &&& 0xf) <<< 4 ||| p.headerLength &&& 0xf)
  putByte p.diffServ
  putShort p.totalLength
  putShort p.identification
  putShort ((p.flags &&& 0x7).toUInt16 <<< 13 ||| p.fragmentOffset &&& 0x1fff)
  putByte p.ttl
  putByte p.protocol
  putShort p.checksum
  putInt p.sourceAddress
  putInt p.destinationAddress
  putOptional p.options
  putOptional payloadData

def serialize (p : IPv4) : Except Stop (List UInt8 × IPv4) := do
  let (payloadData, p) ← p.serializePayload
  let p := p.setLengths (payloadData.getD []).length
  let (data, checksum) ← Encoder.encode p.totalLength.toInt16.toInt (do
    p.put payloadData
    putChecksum p.checksum 0 (p.headerLength.toInt8.toInt * 4).toNat 10)
  return (data, { p with checksum })

end IPv4

/-! ## ARP -/

def ARP.serialize (p : ARP) : Except Stop (List UInt8) := do
  let length := 8 + 2 * p.hardwareAddressLength.toNat + 2 * p.protocolAddressLength.toNat
  let (data, _) ← Encoder.encode length (do
    putShort p.hardwareType
    putShort p.protocolType
    putByte p.hardwareAddressLength
    putByte p.protocolAddressLength
    putShort p.opCode
    putPart p.senderHardwareAddress p.hardwareAddressLength.toNat
    putPart p.senderProtocolAddress p.protocolAddressLength.toNat
    putPart p.targetHardwareAddress p.hardwareAddressLength.toNat
    putPart p.targetProtocolAddress p.protocolAddressLength.toNat)
  return data

/-! ## LLDP -/

def LLDPTLV.serialize (tlv : LLDPTLV) : Except Stop (List UInt8) := do
  let scratch := (0x7f &&& tlv.type).toUInt16 <<< 9 ||| 0x1ff &&& tlv.length
  let (data, _) ← Encoder.encode (2 + tlv.length.toInt16.toInt) (do
    putShort scratch
    putOptional tlv.value)
  return data

namespace LLDP

/-- The length of a TLV in a packet. -/
def tlvLength (tlv : LLDPTLV) : ℤ := 2 + tlv.length.toInt16.toInt

def putTLVs : List LLDPTLV → Encoder Unit
  | [] => return
  | tlv :: tlvs => do
    putBytes (← tlv.serialize)
    putTLVs tlvs

/-- `null` TLVs throw. -/
def serialize (p : LLDP) : Except Stop (List UInt8) := do
  let chassisId ← orThrow p.chassisId
  let portId ← orThrow p.portId
  let ttl ← orThrow p.ttl
  let length := tlvLength chassisId + tlvLength portId + tlvLength ttl + 2
    + (p.optionalTLVList.map tlvLength).sum
  let (data, _) ← Encoder.encode length (do
    putTLVs (chassisId :: portId :: ttl :: p.optionalTLVList)
    putShort 0)
  return data

end LLDP

/-! ## BSN -/

/-- The length is a signed short. -/
def shortLength (n : ℕ) : ℤ := (UInt16.ofNat n).toInt16.toInt

def BSNPROBE.serialize (p : BSNPROBE) : Except Stop (List UInt8) := do
  let payloadData := p.payload.map Data.serialize
  let (data, _) ← Encoder.encode (shortLength (36 + (payloadData.getD []).length)) (do
    putLong p.controllerId
    putInt p.sequenceId
    putBytes p.srcMac
    putBytes p.dstMac
    putLong p.srcSwDpid
    putInt p.srcPortNo
    putOptional payloadData)
  return data

namespace BSN

/-- The payload. A probe sets the type. -/
def serializePayload (p : BSN) : Except Stop (Option (List UInt8) × BSN) :=
  match p.payload with
  | none => .ok (none, p)
  | some (.data payload) => .ok (some payload.serialize, p)
  | some (.probe payload) => do return (some (← payload.serialize), { p with type := typeProbe })
  | some (.lldp payload) => do return (some (← payload.serialize), p)

def serialize (p : BSN) : Except Stop (List UInt8 × BSN) := do
  let (payloadData, p) ← p.serializePayload
  let (data, _) ← Encoder.encode (shortLength (8 + (payloadData.getD []).length)) (do
    putInt magic
    putShort p.type
    putShort p.version
    putOptional payloadData)
  return (data, p)

end BSN

/-! ## Ethernet -/

namespace Ethernet

/-- The payload. LLDP and BSN set the type. -/
def serializePayload (p : Ethernet) : Except Stop (Option (List UInt8) × Ethernet) :=
  match p.payload with
  | none => .ok (none, p)
  | some (.data payload) => .ok (some payload.serialize, p)
  | some (.arp payload) => do return (some (← payload.serialize), p)
  | some (.ipv4 payload) => do
    let (data, payload) ← payload.serialize
    return (some data, { p with payload := some (.ipv4 payload) })
  | some (.lldp payload) => do
    return (some (← payload.serialize), { p with etherType := typeLldp })
  | some (.bsn payload) => do
    let (data, payload) ← payload.serialize
    return (some data, { p with payload := some (.bsn payload), etherType := typeBsn })

def putTag (p : Ethernet) : Encoder Unit := do
  if p.vlanID ≠ vlanUntagged then
    putShort typeVlan
    putShort (p.priorityCode.toUInt16 <<< 13 ||| p.vlanID &&& 0x0fff)

def put (p : Ethernet) (payloadData : Option (List UInt8)) : Encoder Unit := do
  putBytes p.destinationMACAddress.address
  putBytes p.sourceMACAddress.address
  p.putTag
  putShort p.etherType
  putOptional payloadData

/-- Nothing in the repository asks for a pad. -/
def serialize (p : Ethernet) : Except Stop (List UInt8 × Ethernet) := do
  let (payloadData, p) ← p.serializePayload
  let length : ℕ := 14 + (if p.vlanID = vlanUntagged then 0 else 4) + (payloadData.getD []).length
  let (data, _) ← Encoder.encode length (p.put payloadData)
  return (data, p)

end Ethernet

end Torpedo
