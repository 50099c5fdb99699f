import Torpedo.Util.Decoder

/-!
# Internet packets

The decoders of IPv4 and of what is in it: ICMP, TCP, UDP and, for two ports of UDP, DHCP. Each decodes
some bytes of an array, and gives its payload the bytes behind its own header.
-/

namespace Torpedo

open Decoder

/-! ## Data -/

/-- `Data`: bytes that are not decoded. -/
structure Data where
  data : List UInt8
deriving DecidableEq, Repr

/-- `Arrays.copyOfRange` up to the end of the array, whatever the length. -/
def Data.deserialize (data : List UInt8) (offset _length : ℕ) : Except Stop Data :=
  if offset ≤ data.length then .ok ⟨data.drop offset⟩ else .error .exception

/-! ## ICMP -/

structure ICMP where
  icmpType : UInt8
  icmpCode : UInt8
  checksum : UInt16
  payload : Option Data
deriving DecidableEq, Repr

def ICMP.deserialize (data : List UInt8) : ℕ → ℕ → Except Stop ICMP :=
  decode (do
    let icmpType ← getByte
    let icmpCode ← getByte
    let checksum ← getShort
    let payload ← rest (Data.deserialize data)
    return ⟨icmpType, icmpCode, checksum, some payload⟩) data

/-! ## TCP -/

structure TCP where
  sourcePort : UInt16
  destinationPort : UInt16
  sequence : UInt32
  acknowledge : UInt32
  dataOffset : UInt8
  flags : UInt16
  windowSize : UInt16
  checksum : UInt16
  urgentPointer : UInt16
  options : Option (List UInt8)
  payload : Option Data
deriving DecidableEq, Repr

/-- The options are as long as the data offset says, or up to the end of the segment. -/
def TCP.getOptions (dataOffset : UInt8) : Decoder (Option (List UInt8)) := do
  if 5 < dataOffset then
    let left ← remaining
    let options ← getBytes (min (dataOffset.toNat * 4 - 20) left)
    return some options
  else return none

def TCP.deserialize (data : List UInt8) : ℕ → ℕ → Except Stop TCP :=
  decode (do
    let sourcePort ← getShort
    let destinationPort ← getShort
    let sequence ← getInt
    let acknowledge ← getInt
    let flags ← getShort
    let windowSize ← getShort
    let checksum ← getShort
    let urgentPointer ← getShort
    let dataOffset := (flags >>> 12).toUInt8
    let options ← getOptions dataOffset
    let payload ← rest (Data.deserialize data)
    return {
      sourcePort, destinationPort, sequence, acknowledge, dataOffset
      flags := flags &&& 0x1ff
      windowSize, checksum, urgentPointer, options
      payload := some payload }) data

/-! ## DHCP -/

structure DHCPOption where
  code : UInt8
  length : UInt8
  data : Option (List UInt8)
deriving DecidableEq, Repr

/-- The option `END`. -/
def DHCPOption.end : DHCPOption := ⟨255, 0, none⟩

structure DHCP where
  opCode : UInt8
  hardwareType : UInt8
  hardwareAddressLength : UInt8
  hops : UInt8
  transactionId : UInt32
  seconds : UInt16
  flags : UInt16
  clientIPAddress : UInt32
  yourIPAddress : UInt32
  serverIPAddress : UInt32
  gatewayIPAddress : UInt32
  clientHardwareAddress : Option (List UInt8)
  serverName : Option String
  bootFileName : Option String
  options : List DHCPOption
deriving DecidableEq, Repr

namespace DHCP

/-- `MIN_HEADER_LENGTH`: the header with the magic cookie and without options. -/
def minHeaderLength : ℕ := 240

/-- A new packet. -/
def new : DHCP := ⟨0, 0, 0, 0, 0, 0, 0, 0, 0, 0, 0, none, none, none, []⟩

/-- A byte as a character of the charset `ascii`. -/
def asciiChar (b : UInt8) : Char := if b < 128 then Char.ofNat b.toNat else Char.ofNat 0xfffd

/-- `String.trim`. -/
def trim (cs : List Char) : List Char :=
  ((cs.dropWhile (·.toNat ≤ 32)).reverse.dropWhile (·.toNat ≤ 32)).reverse

def readString (maxLength : ℕ) : Decoder String := do
  let bytes ← getBytes maxLength
  return .ofList (trim (bytes.map asciiChar))

/-- The option with this code. One that is cut off is taken for `END`. -/
def readOption (code : UInt8) : Decoder DHCPOption := do
  let left ← remaining
  if 0 < left then
    let l ← getByte
    let left ← remaining
    if l.toNat ≤ left then
      let optionData ← getBytes l.toNat
      return ⟨code, l, some optionData⟩
    else return .end
  else return .end

/-- The loop over the options. -/
def readOptions : ℕ → List DHCPOption → Decoder (List DHCPOption)
  | 0, _ => throw .outOfFuel
  | fuel + 1, options => do
    let left ← remaining
    if 0 < left then
      let code ← getByte
      if code = 0 then readOptions fuel options
      else if code = 255 then return options ++ [.end]
      else
        let option ← readOption code
        if option.code = 255 then return options ++ [option]
        else readOptions fuel (options ++ [option])
    else return options

def deserialize (data : List UInt8) : ℕ → ℕ → Except Stop DHCP :=
  decode (do
    let left ← remaining
    if left < minHeaderLength then return new
    else
      let opCode ← getByte
      let hardwareType ← getByte
      let hardwareAddressLength ← getByte
      let hops ← getByte
      let transactionId ← getInt
      let seconds ← getShort
      let flags ← getShort
      let clientIPAddress ← getInt
      let yourIPAddress ← getInt
      let serverIPAddress ← getInt
      let gatewayIPAddress ← getInt
      let clientHardwareAddress ← getBytes hardwareAddressLength.toNat
      let _ ← skipBytes (16 - hardwareAddressLength.toNat)
      let serverName ← readString 64
      let bootFileName ← readString 128
      let _ ← skipBytes 4
      let left ← remaining
      let options ← readOptions (left + 1) []
      return {
        opCode, hardwareType, hardwareAddressLength, hops, transactionId, seconds, flags
        clientIPAddress, yourIPAddress, serverIPAddress, gatewayIPAddress
        clientHardwareAddress := some clientHardwareAddress
        serverName := some serverName
        bootFileName := some bootFileName
        options }) data

end DHCP

/-! ## UDP -/

inductive UDP.Payload
  | data (packet : Data)
  | dhcp (packet : DHCP)
deriving DecidableEq, Repr

structure UDP where
  sourcePort : UInt16
  destinationPort : UInt16
  length : UInt16
  checksum : UInt16
  payload : Option UDP.Payload
deriving DecidableEq, Repr

namespace UDP

/-- The ports of `decodeMap`, `DHCP_SERVER_PORT` and `DHCP_CLIENT_PORT`. Both have the class `DHCP`. -/
def decodeMap (port : UInt16) : Bool := port = 67 || port = 68

def deserializePayload (destinationPort sourcePort : UInt16) (data : List UInt8) (offset length : ℕ) :
    Except Stop Payload :=
  if decodeMap destinationPort then .dhcp <$> DHCP.deserialize data offset length
  else if decodeMap sourcePort then .dhcp <$> DHCP.deserialize data offset length
  else .data <$> Data.deserialize data offset length

def deserialize (data : List UInt8) : ℕ → ℕ → Except Stop UDP :=
  decode (do
    let sourcePort ← getShort
    let destinationPort ← getShort
    let length ← getShort
    let checksum ← getShort
    let payload ← rest (deserializePayload destinationPort sourcePort data)
    return ⟨sourcePort, destinationPort, length, checksum, some payload⟩) data

end UDP

/-! ## IPv4 -/

inductive IPv4.Payload
  | data (packet : Data)
  | icmp (packet : ICMP)
  | tcp (packet : TCP)
  | udp (packet : UDP)
deriving DecidableEq, Repr

structure IPv4 where
  version : UInt8
  headerLength : UInt8
  diffServ : UInt8
  totalLength : UInt16
  identification : UInt16
  flags : UInt8
  fragmentOffset : UInt16
  ttl : UInt8
  protocol : UInt8
  checksum : UInt16
  sourceAddress : UInt32
  destinationAddress : UInt32
  options : Option (List UInt8)
  isTruncated : Bool
  payload : Option IPv4.Payload
deriving DecidableEq, Repr

namespace IPv4

/-- `PROTOCOL_ICMP`. -/
def protocolIcmp : UInt8 := 0x1

/-- `PROTOCOL_TCP`. -/
def protocolTcp : UInt8 := 0x6

/-- `PROTOCOL_UDP`. -/
def protocolUdp : UInt8 := 0x11

/-- Decode the payload with the class of its protocol in `protocolClassMap`. -/
def deserializePayload (protocol : UInt8) (data : List UInt8) (offset length : ℕ) :
    Except Stop Payload :=
  if protocol = protocolIcmp then .icmp <$> ICMP.deserialize data offset length
  else if protocol = protocolTcp then .tcp <$> TCP.deserialize data offset length
  else if protocol = protocolUdp then .udp <$> UDP.deserialize data offset length
  else .data <$> Data.deserialize data offset length

def getOptions (headerLength : UInt8) : Decoder (Option (List UInt8)) := do
  if 5 < headerLength then
    let options ← getBytes ((headerLength.toNat - 5) * 4)
    return some options
  else return none

def deserialize (data : List UInt8) (offset length : ℕ) : Except Stop IPv4 :=
  decode (do
    let version ← getByte
    let headerLength := version &&& 0xf
    let diffServ ← getByte
    let totalLength ← getShort
    let identification ← getShort
    let sscratch ← getShort
    let ttl ← getByte
    let protocol ← getByte
    let checksum ← getShort
    let sourceAddress ← getInt
    let destinationAddress ← getInt
    let options ← getOptions headerLength
    let payload ← rest (deserializePayload protocol data)
    return {
      version := version >>> 4
      headerLength, diffServ, totalLength, identification
      flags := (sscratch >>> 13).toUInt8
      fragmentOffset := sscratch &&& 0x1fff
      ttl, protocol, checksum, sourceAddress, destinationAddress, options
      -- the total length is a signed number here
      isTruncated := totalLength.toInt16.toInt ≠ length
      payload := some payload }) data offset length

end IPv4

end Torpedo
