import Torpedo.Packet.Internet

/-!
# Ethernet frames

The decoder of Ethernet frames, and those of the packets in them that are not IPv4: ARP, LLDP and the
packets of a controller itself, BSN.
-/

namespace Torpedo

open Decoder

/-! ## ARP -/

structure ARP where
  hardwareType : UInt16
  protocolType : UInt16
  hardwareAddressLength : UInt8
  protocolAddressLength : UInt8
  opCode : UInt16
  senderHardwareAddress : List UInt8
  senderProtocolAddress : List UInt8
  targetHardwareAddress : List UInt8
  targetProtocolAddress : List UInt8
deriving DecidableEq, Repr

def ARP.deserialize (data : List UInt8) : ℕ → ℕ → Except Stop ARP :=
  decode (do
    let hardwareType ← getShort
    let protocolType ← getShort
    let hardwareAddressLength ← getByte
    let protocolAddressLength ← getByte
    let opCode ← getShort
    let senderHardwareAddress ← getBytes hardwareAddressLength.toNat
    let senderProtocolAddress ← getBytes protocolAddressLength.toNat
    let targetHardwareAddress ← getBytes hardwareAddressLength.toNat
    let targetProtocolAddress ← getBytes protocolAddressLength.toNat
    return {
      hardwareType, protocolType, hardwareAddressLength, protocolAddressLength, opCode
      senderHardwareAddress, senderProtocolAddress
      targetHardwareAddress, targetProtocolAddress }) data

/-! ## LLDP -/

structure LLDPTLV where
  type : UInt8
  length : UInt16
  value : Option (List UInt8)
deriving DecidableEq, Repr

/-- `null` if the value is cut off. -/
def LLDPTLV.deserialize : Decoder (Option LLDPTLV) := do
  let sscratch ← getShort
  let type := (sscratch >>> 9).toUInt8
  let length := sscratch &&& 0x1ff
  if 0 < length then
    let left ← remaining
    if left < length.toNat then return none
    else
      let value ← getBytes length.toNat
      return some ⟨type, length, some value⟩
  else return some ⟨type, length, none⟩

structure LLDP where
  chassisId : Option LLDPTLV
  portId : Option LLDPTLV
  ttl : Option LLDPTLV
  optionalTLVList : List LLDPTLV
deriving DecidableEq, Repr

namespace LLDP

/-- A new packet. -/
def new : LLDP := ⟨none, none, none, []⟩

/-- Keep a TLV where its type belongs. -/
def keep (p : LLDP) (tlv : LLDPTLV) : LLDP :=
  if tlv.type = 0 then p
  else if tlv.type = 1 then { p with chassisId := some tlv }
  else if tlv.type = 2 then { p with portId := some tlv }
  else if tlv.type = 3 then { p with ttl := some tlv }
  else { p with optionalTLVList := p.optionalTLVList ++ [tlv] }

/-- The loop over the TLVs. -/
def readTLVs : ℕ → LLDP → Decoder LLDP
  | 0, _ => throw .outOfFuel
  | fuel + 1, p => do
    let tlv ← LLDPTLV.deserialize
    match tlv with
    | none => return p
    | some tlv =>
      let left ← remaining
      if tlv.type ≠ 0 ∧ 0 < left then readTLVs fuel (p.keep tlv) else return p.keep tlv

def deserialize (data : List UInt8) (offset length : ℕ) : Except Stop LLDP :=
  decode (do
    let left ← remaining
    readTLVs (left + 1) new) data offset length

end LLDP

/-! ## BSN -/

structure BSNPROBE where
  controllerId : UInt64
  sequenceId : UInt32
  srcMac : List UInt8
  dstMac : List UInt8
  srcSwDpid : UInt64
  srcPortNo : UInt32
  payload : Option Data
deriving DecidableEq, Repr

/-- Decode the payload, if there are bytes left. -/
def BSNPROBE.getPayload (data : List UInt8) : Decoder (Option Data) := do
  let left ← remaining
  if 0 < left then
    let payload ← rest (Data.deserialize data)
    return some payload
  else return none

def BSNPROBE.deserialize (data : List UInt8) : ℕ → ℕ → Except Stop BSNPROBE :=
  decode (do
    let controllerId ← getLong
    let sequenceId ← getInt
    let srcMac ← getBytes 6
    let dstMac ← getBytes 6
    let srcSwDpid ← getLong
    let srcPortNo ← getInt
    let payload ← getPayload data
    return ⟨controllerId, sequenceId, srcMac, dstMac, srcSwDpid, srcPortNo, payload⟩) data

inductive BSN.Payload
  | data (packet : Data)
  | probe (packet : BSNPROBE)
  | lldp (packet : LLDP)
deriving DecidableEq, Repr

structure BSN where
  type : UInt16
  version : UInt16
  payload : Option BSN.Payload
deriving DecidableEq, Repr

namespace BSN

/-- `BSN_MAGIC`. -/
def magic : UInt32 := 0x20000604

/-- `BSN_VERSION_CURRENT`. -/
def versionCurrent : UInt16 := 0x0

/-- `BSN_TYPE_PROBE`. -/
def typeProbe : UInt16 := 0x1

/-- `BSN_TYPE_BDDP`. -/
def typeBddp : UInt16 := 0x2

/-- Decode the payload with the class of its type in `typeClassMap`. -/
def deserializePayload (type : UInt16) (data : List UInt8) (offset length : ℕ) :
    Except Stop Payload :=
  if type = typeProbe then .probe <$> BSNPROBE.deserialize data offset length
  else if type = typeBddp then .lldp <$> LLDP.deserialize data offset length
  else .data <$> Data.deserialize data offset length

def deserialize (data : List UInt8) : ℕ → ℕ → Except Stop BSN :=
  decode (do
    let m ← getInt
    if m ≠ magic then throw .exception
    else
      let type ← getShort
      let version ← getShort
      if version ≠ versionCurrent then throw .exception
      else
        let payload ← rest (deserializePayload type data)
        return ⟨type, version, some payload⟩) data

end BSN

/-! ## Ethernet -/

/-- `MACAddress`. -/
structure MACAddress where
  address : List UInt8
  length_eq : address.length = 6
deriving DecidableEq, Repr

namespace MACAddress

/-- The constructor. -/
def new (address : List UInt8) : MACAddress :=
  ⟨(address ++ List.replicate 6 0).take 6, by simp⟩

def valueOf (address : List UInt8) : Except Stop MACAddress :=
  if address.length ≠ 6 then .error .exception else .ok (new address)

end MACAddress

inductive Ethernet.Payload
  | data (packet : Data)
  | arp (packet : ARP)
  | ipv4 (packet : IPv4)
  | lldp (packet : LLDP)
  | bsn (packet : BSN)
deriving DecidableEq, Repr

structure Ethernet where
  destinationMACAddress : MACAddress
  sourceMACAddress : MACAddress
  priorityCode : UInt8
  vlanID : UInt16
  etherType : UInt16
  payload : Option Ethernet.Payload
deriving DecidableEq, Repr

namespace Ethernet

/-- `TYPE_ARP`. -/
def typeArp : UInt16 := 0x0806

/-- `TYPE_RARP`. -/
def typeRarp : UInt16 := 0x8035

/-- `TYPE_IPv4`. -/
def typeIPv4 : UInt16 := 0x0800

/-- `TYPE_LLDP`. -/
def typeLldp : UInt16 := 0x88cc

/-- `TYPE_BSN`. -/
def typeBsn : UInt16 := 0x8942

/-- The type that says that a VLAN tag follows. -/
def typeVlan : UInt16 := 0x8100

/-- `VLAN_UNTAGGED`. -/
def vlanUntagged : UInt16 := 0xffff

/-- Decode the payload with the class of its type in `etherTypeClassMap`. -/
def deserializePayload (etherType : UInt16) (data : List UInt8) (offset length : ℕ) :
    Except Stop Payload :=
  if etherType = typeArp then .arp <$> ARP.deserialize data offset length
  else if etherType = typeRarp then .arp <$> ARP.deserialize data offset length
  else if etherType = typeIPv4 then .ipv4 <$> IPv4.deserialize data offset length
  else if etherType = typeLldp then .lldp <$> LLDP.deserialize data offset length
  else if etherType = typeBsn then .bsn <$> BSN.deserialize data offset length
  else .data <$> Data.deserialize data offset length

def getMACAddress : Decoder MACAddress := do
  let addr ← getBytes 6
  MACAddress.valueOf addr

/-- The priority, the VLAN and the type of the payload. -/
structure Tag where
  priorityCode : UInt8
  vlanID : UInt16
  etherType : UInt16

def getTag : Decoder Tag := do
  let etherType ← getShort
  if etherType = typeVlan then
    let tci ← getShort
    let etherType ← getShort
    return ⟨(tci >>> 13).toUInt8, tci &&& 0xfff, etherType⟩
  else return ⟨0, vlanUntagged, etherType⟩

/-- `null` if there are no bytes. -/
def deserialize (data : List UInt8) (offset length : ℕ) : Except Stop (Option Ethernet) :=
  if length = 0 then .ok none
  else
    decode (do
      let destinationMACAddress ← getMACAddress
      let sourceMACAddress ← getMACAddress
      let tag ← getTag
      let payload ← rest (deserializePayload tag.etherType data)
      return some {
        destinationMACAddress, sourceMACAddress
        priorityCode := tag.priorityCode
        vlanID := tag.vlanID
        etherType := tag.etherType
        payload := some payload }) data offset length

end Ethernet

end Torpedo
